import BuildItems.Proofs.Operation.Recounted
import BuildItems.Proofs.Project.Prefix

/-!
# Declaring in another place

Whether a declaration is accepted does not depend on what is declared so far. Where other numbers
of operations are declared, the same declaration makes the same operation, with another number and
with references that count what there is.
-/

namespace BuildItems

/-- Whether a declaration refers to a type, in its specification or in what it leaves out. -/
def Declaration.RefersTo (d : Declaration) (itemType : String) : Prop :=
  ∃ text ∈ d.itemSpec :: d.exclude.toList, ∃ piece ∈ Spec.pieces text,
    Spec.typeName? piece = some itemType

instance (d : Declaration) (itemType : String) : Decidable (d.RefersTo itemType) :=
  inferInstanceAs (Decidable (∃ text ∈ d.itemSpec :: d.exclude.toList,
    ∃ piece ∈ Spec.pieces text, Spec.typeName? piece = some itemType))

namespace Project

section

variable {count : Reference → Nat} {ctx : Spec.Scope} {declared : String → Nat}

theorem parseExclude_recounted (h : ∀ name, count ⟨name, ctx.declared name⟩ = declared name)
    (itemType : String) (text : Option String) :
    parseExclude { ctx with declared := declared } itemType text =
      (parseExclude ctx itemType text).map (Option.map (Spec.recounted count)) := by
  cases text with
  | none => rfl
  | some text =>
    rw [parseExclude, parseExclude, Spec.parse_recounted h]
    split
    · rfl
    · cases Spec.parse ctx itemType text <;> rfl

theorem actionOf_recounted (h : ∀ name, count ⟨name, ctx.declared name⟩ = declared name)
    (d : Declaration) (byMetadata : Option MetadataMatch) :
    actionOf { ctx with declared := declared } d byMetadata =
      (actionOf ctx d byMetadata).map (Action.recounted count) := by
  unfold actionOf
  cases d.kind with
  | includes =>
    dsimp only
    rw [parseExclude_recounted h]
    cases parseExclude ctx d.itemType d.exclude <;> rfl
  | excludes => rfl
  | removes => rfl
  | updates => rfl

end

variable {p p' : Project} {count : Reference → Nat} {d : Declaration} {o o' : Operation}

theorem Declares.refersTo (h : p.Declares d o) {s : Spec} (hs : s ∈ o.specs) {r : Reference}
    (hr : r ∈ s.references) : d.RefersTo r.itemType := by
  obtain ⟨text, hmem, htext⟩ := h.exists_text_of_mem_specs hs
  exact ⟨text, hmem, Spec.typeName?_of_parse htext hr⟩

/-- Where globs are read in the same way, the same declarations are accepted. -/
theorem operationOf_recounted (hoptions : p'.options = p.options)
    (hdirectory : p'.directory = p.directory)
    (hcount : ∀ name, count ⟨name, p.operationCount name⟩ = p'.operationCount name)
    (d : Declaration) :
    p'.operationOf d =
      (p.operationOf d).map fun o => o.recounted count p'.operations.length := by
  have hscope : p'.specScope d.location =
      { p.specScope d.location with declared := p'.operationCount } := by
    rw [specScope, hoptions, hdirectory]
    rfl
  simp only [operationOf, hscope]
  rw [Spec.parse_recounted hcount, actionOf_recounted hcount]
  cases Spec.parse (p.specScope d.location) d.itemType d.itemSpec with
  | error e => rfl
  | ok spec =>
    cases checkAttributes d with
    | error e => rfl
    | ok _ =>
      cases checkMatch d (MetadataMatch.ofNames? d.matchOnMetadata d.comparisonMode) with
      | error e => rfl
      | ok _ =>
        cases actionOf (p.specScope d.location) d
            (MetadataMatch.ofNames? d.matchOnMetadata d.comparisonMode) with
        | error e => rfl
        | ok action =>
          let operation : Operation := ⟨action, spec, d.condition, d.location, p.operations.length⟩
          change ((operation.recounted count p'.operations.length).validate >>= _) = _
          rw [Operation.validate_recounted]
          change _ = (operation.validate >>= _).map _
          cases operation.validate with
          | error e => rfl
          | ok _ => rfl

def counts (p : Project) (r : Reference) : Nat := p.operationCount r.itemType

theorem opCount_of_mem_outside (ho : o.FollowsOn p.operations) {u : Reference}
    (hu : u ∈ o.outside) : u.opCount = p.counts u ∧ u.itemType ≠ o.itemType := by
  obtain ⟨s, hs, hus⟩ := List.mem_flatMap.mp hu
  obtain ⟨hmem, hne⟩ := Spec.mem_outside_iff.mp hus
  exact ⟨ho.frozen s hs u hmem, ho.itemType s hs ▸ hne⟩

theorem recounted_counts (ho : o.FollowsOn p.operations) (order : Nat) :
    o.recounted p.counts order = o.renumbered order := by
  have hcount : ∀ s ∈ o.specs, ∀ r ∈ s.references, p.counts r = r.opCount :=
    fun s hs r hr => (ho.frozen s hs r hr).symm
  rw [Operation.recounted_congr hcount, Operation.recounted_opCount]

theorem counts_append_of_ne {r : Reference} (h : r.itemType ≠ o.itemType) :
    (p.append o).counts r = p.counts r := operationCount_append_of_ne h

theorem operationOf_append (p : Project) (o : Operation) (d : Declaration) :
    (p.append o).operationOf d = (p.operationOf d).map fun o' =>
      o'.recounted (p.append o).counts (p.operations.length + 1) := by
  have hlength : (p.append o).operations.length = p.operations.length + 1 := List.length_append
  have hoptions : (p.append o).options = p.options := rfl
  have hdirectory : (p.append o).directory = p.directory := rfl
  have hcount : ∀ name, (p.append o).counts ⟨name, p.operationCount name⟩ =
      (p.append o).operationCount name := fun _ => rfl
  rw [operationOf_recounted hoptions hdirectory hcount, hlength]

theorem operationOf_append_of_error {e : EvalError} (h : p.operationOf d = .error e) :
    (p.append o).operationOf d = .error e := by
  rw [operationOf_append, h]
  rfl

/-- After an operation it does not refer to, a declaration makes the same operation. -/
theorem operationOf_append_of_not_refersTo (h : p.operationOf d = .ok o')
    (hother : ¬ d.RefersTo o.itemType) :
    (p.append o).operationOf d = .ok (o'.renumbered (p.operations.length + 1)) := by
  have hdeclares := operationOf_eq_ok_iff.mp h
  have hcount : ∀ s ∈ o'.specs, ∀ r ∈ s.references, (p.append o).counts r = p.counts r := by
    intro s hs r hr
    have hne : r.itemType ≠ o.itemType := fun heq => hother (heq ▸ hdeclares.refersTo hs hr)
    exact counts_append_of_ne hne
  rw [operationOf_append, h, ← recounted_counts hdeclares.followsOn,
    ← Operation.recounted_congr hcount]
  rfl

theorem tryDeclare_of_ok (h : p.operationOf d = .ok o) : p.tryDeclare d = p.append o := by
  rw [tryDeclare, declare, h]
  rfl

theorem tryDeclare_of_error {e : EvalError} (h : p.operationOf d = .error e) :
    p.tryDeclare d = p := by
  rw [tryDeclare, declare, h]
  rfl

/-- A declaration that is refused is refused elsewhere too. -/
theorem tryDeclare_comm_of_error {a : Declaration} {e : EvalError} (h : p.operationOf a = .error e)
    (b : Declaration) : (p.tryDeclare a).tryDeclare b = (p.tryDeclare b).tryDeclare a := by
  rw [tryDeclare_of_error h]
  cases hb : p.operationOf b with
  | error e' => rw [tryDeclare_of_error hb, tryDeclare_of_error h]
  | ok o => rw [tryDeclare_of_ok hb, tryDeclare_of_error (operationOf_append_of_error h)]

end Project

end BuildItems
