import BuildItems.Proofs.Operation.Unspelled
import BuildItems.Proofs.Project.Active

/-!
# What an Include leaves out, by the pieces of its text

Projects whose operations were read from other texts, to the same fragments, cannot be told apart:
what is declared later is read alike, and the items of every type are computed alike. So an Include
is the same for all texts of what it leaves out that have the same pieces, as long as there is a
piece. A blank text leaves out nothing. A text without pieces that has a semicolon in it is not
blank, though, and such a declaration is refused.
-/

namespace BuildItems

variable {σ : Type}

namespace Project

def unspelled (p : Project) : Project :=
  { p with operations := p.operations.map Operation.unspelled }

section

variable (p : Project)

theorem operationsBefore_unspelled (horizon : Nat) (itemType : String) :
    p.unspelled.operationsBefore horizon itemType =
      (p.operationsBefore horizon itemType).map Operation.unspelled := by
  rw [operationsBefore, operationsBefore, unspelled, ← List.map_take, List.filter_map]
  rfl

theorem operationCount_unspelled (itemType : String) :
    p.unspelled.operationCount itemType = p.operationCount itemType := by
  rw [operationCount, operationCount, operationsOf, operationsOf, unspelled, List.filter_map,
    List.length_map]
  rfl

theorem itemTypes_unspelled : p.unspelled.itemTypes = p.itemTypes := by
  rw [itemTypes, itemTypes, unspelled, List.map_map]
  rfl

theorem unspelled_append (o : Operation) :
    (p.append o).unspelled = p.unspelled.append o.unspelled := by
  rw [unspelled, append, List.map_append]
  rfl

variable (expander : Expander σ)

theorem foldFirst_unspelled (horizon : Nat) (find : Reference → Run σ (List Entry))
    (r : Reference) :
    p.unspelled.foldFirst expander horizon find r = p.foldFirst expander horizon find r := by
  have hoptions : p.unspelled.options = p.options := rfl
  rw [foldFirst, foldFirst, operationsBefore_unspelled, List.length_map, ← List.map_take, hoptions,
    Operation.applyAll_unspelled]

theorem fold_unspelled (horizon : Nat) (r : Reference) :
    p.unspelled.fold expander horizon r = p.fold expander horizon r := by
  induction horizon generalizing r with
  | zero => rw [fold, fold, foldFirst_unspelled]
  | succ earlier ih =>
    have hearlier : p.unspelled.fold expander earlier = p.fold expander earlier := funext ih
    rw [fold, fold, foldFirst_unspelled, hearlier]

theorem foldType_unspelled (itemType : String) :
    p.unspelled.foldType expander itemType = p.foldType expander itemType := by
  have hlength : p.unspelled.operations.length = p.operations.length := List.length_map _
  rw [foldType, foldType, fold_unspelled, fullReference, operationCount_unspelled, hlength]
  rfl

theorem foldTypes_unspelled (itemTypes : List String) :
    p.unspelled.foldTypes expander itemTypes = p.foldTypes expander itemTypes := by
  induction itemTypes with
  | nil => rfl
  | cons t ts ih => rw [foldTypes, foldTypes, foldType_unspelled, ih]

theorem materialize_unspelled (itemType : String) (host : σ) :
    p.unspelled.materialize expander itemType host = p.materialize expander itemType host := by
  rw [materialize, materialize, foldType_unspelled, operationCount_unspelled]
  rfl

theorem materializeAll_unspelled (host : σ) :
    p.unspelled.materializeAll expander host = p.materializeAll expander host := by
  rw [materializeAll, materializeAll, itemTypes_unspelled, foldTypes_unspelled]
  rfl

theorem operationOf_unspelled (d : Declaration) : p.unspelled.operationOf d = p.operationOf d := by
  have hscope : p.unspelled.specScope d.location = p.specScope d.location :=
    congrArg (Spec.Scope.mk d.location _ _) (funext p.operationCount_unspelled)
  have hlength : p.unspelled.operations.length = p.operations.length := List.length_map _
  rw [operationOf, operationOf, hscope, hlength]

end

variable {p p' : Project}

theorem operationOf_congr (h : p.unspelled = p'.unspelled) (d : Declaration) :
    p.operationOf d = p'.operationOf d := by
  rw [← operationOf_unspelled, h, operationOf_unspelled]

theorem perform_unspelled_congr (h : p.unspelled = p'.unspelled) (s : Step) :
    (p.perform s).unspelled = (p'.perform s).unspelled := by
  cases s with
  | declare d =>
    have hoperation := operationOf_congr h d
    cases ho : p.operationOf d with
    | error e =>
      rw [ho] at hoperation
      rwa [perform, perform, tryDeclare_of_error ho, tryDeclare_of_error hoperation.symm]
    | ok o =>
      rw [ho] at hoperation
      rw [perform, perform, tryDeclare_of_ok ho, tryDeclare_of_ok hoperation.symm,
        unspelled_append, unspelled_append, h]
  | relocate directory =>
    exact congrArg (fun q : Project => { q with directory := some directory }) h

theorem performAll_unspelled_congr (h : p.unspelled = p'.unspelled) (steps : List Step) :
    (p.performAll steps).unspelled = (p'.performAll steps).unspelled := by
  induction steps generalizing p p' with
  | nil => exact h
  | cons s steps ih => exact ih (perform_unspelled_congr h s)

/-- Whatever steps are taken later, the same is declared and the same is computed: each run has the
same outcome, asks the expander for the same and logs the same. -/
structure Indistinguishable (p p' : Project) : Prop where
  operationOf (steps : List Step) (d : Declaration) :
    (p.performAll steps).operationOf d = (p'.performAll steps).operationOf d
  materialize (steps : List Step) {σ : Type} (expander : Expander σ) (itemType : String)
    (host : σ) : (p.performAll steps).materialize expander itemType host =
      (p'.performAll steps).materialize expander itemType host
  materializeAll (steps : List Step) {σ : Type} (expander : Expander σ) (host : σ) :
    (p.performAll steps).materializeAll expander host =
      (p'.performAll steps).materializeAll expander host

theorem indistinguishable_of_unspelled_eq (h : p.unspelled = p'.unspelled) :
    p.Indistinguishable p' where
  operationOf steps d := operationOf_congr (performAll_unspelled_congr h steps) d
  materialize steps _ expander itemType host := by
    rw [← materialize_unspelled, performAll_unspelled_congr h steps, materialize_unspelled]
  materializeAll steps _ expander host := by
    rw [← materializeAll_unspelled, performAll_unspelled_congr h steps, materializeAll_unspelled]

section

variable {ctx : Spec.Scope} {itemType text text' : String}

theorem parseExclude_of_isBlankText (h : Text.isBlankText text = true) :
    parseExclude ctx itemType (some text) = parseExclude ctx itemType none := if_pos h

theorem parseExclude_sameOutcome (h : Spec.pieces text = Spec.pieces text')
    (hblank : Text.isBlankText text = Text.isBlankText text') :
    SameOutcome (fun e e' => e.map Spec.unspelled = e'.map Spec.unspelled)
      (parseExclude ctx itemType (some text)) (parseExclude ctx itemType (some text')) := by
  rw [parseExclude, parseExclude, hblank]
  split
  · exact .ok rfl
  · exact (Spec.parse_sameOutcome h).map fun s s' hs => congrArg some hs

theorem parseExclude_of_pieces_eq_nil (htype : Text.isBlankText itemType = false)
    (h : Spec.pieces text = []) (hblank : Text.isBlankText text = false) :
    parseExclude ctx itemType (some text) = .error (.missingArgument "item_spec") := by
  rw [parseExclude, hblank, Spec.parse_of_pieces_eq_nil htype h]
  rfl

end

variable {d : Declaration} {text text' : String}

/-- The text of what an Include leaves out is the last to be read. -/
theorem operationOf_includes (p : Project) (hkind : d.kind = .includes) (exclude : Option String) :
    p.operationOf { d with exclude := exclude } = (do
      let spec ← Spec.parse (p.specScope d.location) d.itemType d.itemSpec
      checkMatch d (MetadataMatch.ofNames? d.matchOnMetadata d.comparisonMode)
      (parseExclude (p.specScope d.location) d.itemType exclude).map fun excluded =>
        ⟨.includes excluded d.metadata, spec, d.condition, d.location, p.operations.length⟩) := by
  have hattributes : checkAttributes { d with exclude := exclude } = .ok () := by
    simp [checkAttributes, hkind]
  have haction : ∀ ctx byMetadata, actionOf ctx { d with exclude := exclude } byMetadata =
      (parseExclude ctx d.itemType exclude).map (.includes · d.metadata) := by
    intro ctx byMetadata
    rw [actionOf, hkind]
  simp only [operationOf, hattributes, haction]
  cases Spec.parse (p.specScope d.location) d.itemType d.itemSpec with
  | error e => rfl
  | ok spec =>
    change (checkMatch d _ >>= fun _ => _) = (checkMatch d _ >>= fun _ => _)
    cases checkMatch d (MetadataMatch.ofNames? d.matchOnMetadata d.comparisonMode) with
    | error e => rfl
    | ok _ => cases parseExclude (p.specScope d.location) d.itemType exclude <;> rfl

theorem operationOf_sameOutcome (p : Project) (hkind : d.kind = .includes)
    (h : Spec.pieces text = Spec.pieces text')
    (hblank : Text.isBlankText text = Text.isBlankText text') :
    SameOutcome (fun o o' => o.unspelled = o'.unspelled)
      (p.operationOf { d with exclude := some text })
      (p.operationOf { d with exclude := some text' }) := by
  rw [operationOf_includes p hkind, operationOf_includes p hkind]
  cases Spec.parse (p.specScope d.location) d.itemType d.itemSpec with
  | error e => exact .error e
  | ok spec =>
    cases checkMatch d (MetadataMatch.ofNames? d.matchOnMetadata d.comparisonMode) with
    | error e => exact .error e
    | ok _ =>
      apply (parseExclude_sameOutcome h hblank).map
      intro excluded excluded' hexcluded
      simp [Operation.unspelled, Action.unspelled, hexcluded]

/-- An Include is the same for all texts of what it leaves out that have the same pieces, if they
have any or if all are blank, and then it leaves out nothing. Without a piece, a text that is not
blank is refused as if the specification were missing. -/
theorem declare_exclude (p : Project) (hkind : d.kind = .includes)
    (h : Spec.pieces text = Spec.pieces text') :
    let excluding (exclude : Option String) := p.declare { d with exclude := exclude }
    ((Spec.pieces text = [] → Text.isBlankText text = Text.isBlankText text') →
        SameOutcome Indistinguishable (excluding (some text)) (excluding (some text'))) ∧
      (Text.isBlankText text = true → excluding (some text) = excluding none) ∧
      (Spec.pieces text = [] → Text.isBlankText text = false →
        excluding (some text) =
          excluding none >>= fun _ => .error (.missingArgument "item_spec")) := by
  intro excluding
  refine ⟨fun hblank => ?_, fun hblank => ?_, fun hnil hblank => ?_⟩
  · apply (operationOf_sameOutcome p hkind h (Spec.isBlankText_congr h hblank)).map
    intro o o' ho
    apply indistinguishable_of_unspelled_eq
    rw [unspelled_append, unspelled_append, ho]
  · simp only [excluding, declare, operationOf_includes p hkind,
      parseExclude_of_isBlankText hblank]
  · simp only [excluding, declare, operationOf_includes p hkind]
    cases hspec : Spec.parse (p.specScope d.location) d.itemType d.itemSpec with
    | error e => rfl
    | ok spec =>
      have htype := (Spec.parse_eq_ok_iff.mp hspec).1
      rw [parseExclude_of_pieces_eq_nil htype hnil hblank]
      cases checkMatch d (MetadataMatch.ofNames? d.matchOnMetadata d.comparisonMode) with
      | error e => rfl
      | ok _ => rfl

theorem declare_exclude_crossed :
    let d : Declaration := { kind := .includes, itemType := "A", itemSpec := "@(B);y" }
    Spec.pieces " x;; *.c" = Spec.pieces ";\u00a0x;*.c ;" ∧
      SameOutcome Indistinguishable ((crossed {}).declare { d with exclude := some " x;; *.c" })
        ((crossed {}).declare { d with exclude := some ";\u00a0x;*.c ;" }) ∧
      ((crossed {}).declare { d with exclude := some " x;; *.c" }).map (·.operationCount "A") =
        .ok 3 := by
  intro d
  have hpieces : Spec.pieces " x;; *.c" = Spec.pieces ";\u00a0x;*.c ;" := by decide +kernel
  refine ⟨hpieces, ?_, by decide +kernel⟩
  apply (declare_exclude (crossed {}) rfl hpieces).1
  exact fun _ => by decide +kernel

/-- A semicolon by itself is no piece, but it is not what a text without anything is. -/
theorem not_declare_exclude_semicolon :
    let p : Project := { id := ⟨"semicolon"⟩ }
    let d : Declaration := { kind := .includes, itemType := "I", itemSpec := "a" }
    Spec.pieces ";" = Spec.pieces "" ∧ Spec.pieces ";" = [] ∧
      (∃ p', p.declare { d with exclude := none } = .ok p' ∧
        p.declare { d with exclude := some "" } = .ok p') ∧
      p.declare { d with exclude := some ";" } = .error (.missingArgument "item_spec") :=
  ⟨by decide +kernel, by decide +kernel, ⟨_, rfl, rfl⟩, rfl⟩

end Project

end BuildItems
