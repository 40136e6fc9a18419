import BuildItems.Proofs.Operation.Filtering
import BuildItems.Proofs.Operation.Removing

/-!
# Operations that commute

Two operations on one list, of which neither adds to it and at most one changes metadata, may be
applied in either order. Only a Remove that goes by metadata can tell whether an Update was there
before it.
-/

namespace BuildItems

namespace Operation

variable {o o' : Operation} {lists : Reference → List Entry} {pathCaseSensitive : Bool}
  {ask : Reference → Except EvalError (List Entry)}
  {answer : Glob → Except EvalError (List String)} {options : Options}

/-- Neither adds; beside an Update, the other drops by value. -/
structure Commuting (o o' : Operation) : Prop where
  itemType : o'.itemType = o.itemType
  left : o.kind ≠ .includes
  right : o'.kind ≠ .includes
  beside : o.kind = .updates → o'.kind ≠ .updates ∧ o'.action.byMetadata? = none
  beside' : o'.kind = .updates → o.kind ≠ .updates ∧ o.action.byMetadata? = none

theorem fate_comm_of_updates (hk : o.kind = .updates) (hk' : o'.kind ≠ .updates)
    (hvalue : o'.action.byMetadata? = none) (e : Entry) :
    (o.fate lists pathCaseSensitive e).bind (o'.fate lists pathCaseSensitive) =
      (o'.fate lists pathCaseSensitive e).bind (o.fate lists pathCaseSensitive) := by
  obtain ⟨metadata, ha⟩ := exists_of_kind_updates hk
  have hdrops : ∀ e : Entry, o'.fate lists pathCaseSensitive e =
      if o'.condition && o'.spec.matchesIn lists e.item.value then none else some e :=
    fate_of_byValue hk' hvalue
  have hsame : ∀ b : Bool, (e.withItem (if b then e.item.withMerged metadata
      else e.item)).item.value = e.item.value := by
    intro b
    cases b with
    | false => rfl
    | true => rfl
  rw [fate_of_updates ha, Option.bind_some, hdrops, hsame, hdrops]
  split
  · rfl
  · rw [Option.bind_some, fate_of_updates ha]

theorem fate_comm (h : Commuting o o') (e : Entry) :
    (o.fate lists pathCaseSensitive e).bind (o'.fate lists pathCaseSensitive) =
      (o'.fate lists pathCaseSensitive e).bind (o.fate lists pathCaseSensitive) := by
  by_cases hk : o.kind = .updates
  · exact fate_comm_of_updates hk (h.beside hk).1 (h.beside hk).2 e
  · by_cases hk' : o'.kind = .updates
    · exact (fate_comm_of_updates hk' (h.beside' hk').1 (h.beside' hk').2 e).symm
    · -- both drop what they mean, and neither changes what is left
      rw [fate_of_ne_updates hk, fate_of_ne_updates hk']
      split
      · next hd =>
        split
        · rfl
        · rw [Option.bind_none, Option.bind_some, fate_of_ne_updates hk, if_pos hd]
      · next hd =>
        split
        · next hd' => rw [Option.bind_some, Option.bind_none, fate_of_ne_updates hk', if_pos hd']
        · next hd' =>
          rw [Option.bind_some, Option.bind_some, fate_of_ne_updates hk, fate_of_ne_updates hk',
            if_neg hd, if_neg hd']

theorem revised_comm (h : Commuting o o') (entries : List Entry) :
    o'.revised ask pathCaseSensitive (o.revised ask pathCaseSensitive entries) =
      o.revised ask pathCaseSensitive (o'.revised ask pathCaseSensitive entries) := by
  rw [revised_revised h.itemType fun hk => (h.beside hk).2,
    revised_revised h.itemType.symm fun hk => (h.beside' hk).2, h.itemType]
  exact List.filterMap_congr fun e _ => fate_comm h e

theorem attemptAll_comm (h : Commuting o o')
    (hask : ∀ u ∈ o.outside, ∃ entries, ask u = .ok entries)
    (hask' : ∀ u ∈ o'.outside, ∃ entries, ask u = .ok entries) (rest : List Operation)
    (m : Materialized) :
    attemptAll ask answer options (o :: o' :: rest) m =
      attemptAll ask answer options (o' :: o :: rest) m := by
  have hpair : ∀ {first second : Operation} {rest : List Operation}, first.kind ≠ .includes →
      second.kind ≠ .includes → (∀ u ∈ first.outside, ∃ entries, ask u = .ok entries) →
      (∀ u ∈ second.outside, ∃ entries, ask u = .ok entries) →
      attemptAll ask answer options (first :: second :: rest) m =
        attemptAll ask answer options rest
          ⟨second.revised ask options.pathLikeCaseSensitive
            (first.revised ask options.pathLikeCaseSensitive m.entries),
          (m.removedGlobs.union first.removedGlobs).union second.removedGlobs⟩ := by
    intro first second rest hk hk' hfirst hsecond
    rw [attemptAll_cons_of_ok (attempt_of_not_includes hk hfirst),
      attemptAll_cons_of_ok (attempt_of_not_includes hk' hsecond)]
  rw [hpair h.left h.right hask hask', hpair h.right h.left hask' hask, revised_comm h,
    NameSet.union_right_comm]

theorem removedBy_comm (o o' : Operation) (rest : List Operation) :
    removedBy (o :: o' :: rest) = removedBy (o' :: o :: rest) := by
  refine removedBy_congr fun text => ?_
  simp only [List.any_cons]
  exact Bool.or_left_comm ..

end Operation

end BuildItems
