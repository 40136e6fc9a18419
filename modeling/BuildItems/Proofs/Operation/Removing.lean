import BuildItems.Project.Materialize
import BuildItems.Proofs.Operation.Policy

/-!
# What operations remove by globs

A true-condition Remove or Exclude takes what its globs accept. The texts of these globs are what
a list of operations is said to remove; they do not depend on the order of the operations.
-/

namespace BuildItems

namespace Operation

def removing (o : Operation) : List Glob :=
  match o.kind with
  | .removes | .excludes => if o.condition then o.spec.globs else []
  | .includes | .updates => []

theorem mem_removing_iff {o : Operation} {g : Glob} :
    g ∈ o.removing ↔
      o.condition = true ∧ (o.kind = .removes ∨ o.kind = .excludes) ∧ g ∈ o.spec.globs := by
  unfold removing
  cases o.kind <;> cases o.condition <;> simp

theorem removedGlobs_eq (o : Operation) : o.removedGlobs = .ofNames (o.removing.map Glob.text) := by
  have htexts : o.spec.globTexts = o.spec.globs.map Glob.text := List.map_filterMap.symm
  unfold removedGlobs removing
  rw [htexts]
  cases o.kind <;> cases o.condition <;> rfl

theorem contains_removedGlobs_iff {o : Operation} {text : String} :
    NameMap.contains o.removedGlobs text = true ↔ ∃ g ∈ o.removing, g.text = text := by
  rw [removedGlobs_eq, NameSet.contains_ofNames, List.contains_iff_mem, List.mem_map]

theorem contains_removedBy (ops : List Operation) (text : String) :
    NameMap.contains (removedBy ops) text =
      ops.any fun o => NameMap.contains o.removedGlobs text := by
  have hfold : ∀ s : NameSet,
      NameMap.contains (ops.foldl (fun globs o => NameSet.union globs o.removedGlobs) s) text =
        (NameMap.contains s text || ops.any fun o => NameMap.contains o.removedGlobs text) := by
    induction ops with
    | nil => simp
    | cons o rest ih =>
      intro s
      rw [List.foldl_cons, ih, NameSet.contains_union, List.any_cons, Bool.or_assoc]
  exact (hfold ∅).trans (Bool.false_or _)

theorem contains_removedBy_iff {ops : List Operation} {text : String} :
    NameMap.contains (removedBy ops) text = true ↔
      ∃ o ∈ ops, ∃ g ∈ o.removing, g.text = text := by
  rw [contains_removedBy, List.any_eq_true]
  simp only [contains_removedGlobs_iff]

/-- Lists of operations remove the same globs if each glob is removed in both or in neither. -/
theorem removedBy_congr {ops ops' : List Operation}
    (h : ∀ text, (ops.any fun o => NameMap.contains o.removedGlobs text) =
      ops'.any fun o => NameMap.contains o.removedGlobs text) : removedBy ops = removedBy ops' := by
  refine NameSet.eq_of_contains fun text => ?_
  rw [contains_removedBy, contains_removedBy, h]

end Operation

end BuildItems
