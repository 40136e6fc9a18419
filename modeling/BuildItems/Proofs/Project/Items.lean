import BuildItems.Proofs.Operation.Attempt
import BuildItems.Proofs.Project.Recursion

/-!
# The items that a reference stands for

With a fixed expander, the items after a prefix of operations satisfy a recursion equation over
the prefixes it needs, without memo or horizon. Every run agrees with them: what it remembers is
what the references stand for, so it does not matter what was computed before.
-/

namespace BuildItems

variable {σ : Type}

namespace Project

variable {p : Project} {answer : Glob → Except EvalError (List String)} {i : Nat} {r : Reference}

def itemsFirst (p : Project) (answer : Glob → Except EvalError (List String)) (horizon : Nat)
    (ask : Reference → Except EvalError Materialized) (r : Reference) :
    Except EvalError Materialized :=
  let declared := p.operationsBefore horizon r.itemType
  if r.opCount ≤ declared.length then
    Operation.attemptAll (fun u => (ask u).map (·.entries)) answer p.options
      (declared.take r.opCount) {}
  else .error (.referenceOutOfRange r.itemType r.opCount declared.length)

def itemsBefore (p : Project) (answer : Glob → Except EvalError (List String)) :
    Nat → Reference → Except EvalError Materialized
  | 0, r => p.itemsFirst answer 0 (fun _ => .ok {}) r
  | earlier + 1, r => p.itemsFirst answer (earlier + 1) (p.itemsBefore answer earlier) r

def itemsAt (p : Project) (answer : Glob → Except EvalError (List String)) (r : Reference) :
    Except EvalError Materialized :=
  p.itemsBefore answer p.operations.length r

theorem itemsFirst_eq {ask : Reference → Except EvalError Materialized} (hr : p.Within i r) :
    p.itemsFirst answer i ask r =
      Operation.attemptAll (fun u => (ask u).map (·.entries)) answer p.options
        (p.firstOperations r) {} := by
  rw [itemsFirst, hr.take_operationsBefore]
  exact if_pos hr

theorem Coherent.itemType_of_mem_specs (hp : p.Coherent) {o : Operation}
    (ho : o ∈ p.firstOperations r) {s : Spec} (hs : s ∈ o.specs) : s.itemType = o.itemType :=
  (hp.followsOn (mem_operations_of_mem_firstOperations ho).1).2.itemType s hs

theorem Coherent.staged_itemsBefore (hp : p.Coherent)
    (answer : Glob → Except EvalError (List String)) :
    p.Staged (p.itemsBefore answer) (p.itemsFirst answer) where
  zero := ⟨fun _ => .ok {}, rfl⟩
  succ _ := rfl
  congr hi hj h := by
    rw [itemsFirst_eq hi, itemsFirst_eq hj]
    refine Operation.attemptAll_congr (fun o ho s hs => hp.itemType_of_mem_specs ho hs) ?_
    intro o ho u hu
    rw [h u ⟨o, ho, hu⟩]

theorem Coherent.itemsAt_eq (hp : p.Coherent) (hr : p.InRange r) :
    p.itemsAt answer r =
      Operation.attemptAll (fun u => (p.itemsAt answer u).map (·.entries)) answer p.options
        (p.firstOperations r) {} := by
  have hwithin := within_length_iff.mpr hr
  rw [itemsAt, (hp.staged_itemsBefore answer).unfold hp hwithin fun _ _ => rfl,
    itemsFirst_eq hwithin]
  rfl

theorem Coherent.foldFirst_yields (hp : p.Coherent)
    {good : List (Reference × Materialized) → Prop} {find : Reference → Run σ (List Entry)}
    {ask : Reference → Except EvalError (List Entry)} (hr : p.Within i r)
    (h : ∀ u, p.Needs r u → Yields (fun s : Session σ => good s.memo) (find u) (ask u)) :
    Yields (fun s : Session σ => good s.memo) (p.foldFirst (.fixed answer) i find r)
      (Operation.attemptAll ask answer p.options (p.firstOperations r) {}) := by
  rw [foldFirst_eq hr]
  exact Operation.applyAll_yields (fun o ho s hs => hp.itemType_of_mem_specs ho hs)
    (fun o ho => hp.valid_of_mem_firstOperations ho) fun o ho u hu => h u ⟨o, ho, hu⟩

/-- A run that remembers only what is true answers what is true. -/
theorem Coherent.fold_yields (hp : p.Coherent) (hr : p.Within i r) :
    Yields (fun s : Session σ => Faithful (p.itemsAt answer) s.memo)
      (p.fold (.fixed answer) i r) (p.itemsAt answer r) := by
  induction i generalizing r with
  | zero =>
    rw [fold]
    refine Yields.memoized ((hp.foldFirst_yields hr fun u hu => ?_).congr
      (hp.itemsAt_eq hr.inRange).symm)
    exact absurd hu (not_needs_of_within_zero hr)
  | succ i ih =>
    rw [fold]
    refine Yields.memoized ((hp.foldFirst_yields hr fun u hu => ?_).congr
      (hp.itemsAt_eq hr.inRange).symm)
    refine (Yields.bind (ih (hp.within_of_needs hr hu)) fun m _ => .ret m.entries).congr ?_
    cases p.itemsAt answer u with
    | error e => rfl
    | ok m => rfl

theorem Coherent.foldType_yields (hp : p.Coherent) (itemType : String) :
    Yields (fun s : Session σ => Faithful (p.itemsAt answer) s.memo)
      (p.foldType (.fixed answer) itemType) (p.itemsAt answer (p.fullReference itemType)) :=
  hp.fold_yields (p.within_fullReference itemType)

theorem Coherent.materialize_fst (hp : p.Coherent) (itemType : String) (host : σ) :
    (p.materialize (.fixed answer) itemType host).1 =
      p.itemsAt answer (p.fullReference itemType) := by
  obtain ⟨s, hs, hrun⟩ := p.exists_materialize_eq (.fixed answer) itemType host
  have hempty : Faithful (p.itemsAt answer) s.memo := hs ▸ List.forall_mem_nil _
  rw [hrun]
  exact (hp.foldType_yields itemType s hempty).1

end Project

end BuildItems
