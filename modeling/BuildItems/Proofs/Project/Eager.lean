import BuildItems.Proofs.Operation.Removing
import BuildItems.Proofs.Project.Items

/-!
# Laziness

An eager interpreter keeps the current list of every type and applies each operation as it is
declared, with every reference standing for the current list of its type. Where no glob is skipped
and the expander never fails, computing the items of a type only when they are asked for gives the
same list: a reference is frozen to what its type had when it was declared.
-/

namespace BuildItems

variable {σ : Type}

namespace Operation

/-- The current lists after an operation that is applied at once. A Remove or an Exclude that applies
adds the texts of its globs to those removed. -/
def eagerStep (answer : Glob → List String) (pathCaseSensitive : Bool)
    (current : String → Materialized) (o : Operation) : String → Materialized := fun itemType =>
  if itemType = o.itemType then
    let own := current o.itemType
    ⟨o.policy (fun r => (current r.itemType).entries) answer pathCaseSensitive own.entries,
      own.removedGlobs.union (.ofNames (o.removing.map Glob.text))⟩
  else current itemType

def eager (answer : Glob → List String) (pathCaseSensitive : Bool) (ops : List Operation) :
    String → Materialized :=
  ops.foldl (eagerStep answer pathCaseSensitive) fun _ => {}

theorem eager_append_singleton (answer : Glob → List String) (pathCaseSensitive : Bool)
    (ops : List Operation) (o : Operation) :
    eager answer pathCaseSensitive (ops ++ [o]) =
      eagerStep answer pathCaseSensitive (eager answer pathCaseSensitive ops) o :=
  List.foldl_concat ..

theorem ignoredBefore_of_not_skip {options : Options} (h : options.skipRemovedGlobs = false)
    (rest : List Operation) : ignoredBefore options rest = ∅ := by
  rw [ignoredBefore, h]
  rfl

theorem attemptAll_append {ask : Reference → Except EvalError (List Entry)}
    {answer : Glob → Except EvalError (List String)} {options : Options}
    (h : options.skipRemovedGlobs = false) (ops later : List Operation) (m : Materialized) :
    attemptAll ask answer options (ops ++ later) m =
      (attemptAll ask answer options ops m >>= attemptAll ask answer options later) := by
  induction ops generalizing m with
  | nil => rfl
  | cons o rest ih =>
    rw [List.cons_append, attemptAll, attemptAll, bind_assoc, ignoredBefore_of_not_skip h,
      ignoredBefore_of_not_skip h]
    exact congrArg _ (funext ih)

theorem attemptAll_singleton {ask : Reference → Except EvalError (List Entry)}
    {answer : Glob → Except EvalError (List String)} {options : Options} (o : Operation)
    (m : Materialized) :
    attemptAll ask answer options [o] m =
      o.attempt ask answer options.pathLikeCaseSensitive ∅ m := by
  have hnone : ignoredBefore options [] = ∅ := ite_self _
  rw [attemptAll, hnone]
  exact bind_pure _

theorem shown_empty (answer : Glob → List String) :
    shown (fun g => .ok (answer g)) ∅ = answer := rfl

end Operation

namespace Project

variable {p : Project} {n : Nat} {answer : Glob → List String}

theorem frozenAt_length (p : Project) (itemType : String) :
    p.frozenAt p.operations.length itemType = p.fullReference itemType := by
  rw [frozenAt, operationsBefore_length]
  rfl

/-- If the references frozen so far stand for the current lists, the next operation does to the
list of its type what the eager interpreter does. -/
theorem Coherent.attempt_getElem (hp : p.Coherent) (hn : n < p.operations.length)
    {current : String → Materialized} (pathCaseSensitive : Bool)
    (h : ∀ itemType, p.itemsAt (fun g => .ok (answer g)) (p.frozenAt n itemType) =
      .ok (current itemType)) :
    p.operations[n].attempt (fun u => (p.itemsAt (fun g => .ok (answer g)) u).map (·.entries))
        (fun g => .ok (answer g)) pathCaseSensitive ∅ (current p.operations[n].itemType) =
      .ok (Operation.eagerStep answer pathCaseSensitive current p.operations[n]
        p.operations[n].itemType) := by
  have ho := List.getElem_mem hn
  have htype := (hp.followsOn ho).2.itemType
  have hask : ∀ r ∈ p.operations[n].outside,
      (p.itemsAt (fun g => .ok (answer g)) r).map (·.entries) =
        .ok (current r.itemType).entries := by
    intro r hr
    obtain ⟨s, hs, hrs⟩ := List.mem_flatMap.mp hr
    have hfrozen := hp.eq_frozenAt_of_mem_references ho hs (Spec.mem_outside_iff.mp hrs).1
    rw [hp.order_getElem hn] at hfrozen
    rw [hfrozen, h]
    rfl
  have hown : ∀ r : Reference, r.itemType = p.operations[n].itemType →
      (current r.itemType).entries = (current p.operations[n].itemType).entries := by
    intro r hr
    rw [hr]
  refine Operation.attempt_eq_ok_iff.mpr
    ⟨fun r hr => ⟨_, hask r hr⟩, fun g _ => ⟨answer g, rfl⟩, ?_⟩
  rw [Operation.policy_congr (Operation.listsOf_eq htype hask hown), Operation.shown_empty,
    Operation.eagerStep, if_pos rfl, Operation.removedGlobs_eq]

/-- After every declaration, the references that could be frozen there stand for the current lists
of the eager interpreter. -/
theorem Coherent.itemsAt_frozenAt (hp : p.Coherent) (hskip : p.options.skipRemovedGlobs = false)
    (hn : n ≤ p.operations.length) (itemType : String) :
    p.itemsAt (fun g => .ok (answer g)) (p.frozenAt n itemType) =
      .ok (Operation.eager answer p.options.pathLikeCaseSensitive (p.operations.take n)
        itemType) := by
  induction n generalizing itemType with
  | zero =>
    rw [hp.itemsAt_eq (p.within_frozenAt 0 itemType).inRange, firstOperations_frozenAt]
    rfl
  | succ n ih =>
    have hcurrent := ih (Nat.le_of_lt hn)
    rw [hp.itemsAt_eq (p.within_frozenAt (n + 1) itemType).inRange, firstOperations_frozenAt,
      operationsBefore_succ hn, Operation.attemptAll_append hskip, ← firstOperations_frozenAt,
      ← hp.itemsAt_eq (p.within_frozenAt n itemType).inRange, hcurrent,
      List.take_succ_eq_append_getElem hn, Operation.eager_append_singleton]
    by_cases htype : itemType = p.operations[n].itemType
    · rw [List.filter_cons_of_pos (by simp [htype]), List.filter_nil, htype]
      exact (Operation.attemptAll_singleton _ _).trans (hp.attempt_getElem hn _ hcurrent)
    · rw [List.filter_cons_of_neg (by simp [Ne.symm htype]), List.filter_nil, Operation.eagerStep,
        if_neg htype]
      rfl

/-- What is asked for a type is the list that the eager interpreter has at the end. -/
theorem materialize_eq_eager (hp : p.Reachable) (hskip : p.options.skipRemovedGlobs = false)
    (answer : Glob → List String) (itemType : String) (host : σ) :
    (p.materialize (.fixed fun g => .ok (answer g)) itemType host).1 =
      .ok (Operation.eager answer p.options.pathLikeCaseSensitive p.operations itemType) := by
  rw [hp.coherent.materialize_fst, ← frozenAt_length,
    hp.coherent.itemsAt_frozenAt hskip (Nat.le_refl _), List.take_length]

/-- The Remove empties the list, and the last Include finds in the other list what was in it. -/
theorem materialize_eq_eager_crossed :
    let options : Options := { skipRemovedGlobs := false }
    let lists := Operation.eager (fun _ => ["f.c"]) true (crossed options).operations
    ((crossed options).materialize (.fixed fun _ => .ok ["f.c"]) "B" ()).1 = .ok (lists "B") ∧
      valuesOf (lists "B").entries = ["a", "x", "a", "b", "f.c", "a"] ∧
      (lists "B").removedGlobs.names = ["*.c"] := by
  intro options lists
  refine ⟨materialize_eq_eager (reachable_crossed options) rfl (fun _ => ["f.c"]) "B" (), ?_, ?_⟩
  · decide +kernel
  · decide +kernel

end Project

end BuildItems
