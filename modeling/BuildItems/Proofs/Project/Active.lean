import BuildItems.Proofs.Project.Items
import BuildItems.Proofs.Project.Recounted

/-!
# Declarations that do not apply

An operation with a false condition is declared like any other: it takes a number, later references
count it, and what it refers to is computed. Leaving out the declarations of all such operations
makes a project whose references count fewer operations and stand for the same items, so wherever
the items of a type can be computed at all, they are the same without them.
-/

namespace BuildItems

variable {σ : Type}

namespace Project

variable {p : Project} {r : Reference} {o : Operation} {d : Declaration} {itemType : String}
  {answer : Glob → Except EvalError (List String)} {m : Materialized}

def activeCount (p : Project) (r : Reference) : Nat :=
  ((p.firstOperations r).filter (·.condition)).length

def activeOrder (p : Project) (o : Operation) : Nat :=
  ((p.operations.take o.order).filter (·.condition)).length

def activated (p : Project) (o : Operation) : Operation :=
  o.recounted p.activeCount (p.activeOrder o)

/-- The project without the operations that do not apply. -/
def active (p : Project) : Project :=
  { p with operations := (p.operations.filter (·.condition)).map p.activated }

theorem length_active (p : Project) :
    p.active.operations.length = (p.operations.filter (·.condition)).length := List.length_map _

theorem operationsOf_active (p : Project) (itemType : String) :
    p.active.operationsOf itemType =
      ((p.operationsOf itemType).filter (·.condition)).map p.activated := by
  rw [operationsOf, active, List.filter_map, operationsOf, List.filter_comm]
  rfl

theorem filter_firstOperations_prefix (p : Project) (r : Reference) :
    (p.firstOperations r).filter (·.condition) <+:
      (p.operationsOf r.itemType).filter (·.condition) :=
  (List.take_prefix r.opCount _).filter _

theorem firstOperations_active (p : Project) (r : Reference) :
    p.active.firstOperations (r.recounted p.activeCount) =
      ((p.firstOperations r).filter (·.condition)).map p.activated := by
  rw [List.prefix_iff_eq_take.mp (p.filter_firstOperations_prefix r), List.map_take,
    ← operationsOf_active]
  rfl

theorem inRange_active (p : Project) (r : Reference) :
    p.active.InRange (r.recounted p.activeCount) := by
  have hle := (p.filter_firstOperations_prefix r).length_le
  change p.activeCount r ≤ (p.active.operationsOf r.itemType).length
  rwa [operationsOf_active, List.length_map]

theorem fullReference_active (p : Project) (itemType : String) :
    p.active.fullReference itemType = (p.fullReference itemType).recounted p.activeCount := by
  have hcount : p.active.operationCount itemType = p.activeCount (p.fullReference itemType) := by
    rw [operationCount, operationsOf_active, List.length_map, activeCount,
      firstOperations_fullReference]
  rw [fullReference, hcount]
  rfl

/-- Where less is left, the same declarations are accepted, and their references count less. -/
theorem operationOf_active (p : Project) (d : Declaration) :
    p.active.operationOf d =
      (p.operationOf d).map fun o => o.recounted p.activeCount p.active.operations.length := by
  have hoptions : p.active.options = p.options := rfl
  have hdirectory : p.active.directory = p.directory := rfl
  have hcount : ∀ name, p.activeCount ⟨name, p.operationCount name⟩ =
      p.active.operationCount name :=
    fun name => congrArg Reference.opCount (p.fullReference_active name).symm
  exact operationOf_recounted hoptions hdirectory hcount d

theorem activeCount_append (hr : p.InRange r) : (p.append o).activeCount r = p.activeCount r := by
  rw [activeCount, firstOperations_append hr]
  rfl

theorem Coherent.activated_append (hp : p.Coherent) {o' : Operation} (ho' : o' ∈ p.operations) :
    (p.append o).activated o' = p.activated o' := by
  have hlt : o'.order < p.operations.length := (hp.followsOn ho').1
  have hcount : ∀ s ∈ o'.specs, ∀ r ∈ s.references, (p.append o).activeCount r = p.activeCount r :=
    fun s hs r hr => activeCount_append (hp.within_of_mem_references ho' hs hr).inRange
  have htake : (p.append o).operations.take o'.order = p.operations.take o'.order :=
    List.take_append_of_le_length (Nat.le_of_lt hlt)
  rw [activated, activeOrder, htake, Operation.recounted_congr hcount]
  rfl

theorem activated_append_self (ho : o.FollowsOn p.operations) :
    (p.append o).activated o = o.recounted p.activeCount p.active.operations.length := by
  have hcount : ∀ s ∈ o.specs, ∀ r ∈ s.references, (p.append o).activeCount r = p.activeCount r :=
    fun s hs r hr => activeCount_append (Nat.le_of_eq (ho.frozen s hs r hr))
  have htake : (p.append o).operations.take o.order = p.operations := List.take_left' ho.order.symm
  rw [activated, activeOrder, htake, Operation.recounted_congr hcount, length_active]

theorem Coherent.active_append (hp : p.Coherent) (ho : o.FollowsOn p.operations) :
    (p.append o).active = if o.condition then
      p.active.append (o.recounted p.activeCount p.active.operations.length) else p.active := by
  -- earlier operations refer to what was there before, so none of them counts the new one
  have hearlier : (p.operations.filter (·.condition)).map (p.append o).activated =
      p.active.operations :=
    List.map_congr_left fun o' ho' => hp.activated_append (List.mem_of_mem_filter ho')
  have hlast := activated_append_self ho
  have hsplit : (p.append o).active.operations =
      p.active.operations ++ ([o].filter (·.condition)).map (p.append o).activated := by
    rw [← hearlier, ← List.map_append, ← List.filter_append]
    rfl
  have hother : (p.append o).active = { p with operations := (p.append o).active.operations } := rfl
  rw [hother, hsplit]
  cases hc : o.condition with
  | false =>
    rw [List.filter_cons_of_neg (by simp [hc]), List.filter_nil, List.map_nil, List.append_nil]
    rfl
  | true =>
    rw [List.filter_cons_of_pos hc, List.filter_nil, List.map_singleton, hlast]
    rfl

theorem Coherent.active_tryDeclare (hp : p.Coherent) (d : Declaration) :
    (p.tryDeclare d).active = if d.condition then p.active.tryDeclare d else p.active := by
  have hactive := p.operationOf_active d
  cases h : p.operationOf d with
  | error e =>
    rw [h] at hactive
    rw [tryDeclare_of_error h, tryDeclare_of_error hactive, ite_self]
  | ok o =>
    have ho := operationOf_eq_ok_iff.mp h
    rw [h] at hactive
    rw [tryDeclare_of_ok h, tryDeclare_of_ok hactive, hp.active_append ho.followsOn, ho.condition]

inductive Step where
  | declare (d : Declaration)
  | relocate (directory : String)

def Step.applies : Step → Bool
  | declare d => d.condition
  | relocate _ => true

def perform (p : Project) : Step → Project
  | .declare d => p.tryDeclare d
  | .relocate directory => { p with directory := some directory }

def performAll (p : Project) (steps : List Step) : Project := steps.foldl perform p

theorem Reachable.perform (hp : p.Reachable) (s : Step) : (p.perform s).Reachable := by
  cases s with
  | declare d => exact hp.tryDeclare d
  | relocate directory => exact hp.relocate directory

theorem Reachable.performAll (hp : p.Reachable) (steps : List Step) :
    (p.performAll steps).Reachable := by
  induction steps generalizing p with
  | nil => exact hp
  | cons s steps ih => exact ih (hp.perform s)

theorem performAll_append (p : Project) (steps steps' : List Step) :
    p.performAll (steps ++ steps') = (p.performAll steps).performAll steps' := List.foldl_append

theorem Coherent.active_perform (hp : p.Coherent) (s : Step) :
    (p.perform s).active = if s.applies then p.active.perform s else p.active := by
  cases s with
  | declare d => exact hp.active_tryDeclare d
  | relocate directory => rfl

theorem Reachable.active_performAll (hp : p.Reachable) (steps : List Step) :
    (p.performAll steps).active = p.active.performAll (steps.filter Step.applies) := by
  induction steps generalizing p with
  | nil => rfl
  | cons s steps ih =>
    have hstep := hp.coherent.active_perform s
    have hsteps := ih (hp.perform s)
    cases hs : s.applies with
    | false =>
      rw [hs, if_neg Bool.false_ne_true] at hstep
      rw [List.filter_cons_of_neg (by simp [hs]), ← hstep]
      exact hsteps
    | true =>
      rw [hs, if_pos rfl] at hstep
      rw [List.filter_cons_of_pos hs]
      change _ = (p.active.perform s).performAll _
      rw [← hstep]
      exact hsteps

theorem Coherent.itemsAt_active (hp : p.Coherent) (hactive : p.active.Coherent) (hr : p.InRange r)
    (h : p.itemsAt answer r = .ok m) :
    ∃ m', p.active.itemsAt answer (r.recounted p.activeCount) = .ok m' ∧
      Operation.Renumbered m m' := by
  induction r using hp.wellFounded_needs.induction generalizing m with
  | h r ih =>
    rw [hp.itemsAt_eq hr] at h
    rw [hactive.itemsAt_eq (p.inRange_active r), firstOperations_active]
    have hfound : ∀ o ∈ p.firstOperations r, ∀ u ∈ o.outside,
        Operation.KeepsAnswer p.activeCount (fun u => (p.itemsAt answer u).map (·.entries))
          (fun u => (p.active.itemsAt answer u).map (·.entries)) u := by
      intro o ho u hu entries hentries
      -- what an operation refers to is needed also if the operation does not apply
      have hneeds : p.Needs r u := ⟨o, ho, hu⟩
      obtain ⟨mu, hmu, rfl⟩ := map_eq_ok_iff.mp hentries
      obtain ⟨mu', hmu', hsame⟩ := ih u hneeds (hp.inRange_of_needs hneeds) hmu
      exact ⟨mu'.entries, map_eq_ok_iff.mpr ⟨mu', hmu', rfl⟩, hsame.entries⟩
    exact Operation.attemptAll_filter_condition p.activeOrder
      (fun o ho s hs => hp.itemType_of_mem_specs ho hs) hfound ⟨rfl, rfl⟩ h

/-- Whenever the items of a type can be computed, leaving out the declarations that do not apply
leaves the same items, in the same order, and the same removed globs. -/
theorem materialize_performAll_filter (id : EvaluationId) (options : Options) (steps : List Step)
    (answer : Glob → Except EvalError (List String)) (itemType : String) (host : σ)
    (h : ((performAll { id, options } steps).materialize (.fixed answer) itemType host).1 =
      .ok m) :
    ∃ m', ((performAll { id, options } (steps.filter Step.applies)).materialize (.fixed answer)
        itemType host).1 = .ok m' ∧
      m'.entries.map Entry.item = m.entries.map Entry.item ∧ m'.removedGlobs = m.removedGlobs := by
  have hstart : Reachable { id, options } := .start id options
  have hp := (hstart.performAll steps).coherent
  have hp' := (hstart.performAll (steps.filter Step.applies)).coherent
  have hactive : (performAll { id, options } steps).active =
      performAll { id, options } (steps.filter Step.applies) := hstart.active_performAll steps
  rw [hp.materialize_fst] at h
  rw [hp'.materialize_fst, ← hactive, fullReference_active]
  obtain ⟨m', hm', hsame⟩ := hp.itemsAt_active (hactive ▸ hp') (Nat.le_refl _) h
  exact ⟨m', hm', hsame.entries.symm, hsame.removedGlobs.symm⟩

def gated : List Step :=
  [.declare { kind := .includes, itemType := "A", itemSpec := "a;*.c" },
    .declare { kind := .includes, itemType := "A", itemSpec := "z;*.d", condition := false },
    .declare { kind := .removes, itemType := "B", itemSpec := "*.c", condition := false },
    .relocate "inner",
    .declare { kind := .includes, itemType := "B", itemSpec := "@(A);b" },
    .declare { kind := .excludes, itemType := "B", itemSpec := "a;*.d" }]

theorem materialize_performAll_filter_gated :
    let p : Project := performAll { id := ⟨"gated"⟩ } gated
    let p' : Project := performAll { id := ⟨"gated"⟩ } (gated.filter Step.applies)
    let expander : Expander Unit := .fixed fun _ => .ok ["f.c"]
    p.Needs (p.fullReference "B") ⟨"A", 2⟩ ∧ p'.Needs (p'.fullReference "B") ⟨"A", 1⟩ ∧
      ∃ m, (p.materialize expander "B" ()).1 = .ok m ∧
        m.entries.map (fun e => (e.item.value, e.order)) = [("f.c", 3), ("b", 3)] ∧
        ∃ m', (p'.materialize expander "B" ()).1 = .ok m' ∧
          m'.entries.map Entry.item = m.entries.map Entry.item ∧
          m'.removedGlobs = m.removedGlobs := by
  intro p p' expander
  have hvalues : (p.materialize expander "B" ()).1.map
      (fun m => m.entries.map fun e => (e.item.value, e.order)) =
        .ok [("f.c", 3), ("b", 3)] := by
    decide +kernel
  obtain ⟨m, hm, hlist⟩ := map_eq_ok_iff.mp hvalues
  refine ⟨by decide +kernel, by decide +kernel, m, hm, hlist, ?_⟩
  exact materialize_performAll_filter ⟨"gated"⟩ {} gated (fun _ => .ok ["f.c"]) "B" () hm

end Project

end BuildItems
