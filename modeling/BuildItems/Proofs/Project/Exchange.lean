import BuildItems.Proofs.Project.Replacement
import BuildItems.Proofs.Project.Sharing
import Mathlib.Logic.Equiv.Basic

/-!
# Independent declarations

Two declarations for different types are independent if neither refers to the type of the other.
The order in which they are declared, one right after the other, shows only in their own numbers:
with each number in place of the other, every type has the same outcome, be it items or a failure.
-/

namespace BuildItems

variable {σ : Type}

def Entry.reordered (f : Nat → Nat) (e : Entry) : Entry := { e with order := f e.order }

def Materialized.reordered (f : Nat → Nat) (m : Materialized) : Materialized :=
  { m with entries := m.entries.map (Entry.reordered f) }

theorem Materialized.reordered_refl (m : Materialized) : m.reordered (Equiv.refl Nat) = m := by
  have hid : Entry.reordered (Equiv.refl Nat) = id := rfl
  rw [reordered, hid, List.map_id]

theorem Alike.eq_map_reordered {f : Nat → Nat} {entries entries' : List Entry}
    (h : Alike (fun i j => j = f i) entries entries') :
    entries' = entries.map (Entry.reordered f) := by
  induction h with
  | nil => rfl
  | @cons e e' _ _ he _ ih =>
    have hentry : e' = e.reordered f := by
      rw [Entry.reordered, he.1, ← he.2]
    rw [List.map_cons, ← hentry, ← ih]

theorem Materialized.Alike.eq_reordered {f : Nat → Nat} {m m' : Materialized}
    (h : Materialized.Alike (fun i j => j = f i) m m') : m' = m.reordered f := by
  obtain ⟨entries, removedGlobs⟩ := m'
  rw [reordered, h.removedGlobs, ← h.entries.eq_map_reordered]

namespace Project

variable {p : Project} {a b : Declaration} {oa ob : Operation}
  {answer : Glob → Except EvalError (List String)} {itemType : String}

/-- The number of each of two declarations in place of that of the other, if both are accepted. -/
def exchange (p : Project) (a b : Declaration) : Equiv.Perm Nat :=
  match p.operationOf a, p.operationOf b with
  | .ok _, .ok _ => Equiv.swap p.operations.length (p.operations.length + 1)
  | _, _ => Equiv.refl Nat

def exchanged (p : Project) (oa ob : Operation) : Replacement where
  before := p.operations
  old := [oa, ob.renumbered (p.operations.length + 1)]
  new := [ob, oa.renumbered (p.operations.length + 1)]
  numbers i j := j = Equiv.swap p.operations.length (p.operations.length + 1) i
  covered o' ho' := by
    rcases List.mem_pair.mp ho' with rfl | rfl
    · exact ⟨_, List.mem_cons_of_mem _ (List.mem_singleton_self _), rfl⟩
    · exact ⟨oa, List.mem_cons_self, rfl⟩
  numbers_before i hi := by
    refine (Equiv.swap_apply_of_ne_of_ne ?_ ?_).symm
    · omega
    · omega
  numbers_after i := by
    refine (Equiv.swap_apply_of_ne_of_ne ?_ ?_).symm
    · simp only [List.length_cons]
      omega
    · simp only [List.length_cons, List.length_nil]
      omega

theorem relates_exchanged (ha : p.operationOf a = .ok oa) (hb : p.operationOf b = .ok ob)
    (hab : ¬ a.RefersTo b.itemType) (hba : ¬ b.RefersTo a.itemType) :
    (p.exchanged oa ob).Relates ((p.tryDeclare a).tryDeclare b)
      ((p.tryDeclare b).tryDeclare a) := by
  have hoa := operationOf_eq_ok_iff.mp ha
  have hob := operationOf_eq_ok_iff.mp hb
  have hbNext := operationOf_append_of_not_refersTo hb (hoa.itemType ▸ hba)
  have haNext := operationOf_append_of_not_refersTo ha (hob.itemType ▸ hab)
  rw [tryDeclare_of_ok ha, tryDeclare_of_ok hb, tryDeclare_of_ok hbNext, tryDeclare_of_ok haNext]
  refine .of_operations_eq rfl rfl ?_ ?_
  · simp [append, exchanged]
  · simp [append, exchanged]

theorem retold_exchanged (hoa : oa.FollowsOn p.operations) (hob : ob.FollowsOn p.operations)
    (hne : oa.itemType ≠ ob.itemType) (itemType : String) :
    let x := p.exchanged oa ob
    List.Forall₂ (Operation.Retold x.numbers x.count) (ofType x.old itemType)
      (ofType x.new itemType) := by
  intro x
  let n := p.operations.length
  have hleft : x.numbers oa.order (n + 1) := by
    rw [hoa.order]
    exact (Equiv.swap_apply_left n (n + 1)).symm
  have hright : x.numbers (n + 1) ob.order := by
    rw [hob.order]
    exact (Equiv.swap_apply_right n (n + 1)).symm
  have hfirst : Operation.Retold x.numbers x.count oa (oa.renumbered (n + 1)) :=
    .renumbered (fun u hu => (Replacement.clear_of_followsOn hoa hu).2) fun _ => hleft
  have hsecond : Operation.Retold x.numbers x.count (ob.renumbered (n + 1)) ob :=
    .renumbered (fun u hu => (Replacement.clear_of_followsOn (o := ob) hob hu).2) fun _ => hright
  have htype (o : Operation) : (o.renumbered (n + 1)).itemType = o.itemType := rfl
  -- the two are for different types, so there is at most one for each
  by_cases ha : oa.itemType = itemType
  · have hb : ob.itemType ≠ itemType := ha ▸ hne.symm
    have hold : ofType x.old itemType = [oa] := by simp [ofType, x, exchanged, n, htype, ha, hb]
    have hnew : ofType x.new itemType = [oa.renumbered (n + 1)] := by
      simp [ofType, x, exchanged, n, htype, ha, hb]
    rw [hold, hnew]
    exact .cons hfirst .nil
  · have hold : ofType x.old itemType = ofType [ob.renumbered (n + 1)] itemType :=
      List.filter_cons_of_neg (by simpa using ha)
    have hnew : ofType x.new itemType = ofType [ob] itemType := by
      simp [ofType, x, exchanged, n, htype, ha, List.filter_cons]
    rw [hold, hnew]
    exact Replacement.forall₂_ofType (.cons hsecond .nil) itemType

theorem agrees_exchanged {p' p'' : Project} (answer : Glob → Except EvalError (List String))
    (hoa : oa.FollowsOn p.operations) (hob : ob.FollowsOn p.operations)
    (hne : oa.itemType ≠ ob.itemType) :
    (p.exchanged oa ob).Agrees p' p'' answer := by
  intro itemType after after' hask hafter
  refine .append (retold_exchanged hoa hob hne itemType) (fun o ho s hs => ?_) hask hafter
  rcases List.mem_pair.mp (List.mem_of_mem_filter ho) with rfl | rfl
  · exact hoa.itemType s hs
  · exact hob.itemType s hs

theorem clear_exchanged (hoa : oa.FollowsOn p.operations) (hob : ob.FollowsOn p.operations) :
    ∀ o ∈ (p.exchanged oa ob).old, ∀ u ∈ o.outside, (p.exchanged oa ob).Clear u := by
  intro o ho u hu
  rcases List.mem_pair.mp ho with rfl | rfl
  · exact (Replacement.clear_of_followsOn hoa hu).1
  · exact (Replacement.clear_of_followsOn (o := ob) hob hu).1

theorem itemTypes_exchanged {p' p'' : Project} (hoa : oa.FollowsOn p.operations)
    (hob : ob.FollowsOn p.operations) (hne : oa.itemType ≠ ob.itemType)
    (h : (p.exchanged oa ob).Relates p' p'') : p''.itemTypes = p'.itemTypes := by
  have hcount : ∀ itemType, p''.operationCount itemType = p'.operationCount itemType := by
    intro itemType
    obtain ⟨after, after', hafter, hops, hops'⟩ := h.operationsOf itemType
    have hpair := (retold_exchanged hoa hob hne itemType).length_eq
    rw [operationCount, operationCount, hops, hops']
    simp only [List.length_append, hpair, hafter.length_eq]
  refine NameSet.eq_of_contains fun itemType => ?_
  rw [Bool.eq_iff_iff, ← NameMap.mem_names_iff, ← NameMap.mem_names_iff, mem_itemTypes_iff,
    mem_itemTypes_iff, hcount]

/-- The same types, each with the same items up to their numbers, or with the same failure. -/
structure Reordered (f : Nat → Nat) (answer : Glob → Except EvalError (List String))
    (p p' : Project) : Prop where
  itemTypes : p'.itemTypes = p.itemTypes
  itemsAt : ∀ itemType, p'.itemsAt answer (p'.fullReference itemType) =
    (p.itemsAt answer (p.fullReference itemType)).map (Materialized.reordered f)

theorem Reordered.refl (answer : Glob → Except EvalError (List String)) (p : Project) :
    Reordered (Equiv.refl Nat) answer p p := by
  refine ⟨rfl, fun itemType => ?_⟩
  rw [funext Materialized.reordered_refl]
  exact (congrFun Except.map_id _).symm

theorem Reachable.reordered_exchange (hp : p.Reachable) (after : List Step)
    (hne : a.itemType ≠ b.itemType) (hab : ¬ a.RefersTo b.itemType)
    (hba : ¬ b.RefersTo a.itemType) :
    Reordered (p.exchange a b) answer (((p.tryDeclare a).tryDeclare b).performAll after)
      (((p.tryDeclare b).tryDeclare a).performAll after) := by
  cases ha : p.operationOf a with
  | error e =>
    have hid : p.exchange a b = Equiv.refl Nat := by rw [exchange, ha]
    rw [hid, tryDeclare_comm_of_error ha]
    exact .refl answer _
  | ok oa =>
    cases hb : p.operationOf b with
    | error e =>
      have hid : p.exchange a b = Equiv.refl Nat := by rw [exchange, ha, hb]
      rw [hid, tryDeclare_comm_of_error hb]
      exact .refl answer _
    | ok ob =>
      have hswap : p.exchange a b =
          Equiv.swap p.operations.length (p.operations.length + 1) := by
        rw [exchange, ha, hb]
      have hda := operationOf_eq_ok_iff.mp ha
      have hdb := operationOf_eq_ok_iff.mp hb
      have htypes : oa.itemType ≠ ob.itemType := by rwa [hda.itemType, hdb.itemType]
      have hrelates := (relates_exchanged ha hb hab hba).performAll after
      have hfirst := (((hp.tryDeclare a).tryDeclare b).performAll after).coherent
      have hsecond := (((hp.tryDeclare b).tryDeclare a).performAll after).coherent
      refine ⟨itemTypes_exchanged hda.followsOn hdb.followsOn htypes hrelates, fun itemType => ?_⟩
      have hclear := clear_exchanged hda.followsOn hdb.followsOn
      have houtcome := hrelates.itemsAt_fullReference hfirst hsecond hclear
        (agrees_exchanged answer hda.followsOn hdb.followsOn htypes) itemType
      rw [hswap]
      exact (houtcome.imp fun _ _ => Materialized.Alike.eq_reordered).eq_map

theorem itemsOf_of_reordered {f : Nat → Nat} {p' : Project} (h : Reordered f answer p p')
    (itemType : String) :
    p'.itemsOf answer itemType =
      (p.itemsOf answer itemType).map fun named => (named.1, named.2.reordered f) := by
  rw [itemsOf, itemsOf, h.itemsAt itemType]
  cases p.itemsAt answer (p.fullReference itemType) with
  | error e => rfl
  | ok m => rfl

/-- Independent declarations commute: in either order, with whatever is declared before and after,
every type has the same outcome, and so have all types together. -/
theorem materialize_exchange (id : EvaluationId) (options : Options) (before after : List Step)
    {a b : Declaration} (hne : a.itemType ≠ b.itemType) (hab : ¬ a.RefersTo b.itemType)
    (hba : ¬ b.RefersTo a.itemType) (answer : Glob → Except EvalError (List String)) (host : σ) :
    let start := performAll { id, options } before
    let p := performAll { id, options } (before ++ .declare a :: .declare b :: after)
    let p' := performAll { id, options } (before ++ .declare b :: .declare a :: after)
    (∀ itemType, (p'.materialize (.fixed answer) itemType host).1 =
      (p.materialize (.fixed answer) itemType host).1.map
        (Materialized.reordered (start.exchange a b))) ∧
    (p'.materializeAll (.fixed answer) host).1 =
      (p.materializeAll (.fixed answer) host).1.map
        (List.map fun named => (named.1, named.2.reordered (start.exchange a b))) := by
  intro start p p'
  have hstart : start.Reachable := (Reachable.start id options).performAll before
  have hp : p.Coherent := ((Reachable.start id options).performAll _).coherent
  have hp' : p'.Coherent := ((Reachable.start id options).performAll _).coherent
  have hsplit : p = ((start.tryDeclare a).tryDeclare b).performAll after :=
    performAll_append _ before _
  have hsplit' : p' = ((start.tryDeclare b).tryDeclare a).performAll after :=
    performAll_append _ before _
  have hsame : Reordered (start.exchange a b) answer p p' := by
    rw [hsplit, hsplit']
    exact hstart.reordered_exchange after hne hab hba
  refine ⟨fun itemType => ?_, ?_⟩
  · rw [hp.materialize_fst, hp'.materialize_fst, hsame.itemsAt]
  · rw [hp.materializeAll_fst, hp'.materializeAll_fst, hsame.itemTypes,
      funext (itemsOf_of_reordered hsame), mapM_map]
    cases p.itemTypes.names.mapM (p.itemsOf answer) with
    | error e => rfl
    | ok ms => rfl

/-- What the first of the two refers to was itself made from the type of the second, and what comes
after them refers to both. -/
theorem materialize_exchange_woven :
    let before : List Step := [.declare { kind := .includes, itemType := "B", itemSpec := "b" },
      .declare { kind := .includes, itemType := "C", itemSpec := "@(B);c" }]
    let a : Declaration := { kind := .includes, itemType := "A", itemSpec := "@(C);a" }
    let b : Declaration :=
      { kind := .includes, itemType := "B", itemSpec := "@(C)", exclude := some "b" }
    let after : List Step := [.declare { kind := .includes, itemType := "C", itemSpec := "@(A);*.f" },
      .declare { kind := .removes, itemType := "A", itemSpec := "@(B)" }]
    let answer := Expander.failingOn ["*.f"] "unreadable" fun _ => .ok []
    let p : Project := performAll { id := ⟨"woven"⟩ } (before ++ .declare a :: .declare b :: after)
    let p' : Project := performAll { id := ⟨"woven"⟩ } (before ++ .declare b :: .declare a :: after)
    let f := (performAll { id := ⟨"woven"⟩ } before).exchange a b
    a.itemType ≠ b.itemType ∧ ¬ a.RefersTo b.itemType ∧ ¬ b.RefersTo a.itemType ∧
      (f 2, f 3) = (3, 2) ∧
      (p.materialize (σ := Unit) (.fixed answer) "A" ()).1.map
        (fun m => m.entries.map fun e => (e.item.value, e.order)) = .ok [("a", 2)] ∧
      (p'.materialize (σ := Unit) (.fixed answer) "A" ()).1 =
        (p.materialize (σ := Unit) (.fixed answer) "A" ()).1.map (Materialized.reordered f) ∧
      (p'.materializeAll (σ := Unit) (.fixed answer) ()).1 =
        (p.materializeAll (σ := Unit) (.fixed answer) ()).1.map
          (List.map fun named => (named.1, named.2.reordered f)) := by
  intro before a b after answer p p' f
  have hne : a.itemType ≠ b.itemType := by decide
  have hab : ¬ a.RefersTo b.itemType := by decide +kernel
  have hba : ¬ b.RefersTo a.itemType := by decide +kernel
  obtain ⟨hone, hall⟩ :=
    materialize_exchange (σ := Unit) ⟨"woven"⟩ {} before after hne hab hba answer ()
  exact ⟨hne, hab, hba, by decide +kernel, by decide +kernel, hone "A", hall⟩

end Project

end BuildItems
