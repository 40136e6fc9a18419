import BuildItems.Proofs.Project.Reachable
import Mathlib.Logic.Relation
import Mathlib.Order.WellFounded

/-!
# Prefixes of the operations of a type

A reference stands for the items after the first operations of a type. To compute them, the
prefixes that these operations refer to are needed first. All of a needed prefix was declared
before the operation that refers to it, so the last place in the prefix goes down along the needs,
although neither the type nor the number of operations does.
-/

namespace BuildItems

def Spec.outside (s : Spec) : List Reference := s.references.filter (·.itemType != s.itemType)

theorem Spec.mem_outside_iff {s : Spec} {r : Reference} :
    r ∈ s.outside ↔ r ∈ s.references ∧ r.itemType ≠ s.itemType := by
  simp [outside]

def Operation.outside (o : Operation) : List Reference := o.specs.flatMap Spec.outside

theorem Operation.outside_eq_append (o : Operation) :
    o.outside = o.spec.outside ++ o.action.exclude?.toList.flatMap Spec.outside := rfl

namespace Project

variable {p : Project} {i j : Nat} {r u : Reference}

def firstOperations (p : Project) (r : Reference) : List Operation :=
  (p.operationsOf r.itemType).take r.opCount

def InRange (p : Project) (r : Reference) : Prop := r.opCount ≤ p.operationCount r.itemType

/-- All that a reference sees is among the first declarations. -/
def Within (p : Project) (i : Nat) (r : Reference) : Prop :=
  r.opCount ≤ (p.operationsBefore i r.itemType).length

/-- Whether an operation of one prefix refers to another. -/
def Needs (p : Project) (r u : Reference) : Prop := ∃ o ∈ p.firstOperations r, u ∈ o.outside

instance (p : Project) (r u : Reference) : Decidable (p.Needs r u) :=
  inferInstanceAs (Decidable (∃ o ∈ p.firstOperations r, u ∈ o.outside))

def rank (p : Project) (r : Reference) : Nat :=
  ((p.firstOperations r).map (·.order + 1)).foldr max 0

theorem operationsBefore_prefix (p : Project) (itemType : String) (h : i ≤ j) :
    p.operationsBefore i itemType <+: p.operationsBefore j itemType :=
  (List.take_prefix_take_left h).filter _

theorem operationsBefore_prefix_operationsOf (p : Project) (i : Nat) (itemType : String) :
    p.operationsBefore i itemType <+: p.operationsOf itemType :=
  (List.take_prefix i p.operations).filter _

theorem within_length_iff : p.Within p.operations.length r ↔ p.InRange r := by
  rw [Within, operationsBefore_length]
  rfl

theorem Within.mono (hr : p.Within i r) (h : i ≤ j) : p.Within j r :=
  Nat.le_trans hr (p.operationsBefore_prefix r.itemType h).length_le

theorem Within.inRange (hr : p.Within i r) : p.InRange r :=
  Nat.le_trans hr (p.operationsBefore_prefix_operationsOf i r.itemType).length_le

theorem Within.take_operationsBefore (hr : p.Within i r) :
    (p.operationsBefore i r.itemType).take r.opCount = p.firstOperations r := by
  obtain ⟨later, h⟩ := p.operationsBefore_prefix_operationsOf i r.itemType
  rw [firstOperations, ← h, List.take_append_of_le_length hr]

theorem mem_operations_of_mem_firstOperations {o : Operation} (h : o ∈ p.firstOperations r) :
    o ∈ p.operations ∧ o.itemType = r.itemType := by
  have hmem := List.mem_of_mem_take h
  rw [operationsOf, List.mem_filter, beq_iff_eq] at hmem
  exact hmem

theorem firstOperations_sublist (p : Project) (r : Reference) :
    (p.firstOperations r).Sublist p.operations :=
  (List.take_sublist _ _).trans List.filter_sublist

theorem Coherent.pairwise_order (hp : p.Coherent) :
    p.operations.Pairwise (·.order < ·.order) := by
  refine List.pairwise_iff_getElem.mpr fun i j hi hj hij => ?_
  rw [hp.order_getElem hi, hp.order_getElem hj]
  exact hij

theorem Within.order_lt (hp : p.Coherent) (hr : p.Within i r) {o : Operation}
    (ho : o ∈ p.firstOperations r) : o.order < i := by
  rw [← hr.take_operationsBefore] at ho
  have htake := List.mem_of_mem_filter (List.mem_of_mem_take ho)
  obtain ⟨k, hk, rfl⟩ := List.mem_iff_getElem.mp htake
  rw [List.length_take] at hk
  rw [List.getElem_take, hp.order_getElem]
  omega

theorem Coherent.within_of_mem_references (hp : p.Coherent) {o : Operation}
    (ho : o ∈ p.operations) {s : Spec} (hs : s ∈ o.specs) (hr : r ∈ s.references) :
    p.Within o.order r :=
  Nat.le_of_eq ((hp.followsOn ho).2.frozen s hs r hr)

theorem Coherent.within_of_mem_outside (hp : p.Coherent) {o : Operation} (ho : o ∈ p.operations)
    (hu : u ∈ o.outside) : p.Within o.order u := by
  obtain ⟨s, hs, hus⟩ := List.mem_flatMap.mp hu
  exact hp.within_of_mem_references ho hs (Spec.mem_outside_iff.mp hus).1

theorem Coherent.within_of_needs (hp : p.Coherent) (hr : p.Within (i + 1) r) (h : p.Needs r u) :
    p.Within i u := by
  obtain ⟨o, ho, hu⟩ := h
  have hlt : o.order < i + 1 := hr.order_lt hp ho
  have hmem := (mem_operations_of_mem_firstOperations ho).1
  exact (hp.within_of_mem_outside hmem hu).mono (Nat.le_of_lt_succ hlt)

theorem Coherent.inRange_of_needs (hp : p.Coherent) (h : p.Needs r u) : p.InRange u := by
  obtain ⟨o, ho, hu⟩ := h
  have hmem := (mem_operations_of_mem_firstOperations ho).1
  exact (hp.within_of_mem_outside hmem hu).inRange

theorem not_needs_of_within_zero (hr : p.Within 0 r) : ¬ p.Needs r u := by
  rintro ⟨o, ho, _⟩
  have hzero : r.opCount = 0 := Nat.le_zero.mp hr
  rw [firstOperations, hzero, List.take_zero] at ho
  cases ho

theorem foldr_max_le_iff {ns : List Nat} {n : Nat} : ns.foldr max 0 ≤ n ↔ ∀ m ∈ ns, m ≤ n := by
  induction ns with
  | nil => simp
  | cons m ns ih => simp [ih]

theorem rank_le_iff : p.rank r ≤ i ↔ ∀ o ∈ p.firstOperations r, o.order < i := by
  rw [rank, foldr_max_le_iff, List.forall_mem_map]
  exact Iff.rfl

theorem Coherent.rank_lt_of_needs (hp : p.Coherent) (h : p.Needs r u) : p.rank u < p.rank r := by
  obtain ⟨o, ho, hu⟩ := h
  have hmem := (mem_operations_of_mem_firstOperations ho).1
  have hle : p.rank u ≤ o.order :=
    rank_le_iff.mpr fun _ ho' => (hp.within_of_mem_outside hmem hu).order_lt hp ho'
  have hlt : o.order < p.rank r := rank_le_iff.mp (Nat.le_refl _) o ho
  omega

theorem Coherent.wellFounded_needs (hp : p.Coherent) : WellFounded fun u r => p.Needs r u :=
  Subrelation.wf (fun h => hp.rank_lt_of_needs h) (InvImage.wf p.rank Nat.lt_wfRel.wf)

theorem Coherent.not_transGen_needs (hp : p.Coherent) (r : Reference) :
    ¬ Relation.TransGen p.Needs r r := by
  have hlt : ∀ {v w}, Relation.TransGen p.Needs v w → p.rank w < p.rank v := by
    intro v w h
    induction h with
    | single h => exact hp.rank_lt_of_needs h
    | tail _ h ih => exact Nat.lt_trans (hp.rank_lt_of_needs h) ih
  exact fun h => Nat.lt_irrefl _ (hlt h)

def frozenAt (p : Project) (i : Nat) (itemType : String) : Reference :=
  ⟨itemType, (p.operationsBefore i itemType).length⟩

theorem within_frozenAt (p : Project) (i : Nat) (itemType : String) :
    p.Within i (p.frozenAt i itemType) := Nat.le_refl _

theorem firstOperations_frozenAt (p : Project) (i : Nat) (itemType : String) :
    p.firstOperations (p.frozenAt i itemType) = p.operationsBefore i itemType := by
  rw [← (p.within_frozenAt i itemType).take_operationsBefore]
  exact List.take_length

theorem Coherent.eq_frozenAt_of_mem_references (hp : p.Coherent) {o : Operation}
    (ho : o ∈ p.operations) {s : Spec} (hs : s ∈ o.specs) {r : Reference}
    (hr : r ∈ s.references) : r = p.frozenAt o.order r.itemType := by
  have hcount := (hp.followsOn ho).2.frozen s hs r hr
  cases r
  exact congrArg _ hcount

theorem operationsBefore_succ (hn : i < p.operations.length) (itemType : String) :
    p.operationsBefore (i + 1) itemType =
      p.operationsBefore i itemType ++ [p.operations[i]].filter (·.itemType == itemType) := by
  rw [operationsBefore, operationsBefore, List.take_succ_eq_append_getElem hn, List.filter_append]

theorem operationsBefore_append {o : Operation} (hi : i ≤ p.operations.length) (itemType : String) :
    (p.append o).operationsBefore i itemType = p.operationsBefore i itemType := by
  have htake : (p.append o).operations.take i = p.operations.take i :=
    List.take_append_of_le_length hi
  rw [operationsBefore, operationsBefore, htake]

theorem operationsOf_append (p : Project) (o : Operation) (itemType : String) :
    (p.append o).operationsOf itemType =
      p.operationsOf itemType ++ [o].filter (·.itemType == itemType) :=
  List.filter_append ..

theorem operationCount_append_of_ne {o : Operation} {itemType : String} (h : itemType ≠ o.itemType) :
    (p.append o).operationCount itemType = p.operationCount itemType := by
  have hother : [o].filter (·.itemType == itemType) = [] :=
    List.filter_cons_of_neg (by simpa using h.symm)
  rw [operationCount, operationsOf_append, hother, List.append_nil]
  rfl

theorem firstOperations_append {o : Operation} (hr : p.InRange r) :
    (p.append o).firstOperations r = p.firstOperations r := by
  rw [firstOperations, operationsOf_append, List.take_append_of_le_length hr]
  rfl

/-- A function of prefixes given stage by stage, where a stage looks only at what a prefix needs
and does not depend on how many declarations there are besides. -/
structure Staged {M : Type} (p : Project) (value : Nat → Reference → M)
    (stage : Nat → (Reference → M) → Reference → M) : Prop where
  zero : ∃ base, value 0 = stage 0 base
  succ : ∀ i, value (i + 1) = stage (i + 1) (value i)
  congr : ∀ {i j f g r}, p.Within i r → p.Within j r → (∀ u, p.Needs r u → f u = g u) →
    stage i f r = stage j g r

namespace Staged

variable {M : Type} {value : Nat → Reference → M} {stage : Nat → (Reference → M) → Reference → M}

theorem eq_of_le (h : p.Staged value stage) (hp : p.Coherent) (hij : i ≤ j) (hr : p.Within i r) :
    value i r = value j r := by
  induction i generalizing j r with
  | zero =>
    obtain ⟨base, hbase⟩ := h.zero
    obtain ⟨f, hf⟩ : ∃ f, value j = stage j f := by
      cases j with
      | zero => exact ⟨base, hbase⟩
      | succ j => exact ⟨value j, h.succ j⟩
    rw [hbase, hf]
    exact h.congr hr (hr.mono hij) fun u hu => absurd hu (not_needs_of_within_zero hr)
  | succ i ih =>
    obtain ⟨k, rfl⟩ : ∃ k, j = k + 1 := ⟨j - 1, by omega⟩
    rw [h.succ, h.succ]
    -- what a prefix needs was declared at least one place earlier
    refine h.congr hr (hr.mono hij) fun u hu => ?_
    exact ih (Nat.le_of_succ_le_succ hij) (hp.within_of_needs hr hu)

/-- Once a stage covers a prefix, its value is given by the values of what it needs. -/
theorem unfold (h : p.Staged value stage) (hp : p.Coherent) (hr : p.Within i r)
    {f : Reference → M} (hf : ∀ u, p.Needs r u → f u = value i u) :
    value i r = stage i f r := by
  cases i with
  | zero =>
    obtain ⟨base, hbase⟩ := h.zero
    rw [hbase]
    exact h.congr hr hr fun u hu => absurd hu (not_needs_of_within_zero hr)
  | succ i =>
    rw [h.succ]
    refine h.congr hr hr fun u hu => ?_
    rw [hf u hu]
    exact h.eq_of_le hp (Nat.le_succ i) (hp.within_of_needs hr hu)

end Staged

end Project

end BuildItems
