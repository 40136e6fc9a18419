import BuildItems.Proofs.Operation.Retold
import BuildItems.Proofs.Project.Active

/-!
# One part of a project in place of another

Two projects may differ in some operations that were declared one after another, and so in the
numbers and counts of all that is declared later. If the new operations of each type have the
outcome of the old ones, every type has the outcome it had: nothing but the numbers of the entries
may show the difference.
-/

namespace BuildItems

variable {σ : Type}

def ofType (ops : List Operation) (itemType : String) : List Operation :=
  ops.filter (·.itemType == itemType)

theorem ofType_append (ops ops' : List Operation) (itemType : String) :
    ofType (ops ++ ops') itemType = ofType ops itemType ++ ofType ops' itemType :=
  List.filter_append ..

theorem Operation.FollowsOn.opCount_eq {earlier : List Operation} {o : Operation} {u : Reference}
    (ho : o.FollowsOn earlier) (hu : u ∈ o.outside) :
    u.opCount = (ofType earlier u.itemType).length := by
  obtain ⟨s, hs, hus⟩ := List.mem_flatMap.mp hu
  exact ho.frozen s hs u (Spec.mem_outside_iff.mp hus).1

def Project.entriesAt (p : Project) (answer : Glob → Except EvalError (List String))
    (u : Reference) : Except EvalError (List Entry) :=
  (p.itemsAt answer u).map (·.entries)

/-- New operations in place of old ones, and the numbers that stand for each other. -/
structure Replacement where
  before : List Operation
  old : List Operation
  new : List Operation
  numbers : Nat → Nat → Prop
  covered : ∀ o' ∈ new, ∃ o ∈ old, o.itemType = o'.itemType
  numbers_before : ∀ i < before.length, numbers i i
  numbers_after : ∀ i, numbers (before.length + old.length + i) (before.length + new.length + i)

namespace Replacement

variable {x : Replacement} {r u : Reference} {itemType : String}

def count (x : Replacement) (r : Reference) : Nat :=
  if r.opCount ≤ (ofType x.before r.itemType).length then r.opCount
  else r.opCount - (ofType x.old r.itemType).length + (ofType x.new r.itemType).length

/-- A reference that sees all of the old operations of its type or none. -/
def Clear (x : Replacement) (r : Reference) : Prop :=
  r.opCount ≤ (ofType x.before r.itemType).length ∨
    (ofType x.before r.itemType).length + (ofType x.old r.itemType).length ≤ r.opCount

theorem new_eq_nil (h : ofType x.old itemType = []) : ofType x.new itemType = [] := by
  refine List.filter_eq_nil_iff.mpr fun o' ho' htype => ?_
  obtain ⟨o, ho, heq⟩ := x.covered o' ho'
  exact List.filter_eq_nil_iff.mp h o ho (heq ▸ htype)

theorem count_of_le (h : r.opCount ≤ (ofType x.before r.itemType).length) :
    x.count r = r.opCount := if_pos h

theorem count_of_ge
    (h : (ofType x.before r.itemType).length + (ofType x.old r.itemType).length ≤ r.opCount) :
    x.count r = r.opCount - (ofType x.old r.itemType).length +
      (ofType x.new r.itemType).length := by
  by_cases hle : r.opCount ≤ (ofType x.before r.itemType).length
  · -- it sees no operation after the old ones, and there are none of these
    have hold : ofType x.old r.itemType = [] := List.eq_nil_of_length_eq_zero (by omega)
    rw [count_of_le hle, hold, new_eq_nil hold]
    rfl
  · exact if_neg hle

/-- What comes right after the operations of before counts none of the replaced ones. -/
theorem clear_of_followsOn {o : Operation} (ho : o.FollowsOn x.before) (hu : u ∈ o.outside) :
    x.Clear u ∧ u.opCount = x.count u := by
  have hle := Nat.le_of_eq (ho.opCount_eq hu)
  exact ⟨.inl hle, (count_of_le hle).symm⟩

/-- The first project has the old operations where the second has the new ones; all that comes
after is the same up to numbers and counts. -/
structure Relates (x : Replacement) (p p' : Project) : Prop where
  options : p'.options = p.options
  directory : p'.directory = p.directory
  operations : ∃ after after', p.operations = x.before ++ x.old ++ after ∧
    p'.operations = x.before ++ x.new ++ after' ∧
    List.Forall₂ (Operation.Retold x.numbers x.count) after after'

/-- Whatever comes after them, the old and the new operations of a type have the same outcome if
what the old ones refer to has. -/
def Agrees (x : Replacement) (p p' : Project) (answer : Glob → Except EvalError (List String)) :
    Prop :=
  ∀ itemType after after',
    (∀ o ∈ ofType x.old itemType, ∀ u ∈ o.outside, Operation.KeepsOutcome x.numbers x.count
      (p.entriesAt answer) (p'.entriesAt answer) u) →
    Operation.Corresponds x.numbers (p.entriesAt answer) (p'.entriesAt answer) answer p.options
      after after' →
    Operation.Corresponds x.numbers (p.entriesAt answer) (p'.entriesAt answer) answer p.options
      (ofType x.old itemType ++ after) (ofType x.new itemType ++ after')

variable {p p' : Project} {answer : Glob → Except EvalError (List String)}

/-- Right after the replaced operations, nothing has come after them yet. -/
theorem Relates.of_operations_eq (hoptions : p'.options = p.options)
    (hdirectory : p'.directory = p.directory) (h : p.operations = x.before ++ x.old)
    (h' : p'.operations = x.before ++ x.new) :
    x.Relates p p' :=
  ⟨hoptions, hdirectory, [], [], h.trans (List.append_nil _).symm,
    h'.trans (List.append_nil _).symm, .nil⟩

/-- If all that is replaced is of one type, the others have nothing to agree on. -/
theorem agrees_of_itemType (itemType : String) (htype : ∀ o ∈ x.old, o.itemType = itemType)
    (h : ∀ after after',
      (∀ o ∈ x.old, ∀ u ∈ o.outside, Operation.KeepsOutcome x.numbers x.count
        (p.entriesAt answer) (p'.entriesAt answer) u) →
      Operation.Corresponds x.numbers (p.entriesAt answer) (p'.entriesAt answer) answer p.options
        after after' →
      Operation.Corresponds x.numbers (p.entriesAt answer) (p'.entriesAt answer) answer p.options
        (x.old ++ after) (x.new ++ after')) : x.Agrees p p' answer := by
  have htype' : ∀ o' ∈ x.new, o'.itemType = itemType := by
    intro o' ho'
    obtain ⟨o, ho, heq⟩ := x.covered o' ho'
    rw [← heq, htype o ho]
  intro other after after' hask hafter
  by_cases hother : other = itemType
  · have hold : ofType x.old other = x.old :=
      List.filter_eq_self.mpr fun o ho => by simp [htype o ho, hother]
    have hnew : ofType x.new other = x.new :=
      List.filter_eq_self.mpr fun o' ho' => by simp [htype' o' ho', hother]
    rw [hold] at hask ⊢
    rw [hnew]
    exact h after after' hask hafter
  · have hold : ofType x.old other = [] :=
      List.filter_eq_nil_iff.mpr fun o ho => by simp [htype o ho, Ne.symm hother]
    rw [hold, new_eq_nil hold]
    exact hafter

theorem forall₂_ofType {numbers : Nat → Nat → Prop} {count : Reference → Nat}
    {ops ops' : List Operation} (h : List.Forall₂ (Operation.Retold numbers count) ops ops')
    (itemType : String) :
    List.Forall₂ (Operation.Retold numbers count) (ofType ops itemType) (ofType ops' itemType) :=
  List.rel_filter (fun o o' ho => by simp only [ho.itemType]) h

namespace Relates

theorem operationsOf (h : x.Relates p p') (itemType : String) :
    ∃ after after', List.Forall₂ (Operation.Retold x.numbers x.count) after after' ∧
      p.operationsOf itemType = ofType x.before itemType ++ (ofType x.old itemType ++ after) ∧
      p'.operationsOf itemType =
        ofType x.before itemType ++ (ofType x.new itemType ++ after') := by
  obtain ⟨after, after', hops, hops', hafter⟩ := h.operations
  refine ⟨ofType after itemType, ofType after' itemType, forall₂_ofType hafter itemType, ?_, ?_⟩
  · rw [Project.operationsOf, hops, ← List.append_assoc, ← ofType_append, ← ofType_append]
    rfl
  · rw [Project.operationsOf, hops', ← List.append_assoc, ← ofType_append, ← ofType_append]
    rfl

theorem fullReference (h : x.Relates p p') (itemType : String) :
    x.Clear (p.fullReference itemType) ∧
      p'.fullReference itemType = (p.fullReference itemType).recounted x.count := by
  obtain ⟨after, after', hafter, hops, hops'⟩ := h.operationsOf itemType
  have hlength := hafter.length_eq
  have hopCount : (p.fullReference itemType).opCount = (ofType x.before itemType).length +
      ((ofType x.old itemType).length + after.length) := by
    rw [Project.fullReference, Project.operationCount, hops, List.length_append,
      List.length_append]
  have hopCount' : p'.operationCount itemType = (ofType x.before itemType).length +
      ((ofType x.new itemType).length + after'.length) := by
    rw [Project.operationCount, hops', List.length_append, List.length_append]
  have hsees : (ofType x.before itemType).length + (ofType x.old itemType).length ≤
      (p.fullReference itemType).opCount := by omega
  have hcount : x.count (p.fullReference itemType) =
      (p.fullReference itemType).opCount - (ofType x.old itemType).length +
        (ofType x.new itemType).length := count_of_ge hsees
  have hcount' : p'.operationCount itemType = x.count (p.fullReference itemType) := by omega
  exact ⟨.inr hsees, congrArg (Reference.mk itemType) hcount'⟩

theorem perform (h : x.Relates p p') (s : Project.Step) :
    x.Relates (p.perform s) (p'.perform s) := by
  cases s with
  | relocate directory => exact ⟨h.options, rfl, h.operations⟩
  | declare d =>
    have hcount : ∀ name, x.count ⟨name, p.operationCount name⟩ = p'.operationCount name :=
      fun name => (congrArg Reference.opCount (h.fullReference name).2).symm
    have hother := Project.operationOf_recounted h.options h.directory hcount d
    rw [Project.perform, Project.perform]
    cases hd : p.operationOf d with
    | error e =>
      rw [hd] at hother
      rw [Project.tryDeclare_of_error hd, Project.tryDeclare_of_error hother]
      exact h
    | ok o =>
      rw [hd] at hother
      rw [Project.tryDeclare_of_ok hd, Project.tryDeclare_of_ok hother]
      obtain ⟨after, after', hops, hops', hafter⟩ := h.operations
      have horder : x.numbers o.order p'.operations.length := by
        rw [(Project.operationOf_eq_ok_iff.mp hd).order, hops, hops']
        simp only [List.length_append, ← hafter.length_eq]
        exact x.numbers_after after.length
      have hlast : List.Forall₂ (Operation.Retold x.numbers x.count) [o]
          [o.recounted x.count p'.operations.length] := .cons (.recounted fun _ => horder) .nil
      refine ⟨h.options, h.directory, after ++ [o], after' ++ _, ?_, ?_,
        List.rel_append hafter hlast⟩
      · rw [Project.append, hops, List.append_assoc]
      · rw [← List.append_assoc, ← hops']
        rfl

theorem performAll (h : x.Relates p p') (steps : List Project.Step) :
    x.Relates (p.performAll steps) (p'.performAll steps) := by
  induction steps generalizing p p' with
  | nil => exact h
  | cons s steps ih => exact ih (h.perform s)

theorem clear_of_mem_outside (h : x.Relates p p') (hp : p.Coherent)
    (hold : ∀ o ∈ x.old, ∀ u ∈ o.outside, x.Clear u) {o : Operation} (ho : o ∈ p.operations)
    (hu : u ∈ o.outside) : x.Clear u := by
  obtain ⟨after, _, hops, _, _⟩ := h.operations
  have hfrozen : ∀ earlier later, p.operations = earlier ++ o :: later →
      u.opCount = (ofType earlier u.itemType).length :=
    fun _ _ hsplit => (hp.followsOn_of_eq_append hsplit).opCount_eq hu
  rw [hops, List.mem_append, List.mem_append] at ho
  rcases ho with (ho | ho) | ho
  · obtain ⟨earlier, later, hsplit⟩ := List.append_of_mem ho
    have hcount := hfrozen earlier (later ++ x.old ++ after) (by simp [hops, hsplit])
    left
    rw [hcount, hsplit, ofType_append, List.length_append]
    omega
  · exact hold o ho u hu
  · obtain ⟨earlier, later, hsplit⟩ := List.append_of_mem ho
    have hcount := hfrozen (x.before ++ x.old ++ earlier) later (by simp [hops, hsplit])
    right
    rw [hcount, ofType_append, ofType_append, List.length_append, List.length_append]
    omega

theorem retold_before (h : x.Relates p p') (hp : p.Coherent) {o : Operation}
    (ho : o ∈ x.before) : Operation.Retold x.numbers x.count o o := by
  obtain ⟨after, _, hops, _, _⟩ := h.operations
  obtain ⟨earlier, later, hsplit⟩ := List.append_of_mem ho
  have hsplits : p.operations = earlier ++ o :: (later ++ x.old ++ after) := by
    simp [hops, hsplit]
  have hfollows := hp.followsOn_of_eq_append hsplits
  refine .renumbered (fun u hu => ?_) fun _ => x.numbers_before o.order ?_
  · refine (count_of_le ?_).symm
    rw [hfollows.opCount_eq hu, hsplit, ofType_append, List.length_append]
    omega
  · rw [hfollows.order, hsplit, List.length_append, List.length_cons]
    omega

/-- A clear reference sees operations of before only, or those and all that are replaced. -/
theorem firstOperations (h : x.Relates p p') (hr : p.InRange r) (hclear : x.Clear r) :
    p'.InRange (r.recounted x.count) ∧
      ((∃ first, first <+: ofType x.before r.itemType ∧ p.firstOperations r = first ∧
          p'.firstOperations (r.recounted x.count) = first) ∨
        ∃ after after', List.Forall₂ (Operation.Retold x.numbers x.count) after after' ∧
          p.firstOperations r = ofType x.before r.itemType ++ (ofType x.old r.itemType ++ after) ∧
          p'.firstOperations (r.recounted x.count) =
            ofType x.before r.itemType ++ (ofType x.new r.itemType ++ after')) := by
  obtain ⟨after, after', hafter, hops, hops'⟩ := h.operationsOf r.itemType
  have hlength := hafter.length_eq
  have hfirst : p.firstOperations r =
      (ofType x.before r.itemType ++ (ofType x.old r.itemType ++ after)).take r.opCount :=
    congrArg (List.take r.opCount) hops
  have hfirst' : p'.firstOperations (r.recounted x.count) =
      (ofType x.before r.itemType ++ (ofType x.new r.itemType ++ after')).take (x.count r) :=
    congrArg (List.take (x.count r)) hops'
  have hrange : p'.InRange (r.recounted x.count) ↔ x.count r ≤
      (ofType x.before r.itemType ++ (ofType x.new r.itemType ++ after')).length := by
    rw [← hops']
    rfl
  rw [Project.InRange, Project.operationCount, hops, List.length_append, List.length_append] at hr
  rw [hrange, hfirst, hfirst', List.length_append, List.length_append]
  rcases hclear with hle | hge
  · rw [count_of_le hle]
    refine ⟨by omega, .inl ⟨_, List.take_prefix r.opCount _, ?_, ?_⟩⟩
    · exact List.take_append_of_le_length hle
    · exact List.take_append_of_le_length hle
  · rw [count_of_ge hge]
    obtain ⟨n, hn⟩ := Nat.exists_eq_add_of_le hge
    refine ⟨by omega, .inr ⟨after.take n, after'.take n, List.forall₂_take n hafter, ?_, ?_⟩⟩
    · rw [hn, Nat.add_assoc, List.take_length_add_append, List.take_length_add_append]
    · have hcount : r.opCount - (ofType x.old r.itemType).length +
          (ofType x.new r.itemType).length = (ofType x.before r.itemType).length +
            ((ofType x.new r.itemType).length + n) := by omega
      rw [hcount, List.take_length_add_append, List.take_length_add_append]

theorem corresponds (h : x.Relates p p') (hp : p.Coherent) (hagrees : x.Agrees p p' answer)
    (hr : p.InRange r) (hclear : x.Clear r)
    (hask : ∀ u, p.Needs r u → Operation.KeepsOutcome x.numbers x.count (p.entriesAt answer)
      (p'.entriesAt answer) u) :
    Operation.Corresponds x.numbers (p.entriesAt answer) (p'.entriesAt answer) answer p.options
      (p.firstOperations r) (p'.firstOperations (r.recounted x.count)) := by
  have hasked : ∀ o ∈ p.firstOperations r, ∀ u ∈ o.outside, Operation.KeepsOutcome x.numbers
      x.count (p.entriesAt answer) (p'.entriesAt answer) u := fun o ho u hu => hask u ⟨o, ho, hu⟩
  have htype : ∀ o ∈ p.firstOperations r, ∀ s ∈ o.specs, s.itemType = o.itemType :=
    fun o ho s hs => hp.itemType_of_mem_specs ho hs
  have hbefore : ∀ first, (∀ o ∈ first, o ∈ ofType x.before r.itemType) →
      List.Forall₂ (Operation.Retold x.numbers x.count) first first := fun first hfirst =>
    List.forall₂_same.mpr fun o ho => h.retold_before hp (List.mem_of_mem_filter (hfirst o ho))
  rcases (h.firstOperations hr hclear).2 with ⟨first, hprefix, hops, hops'⟩ |
    ⟨after, after', hafter, hops, hops'⟩
  · rw [hops] at hasked htype ⊢
    rw [hops', ← List.append_nil first]
    exact .append (hbefore first fun o ho => hprefix.mem ho) htype hasked .nil
  · rw [hops] at hasked htype ⊢
    rw [List.forall_mem_append, List.forall_mem_append] at hasked htype
    rw [hops']
    obtain ⟨hbeforeAsked, holdAsked, hafterAsked⟩ := hasked
    obtain ⟨hbeforeType, _, hafterType⟩ := htype
    have hlast : Operation.Corresponds x.numbers (p.entriesAt answer) (p'.entriesAt answer) answer
        p.options (after ++ []) (after' ++ []) := .append hafter hafterType hafterAsked .nil
    rw [List.append_nil, List.append_nil] at hlast
    exact .append (hbefore _ fun _ ho => ho) hbeforeType hbeforeAsked
      (hagrees r.itemType after after' holdAsked hlast)

theorem itemsAt (h : x.Relates p p') (hp : p.Coherent) (hp' : p'.Coherent)
    (hold : ∀ o ∈ x.old, ∀ u ∈ o.outside, x.Clear u) (hagrees : x.Agrees p p' answer)
    (hr : p.InRange r) (hclear : x.Clear r) :
    SameOutcome (Materialized.Alike x.numbers) (p.itemsAt answer r)
      (p'.itemsAt answer (r.recounted x.count)) := by
  induction r using hp.wellFounded_needs.induction with
  | h r ih =>
    have hask : ∀ u, p.Needs r u → Operation.KeepsOutcome x.numbers x.count (p.entriesAt answer)
        (p'.entriesAt answer) u := by
      rintro u ⟨o, ho, hu⟩
      have hneeds : p.Needs r u := ⟨o, ho, hu⟩
      have hmem := (Project.mem_operations_of_mem_firstOperations ho).1
      have hsame := ih u hneeds (hp.inRange_of_needs hneeds)
        (h.clear_of_mem_outside hp hold hmem hu)
      exact hsame.map fun _ _ halike => halike.entries
    rw [hp.itemsAt_eq hr, hp'.itemsAt_eq (h.firstOperations hr hclear).1, h.options]
    exact (h.corresponds hp hagrees hr hclear hask).outcome ⟨.nil, rfl⟩

/-- Every type has the same outcome in both projects. -/
theorem itemsAt_fullReference (h : x.Relates p p') (hp : p.Coherent) (hp' : p'.Coherent)
    (hold : ∀ o ∈ x.old, ∀ u ∈ o.outside, x.Clear u) (hagrees : x.Agrees p p' answer)
    (itemType : String) :
    SameOutcome (Materialized.Alike x.numbers) (p.itemsAt answer (p.fullReference itemType))
      (p'.itemsAt answer (p'.fullReference itemType)) := by
  obtain ⟨hclear, hfull⟩ := h.fullReference itemType
  rw [hfull]
  exact h.itemsAt hp hp' hold hagrees (Nat.le_refl _) hclear

end Relates

end Replacement

/-- After another operation of its type, an operation is told as before it. -/
theorem Operation.Retold.second {x : Replacement} {p : Project} {o o' : Operation} {order : Nat}
    (hx : x.before = p.operations) (ho : o.FollowsOn p.operations)
    (htype : o'.itemType = o.itemType) (horder : o.kind = .includes → x.numbers o.order order) :
    Operation.Retold x.numbers x.count o (o.recounted (p.append o').counts order) := by
  refine ⟨⟨(p.append o').counts, fun u hu => ?_, rfl⟩, horder⟩
  obtain ⟨hcount, hne⟩ := Project.opCount_of_mem_outside ho hu
  rw [Project.counts_append_of_ne (htype ▸ hne), ← hcount]
  exact (Replacement.clear_of_followsOn (hx ▸ ho) hu).2

end BuildItems
