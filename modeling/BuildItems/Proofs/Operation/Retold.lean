import BuildItems.Proofs.Operation.Recounted
import BuildItems.Proofs.Operation.Removing

/-!
# The same operations in another place

In another place an operation has another number, and its references to other types count other
operations there; those to its own type stand for the list so far, whatever they count. As long as
each reference has the same outcome in both places, so has every list of operations, also when a
part of it is exchanged for one that corresponds to it.
-/

namespace BuildItems

structure Materialized.Alike (numbers : Nat → Nat → Prop) (m m' : Materialized) : Prop where
  entries : BuildItems.Alike numbers m.entries m'.entries
  removedGlobs : m.removedGlobs = m'.removedGlobs

namespace Operation

structure Retold (numbers : Nat → Nat → Prop) (count : Reference → Nat) (o o' : Operation) :
    Prop where
  eq : ∃ count', (∀ u ∈ o.outside, count' u = count u) ∧ o' = o.recounted count' o'.order
  order : o.kind = .includes → numbers o.order o'.order

variable {numbers : Nat → Nat → Prop} {count : Reference → Nat} {o o' : Operation} {order : Nat}

namespace Retold

theorem recounted (horder : o.kind = .includes → numbers o.order order) :
    Retold numbers count o (o.recounted count order) :=
  ⟨⟨count, fun _ _ => rfl, rfl⟩, horder⟩

theorem renumbered (hcount : ∀ u ∈ o.outside, u.opCount = count u)
    (horder : o.kind = .includes → numbers o.order order) :
    Retold numbers count o (o.renumbered order) :=
  ⟨⟨Reference.opCount, hcount, (o.recounted_opCount order).symm⟩, horder⟩

theorem itemType (h : Retold numbers count o o') : o'.itemType = o.itemType := by
  obtain ⟨count', _, heq⟩ := h.eq
  rw [heq]
  rfl

theorem removedGlobs (h : Retold numbers count o o') : o'.removedGlobs = o.removedGlobs := by
  obtain ⟨count', _, heq⟩ := h.eq
  rw [heq, removedGlobs_recounted]

end Retold

section

variable {ask ask' : Reference → Except EvalError (List Entry)}
  {answer : Glob → Except EvalError (List String)} {pathCaseSensitive : Bool} {ignored : NameSet}
  {m m' : Materialized}

def KeepsOutcome (numbers : Nat → Nat → Prop) (count : Reference → Nat)
    (ask ask' : Reference → Except EvalError (List Entry)) (u : Reference) : Prop :=
  SameOutcome (Alike numbers) (ask u) (ask' (u.recounted count))

theorem attempt_alike (htype : ∀ s ∈ o.specs, s.itemType = o.itemType)
    (hask : ∀ u ∈ o.outside, KeepsOutcome numbers count ask ask' u)
    (horder : o.kind = .includes → numbers o.order order) (hm : Materialized.Alike numbers m m') :
    SameOutcome (Materialized.Alike numbers) (o.attempt ask answer pathCaseSensitive ignored m)
      ((o.recounted count order).attempt ask' answer pathCaseSensitive ignored m') := by
  have hlists := keepsItems_listsOf htype (fun u hu => ((hask u hu).answerOf .nil).sameItems)
    hm.entries.sameItems
  rw [attempt, attempt, outside_recounted, SameOutcome.allOk_map hask, asked_recounted,
    removedGlobs_recounted]
  cases allOk ask o.outside with
  | error e => exact .error e
  | ok _ =>
    cases allOk answer (o.asked ignored) with
    | error e => exact .error e
    | ok _ =>
      refine .ok ⟨policy_alike hlists hm.entries horder, ?_⟩
      exact congrArg (NameSet.union · o.removedGlobs) hm.removedGlobs

theorem Retold.attempt (h : Retold numbers count o o')
    (htype : ∀ s ∈ o.specs, s.itemType = o.itemType)
    (hask : ∀ u ∈ o.outside, KeepsOutcome numbers count ask ask' u)
    (hm : Materialized.Alike numbers m m') :
    SameOutcome (Materialized.Alike numbers) (o.attempt ask answer pathCaseSensitive ignored m)
      (o'.attempt ask' answer pathCaseSensitive ignored m') := by
  obtain ⟨count', hcount, heq⟩ := h.eq
  have hask' : ∀ u ∈ o.outside, KeepsOutcome numbers count' ask ask' u := by
    intro u hu
    have hsame : u.recounted count' = u.recounted count := by
      rw [Reference.recounted, hcount u hu]
      rfl
    rw [KeepsOutcome, hsame]
    exact hask u hu
  rw [heq]
  exact attempt_alike htype hask' h.order hm

end

variable {ask ask' : Reference → Except EvalError (List Entry)}
  {answer : Glob → Except EvalError (List String)} {options : Options}
  {ops ops' mid : List Operation}

/-- Whatever comes before them, these operations have the same outcome as those. -/
structure Corresponds (numbers : Nat → Nat → Prop)
    (ask ask' : Reference → Except EvalError (List Entry))
    (answer : Glob → Except EvalError (List String)) (options : Options)
    (ops ops' : List Operation) : Prop where
  removed : removedBy ops = removedBy ops'
  outcome : ∀ {m m' : Materialized}, Materialized.Alike numbers m m' →
    SameOutcome (Materialized.Alike numbers) (attemptAll ask answer options ops m)
      (attemptAll ask' answer options ops' m')

namespace Corresponds

theorem nil : Corresponds numbers ask ask' answer options [] [] := ⟨rfl, .ok⟩

theorem cons (h : Retold numbers count o o') (htype : ∀ s ∈ o.specs, s.itemType = o.itemType)
    (hask : ∀ u ∈ o.outside, KeepsOutcome numbers count ask ask' u)
    (hops : Corresponds numbers ask ask' answer options ops ops') :
    Corresponds numbers ask ask' answer options (o :: ops) (o' :: ops') where
  removed := by
    refine removedBy_congr fun text => ?_
    rw [List.any_cons, List.any_cons, h.removedGlobs, ← contains_removedBy, ← contains_removedBy,
      hops.removed]
  outcome hm := by
    rw [attemptAll, attemptAll, ignoredBefore, ignoredBefore, hops.removed]
    exact (h.attempt htype hask hm).bind fun _ _ => hops.outcome

theorem append (h : List.Forall₂ (Retold numbers count) mid ops)
    (htype : ∀ o ∈ mid, ∀ s ∈ o.specs, s.itemType = o.itemType)
    (hask : ∀ o ∈ mid, ∀ u ∈ o.outside, KeepsOutcome numbers count ask ask' u)
    {rest rest' : List Operation}
    (hrest : Corresponds numbers ask ask' answer options rest rest') :
    Corresponds numbers ask ask' answer options (mid ++ rest) (ops ++ rest') := by
  induction h with
  | nil => exact hrest
  | cons ho _ ih =>
    obtain ⟨hotype, hmidtype⟩ := List.forall_mem_cons.mp htype
    obtain ⟨hoask, hmidask⟩ := List.forall_mem_cons.mp hask
    exact cons ho hotype hoask (ih hmidtype hmidask)

/-- Operations that always have the same outcome may stand for each other. -/
theorem of_eq (hremoved : removedBy ops = removedBy mid)
    (heq : ∀ m, attemptAll ask answer options ops m = attemptAll ask answer options mid m)
    (h : Corresponds numbers ask ask' answer options mid ops') :
    Corresponds numbers ask ask' answer options ops ops' where
  removed := hremoved.trans h.removed
  outcome hm := heq _ ▸ h.outcome hm

end Corresponds

end Operation

end BuildItems
