import BuildItems.Proofs.Project.Recursion

/-!
# Declarations for other types

A prefix of operations stays what it is when more is declared, and references stand for prefixes.
So a declaration for one type changes nothing that is computed for another, whatever the types
refer to: not the items, not a failure, not the globs the expander is asked for and not the log.
-/

namespace BuildItems

variable {σ : Type}

namespace Project

variable {p : Project} {i : Nat} {r : Reference} {o : Operation} {itemType : String}
  {expander : Expander σ}

theorem foldFirst_append (hi : i ≤ p.operations.length) (find : Reference → Run σ (List Entry)) :
    (p.append o).foldFirst expander i find r = p.foldFirst expander i find r := by
  rw [foldFirst, foldFirst, operationsBefore_append hi]
  rfl

theorem fold_append (hi : i ≤ p.operations.length) :
    (p.append o).fold expander i r = p.fold expander i r := by
  -- a stage looks among the declarations before its horizon, which is not beyond the old ones
  induction i generalizing r with
  | zero => rw [fold, fold, foldFirst_append hi]
  | succ i ih =>
    have hearlier : (p.append o).fold expander i = p.fold expander i :=
      funext fun u => ih (Nat.le_of_succ_le hi)
    rw [fold, fold, foldFirst_append hi, hearlier]

theorem Coherent.foldPrefix_append (hp : p.Coherent) (ho : o.FollowsOn p.operations)
    (hr : p.InRange r) : (p.append o).foldPrefix expander r = p.foldPrefix expander r := by
  have hlength : p.operations.length ≤ (p.append o).operations.length :=
    (List.prefix_append p.operations [o]).length_le
  have hwithin : (p.append o).Within p.operations.length r := by
    rw [Within, operationsBefore_append (Nat.le_refl _)]
    exact within_length_iff.mpr hr
  calc
    (p.append o).foldPrefix expander r = (p.append o).fold expander p.operations.length r :=
      (((p.append o).staged_fold expander).eq_of_le (hp.append ho) hlength hwithin).symm
    _ = p.foldPrefix expander r := fold_append (Nat.le_refl _)

theorem Coherent.materialize_append (hp : p.Coherent) (ho : o.FollowsOn p.operations)
    (h : itemType ≠ o.itemType) (expander : Expander σ) (host : σ) :
    (p.append o).materialize expander itemType host = p.materialize expander itemType host := by
  have hcount := operationCount_append_of_ne (p := p) h
  have hfull : (p.append o).fullReference itemType = p.fullReference itemType := by
    rw [fullReference, fullReference, hcount]
  have hfold : (p.append o).foldType expander itemType = p.foldType expander itemType := by
    change (p.append o).foldPrefix expander _ = p.foldPrefix expander _
    rw [hfull]
    exact hp.foldPrefix_append ho (Nat.le_refl _)
  rw [materialize, materialize, hcount, hfold]
  rfl

/-- Whatever is declared for one type, accepted or refused, the items of another are computed as
before: with the same outcome, and with the same effects on expander and log. -/
theorem materialize_tryDeclare_of_ne (hp : p.Reachable) {d : Declaration} (h : itemType ≠ d.itemType)
    (expander : Expander σ) (host : σ) :
    (p.tryDeclare d).materialize expander itemType host =
      p.materialize expander itemType host := by
  unfold tryDeclare
  split
  · next hd =>
    obtain ⟨o, ho, rfl⟩ := declare_eq_ok_iff.mp hd
    rw [← ho.itemType] at h
    exact hp.coherent.materialize_append ho.followsOn h expander host
  · rfl

/-- Here the type that is asked for refers to the one that something is declared for. -/
theorem materialize_tryDeclare_of_ne_crossed :
    let p := crossed {}
    let clearB : Declaration := { kind := .removes, itemType := "B", itemSpec := "@(B)" }
    let expander : Expander Unit := .fixed fun _ => .ok ["f.c"]
    p.Needs (p.fullReference "A") ⟨"B", 1⟩ ∧
      (p.tryDeclare clearB).operationCount "B" = p.operationCount "B" + 1 ∧
      (p.tryDeclare clearB).materialize expander "A" () = p.materialize expander "A" () := by
  intro p clearB expander
  refine ⟨by decide +kernel, by decide +kernel, ?_⟩
  exact materialize_tryDeclare_of_ne (reachable_crossed {}) (by decide) expander ()

end Project

end BuildItems
