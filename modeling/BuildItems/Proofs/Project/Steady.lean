import BuildItems.Proofs.Project.LastCall
import BuildItems.Proofs.Project.Replacement
import BuildItems.Proofs.Project.Success

/-!
# Expanders that always answer

A steady expander answers every glob with values, and the same glob always with the same ones, in
whatever state it is. With it every list can be computed, and what the list is depends on the
answers only. With one that answers always, but not always the same, a list may also depend on the
order in which the globs are asked for.
-/

namespace BuildItems

variable {σ : Type}

namespace Expander

def Steady (expander : Expander σ) (answer : Glob → List String) : Prop :=
  ∀ g host, (expander g host).1 = .ok (answer g)

/-- Unlike a steady one, it may answer the same glob with other values the next time. -/
def NeverFails (expander : Expander σ) : Prop := ∀ g host, ∃ values, (expander g host).1 = .ok values

def counting : Expander Nat := fun _ asked => (.ok ["x" ++ toString asked], asked + 1)

theorem neverFails_counting : counting.NeverFails := fun _ _ => ⟨_, rfl⟩

theorem Steady.mirrors {expander : Expander σ} {answer : Glob → List String}
    (h : expander.Steady answer) :
    expander.Mirrors (fun _ => ()) (.fixed fun g => .ok (answer g)) := by
  intro g host
  rw [h g host]
  rfl

end Expander

namespace Project

variable {p : Project} {answer : Glob → List String} {expander : Expander σ} {r : Reference}

theorem Coherent.materialize_steady (hp : p.Coherent) (h : expander.Steady answer)
    (itemType : String) (host : σ) :
    (p.materialize expander itemType host).1 =
      p.itemsAt (fun g => .ok (answer g)) (p.fullReference itemType) := by
  have hview := congrArg Prod.fst (materialize_view h.mirrors p itemType host)
  exact hview.symm.trans (hp.materialize_fst itemType ())

theorem Coherent.exists_itemsAt_steady (hp : p.Coherent) (hr : p.InRange r)
    (answer : Glob → List String) :
    ∃ m, p.itemsAt (fun g => .ok (answer g)) r = .ok m := by
  induction r using hp.wellFounded_needs.induction with
  | h r ih =>
    refine (hp.exists_itemsAt_eq_ok_iff hr).mpr ⟨fun u hu => ?_, fun g _ => ⟨answer g, rfl⟩⟩
    exact ih u hu (hp.inRange_of_needs hu)

theorem Coherent.exists_materialize_steady (hp : p.Coherent) (h : expander.Steady answer)
    (itemType : String) (host : σ) : ∃ m, (p.materialize expander itemType host).1 = .ok m := by
  rw [hp.materialize_steady h]
  exact hp.exists_itemsAt_steady (p.within_fullReference itemType).inRange answer

end Project

namespace Replacement.Relates

variable {x : Replacement} {p p' : Project} {answer : Glob → List String} {expander : Expander σ}

theorem exists_entriesAt_steady (h : x.Relates p p') (hp : p.Coherent) {o : Operation}
    (ho : o ∈ x.old) {u : Reference} (hu : u ∈ o.outside) :
    ∃ entries, p.entriesAt (fun g => .ok (answer g)) u = .ok entries := by
  obtain ⟨after, _, hops, _, _⟩ := h.operations
  have hmem : o ∈ p.operations := by
    rw [hops]
    exact List.mem_append_left _ (List.mem_append_right _ ho)
  have hrange := (hp.within_of_mem_outside hmem hu).inRange
  obtain ⟨m, hm⟩ := hp.exists_itemsAt_steady hrange answer
  exact ⟨m.entries, map_eq_ok_iff.mpr ⟨m, hm, rfl⟩⟩

/-- Where the expander always answers, every type has items in both projects. -/
theorem materialize_steady (h : x.Relates p p') (hp : p.Coherent) (hp' : p'.Coherent)
    (hclear : ∀ o ∈ x.old, ∀ u ∈ o.outside, x.Clear u)
    (hagrees : x.Agrees p p' fun g => .ok (answer g)) (hsteady : expander.Steady answer)
    (itemType : String) (host : σ) :
    ∃ m m', (p.materialize expander itemType host).1 = .ok m ∧
      (p'.materialize expander itemType host).1 = .ok m' ∧
      Materialized.Alike x.numbers m m' := by
  obtain ⟨m, hm⟩ := hp.exists_materialize_steady hsteady itemType host
  have hsame := h.itemsAt_fullReference hp hp' hclear hagrees itemType
  rw [← hp.materialize_steady hsteady itemType host, hm] at hsame
  obtain ⟨m', hm', halike⟩ := hsame.exists_eq_ok
  exact ⟨m, m', hm, (hp'.materialize_steady hsteady itemType host).trans hm', halike⟩

end Replacement.Relates

end BuildItems
