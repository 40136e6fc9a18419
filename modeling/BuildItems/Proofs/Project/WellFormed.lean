import BuildItems.Proofs.Operation.WellFormed
import BuildItems.Proofs.Project.Items

/-!
# Well-formed items

The items of a type are well formed with respect to its operations, whatever the expander answers
and whether or not globs are skipped: they are of the type, in the order of their Includes, and no
later Exclude or Remove by value means any of them. What a reference to another type means there
is what a run gives that computes the referenced prefix alone.
-/

namespace BuildItems

variable {σ : Type}

namespace Project

variable {p : Project} {answer : Glob → Except EvalError (List String)} {r u : Reference}
  {m : Materialized}

/-- The list that every run gives for a prefix, if nothing is remembered from before. -/
def StandsFor (p : Project) (expander : Expander σ) (u : Reference) (entries : List Entry) : Prop :=
  ∀ s : Session σ, s.memo = [] →
    ∃ m, ((p.foldPrefix expander u).run s).1 = .ok m ∧ m.entries = entries

theorem Coherent.standsFor (hp : p.Coherent) (hu : p.InRange u)
    (h : p.itemsAt answer u = .ok m) : p.StandsFor (σ := σ) (.fixed answer) u m.entries := by
  intro s hs
  have hempty : Faithful (p.itemsAt answer) s.memo := hs ▸ List.forall_mem_nil _
  obtain ⟨hrun, _⟩ := hp.fold_yields (within_length_iff.mpr hu) s hempty
  exact ⟨m, hrun.trans h, rfl⟩

theorem Coherent.wellFormed_itemsAt (hp : p.Coherent) (hr : p.InRange r)
    (h : p.itemsAt answer r = .ok m) :
    Operation.WellFormed (p.StandsFor (σ := σ) (.fixed answer)) r.itemType
      (p.firstOperations r) m.entries := by
  have horder : (p.firstOperations r).Pairwise (·.order < ·.order) :=
    hp.pairwise_order.sublist (p.firstOperations_sublist r)
  have hstands : ∀ o ∈ p.firstOperations r, ∀ u ∈ o.outside, ∀ entries,
      (p.itemsAt answer u).map (·.entries) = .ok entries →
        p.StandsFor (σ := σ) (.fixed answer) u entries := by
    intro o ho u hu entries hentries
    obtain ⟨m', hm', rfl⟩ := map_eq_ok_iff.mp hentries
    exact hp.standsFor (hp.inRange_of_needs ⟨o, ho, hu⟩) hm'
  have hempty := Operation.WellFormed.empty (p.StandsFor (σ := σ) (.fixed answer)) r.itemType
  rw [hp.itemsAt_eq hr] at h
  exact hempty.attemptAll horder (fun o ho => (mem_operations_of_mem_firstOperations ho).2)
    (fun o ho s hs => hp.itemType_of_mem_specs ho hs) hstands h

/-- With a fixed expander, whatever it answers, the items of a type are well formed. -/
theorem materialize_wellFormed (hp : p.Reachable)
    (answer : Glob → Except EvalError (List String)) (itemType : String) (host : σ)
    (h : (p.materialize (.fixed answer) itemType host).1 = .ok m) :
    Operation.WellFormed (p.StandsFor (σ := σ) (.fixed answer)) itemType
      (p.operationsOf itemType) m.entries := by
  rw [hp.coherent.materialize_fst] at h
  rw [← firstOperations_fullReference]
  exact hp.coherent.wellFormed_itemsAt (Nat.le_refl _) h

def pruned : Project :=
  declareAll { id := ⟨"pruned"⟩ }
    [{ kind := .includes, itemType := "A", itemSpec := "a;b;*.c" },
      { kind := .includes, itemType := "B", itemSpec := "b" },
      { kind := .excludes, itemType := "A", itemSpec := "@(B);x" },
      { kind := .includes, itemType := "A", itemSpec := "@(A);b" },
      { kind := .removes, itemType := "A", itemSpec := "f.c" }]

theorem materialize_wellFormed_pruned :
    let expander : Expander Unit := .fixed fun _ => .ok ["f.c"]
    ∃ m, (pruned.materialize expander "A" ()).1 = .ok m ∧
      m.entries.map (fun e => (e.item.value, e.order)) = [("a", 0), ("a", 3), ("b", 3)] ∧
      Operation.WellFormed (pruned.StandsFor expander) "A" (pruned.operationsOf "A") m.entries := by
  intro expander
  have hp : pruned.Reachable := (Reachable.start ⟨"pruned"⟩ {}).declareAll _
  have hvalues : (pruned.materialize expander "A" ()).1.map
      (fun m => m.entries.map fun e => (e.item.value, e.order)) =
        .ok [("a", 0), ("a", 3), ("b", 3)] := by
    decide +kernel
  obtain ⟨m, hm, hlist⟩ := map_eq_ok_iff.mp hvalues
  exact ⟨m, hm, hlist, materialize_wellFormed hp (fun _ => .ok ["f.c"]) "A" () hm⟩

end Project

end BuildItems
