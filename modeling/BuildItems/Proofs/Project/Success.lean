import BuildItems.Proofs.Project.Active
import BuildItems.Proofs.Project.WellFormed

/-!
# Whether items can be computed

The items of a prefix can be computed if those of every prefix it needs can, and if the expander
answers the globs it asks for. An operation with a false condition asks for no glob and changes no
list, but what it refers to is computed before its condition is looked at. So it may make a run fail
that succeeds without it, and only by a reference that cannot be computed.
-/

namespace BuildItems

variable {σ : Type}

namespace Operation

def askedAll (options : Options) : List Operation → List Glob
  | [] => []
  | o :: rest => o.asked (ignoredBefore options rest) ++ askedAll options rest

section

variable {ask : Reference → Except EvalError (List Entry)}
  {answer : Glob → Except EvalError (List String)} {options : Options}

theorem exists_attempt_eq_ok_iff {pathCaseSensitive : Bool} {ignored : NameSet} {o : Operation}
    {m : Materialized} :
    (∃ next, o.attempt ask answer pathCaseSensitive ignored m = .ok next) ↔
      (∀ r ∈ o.outside, ∃ entries, ask r = .ok entries) ∧
        ∀ g ∈ o.asked ignored, ∃ values, answer g = .ok values := by
  constructor
  · rintro ⟨next, h⟩
    obtain ⟨houtside, hasked, _⟩ := attempt_eq_ok_iff.mp h
    exact ⟨houtside, hasked⟩
  · rintro ⟨houtside, hasked⟩
    exact ⟨_, attempt_eq_ok_iff.mpr ⟨houtside, hasked, rfl⟩⟩

/-- Whether all operations succeed does not depend on the lists they are applied to. -/
theorem exists_attemptAll_eq_ok_iff {ops : List Operation} {m : Materialized} :
    (∃ next, attemptAll ask answer options ops m = .ok next) ↔
      (∀ o ∈ ops, ∀ r ∈ o.outside, ∃ entries, ask r = .ok entries) ∧
        ∀ g ∈ askedAll options ops, ∃ values, answer g = .ok values := by
  induction ops generalizing m with
  | nil => exact ⟨fun _ => ⟨List.forall_mem_nil _, List.forall_mem_nil _⟩, fun _ => ⟨m, rfl⟩⟩
  | cons o rest ih =>
    rw [List.forall_mem_cons, askedAll, List.forall_mem_append]
    constructor
    · rintro ⟨next, h⟩
      obtain ⟨mid, hmid, hrest⟩ := bind_eq_ok_iff.mp h
      obtain ⟨hoOutside, hoAsked⟩ := exists_attempt_eq_ok_iff.mp ⟨mid, hmid⟩
      obtain ⟨hrestOutside, hrestAsked⟩ := ih.mp ⟨next, hrest⟩
      exact ⟨⟨hoOutside, hrestOutside⟩, hoAsked, hrestAsked⟩
    · rintro ⟨⟨hoOutside, hrestOutside⟩, hoAsked, hrestAsked⟩
      obtain ⟨mid, hmid⟩ := exists_attempt_eq_ok_iff.mpr ⟨hoOutside, hoAsked⟩
      obtain ⟨next, hnext⟩ := ih.mpr ⟨hrestOutside, hrestAsked⟩
      exact ⟨next, bind_eq_ok_iff.mpr ⟨mid, hmid, hnext⟩⟩

end

theorem mem_askedAll_filter_condition (count : Reference → Nat) (number : Operation → Nat)
    {options : Options} {ops : List Operation} {g : Glob} :
    g ∈ askedAll options ((ops.filter (·.condition)).map fun o => o.recounted count (number o)) ↔
      g ∈ askedAll options ops := by
  induction ops with
  | nil => exact Iff.rfl
  | cons o rest ih =>
    rw [askedAll, List.mem_append]
    cases hc : o.condition with
    | false =>
      have hnone : g ∉ o.asked (ignoredBefore options rest) := by
        simp [mem_asked_iff, hc]
      rw [List.filter_cons_of_neg (by simp [hc]), ih, or_iff_right hnone]
    | true =>
      have hignored := removedBy_filter_condition count number rest
      rw [List.filter_cons_of_pos hc, List.map_cons, askedAll, List.mem_append, ih,
        ignoredBefore, hignored, asked_recounted]
      rfl

end Operation

namespace Project

variable {p : Project} {answer : Glob → Except EvalError (List String)} {r u : Reference}

theorem Coherent.exists_itemsAt_eq_ok_iff (hp : p.Coherent) (hr : p.InRange r) :
    (∃ m, p.itemsAt answer r = .ok m) ↔
      (∀ u, p.Needs r u → ∃ m, p.itemsAt answer u = .ok m) ∧
        ∀ g ∈ Operation.askedAll p.options (p.firstOperations r),
          ∃ values, answer g = .ok values := by
  have hentries : ∀ u, (∃ entries, (p.itemsAt answer u).map (·.entries) = .ok entries) ↔
      ∃ m, p.itemsAt answer u = .ok m := by
    intro u
    simp only [map_eq_ok_iff, exists_comm (α := List Entry), exists_and_left, exists_eq', and_true]
  rw [hp.itemsAt_eq hr, Operation.exists_attemptAll_eq_ok_iff]
  simp only [hentries]
  refine and_congr_left' ⟨?_, ?_⟩
  · rintro h u ⟨o, ho, hu⟩
    exact h o ho u hu
  · intro h o ho u hu
    exact h u ⟨o, ho, hu⟩

theorem Coherent.exists_itemsAt_of_reflTransGen (hp : p.Coherent) (hr : p.InRange r)
    (h : ∃ m, p.itemsAt answer r = .ok m) (hu : Relation.ReflTransGen p.Needs r u) :
    p.InRange u ∧ ∃ m, p.itemsAt answer u = .ok m := by
  induction hu with
  | refl => exact ⟨hr, h⟩
  | tail _ hneeds ih =>
    obtain ⟨hmid, hok⟩ := ih
    exact ⟨hp.inRange_of_needs hneeds, ((hp.exists_itemsAt_eq_ok_iff hmid).mp hok).1 _ hneeds⟩

theorem needs_active {o : Operation} (ho : o ∈ p.firstOperations r) (hc : o.condition = true)
    (hu : u ∈ o.outside) :
    p.active.Needs (r.recounted p.activeCount) (u.recounted p.activeCount) := by
  refine ⟨p.activated o, ?_, ?_⟩
  · rw [firstOperations_active]
    exact List.mem_map_of_mem (List.mem_filter.mpr ⟨ho, hc⟩)
  · rw [activated, Operation.outside_recounted]
    exact List.mem_map_of_mem hu

/-- What must be computed only for the sake of operations that do not apply. -/
def Idle (p : Project) (r u : Reference) : Prop :=
  ∃ v, Relation.ReflTransGen p.Needs r v ∧
    ∃ o ∈ p.firstOperations v, o.condition = false ∧ u ∈ o.outside

theorem Coherent.exists_itemsAt_iff_active (hp : p.Coherent) (hactive : p.active.Coherent)
    (hr : p.InRange r) :
    (∃ m, p.itemsAt answer r = .ok m) ↔
      (∃ m, p.active.itemsAt answer (r.recounted p.activeCount) = .ok m) ∧
        ∀ u, p.Idle r u → ∃ m, p.itemsAt answer u = .ok m := by
  constructor
  · rintro ⟨m, hm⟩
    obtain ⟨m', hm', _⟩ := hp.itemsAt_active hactive hr hm
    refine ⟨⟨m', hm'⟩, ?_⟩
    rintro u ⟨v, hv, o, ho, _, hu⟩
    have hchain : Relation.ReflTransGen p.Needs r u := hv.tail ⟨o, ho, hu⟩
    exact (hp.exists_itemsAt_of_reflTransGen hr ⟨m, hm⟩ hchain).2
  · rintro ⟨hok, hidle⟩
    induction r using hp.wellFounded_needs.induction with
    | h r ih =>
      obtain ⟨hneeds, hasked⟩ :=
        (hactive.exists_itemsAt_eq_ok_iff (p.inRange_active r)).mp hok
      refine (hp.exists_itemsAt_eq_ok_iff hr).mpr ⟨?_, ?_⟩
      · rintro u ⟨o, ho, hu⟩
        have hru : p.Needs r u := ⟨o, ho, hu⟩
        cases hc : o.condition with
        | false => exact hidle u ⟨r, .refl, o, ho, hc, hu⟩
        | true =>
          refine ih u hru (hp.inRange_of_needs hru) (hneeds _ (needs_active ho hc hu)) ?_
          rintro w ⟨v, hv, hw⟩
          exact hidle w ⟨v, hv.head hru, hw⟩
      · intro g hg
        refine hasked g ?_
        rw [firstOperations_active]
        exact (Operation.mem_askedAll_filter_condition p.activeCount p.activeOrder).mpr hg

theorem Coherent.exists_standsFor_iff (hp : p.Coherent) (hu : p.InRange u) (host : σ) :
    (∃ entries, p.StandsFor (σ := σ) (.fixed answer) u entries) ↔
      ∃ m, p.itemsAt answer u = .ok m := by
  constructor
  · rintro ⟨entries, h⟩
    obtain ⟨m, hm, _⟩ := h ⟨⟨host, []⟩, []⟩ rfl
    have hempty : Faithful (p.itemsAt answer) [] := List.forall_mem_nil _
    obtain ⟨hrun, _⟩ := hp.fold_yields (within_length_iff.mpr hu) ⟨⟨host, []⟩, []⟩ hempty
    exact ⟨m, hrun.symm.trans hm⟩
  · rintro ⟨m, hm⟩
    exact ⟨m.entries, hp.standsFor hu hm⟩

theorem Coherent.inRange_of_idle (hp : p.Coherent) (h : p.Idle r u) : p.InRange u := by
  obtain ⟨v, _, o, ho, _, hu⟩ := h
  exact hp.inRange_of_needs ⟨o, ho, hu⟩

/-- The items of a type can be computed after all declarations exactly if they can be without the
declarations that do not apply and if, besides, every list that these refer to can be computed. -/
theorem exists_materialize_iff_filter (id : EvaluationId) (options : Options) (steps : List Step)
    (answer : Glob → Except EvalError (List String)) (itemType : String) (host : σ) :
    let p := performAll { id, options } steps
    let p' := performAll { id, options } (steps.filter Step.applies)
    (∃ m, (p.materialize (.fixed answer) itemType host).1 = .ok m) ↔
      (∃ m, (p'.materialize (.fixed answer) itemType host).1 = .ok m) ∧
        ∀ u, p.Idle (p.fullReference itemType) u →
          ∃ entries, p.StandsFor (σ := σ) (.fixed answer) u entries := by
  intro p p'
  have hstart : Reachable { id, options } := .start id options
  have hp : p.Coherent := (hstart.performAll steps).coherent
  have hp' : p'.Coherent := (hstart.performAll (steps.filter Step.applies)).coherent
  have hactive : p.active = p' := hstart.active_performAll steps
  rw [hp.materialize_fst, hp'.materialize_fst, ← hactive, fullReference_active,
    hp.exists_itemsAt_iff_active (hactive ▸ hp') (Nat.le_refl _)]
  refine and_congr_right' (forall₂_congr fun u hu => ?_)
  exact (hp.exists_standsFor_iff (hp.inRange_of_idle hu) host).symm

def disabled : List Step :=
  [.declare { kind := .includes, itemType := "B", itemSpec := "*.c" },
    .declare { kind := .includes, itemType := "A", itemSpec := "@(B)", condition := false }]

/-- Nothing is added to the type that is asked for, with or without the Include that does not apply;
with it, the run fails on a glob of another type. -/
theorem materialize_error_disabled :
    let expander : Expander Unit :=
      .fixed (Expander.failingOn ["*.c"] "unreadable directory" fun _ => .ok [])
    let p : Project := performAll { id := ⟨"disabled"⟩ } disabled
    let p' : Project := performAll { id := ⟨"disabled"⟩ } (disabled.filter Step.applies)
    (p'.materialize expander "A" ()).1.map (·.entries) = .ok [] ∧
      (p.materialize expander "A" ()).1 = .error (.invalidGlob "*.c" "unreadable directory") := by
  intro expander p p'
  refine ⟨by decide +kernel, ?_⟩
  refine (map_eq_error_iff (f := fun _ => ())).mp ?_
  decide +kernel

end Project

end BuildItems
