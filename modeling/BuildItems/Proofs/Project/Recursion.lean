import BuildItems.Proofs.Operation.Advance

/-!
# The recursion along references

Computing a prefix computes the prefixes it needs, whatever the expander. The recursion could do
without the horizon that bounds it: no prefix is computed again while it is being computed, and
every prefix that is looked for is there. So a run fails only as its expander does.
-/

namespace BuildItems

variable {σ : Type}

namespace Project

variable {p : Project} {i j : Nat} {r : Reference} {expander : Expander σ}
  {find find' : Reference → Run σ (List Entry)}

theorem foldFirst_eq (hr : p.Within i r) :
    p.foldFirst expander i find r =
      Operation.applyAll find expander p.options (p.firstOperations r) {} := by
  rw [foldFirst, hr.take_operationsBefore]
  exact if_pos hr

/-- Only the prefixes that a prefix needs are looked for. -/
theorem foldFirst_congr (hi : p.Within i r) (hj : p.Within j r)
    (h : ∀ u, p.Needs r u → find u = find' u) :
    p.foldFirst expander i find r = p.foldFirst expander j find' r := by
  rw [foldFirst_eq hi, foldFirst_eq hj]
  exact Operation.applyAll_congr fun o ho u hu => h u ⟨o, ho, hu⟩

def entriesOf (run : Reference → Run σ Materialized) (u : Reference) : Run σ (List Entry) := do
  let m ← run u
  pure m.entries

def foldStep (p : Project) (expander : Expander σ) (horizon : Nat)
    (run : Reference → Run σ Materialized) (r : Reference) : Run σ Materialized :=
  Run.memoized r (p.foldFirst expander horizon (entriesOf run) r)

theorem staged_fold (p : Project) (expander : Expander σ) :
    p.Staged (p.fold expander) (p.foldStep expander) where
  zero := ⟨fun _ => pure {}, rfl⟩
  succ _ := rfl
  congr hi hj h := by
    rw [foldStep, foldStep, foldFirst_congr hi hj fun u hu => ?_]
    rw [entriesOf, entriesOf, h u hu]

def foldPrefix (p : Project) (expander : Expander σ) (r : Reference) : Run σ Materialized :=
  p.fold expander p.operations.length r

/-- The recursion with the prefixes that are being computed: it is an error to begin with one of
them again. -/
def foldGuarded (p : Project) (expander : Expander σ) :
    Nat → List Reference → Reference → Run σ Materialized
  | 0, active, r =>
    if r ∈ active then throw (.internal "reference entered again")
    else p.foldStep expander 0 (fun _ => pure {}) r
  | earlier + 1, active, r =>
    if r ∈ active then throw (.internal "reference entered again")
    else p.foldStep expander (earlier + 1) (p.foldGuarded expander earlier (r :: active)) r

theorem Coherent.foldGuarded_eq (hp : p.Coherent) {active : List Reference} (hr : p.Within i r)
    (hactive : ∀ a ∈ active, Relation.TransGen p.Needs a r) :
    p.foldGuarded expander i active r = p.fold expander i r := by
  -- what is being computed needs `r`, so `r` among it would need itself
  have hnew : r ∉ active := fun h => hp.not_transGen_needs r (hactive r h)
  induction i generalizing active r with
  | zero =>
    rw [foldGuarded, if_neg hnew]
    rfl
  | succ i ih =>
    rw [foldGuarded, if_neg hnew, (p.staged_fold expander).succ]
    refine (p.staged_fold expander).congr hr hr fun u hu => ?_
    have hchain : ∀ a ∈ r :: active, Relation.TransGen p.Needs a u := by
      intro a ha
      rcases List.mem_cons.mp ha with rfl | ha
      · exact .single hu
      · exact .tail (hactive a ha) hu
    exact ih (hp.within_of_needs hr hu) hchain fun h => hp.not_transGen_needs u (hchain u h)

theorem Coherent.valid_of_mem_firstOperations (hp : p.Coherent) {o : Operation}
    (ho : o ∈ p.firstOperations r) : o.validate = .ok () :=
  (hp.followsOn (mem_operations_of_mem_firstOperations ho).1).2.valid

section

variable {good : Trace σ → Prop} {failed : EvalError → Trace σ → Prop}

theorem Coherent.foldFirst_keeps (hp : p.Coherent)
    (h : Operation.Preserves expander good failed) (hr : p.Within i r)
    (hfind : ∀ u, p.Needs r u → Operation.Keeps good failed (find u)) :
    Operation.Keeps good failed (p.foldFirst expander i find r) := by
  rw [foldFirst_eq hr]
  exact Operation.applyAll_keeps h (fun o ho => hp.valid_of_mem_firstOperations ho)
    fun o ho u hu => hfind u ⟨o, ho, hu⟩

theorem Coherent.fold_keeps (hp : p.Coherent) (h : Operation.Preserves expander good failed)
    (hr : p.Within i r) : Operation.Keeps good failed (p.fold expander i r) := by
  induction i generalizing r with
  | zero =>
    rw [fold]
    exact .memoized (hp.foldFirst_keeps h hr fun u hu => absurd hu (not_needs_of_within_zero hr))
  | succ i ih =>
    rw [fold]
    refine .memoized (hp.foldFirst_keeps h hr fun u hu => ?_)
    exact .bind (ih (hp.within_of_needs hr hu)) fun _ => .ret fun _ hs => hs

theorem within_fullReference (p : Project) (itemType : String) :
    p.Within p.operations.length (p.fullReference itemType) :=
  within_length_iff.mpr (Nat.le_refl _)

theorem firstOperations_fullReference (p : Project) (itemType : String) :
    p.firstOperations (p.fullReference itemType) = p.operationsOf itemType :=
  List.take_length

theorem Coherent.foldType_keeps (hp : p.Coherent) (h : Operation.Preserves expander good failed)
    (itemType : String) : Operation.Keeps good failed (p.foldType expander itemType) :=
  hp.fold_keeps h (p.within_fullReference itemType)

theorem foldTypes_cons_of_error {t : String} {ts : List String} {s s' : Session σ} {e : EvalError}
    (h : (p.foldType expander t).run s = (.error e, s')) :
    p.foldTypes expander (t :: ts) s = (.error (t, e), s') := by
  rw [foldTypes]
  change StateT.bind (p.foldType expander t).run _ s = _
  rw [StateT.bind, h]
  rfl

theorem foldTypes_cons_of_ok {t : String} {ts : List String} {s s' : Session σ} {m : Materialized}
    (h : (p.foldType expander t).run s = (.ok m, s')) :
    p.foldTypes expander (t :: ts) s =
      ((p.foldTypes expander ts s').1.map ((t, m) :: ·), (p.foldTypes expander ts s').2) := by
  rw [foldTypes]
  change StateT.bind (p.foldType expander t).run _ s = _
  rw [StateT.bind, h]
  change StateT.bind (p.foldTypes expander ts) _ s' = _
  rw [StateT.bind]
  rcases p.foldTypes expander ts s' with ⟨e | ms, s''⟩
  · rfl
  · rfl

theorem Coherent.foldTypes_keeps (hp : p.Coherent) (h : Operation.Preserves expander good failed)
    (ts : List String) {s : Session σ} (hs : good s.trace) :
    match p.foldTypes expander ts s with
    | (.ok _, s') => good s'.trace
    | (.error (_, e), s') => failed e s'.trace := by
  induction ts generalizing s with
  | nil => exact hs
  | cons t ts ih =>
    have hfirst := hp.foldType_keeps h t s hs
    rcases hrun : (p.foldType expander t).run s with ⟨e | m, s'⟩
    · rw [hrun] at hfirst
      rw [foldTypes_cons_of_error hrun]
      exact hfirst
    · rw [hrun] at hfirst
      have hrest := ih hfirst
      rw [foldTypes_cons_of_ok hrun]
      revert hrest
      rcases p.foldTypes expander ts s' with ⟨⟨_, e⟩ | ms, s''⟩
      · exact fun hrest => hrest
      · exact fun hrest => hrest

end

/-- Whether the expander answers some glob with this error in some state. -/
def Answers (expander : Expander σ) (e : EvalError) : Prop :=
  ∃ g host, (expander g host).1 = .error e

theorem preserves_answers (expander : Expander σ) :
    Operation.Preserves expander (fun _ => True) fun e _ => Answers expander e where
  log _ _ _ := trivial
  expand g t _ := by
    rw [run_expand]
    cases h : (expander g t.host).1 with
    | error e => exact ⟨g, t.host, h⟩
    | ok values => trivial

theorem exists_materialize_eq (p : Project) (expander : Expander σ) (itemType : String)
    (host : σ) :
    ∃ s : Session σ, s.memo = [] ∧
      (p.materialize expander itemType host).1 = ((p.foldType expander itemType).run s).1 :=
  ⟨_, rfl, rfl⟩

theorem exists_materializeAll_eq (p : Project) (expander : Expander σ) (host : σ) :
    ∃ s : Session σ, s.memo = [] ∧ (p.materializeAll expander host).1 =
      (p.foldTypes expander p.itemTypes.names s).1.mapError Prod.snd :=
  ⟨_, rfl, rfl⟩

theorem Coherent.answers_of_materialize (hp : p.Coherent) {itemType : String} {host : σ}
    {e : EvalError} (h : (p.materialize expander itemType host).1 = .error e) :
    Answers expander e := by
  obtain ⟨s, _, hrun⟩ := p.exists_materialize_eq expander itemType host
  rw [hrun] at h
  exact (hp.foldType_keeps (preserves_answers expander) itemType).of_eq_error trivial h

theorem Coherent.answers_of_materializeAll (hp : p.Coherent) {host : σ} {e : EvalError}
    (h : (p.materializeAll expander host).1 = .error e) : Answers expander e := by
  obtain ⟨s, _, hrun⟩ := p.exists_materializeAll_eq expander host
  rw [hrun] at h
  have hkeeps := hp.foldTypes_keeps (preserves_answers expander) p.itemTypes.names
    (s := s) trivial
  rcases hs : p.foldTypes expander p.itemTypes.names s with ⟨⟨t, e'⟩ | ms, s'⟩
  · rw [hs] at h hkeeps
    cases h
    exact hkeeps
  · rw [hs] at h
    cases h

/-- References only look back, so the recursion along them ends: every reference to another type
sees operations that are all there and were all declared before; the recursion needs no horizon
and never begins again with a prefix it is computing; and no reference is reported out of range
unless the expander reports it. -/
theorem recursion_wellFounded (hp : p.Reachable) (expander : Expander σ) :
    (∀ o ∈ p.operations, ∀ s ∈ o.specs, ∀ r ∈ s.references, r.itemType ≠ o.itemType →
      r.opCount ≤ p.operationCount r.itemType ∧
        ∀ o' ∈ (p.operationsOf r.itemType).take r.opCount, o'.order < o.order) ∧
    (WellFounded fun u r => p.Needs r u) ∧
    (∀ r, p.InRange r →
      (∀ run : Reference → Run σ Materialized,
        (∀ u, p.Needs r u → run u = p.foldPrefix expander u) →
          p.foldPrefix expander r = p.foldStep expander p.operations.length run r) ∧
        p.foldGuarded expander p.operations.length [] r = p.foldPrefix expander r) ∧
    ∀ host itemType u count available,
      (p.materialize expander itemType host).1 = .error (.referenceOutOfRange u count available) ∨
        (p.materializeAll expander host).1 = .error (.referenceOutOfRange u count available) →
      Answers expander (.referenceOutOfRange u count available) := by
  have hcoherent := hp.coherent
  refine ⟨?_, hcoherent.wellFounded_needs, ?_, ?_⟩
  · intro o ho s hs r hr _
    have hwithin := hcoherent.within_of_mem_references ho hs hr
    exact ⟨hwithin.inRange, fun o' ho' => hwithin.order_lt hcoherent ho'⟩
  · intro r hr
    have hwithin := within_length_iff.mpr hr
    exact ⟨fun run hrun => (p.staged_fold expander).unfold hcoherent hwithin hrun,
      hcoherent.foldGuarded_eq hwithin fun a ha => absurd ha List.not_mem_nil⟩
  · rintro host itemType u count available (h | h)
    · exact hcoherent.answers_of_materialize h
    · exact hcoherent.answers_of_materializeAll h

/-- Each type needs the other, and still the recursion comes to an end. -/
theorem recursion_wellFounded_crossed :
    (crossed {}).Needs ⟨"A", 2⟩ ⟨"B", 1⟩ ∧ (crossed {}).Needs ⟨"B", 1⟩ ⟨"A", 1⟩ ∧
      (WellFounded fun u r => (crossed {}).Needs r u) ∧
      (crossed {}).foldGuarded (.fixed Expander.nothing) (crossed {}).operations.length []
        ((crossed {}).fullReference "B") =
          (crossed {}).foldPrefix (σ := Unit) (.fixed Expander.nothing)
            ((crossed {}).fullReference "B") := by
  obtain ⟨_, hneeds, hfold, _⟩ :=
    recursion_wellFounded (reachable_crossed {}) (.fixed (σ := Unit) Expander.nothing)
  refine ⟨?_, ?_, hneeds, (hfold _ (Nat.le_refl _)).2⟩
  · decide +kernel
  · decide +kernel

end Project

end BuildItems
