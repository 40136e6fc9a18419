import BuildItems.Proofs.Project.Finishing
import BuildItems.Proofs.Project.LastCall

/-!
# Runs with an account

A run with an account is the plain run with the beginning and the end of every computation written
down; seen without its account it is the plain run. It finishes the prefix that it is asked for and
all that this needs, and nothing twice.
-/

namespace BuildItems

variable {σ : Type}

namespace Project

def foldAccounted (p : Project) (expander : Expander σ) :
    Nat → Reference → Run (σ × Account) Materialized
  | 0, r => Run.memoized r (Run.accounted r (p.foldFirst expander.accounted 0 (fun _ => pure []) r))
  | earlier + 1, r =>
    let find := entriesOf (p.foldAccounted expander earlier)
    Run.memoized r (Run.accounted r (p.foldFirst expander.accounted (earlier + 1) find r))

def foldTypeAccounted (p : Project) (expander : Expander σ) (itemType : String) :
    Run (σ × Account) Materialized :=
  p.foldAccounted expander p.operations.length (p.fullReference itemType)

def inTurn (run : String → Run σ Materialized) : List String → Session σ →
    Except (String × EvalError) (List (String × Materialized)) × Session σ
  | [], s => (.ok [], s)
  | t :: ts, s =>
    match (run t).run s with
    | (.error e, s') => (.error (t, e), s')
    | (.ok m, s') =>
      let (ms, last) := inTurn run ts s'
      (ms.map ((t, m) :: ·), last)

theorem foldTypes_eq_inTurn (p : Project) (expander : Expander σ) (ts : List String)
    (s : Session σ) : p.foldTypes expander ts s = inTurn (p.foldType expander) ts s := by
  induction ts generalizing s with
  | nil => rfl
  | cons t ts ih =>
    rw [inTurn]
    rcases hrun : (p.foldType expander t).run s with ⟨e | m, s'⟩
    · exact foldTypes_cons_of_error hrun
    · rw [foldTypes_cons_of_ok hrun, ih]

theorem foldAccounted_mirrors (p : Project) (expander : Expander σ) (i : Nat) (r : Reference) :
    Mirrors (Session.view Prod.fst) (p.foldAccounted expander i r) (p.fold expander i r) := by
  induction i generalizing r with
  | zero =>
    rw [fold, foldAccounted]
    exact .memoized (.accounted
      (foldFirst_mirrors expander.accounted_mirrors (fun _ => .ret []) p 0 r))
  | succ i ih =>
    rw [fold, foldAccounted]
    exact .memoized (.accounted (foldFirst_mirrors expander.accounted_mirrors
      (fun u => .bind (ih u) fun m => .ret m.entries) p (i + 1) r))

theorem inTurn_view {S : Type} {f : S → σ} {run : String → Run S Materialized}
    {run' : String → Run σ Materialized} (h : ∀ t, Mirrors (Session.view f) (run t) (run' t))
    (ts : List String) (s : Session S) :
    inTurn run' ts (s.view f) = ((inTurn run ts s).1, (inTurn run ts s).2.view f) := by
  induction ts generalizing s with
  | nil => rfl
  | cons t ts ih =>
    rw [inTurn, inTurn, h t s]
    rcases (run t).run s with ⟨e | m, s'⟩
    · rfl
    · dsimp only
      rw [ih s']

def opening (p : Project) (itemType : String) : Log.Event :=
  .start "materialize" [component, (Log.Field.evaluationId, .text p.id.text),
    (Log.Field.itemType, .text itemType)]

def closing (p : Project) (itemType : String) (m : Materialized) : Log.Event :=
  .finish "materialize" .elapsed [component, (Log.Field.itemType, .text itemType),
    (Log.Field.opCount, .number (p.operationCount itemType)),
    (Log.Field.itemCount, .number m.entries.length),
    (Log.Field.globCount, .number m.removedGlobs.size)]

def failing (itemType : String) (e : EvalError) : Log.Event :=
  .failure "materialize" .elapsed e [component, (Log.Field.itemType, .text itemType)]

def openingAll (p : Project) : Log.Event :=
  .start "materialize_all" [component, (Log.Field.evaluationId, .text p.id.text)]

def closingAll (ms : List (String × Materialized)) : Log.Event :=
  .finish "materialize_all" .elapsed [component, (Log.Field.itemCount, .number ms.length)]

def failingAll (failure : String × EvalError) : Log.Event :=
  .failure "materialize_all" .elapsed failure.2
    [component, (Log.Field.itemType, .text failure.1)]

theorem materialize_eq_logged (p : Project) (expander : Expander σ) (itemType : String) (host : σ) :
    p.materialize expander itemType host =
      logged (p.opening itemType) (p.closing itemType) (failing itemType)
        (p.foldType expander itemType).run host := rfl

theorem materializeAll_eq_logged (p : Project) (expander : Expander σ) (host : σ) :
    p.materializeAll expander host =
      let run := logged p.openingAll closingAll failingAll
        (p.foldTypes expander p.itemTypes.names) host
      (run.1.mapError Prod.snd, run.2) := rfl

def materializeAccounted (p : Project) (expander : Expander σ) (itemType : String) (host : σ) :
    Except EvalError Materialized × Trace (σ × Account) :=
  logged (p.opening itemType) (p.closing itemType) (failing itemType)
    (p.foldTypeAccounted expander itemType).run (host, Account.opened)

def materializeAllAccounted (p : Project) (expander : Expander σ) (host : σ) :
    Except (String × EvalError) (List (String × Materialized)) × Trace (σ × Account) :=
  logged p.openingAll closingAll failingAll
    (inTurn (p.foldTypeAccounted expander) p.itemTypes.names) (host, Account.opened)

theorem materialize_accounted (p : Project) (expander : Expander σ) (itemType : String) (host : σ) :
    p.materialize expander itemType host =
      ((p.materializeAccounted expander itemType host).1,
        (p.materializeAccounted expander itemType host).2.view Prod.fst) := by
  rw [materialize_eq_logged]
  exact logged_view (p.foldAccounted_mirrors expander _ _) _ _ _ (host, Account.opened)

theorem materializeAll_accounted (p : Project) (expander : Expander σ) (host : σ) :
    p.materializeAll expander host =
      ((p.materializeAllAccounted expander host).1.mapError Prod.snd,
        (p.materializeAllAccounted expander host).2.view Prod.fst) := by
  let run := inTurn (p.foldTypeAccounted expander) p.itemTypes.names
  have hview : ∀ s, p.foldTypes expander p.itemTypes.names (Session.view Prod.fst s) =
      ((run s).1, (run s).2.view Prod.fst) := fun s =>
    (p.foldTypes_eq_inTurn expander _ _).trans
      (inTurn_view (fun t => p.foldAccounted_mirrors expander _ (p.fullReference t)) _ s)
  rw [materializeAll_eq_logged, logged_view hview _ _ _ (host, Account.opened)]
  rfl

variable {p : Project} {opening : Log.Event} {i : Nat} {r : Reference} {expander : Expander σ}
  {under : List Episode} {ended : List (Episode × Materialized)} {e : Episode} {m : Materialized}

/-- The computation of `r` came to its end, but is not remembered yet. -/
def Ended (p : Project) (opening : Log.Event) (r : Reference) (under : List Episode)
    (ended : List (Episode × Materialized)) (m : Materialized) (s : Session (σ × Account)) :
    Prop :=
  ∃ new e, e.reference = r ∧ (∀ y ∈ new, Relation.TransGen p.Needs r y.1.reference) ∧
    Balanced opening under (ended ++ new ++ [(e, m)]) s.trace ∧
    s.memo = memoOf (ended ++ new) ∧ Sound p under (ended ++ new ++ [(e, m)])

theorem triple_enter (p : Project) (opening : Log.Event) (r : Reference) :
    Triple (Recorded p opening under ended) (Run.note (σ := σ) (·.enter · r))
      (fun _ => Midway p opening r under ended [] [] []) (Interrupted p opening) := by
  intro s hs
  refine ⟨[], [], List.forall_mem_nil _, List.forall_mem_nil _, rfl, ?_⟩
  rw [List.append_nil]
  exact ⟨hs.balanced.enter r, hs.memo, { hs.sound with
    silent := List.forall_mem_cons.mpr ⟨List.forall_mem_nil _, hs.sound.silent⟩ }⟩

theorem Coherent.triple_leave (hp : p.Coherent) (hr : p.InRange r) (hnew : r ∉ computed ended)
    {counts : List Nat} (hcounts : counts.length = (p.firstOperations r).length)
    (hlast : counts.getLastD 0 = m.entries.length) :
    Triple
      (Midway p opening r under ended
        (List.zipWith Operation.appliedOperation (p.firstOperations r) counts)
        (Operation.askedAll p.options (p.firstOperations r))
        ((p.firstOperations r).flatMap Operation.outside))
      (Run.note (σ := σ) (·.leave · m)) (fun _ => Ended p opening r under ended m)
      (Interrupted p opening) := by
  rintro s ⟨new, told, hneeded, hfound, hreports, hrecorded⟩
  refine ⟨new, _, rfl, hneeded, hrecorded.balanced.leave m, hrecorded.memo, ?_⟩
  refine hrecorded.sound.leave ?_ ⟨hr, rfl, counts, hcounts, hlast, hreports⟩ fun u hu => ?_
  · -- what was finished meanwhile is needed by `r`, so `r` among it would need itself
    rw [computed_append, List.mem_append, not_or]
    refine ⟨hnew, fun hmem => ?_⟩
    obtain ⟨y, hy, (heq : y.1.reference = r)⟩ := List.mem_map.mp hmem
    exact hp.not_transGen_needs r (heq ▸ hneeded y hy)
  · obtain ⟨o, ho, hu⟩ := hu
    exact hfound u (List.mem_flatMap.mpr ⟨o, ho, hu⟩)

theorem Coherent.triple_accounted (hp : p.Coherent) (expander : Expander σ) (hr : p.Within i r)
    {find : Reference → Run (σ × Account) (List Entry)}
    (hfind : ∀ u, p.Needs r u → Finishes p opening u (·.entries) (find u))
    (hnew : r ∉ computed ended) :
    Triple (Recorded p opening under ended)
      (Run.accounted r (p.foldFirst expander.accounted i find r))
      (Ended p opening r under ended) (Interrupted p opening) := by
  rw [foldFirst_eq hr]
  refine .bind (triple_enter p opening r) fun _ => ?_
  have hall : ∀ o ∈ p.firstOperations r, Operation.FindsAll p opening r find o.outside :=
    fun o ho u hu => ⟨⟨o, ho, hu⟩, hfind u ⟨o, ho, hu⟩⟩
  refine .bind (Operation.applyAll_midway hall {} [] [] []) fun m => ?_
  rintro s ⟨counts, hcounts, hlast, hmidway⟩
  rw [List.nil_append, List.nil_append, List.nil_append] at hmidway
  exact Triple.bind (hp.triple_leave hr.inRange hnew hcounts hlast) (fun _ => .ret fun _ hs => hs)
    s hmidway

theorem Coherent.finishes_memoized (hp : p.Coherent) (hr : p.Within i r)
    {find : Reference → Run (σ × Account) (List Entry)}
    (hfind : ∀ u, p.Needs r u → Finishes p opening u (·.entries) (find u)) :
    Finishes p opening r (fun m => m)
      (Run.memoized r (Run.accounted r (p.foldFirst expander.accounted i find r))) := by
  intro under ended s hs
  rw [run_memoized]
  cases hlook : s.memo.lookup r with
  | some m =>
    obtain ⟨e, hmem, he⟩ := hs.exists_mem_of_lookup hlook
    refine ⟨[], List.forall_mem_nil _, ⟨e, m, ?_, he, rfl⟩, ?_⟩
    · exact List.mem_append_left _ hmem
    · rwa [List.append_nil]
  | none =>
    have hended := hp.triple_accounted expander hr hfind (hs.not_mem_computed hlook) s hs
    rcases hrun : (Run.accounted r (p.foldFirst expander.accounted i find r)).run s with ⟨e | m, t⟩
    · rw [hrun] at hended
      exact hended
    · rw [hrun] at hended
      obtain ⟨new, e, rfl, hneeded, hbalanced, hmemo, hsound⟩ := hended
      rw [List.append_assoc] at hbalanced hsound
      refine ⟨new ++ [(e, m)], ?_, ⟨e, m, ?_, rfl, rfl⟩, hbalanced, ?_, hsound⟩
      · exact List.forall_mem_append.mpr
          ⟨fun y hy => (hneeded y hy).to_reflTransGen, List.forall_mem_singleton.mpr .refl⟩
      · exact List.mem_append_right _ List.mem_concat_self
      · rw [← List.append_assoc, memoOf_concat, hmemo]

theorem Coherent.finishes_foldAccounted (hp : p.Coherent) (expander : Expander σ)
    (hr : p.Within i r) : Finishes p opening r (fun m => m) (p.foldAccounted expander i r) := by
  induction i generalizing r with
  | zero =>
    rw [foldAccounted]
    exact hp.finishes_memoized hr fun u hu => absurd hu (not_needs_of_within_zero hr)
  | succ i ih =>
    rw [foldAccounted]
    refine hp.finishes_memoized hr fun u hu under ended => ?_
    refine .bind (ih (hp.within_of_needs hr hu) under ended) fun m => .ret ?_
    rintro s ⟨new, hneeded, ⟨e, m', hmem, he, rfl⟩, hrecorded⟩
    exact ⟨new, hneeded, ⟨e, _, hmem, he, rfl⟩, hrecorded⟩

theorem recorded_opened (p : Project) (opening : Log.Event) (host : σ) :
    Recorded p opening [] [] ⟨⟨(host, Account.opened), [opening]⟩, []⟩ where
  balanced := .start opening host
  memo := rfl
  sound := ⟨List.forall_mem_nil _, List.Pairwise.nil, List.forall_mem_nil _, List.forall_mem_nil _⟩

theorem Coherent.finishes_foldTypeAccounted (hp : p.Coherent) (expander : Expander σ)
    (itemType : String) :
    Finishes p opening (p.fullReference itemType) (fun m => m)
      (p.foldTypeAccounted expander itemType) :=
  hp.finishes_foldAccounted expander (p.within_fullReference itemType)

theorem Coherent.inTurn_recorded (hp : p.Coherent) (expander : Expander σ) (ts : List String)
    {s : Session (σ × Account)} (hs : Recorded p opening [] ended s) :
    match inTurn (p.foldTypeAccounted expander) ts s with
    | (.ok _, s') => ∃ new,
        (∀ y ∈ new, ∃ t ∈ ts, Relation.ReflTransGen p.Needs (p.fullReference t) y.1.reference) ∧
          (∀ t ∈ ts, p.fullReference t ∈ computed (ended ++ new)) ∧
          Recorded p opening [] (ended ++ new) s'
    | (.error (_, e), s') => Interrupted p opening e s' := by
  induction ts generalizing ended s with
  | nil => exact ⟨[], List.forall_mem_nil _, List.forall_mem_nil _, by rwa [List.append_nil]⟩
  | cons t ts ih =>
    have hfirst := hp.finishes_foldTypeAccounted expander t [] ended s hs
    rw [inTurn]
    rcases hrun : (p.foldTypeAccounted expander t).run s with ⟨e | m, s'⟩
    · rw [hrun] at hfirst
      exact hfirst
    · rw [hrun] at hfirst
      obtain ⟨new, hneeded, ⟨e, _, hmem, he, rfl⟩, hrecorded⟩ := hfirst
      have hrest := ih hrecorded
      dsimp only
      rcases hturn : inTurn (p.foldTypeAccounted expander) ts s' with ⟨⟨t', e'⟩ | ms, s''⟩
      · rw [hturn] at hrest
        exact hrest
      · rw [hturn] at hrest
        obtain ⟨later, hlater, hfound, hrecorded'⟩ := hrest
        rw [List.append_assoc] at hfound hrecorded'
        refine ⟨new ++ later, List.forall_mem_append.mpr ⟨fun y hy => ?_, fun y hy => ?_⟩,
          List.forall_mem_cons.mpr ⟨?_, hfound⟩, hrecorded'⟩
        · exact ⟨t, List.mem_cons_self, hneeded y hy⟩
        · obtain ⟨t', ht', hreach⟩ := hlater y hy
          exact ⟨t', List.mem_cons_of_mem t ht', hreach⟩
        · rw [← he, ← List.append_assoc, computed_append]
          exact List.mem_append_left _ (mem_computed_of_mem hmem)

/-- Whether it succeeds or fails, a run leaves an account that is balanced and sound. After a success
nothing is underway, and what is finished is the prefix asked for and what it needs. -/
theorem Coherent.exists_recorded_foldTypeAccounted (hp : p.Coherent) (expander : Expander σ)
    (itemType : String) {s : Session (σ × Account)} (hs : Recorded p opening [] [] s) :
    let run := (p.foldTypeAccounted expander itemType).run s
    ∃ under ended, Recorded p opening under ended run.2 ∧ ∀ m, run.1 = .ok m →
      under = [] ∧
        (∀ x ∈ ended, Relation.ReflTransGen p.Needs (p.fullReference itemType) x.1.reference) ∧
        ∃ e, (e, m) ∈ ended ∧ e.reference = p.fullReference itemType := by
  have hfinishes := hp.finishes_foldTypeAccounted expander itemType [] [] s hs
  rcases hrun : (p.foldTypeAccounted expander itemType).run s with ⟨e | m, s'⟩
  · rw [hrun] at hfinishes
    obtain ⟨under, ended, hrecorded⟩ := hfinishes
    exact ⟨under, ended, hrecorded, fun _ h => nomatch h⟩
  · rw [hrun] at hfinishes
    obtain ⟨ended, hneeded, ⟨e, _, hmem, he, rfl⟩, hrecorded⟩ := hfinishes
    refine ⟨[], ended, hrecorded, fun _ h => ?_⟩
    cases h
    exact ⟨rfl, hneeded, e, hmem, he⟩

theorem Coherent.exists_recorded_inTurn (hp : p.Coherent) (expander : Expander σ)
    (ts : List String) {s : Session (σ × Account)} (hs : Recorded p opening [] [] s) :
    let run := inTurn (p.foldTypeAccounted expander) ts s
    ∃ under ended, Recorded p opening under ended run.2 ∧ ∀ ms, run.1 = .ok ms →
      under = [] ∧
        (∀ x ∈ ended, ∃ t ∈ ts,
          Relation.ReflTransGen p.Needs (p.fullReference t) x.1.reference) ∧
        ∀ t ∈ ts, p.fullReference t ∈ computed ended := by
  have hturn := hp.inTurn_recorded expander ts hs
  rcases hrun : inTurn (p.foldTypeAccounted expander) ts s with ⟨⟨t, e⟩ | ms, s'⟩
  · rw [hrun] at hturn
    obtain ⟨under, ended, hrecorded⟩ := hturn
    exact ⟨under, ended, hrecorded, fun _ h => nomatch h⟩
  · rw [hrun] at hturn
    obtain ⟨ended, hneeded, hfound, hrecorded⟩ := hturn
    exact ⟨[], ended, hrecorded, fun _ _ => ⟨rfl, hneeded, hfound⟩⟩

end Project

end BuildItems
