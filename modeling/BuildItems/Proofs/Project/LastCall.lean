import BuildItems.Proofs.Operation.Mirror
import BuildItems.Proofs.Project.Recursion

/-!
# Only the expander fails

Watching an expander does not change a run. What the watch shows is that a run goes on while its
globs are expanded, and that it fails only with the failure of its last glob. So nothing else goes
wrong in a project that was reached by declarations: its references are in range, what is looked
up is what the specifications refer to, and its operations are valid.
-/

namespace BuildItems

variable {σ τ α ε : Type}

namespace Expander

abbrev Call := Glob × Except EvalError (List String)

def watched (expander : Expander σ) : Expander (σ × List Call) := fun g s =>
  let (answer, host) := expander g s.1
  (answer, host, s.2 ++ [(g, answer)])

theorem watched_mirrors (expander : Expander σ) :
    expander.watched.Mirrors Prod.fst expander := fun _ _ => rfl

def AllAnswered (calls : List Call) : Prop := ∀ c ∈ calls, ∃ values, c.2 = .ok values

def FailedLast (e : EvalError) (calls : List Call) : Prop :=
  ∃ before g, AllAnswered before ∧ calls = before ++ [(g, .error e)]

theorem AllAnswered.concat {calls : List Call} (h : AllAnswered calls) (g : Glob)
    (values : List String) : AllAnswered (calls ++ [(g, .ok values)]) := by
  intro c hc
  rcases List.mem_append.mp hc with hc | hc
  · exact h c hc
  · obtain rfl := List.mem_singleton.mp hc
    exact ⟨values, rfl⟩

/-- An answer goes with calls that were all answered, a failure with a last call that failed so. -/
def Explains (calls : List Call) : Except EvalError α → Prop
  | .ok _ => AllAnswered calls
  | .error e => FailedLast e calls

theorem preserves_watched (expander : Expander σ) :
    Operation.Preserves expander.watched (fun t => AllAnswered t.host.2)
      (fun e t => FailedLast e t.host.2) where
  log _ _ ht := ht
  expand g t ht := by
    rw [run_expand, watched]
    rcases expander g t.host.1 with ⟨e | values, host⟩
    · exact ⟨t.host.2, g, ht, rfl⟩
    · exact ht.concat g values

end Expander

namespace Project

variable {p : Project} {expander : Expander σ} {expander' : Expander τ} {f : σ → τ}

theorem foldFirst_mirrors (h : expander.Mirrors f expander') {find : Reference → Run σ (List Entry)}
    {find' : Reference → Run τ (List Entry)}
    (hfind : ∀ u, Mirrors (Session.view f) (find u) (find' u)) (p : Project) (i : Nat)
    (r : Reference) :
    Mirrors (Session.view f) (p.foldFirst expander i find r) (p.foldFirst expander' i find' r) := by
  unfold foldFirst
  dsimp only
  split
  · exact Operation.applyAll_mirrors h hfind p.options _ {}
  · exact fun _ => rfl

theorem fold_mirrors (h : expander.Mirrors f expander') (p : Project) (i : Nat) (r : Reference) :
    Mirrors (Session.view f) (p.fold expander i r) (p.fold expander' i r) := by
  induction i generalizing r with
  | zero =>
    rw [fold, fold]
    exact .memoized (foldFirst_mirrors h (fun _ => .ret []) p 0 r)
  | succ i ih =>
    rw [fold, fold]
    exact .memoized (foldFirst_mirrors h (fun u => .bind (ih u) fun m => .ret m.entries) p (i + 1) r)

theorem foldTypes_view (h : expander.Mirrors f expander') (p : Project) (ts : List String)
    (s : Session σ) :
    p.foldTypes expander' ts (s.view f) =
      ((p.foldTypes expander ts s).1, (p.foldTypes expander ts s).2.view f) := by
  induction ts generalizing s with
  | nil => rfl
  | cons t ts ih =>
    have hfirst : (p.foldType expander' t).run (s.view f) =
        (((p.foldType expander t).run s).1, ((p.foldType expander t).run s).2.view f) :=
      fold_mirrors h p _ _ s
    rcases hrun : (p.foldType expander t).run s with ⟨e | m, s'⟩
    · rw [hrun] at hfirst
      rw [foldTypes_cons_of_error hrun, foldTypes_cons_of_error hfirst]
    · rw [hrun] at hfirst
      rw [foldTypes_cons_of_ok hrun, foldTypes_cons_of_ok hfirst, ih s']

theorem logged_view {run : StateM (Session σ) (Except ε α)} {run' : StateM (Session τ) (Except ε α)}
    (h : ∀ s, run' (s.view f) = ((run s).1, (run s).2.view f)) (start : Log.Event)
    (finish : α → Log.Event) (failure : ε → Log.Event) (host : σ) :
    logged start finish failure run' (f host) =
      ((logged start finish failure run host).1,
        (logged start finish failure run host).2.view f) := by
  have hrun : run' ⟨⟨f host, [start]⟩, []⟩ = _ := h ⟨⟨host, [start]⟩, []⟩
  unfold logged
  rw [hrun]
  rcases run ⟨⟨host, [start]⟩, []⟩ with ⟨e | a, s⟩
  · rfl
  · rfl

theorem materialize_view (h : expander.Mirrors f expander') (p : Project) (itemType : String)
    (host : σ) :
    p.materialize expander' itemType (f host) =
      ((p.materialize expander itemType host).1,
        (p.materialize expander itemType host).2.view f) :=
  logged_view (fold_mirrors h p _ _) _ _ _ host

theorem materialize_watched (p : Project) (expander : Expander σ) (itemType : String) (host : σ) :
    p.materialize expander itemType host =
      ((p.materialize expander.watched itemType (host, [])).1,
        (p.materialize expander.watched itemType (host, [])).2.view Prod.fst) :=
  materialize_view expander.watched_mirrors p itemType (host, [])

theorem materializeAll_watched (p : Project) (expander : Expander σ) (host : σ) :
    p.materializeAll expander host =
      ((p.materializeAll expander.watched (host, [])).1,
        (p.materializeAll expander.watched (host, [])).2.view Prod.fst) := by
  unfold materializeAll
  rw [logged_view (foldTypes_view expander.watched_mirrors p _) _ _ _ (host, [])]

theorem Coherent.explains_materialize (hp : p.Coherent) (expander : Expander σ) (itemType : String)
    (host : σ) :
    Expander.Explains (p.materialize expander.watched itemType (host, [])).2.host.2
      (p.materialize expander.watched itemType (host, [])).1 := by
  have hexplains : ∀ s, Expander.AllAnswered s.trace.host.2 →
      Expander.Explains ((p.foldType expander.watched itemType).run s).2.trace.host.2
        ((p.foldType expander.watched itemType).run s).1 := by
    intro s hs
    have hkeeps := hp.foldType_keeps (Expander.preserves_watched expander) itemType s hs
    rcases hrun : (p.foldType expander.watched itemType).run s with ⟨e | m, s'⟩
    · rw [hrun] at hkeeps
      exact hkeeps
    · rw [hrun] at hkeeps
      exact hkeeps
  exact hexplains ⟨⟨(host, []), _⟩, []⟩ fun c hc => absurd hc List.not_mem_nil

theorem Coherent.explains_materializeAll (hp : p.Coherent) (expander : Expander σ) (host : σ) :
    Expander.Explains (p.materializeAll expander.watched (host, [])).2.host.2
      (p.materializeAll expander.watched (host, [])).1 := by
  have hexplains : ∀ s, Expander.AllAnswered s.trace.host.2 →
      Expander.Explains (p.foldTypes expander.watched p.itemTypes.names s).2.trace.host.2
        ((p.foldTypes expander.watched p.itemTypes.names s).1.mapError Prod.snd) := by
    intro s hs
    have hkeeps := hp.foldTypes_keeps (Expander.preserves_watched expander) p.itemTypes.names hs
    rcases hrun : p.foldTypes expander.watched p.itemTypes.names s with ⟨⟨t, e⟩ | ms, s'⟩
    · rw [hrun] at hkeeps
      exact hkeeps
    · rw [hrun] at hkeeps
      exact hkeeps
  exact hexplains ⟨⟨(host, []), _⟩, []⟩ fun c hc => absurd hc List.not_mem_nil

/-- Watched or not, a run does the same; it fails only with the failure of the last glob it
expands, after none that failed. So an error that the expander never answers is never reported,
and if the expander answers every glob, every run succeeds. -/
theorem failure_is_last_call (hp : p.Reachable) (expander : Expander σ) (host : σ) :
    (∀ itemType,
      let watched := p.materialize expander.watched itemType (host, [])
      p.materialize expander itemType host = (watched.1, watched.2.view Prod.fst) ∧
        Expander.Explains watched.2.host.2 watched.1) ∧
    (let watched := p.materializeAll expander.watched (host, [])
     p.materializeAll expander host = (watched.1, watched.2.view Prod.fst) ∧
      Expander.Explains watched.2.host.2 watched.1) ∧
    (∀ e, ¬ Answers expander e →
      (∀ itemType, (p.materialize expander itemType host).1 ≠ .error e) ∧
        (p.materializeAll expander host).1 ≠ .error e) ∧
    ((∀ g other, ∃ values, (expander g other).1 = .ok values) →
      (∀ itemType, ∃ m, (p.materialize expander itemType host).1 = .ok m) ∧
        ∃ ms, (p.materializeAll expander host).1 = .ok ms) := by
  have hcoherent := hp.coherent
  have hnever : ∀ e, ¬ Answers expander e →
      (∀ itemType, (p.materialize expander itemType host).1 ≠ .error e) ∧
        (p.materializeAll expander host).1 ≠ .error e := by
    intro e he
    exact ⟨fun itemType h => he (hcoherent.answers_of_materialize h),
      fun h => he (hcoherent.answers_of_materializeAll h)⟩
  refine ⟨fun itemType => ?_, ?_, hnever, fun hanswers => ?_⟩
  · exact ⟨p.materialize_watched expander itemType host,
      hcoherent.explains_materialize expander itemType host⟩
  · exact ⟨p.materializeAll_watched expander host,
      hcoherent.explains_materializeAll expander host⟩
  · have hnone : ∀ e, ¬ Answers expander e := by
      rintro e ⟨g, other, h⟩
      obtain ⟨values, hvalues⟩ := hanswers g other
      rw [hvalues] at h
      cases h
    exact ⟨fun itemType => exists_eq_ok fun e => (hnever e (hnone e)).1 itemType,
      exists_eq_ok fun e => (hnever e (hnone e)).2⟩

def globbed : Project :=
  declareAll { id := ⟨"globbed"⟩ }
    [{ kind := .includes, itemType := "A", itemSpec := "*.a;*.b;*.c" },
      { kind := .includes, itemType := "B", itemSpec := "*.d;@(A)" }]

theorem reachable_globbed : globbed.Reachable := (Reachable.start ⟨"globbed"⟩ {}).declareAll _

/-- The second glob of the other type fails, so the third is not expanded. -/
theorem failure_is_last_call_globbed :
    let expander : Expander Unit := .fixed (Expander.failingOn ["*.b"] "unreadable" fun _ => .ok [])
    let watched := globbed.materialize expander.watched "B" ((), [])
    watched.1 = .error (.invalidGlob "*.b" "unreadable") ∧
      Expander.FailedLast (.invalidGlob "*.b" "unreadable") watched.2.host.2 ∧
      watched.2.host.2.map (·.1.text) = ["*.a", "*.b"] := by
  intro expander
  have hfails : (globbed.materialize expander.watched "B" ((), [])).1 =
      .error (.invalidGlob "*.b" "unreadable") := by
    refine (map_eq_error_iff (f := fun _ => ())).mp ?_
    decide +kernel
  have hexplains := ((failure_is_last_call reachable_globbed expander ()).1 "B").2
  rw [hfails] at hexplains
  refine ⟨hfails, hexplains, ?_⟩
  decide +kernel

end Project

end BuildItems
