import BuildItems.Proofs.Run

/-!
# Runs with more state

An expander may carry more state than another and answer the same. A run with the first then
mirrors the run with the second: the answers are equal, and so are the states once what is carried
in addition is left out of view.
-/

namespace BuildItems

variable {S T σ τ α β ι : Type}

/-- The second run is the first one seen through a view of its states. -/
def Mirrors (view : S → T) (x : ExceptT EvalError (StateM S) α)
    (y : ExceptT EvalError (StateM T) α) : Prop :=
  ∀ s, y.run (view s) = ((x.run s).1, view (x.run s).2)

namespace Mirrors

variable {view : S → T}

theorem ret (a : α) : Mirrors view (pure a) (pure a) := fun _ => rfl

theorem bind {x : ExceptT EvalError (StateM S) α} {y : ExceptT EvalError (StateM T) α}
    {f : α → ExceptT EvalError (StateM S) β} {g : α → ExceptT EvalError (StateM T) β}
    (hx : Mirrors view x y) (hf : ∀ a, Mirrors view (f a) (g a)) :
    Mirrors view (x >>= f) (y >>= g) := by
  intro s
  rw [run_bind, run_bind, hx s]
  rcases x.run s with ⟨e | a, s'⟩
  · rfl
  · exact hf a s'

theorem map {x : ExceptT EvalError (StateM S) α} {y : ExceptT EvalError (StateM T) α} (f : α → β)
    (hx : Mirrors view x y) : Mirrors view (f <$> x) (f <$> y) := by
  rw [map_eq_pure_bind, map_eq_pure_bind]
  exact bind hx fun a => ret (f a)

theorem mapM {f : ι → ExceptT EvalError (StateM S) α} {g : ι → ExceptT EvalError (StateM T) α}
    (h : ∀ i, Mirrors view (f i) (g i)) (is : List ι) : Mirrors view (is.mapM f) (is.mapM g) := by
  induction is with
  | nil => exact ret []
  | cons i is ih =>
    rw [List.mapM_cons, List.mapM_cons]
    exact bind (h i) fun a => bind ih fun as => ret (a :: as)

end Mirrors

def Trace.view (f : σ → τ) (t : Trace σ) : Trace τ := ⟨f t.host, t.log⟩

def Session.view (f : σ → τ) (s : Session σ) : Session τ := ⟨s.trace.view f, s.memo⟩

namespace Mirrors

variable {f : σ → τ}

theorem log (e : Log.Event) : Mirrors (Trace.view f) (Effect.log e) (Effect.log e) := fun _ => rfl

theorem ofExcept (a : Except EvalError α) :
    Mirrors (Session.view f) (Run.ofExcept a) (Run.ofExcept a) := fun _ => rfl

theorem ofEffect {x : Effect σ α} {y : Effect τ α} (h : Mirrors (Trace.view f) x y) :
    Mirrors (Session.view f) (Run.ofEffect x) (Run.ofEffect y) := by
  intro s
  have hy : y.run (s.view f).trace = ((x.run s.trace).1, (x.run s.trace).2.view f) := h s.trace
  rw [run_ofEffect, run_ofEffect, hy]
  rfl

theorem memoized {r : Reference} {compute : Run σ Materialized} {compute' : Run τ Materialized}
    (h : Mirrors (Session.view f) compute compute') :
    Mirrors (Session.view f) (Run.memoized r compute) (Run.memoized r compute') := by
  intro s
  -- both runs remember the same, so both find the prefix or neither does
  have hmemo : (s.view f).memo = s.memo := rfl
  rw [run_memoized, run_memoized, hmemo]
  cases s.memo.lookup r with
  | some m => rfl
  | none =>
    rw [h s]
    rcases compute.run s with ⟨e | m, s'⟩
    · rfl
    · rfl

end Mirrors

end BuildItems
