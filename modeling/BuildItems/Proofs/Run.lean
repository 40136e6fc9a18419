import BuildItems.Project.Materialize
import BuildItems.Proofs.Failure

/-!
# Reasoning about runs

A run starts from a state and leaves another behind, whether it succeeds or fails. Two judgements
about runs are built up along their structure: `Triple` says what holds afterwards, and `Yields`
that the answer is fixed, whatever good state the run starts from.
-/

namespace BuildItems

variable {S σ α β ι : Type}

theorem run_bind (x : ExceptT EvalError (StateM S) α) (f : α → ExceptT EvalError (StateM S) β)
    (s : S) :
    (x >>= f).run s = match x.run s with
      | (.ok a, t) => (f a).run t
      | (.error e, t) => (.error e, t) := by
  rw [ExceptT.run_bind]
  change StateT.bind x.run _ s = _
  rw [StateT.bind]
  rcases x.run s with ⟨e | a, t⟩
  · rfl
  · rfl

theorem run_map (f : α → β) (x : ExceptT EvalError (StateM S) α) (s : S) :
    (f <$> x).run s = ((x.run s).1.map f, (x.run s).2) := by
  rw [map_eq_pure_bind, run_bind]
  rcases x.run s with ⟨e | a, t⟩
  · rfl
  · rfl

theorem run_answer (x : Except EvalError α) (s : S) :
    (ExceptT.mk (pure x) : ExceptT EvalError (StateM S) α).run s = (x, s) := rfl

theorem run_ofEffect (x : Effect σ α) (s : Session σ) :
    (Run.ofEffect x).run s = ((x.run s.trace).1, { s with trace := (x.run s.trace).2 }) := rfl

theorem run_expand (expander : Expander σ) (g : Glob) (t : Trace σ) :
    (Effect.expand expander g).run t =
      ((expander g t.host).1, { t with host := (expander g t.host).2 }) := rfl

theorem run_memoized (r : Reference) (compute : Run σ Materialized) (s : Session σ) :
    (Run.memoized r compute).run s = match s.memo.lookup r with
      | some m => (.ok m, s)
      | none => match compute.run s with
        | (.ok m, t) => (.ok m, { t with memo := (r, m) :: t.memo })
        | (.error e, t) => (.error e, t) := by
  rw [Run.memoized, run_bind]
  change (match s.memo.lookup r with | some m => _ | none => _ : Run σ Materialized).run s = _
  cases s.memo.lookup r with
  | some m => rfl
  | none =>
    change (compute >>= fun m => Run.remember r m >>= fun _ => pure m).run s = _
    rw [run_bind]
    rcases compute.run s with ⟨e | m, t⟩
    · rfl
    · rfl

/-- From a state with `pre`, a run succeeds with `post` or fails with `fail`. -/
def Triple (pre : S → Prop) (x : ExceptT EvalError (StateM S) α) (post : α → S → Prop)
    (fail : EvalError → S → Prop) : Prop :=
  ∀ s, pre s → match x.run s with
    | (.ok a, t) => post a t
    | (.error e, t) => fail e t

namespace Triple

variable {pre : S → Prop} {fail : EvalError → S → Prop}

theorem ret {post : α → S → Prop} {a : α} (h : ∀ s, pre s → post a s) :
    Triple pre (pure a) post fail := h

theorem bind {mid : α → S → Prop} {post : β → S → Prop} {x : ExceptT EvalError (StateM S) α}
    {f : α → ExceptT EvalError (StateM S) β} (hx : Triple pre x mid fail)
    (hf : ∀ a, Triple (mid a) (f a) post fail) : Triple pre (x >>= f) post fail := by
  intro s hs
  have h := hx s hs
  rw [run_bind]
  rcases hrun : x.run s with ⟨e | a, t⟩
  · rw [hrun] at h
    exact h
  · rw [hrun] at h
    exact hf a t h

theorem of_eq_error {post : α → S → Prop} {x : ExceptT EvalError (StateM S) α}
    (h : Triple pre x post fail) {s : S} (hs : pre s) {e : EvalError}
    (he : (x.run s).1 = .error e) : fail e (x.run s).2 := by
  have hrun := h s hs
  rcases hx : x.run s with ⟨e' | a, t⟩
  · rw [hx] at he hrun
    cases he
    exact hrun
  · rw [hx] at he
    cases he

theorem weaken {post post' : α → S → Prop} {x : ExceptT EvalError (StateM S) α}
    (h : Triple pre x post fail) (hpost : ∀ a s, post a s → post' a s) :
    Triple pre x post' fail := by
  intro s hs
  have hrun := h s hs
  revert hrun
  rcases x.run s with ⟨e | a, t⟩
  · exact id
  · exact hpost a t

theorem pull {φ : Prop} {post : α → S → Prop} {x : ExceptT EvalError (StateM S) α}
    (h : φ → Triple pre x post fail) : Triple (fun s => φ ∧ pre s) x post fail :=
  fun s ⟨hφ, hs⟩ => h hφ s hs

theorem mapM {rel : ι → α → Prop} {f : ι → ExceptT EvalError (StateM S) α} {is : List ι}
    (h : ∀ i ∈ is, Triple pre (f i) (fun a s => rel i a ∧ pre s) fail) :
    Triple pre (is.mapM f) (fun as s => List.Forall₂ rel is as ∧ pre s) fail := by
  induction is with
  | nil => exact ret fun s hs => ⟨.nil, hs⟩
  | cons i is ih =>
    obtain ⟨hi, his⟩ := List.forall_mem_cons.mp h
    rw [List.mapM_cons]
    refine bind hi fun a => pull fun ha => ?_
    refine bind (ih his) fun as => pull fun has => ?_
    exact ret fun s hs => ⟨.cons ha has, hs⟩

/-- An answer given without running anything changes nothing, even if it is an error. -/
theorem answer (h : ∀ e s, pre s → fail e s) (x : Except EvalError α) :
    Triple pre (ExceptT.mk (pure x)) (fun _ => pre) fail := by
  intro s hs
  rw [run_answer]
  cases x with
  | ok a => exact hs
  | error e => exact h e s hs

theorem ofExcept {pre : Session σ → Prop} {fail : EvalError → Session σ → Prop} {a : α} :
    Triple pre (Run.ofExcept (.ok a)) (fun b s => b = a ∧ pre s) fail :=
  fun _ hs => ⟨rfl, hs⟩

theorem ofEffect {pre : Trace σ → Prop} {post : α → Trace σ → Prop}
    {fail : EvalError → Trace σ → Prop} {x : Effect σ α} (h : Triple pre x post fail) :
    Triple (fun s => pre s.trace) (Run.ofEffect x) (fun a s => post a s.trace)
      (fun e s => fail e s.trace) := by
  intro s hs
  have hx := h s.trace hs
  rw [run_ofEffect]
  rcases hrun : x.run s.trace with ⟨e | a, t⟩
  · rw [hrun] at hx
    exact hx
  · rw [hrun] at hx
    exact hx

theorem memoized {pre : Trace σ → Prop} {fail : EvalError → Trace σ → Prop} {r : Reference}
    {compute : Run σ Materialized}
    (h : Triple (fun s => pre s.trace) compute (fun _ s => pre s.trace)
      (fun e s => fail e s.trace)) :
    Triple (fun s => pre s.trace) (Run.memoized r compute) (fun _ s => pre s.trace)
      (fun e s => fail e s.trace) := by
  intro s hs
  have hx := h s hs
  rw [run_memoized]
  cases s.memo.lookup r with
  | some m => exact hs
  | none =>
    revert hx
    rcases compute.run s with ⟨e | m, t⟩
    · exact id
    · exact id

end Triple

/-- From every good state a run gives this answer and leaves a good state behind. -/
def Yields (good : S → Prop) (x : ExceptT EvalError (StateM S) α) (a : Except EvalError α) : Prop :=
  ∀ s, good s → (x.run s).1 = a ∧ good (x.run s).2

namespace Yields

variable {good : S → Prop}

theorem ret (a : α) : Yields good (pure a) (.ok a) := fun _ hs => ⟨rfl, hs⟩

theorem congr {x : ExceptT EvalError (StateM S) α} {a b : Except EvalError α}
    (h : Yields good x a) (hab : a = b) : Yields good x b := hab ▸ h

theorem bind {x : ExceptT EvalError (StateM S) α} {f : α → ExceptT EvalError (StateM S) β}
    {a : Except EvalError α} {b : α → Except EvalError β} (hx : Yields good x a)
    (hf : ∀ v, a = .ok v → Yields good (f v) (b v)) : Yields good (x >>= f) (a >>= b) := by
  intro s hs
  obtain ⟨ha, hgood⟩ := hx s hs
  rw [run_bind]
  rcases hrun : x.run s with ⟨e | v, t⟩
  · rw [hrun] at ha hgood
    subst ha
    exact ⟨rfl, hgood⟩
  · rw [hrun] at ha hgood
    subst ha
    exact hf v rfl t hgood

/-- A step whose value is known once its questions are answered. -/
theorem seq {x : ExceptT EvalError (StateM S) α} {f : α → ExceptT EvalError (StateM S) β}
    {c : Except EvalError Unit} {v : α} {b : Except EvalError β}
    (hx : Yields good x (c >>= fun _ => .ok v)) (hf : Yields good (f v) b) :
    Yields good (x >>= f) (c >>= fun _ => b) := by
  have hbind : Yields good (x >>= f) ((c >>= fun _ => .ok v) >>= fun _ => b) := by
    refine bind hx fun w hw => ?_
    obtain ⟨_, _, hvw⟩ := bind_eq_ok_iff.mp hw
    cases hvw
    exact hf
  cases c with
  | error e => exact hbind
  | ok u => exact hbind

theorem map {x : ExceptT EvalError (StateM S) α} {c : Except EvalError Unit} {v : α} (f : α → β)
    (hx : Yields good x (c >>= fun _ => .ok v)) :
    Yields good (f <$> x) (c >>= fun _ => .ok (f v)) := by
  rw [map_eq_pure_bind]
  exact seq hx (ret (f v))

theorem ofExcept {good : Session σ → Prop} (a : Except EvalError α) :
    Yields good (Run.ofExcept a) a := fun _ hs => ⟨rfl, hs⟩

theorem ofEffect {good : List (Reference × Materialized) → Prop} {x : Effect σ α}
    {a : Except EvalError α} (h : Yields (fun _ => True) x a) :
    Yields (fun s : Session σ => good s.memo) (Run.ofEffect x) a :=
  fun s hs => ⟨(h s.trace trivial).1, hs⟩

end Yields

def Faithful (truth : Reference → Except EvalError Materialized)
    (memo : List (Reference × Materialized)) : Prop :=
  ∀ p ∈ memo, truth p.1 = .ok p.2

theorem Faithful.eq_of_lookup {truth : Reference → Except EvalError Materialized}
    {memo : List (Reference × Materialized)} (h : Faithful truth memo) {r : Reference}
    {m : Materialized} (hm : memo.lookup r = some m) : truth r = .ok m := by
  induction memo with
  | nil => cases hm
  | cons p memo ih =>
    obtain ⟨hp, hmemo⟩ := List.forall_mem_cons.mp h
    rw [List.lookup_cons] at hm
    split at hm
    · next heq =>
      cases hm
      rw [eq_of_beq heq]
      exact hp
    · exact ih hmemo hm

/-- A remembered answer stands for a computed one, and a computed one is remembered. -/
theorem Yields.memoized {truth : Reference → Except EvalError Materialized} {r : Reference}
    {compute : Run σ Materialized}
    (h : Yields (fun s => Faithful truth s.memo) compute (truth r)) :
    Yields (fun s => Faithful truth s.memo) (Run.memoized r compute) (truth r) := by
  intro s hs
  rw [run_memoized]
  cases hlook : s.memo.lookup r with
  | some m => exact ⟨(hs.eq_of_lookup hlook).symm, hs⟩
  | none =>
    obtain ⟨htruth, hgood⟩ := h s hs
    rcases hrun : compute.run s with ⟨e | m, t⟩
    · rw [hrun] at htruth hgood
      exact ⟨htruth, hgood⟩
    · rw [hrun] at htruth hgood
      exact ⟨htruth, List.forall_mem_cons.mpr ⟨htruth.symm, hgood⟩⟩

end BuildItems
