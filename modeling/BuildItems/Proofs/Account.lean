import BuildItems.Proofs.Operation.Mirror

/-!
# Accounts of runs

A run computes prefixes inside one another. Its account says which computation did what: the globs
that each asked for and the events that each told, those of the computations inside it apart.
Keeping an account does not change a run, and an account leaves nothing out: each glob and each
event is put down to just one computation.
-/

namespace BuildItems

variable {σ : Type}

structure Episode where
  reference : Reference
  told : List Log.Event := []
  asked : List Glob := []

namespace Episode

def tell (e : Episode) (events : List Log.Event) : Episode := { e with told := e.told ++ events }

def ask (e : Episode) (g : Glob) : Episode := { e with asked := e.asked ++ [g] }

@[simp]
theorem tell_nil (e : Episode) : e.tell [] = e := by simp [tell]

theorem tell_tell (e : Episode) (first second : List Log.Event) :
    (e.tell first).tell second = e.tell (first ++ second) := by
  simp [tell, List.append_assoc]

theorem tell_ask (e : Episode) (g : Glob) (events : List Log.Event) :
    (e.ask g).tell events = (e.tell events).ask g := rfl

end Episode

structure Account where
  /-- Those that still go on, the innermost first. -/
  underway : List Episode := []
  /-- Those that came to their end, in this order, with what they gave. -/
  finished : List (Episode × Materialized) := []
  /-- All globs asked for. -/
  asked : List Glob := []
  /-- How many events of the log are put down to a computation, or came before the first. -/
  noted : Nat := 0

namespace Account

def opened : Account := { noted := 1 }

/-- The events not put down to anyone were told by the innermost computation. -/
def settle (a : Account) (log : List Log.Event) : Account :=
  { a with
    underway := a.underway.modifyHead (·.tell (log.drop a.noted))
    noted := log.length }

def enter (a : Account) (log : List Log.Event) (r : Reference) : Account :=
  let settled := a.settle log
  { settled with underway := ⟨r, [], []⟩ :: settled.underway }

def leave (a : Account) (log : List Log.Event) (m : Materialized) : Account :=
  let settled := a.settle log
  match settled.underway with
  | [] => settled
  | e :: rest => { settled with underway := rest, finished := settled.finished ++ [(e, m)] }

def ask (a : Account) (g : Glob) : Account :=
  { a with underway := a.underway.modifyHead (·.ask g), asked := a.asked ++ [g] }

theorem underway_settle_eq_cons_iff {a : Account} {log : List Log.Event} {e : Episode}
    {rest : List Episode} :
    (a.settle log).underway = e :: rest ↔
      ∃ before, a.underway = before :: rest ∧ before.tell (log.drop a.noted) = e := by
  unfold settle
  cases a.underway with
  | nil => simp
  | cons before others => simp [and_comm]

end Account

def Expander.accounted (expander : Expander σ) : Expander (σ × Account) := fun g s =>
  let (answer, host) := expander g s.1
  (answer, host, s.2.ask g)

theorem Expander.accounted_mirrors (expander : Expander σ) :
    expander.accounted.Mirrors Prod.fst expander := fun _ _ => rfl

namespace Run

def note (change : Account → List Log.Event → Account) : Run (σ × Account) Unit :=
  .ofEffect (modify fun t => { t with host := (t.host.1, change t.host.2 t.log) })

def accounted (r : Reference) (compute : Run (σ × Account) Materialized) :
    Run (σ × Account) Materialized := do
  note (·.enter · r)
  let m ← compute
  note (·.leave · m)
  pure m

end Run

theorem Mirrors.accounted {r : Reference} {compute : Run (σ × Account) Materialized}
    {compute' : Run σ Materialized} (h : Mirrors (Session.view Prod.fst) compute compute') :
    Mirrors (Session.view Prod.fst) (Run.accounted r compute) compute' := by
  have hnote : ∀ change, Mirrors (Session.view Prod.fst) (Run.note (σ := σ) change) (pure ()) :=
    fun _ _ => rfl
  have hrun : Mirrors (Session.view Prod.fst) (Run.accounted r compute)
      (pure () >>= fun _ => compute' >>= fun m => pure () >>= fun _ => pure m) :=
    .bind (hnote _) fun _ => .bind h fun m => .bind (hnote _) fun _ => .ret m
  simpa using hrun

/-- After its opening, the log is made of what the computations told, each in its order, and the
globs asked for are those of the computations. What is not put down yet counts for the innermost. -/
structure Balanced (opening : Log.Event) (under : List Episode)
    (ended : List (Episode × Materialized)) (t : Trace (σ × Account)) : Prop where
  noted_le : t.host.2.noted ≤ t.log.length
  underway : (t.host.2.settle t.log).underway = under
  finished : t.host.2.finished = ended
  log : ∃ inner, t.log = opening :: inner ∧
    inner.Perm ((under ++ ended.map Prod.fst).flatMap Episode.told) ∧
    ∀ e ∈ under ++ ended.map Prod.fst, e.told.Sublist inner
  asked : t.host.2.asked.Perm ((under ++ ended.map Prod.fst).flatMap Episode.asked)

theorem perm_append_append_singleton {α : Type} (xs ys : List α) (x : α) :
    (xs ++ ys ++ [x]).Perm (xs ++ [x] ++ ys) := by
  rw [List.append_assoc, List.append_assoc]
  exact List.perm_append_comm.append_left xs

namespace Balanced

variable {opening : Log.Event} {under rest : List Episode} {e : Episode}
  {ended : List (Episode × Materialized)} {t : Trace (σ × Account)}

theorem start (opening : Log.Event) (host : σ) :
    Balanced opening [] [] ⟨(host, Account.opened), [opening]⟩ where
  noted_le := Nat.le_refl 1
  underway := rfl
  finished := rfl
  log := ⟨[], rfl, .nil, List.forall_mem_nil _⟩
  asked := .nil

theorem tell (h : Balanced opening (e :: rest) ended t) (x : Log.Event) :
    Balanced opening (e.tell [x] :: rest) ended { t with log := t.log ++ [x] } where
  noted_le := by
    rw [List.length_append]
    exact Nat.le_add_right_of_le h.noted_le
  underway := by
    obtain ⟨before, hbefore, rfl⟩ := Account.underway_settle_eq_cons_iff.mp h.underway
    refine Account.underway_settle_eq_cons_iff.mpr ⟨before, hbefore, ?_⟩
    rw [List.drop_append_of_le_length h.noted_le, Episode.tell_tell]
  finished := h.finished
  log := by
    obtain ⟨inner, hlog, hperm, hsub⟩ := h.log
    obtain ⟨he, hothers⟩ := List.forall_mem_cons.mp hsub
    refine ⟨inner ++ [x], by rw [hlog, List.cons_append], ?_, ?_⟩
    · exact (hperm.append_right [x]).trans (perm_append_append_singleton e.told _ x)
    · refine List.forall_mem_cons.mpr ⟨he.append (.refl _), fun e' he' => ?_⟩
      exact (hothers e' he').trans (List.sublist_append_left inner [x])
  asked := h.asked

theorem ask (h : Balanced opening (e :: rest) ended t) (g : Glob) (host : σ) :
    Balanced opening (e.ask g :: rest) ended { t with host := (host, t.host.2.ask g) } where
  noted_le := h.noted_le
  underway := by
    obtain ⟨before, hbefore, rfl⟩ := Account.underway_settle_eq_cons_iff.mp h.underway
    refine Account.underway_settle_eq_cons_iff.mpr ⟨before.ask g, ?_, Episode.tell_ask _ _ _⟩
    change t.host.2.underway.modifyHead _ = _
    rw [hbefore, List.modifyHead_cons]
  finished := h.finished
  log := by
    obtain ⟨inner, hlog, hperm, hsub⟩ := h.log
    obtain ⟨he, hothers⟩ := List.forall_mem_cons.mp hsub
    exact ⟨inner, hlog, hperm, List.forall_mem_cons.mpr ⟨he, hothers⟩⟩
  asked := (h.asked.append_right [g]).trans (perm_append_append_singleton e.asked _ g)

theorem enter (h : Balanced opening under ended t) (r : Reference) :
    Balanced opening (⟨r, [], []⟩ :: under) ended
      { t with host := (t.host.1, t.host.2.enter t.log r) } where
  noted_le := Nat.le_refl _
  underway := by
    refine Account.underway_settle_eq_cons_iff.mpr ⟨⟨r, [], []⟩, ?_, ?_⟩
    · exact congrArg (⟨r, [], []⟩ :: ·) h.underway
    · change Episode.tell _ (t.log.drop t.log.length) = _
      rw [List.drop_length, Episode.tell_nil]
  finished := h.finished
  log := by
    obtain ⟨inner, hlog, hperm, hsub⟩ := h.log
    exact ⟨inner, hlog, hperm, List.forall_mem_cons.mpr ⟨List.nil_sublist inner, hsub⟩⟩
  asked := h.asked

theorem leave (h : Balanced opening (e :: rest) ended t) (m : Materialized) :
    Balanced opening rest (ended ++ [(e, m)])
      { t with host := (t.host.1, t.host.2.leave t.log m) } := by
  have hsame : (e :: rest ++ ended.map Prod.fst).Perm
      (rest ++ (ended ++ [(e, m)]).map Prod.fst) := by
    rw [List.map_append, ← List.append_assoc]
    exact (List.perm_append_singleton e (rest ++ ended.map Prod.fst)).symm
  have hleave : t.host.2.leave t.log m =
      { t.host.2.settle t.log with underway := rest, finished := ended ++ [(e, m)] } := by
    rw [Account.leave, h.underway, ← h.finished]
    rfl
  rw [hleave]
  constructor
  case noted_le => exact Nat.le_refl _
  case underway =>
    change rest.modifyHead (·.tell (t.log.drop t.log.length)) = rest
    rw [List.drop_length]
    cases rest with
    | nil => rfl
    | cons e' rest => rw [List.modifyHead_cons, Episode.tell_nil]
  case finished => rfl
  case log =>
    obtain ⟨inner, hlog, hperm, hsub⟩ := h.log
    exact ⟨inner, hlog, hperm.trans (hsame.flatMap_right _),
      fun e' he' => hsub e' (hsame.mem_iff.mpr he')⟩
  case asked => exact h.asked.trans (hsame.flatMap_right _)

end Balanced

end BuildItems
