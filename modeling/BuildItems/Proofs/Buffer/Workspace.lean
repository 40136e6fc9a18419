import BuildItems.Buffer.Store
import BuildItems.Proofs.Buffer.Change

/-!
# Builders and snapshots over one store

Any number of builders and snapshots own the buffers of a store. Each is named by the order in
which it was made. Beside the store stand plain lists: there every builder and every snapshot has a
list of its own.
-/

namespace BuildItems

variable {α σ : Type}

inductive Command (α σ : Type) where
  | create
  | change (b : Nat) (c : Change α σ)
  | snapshot (b : Nat)
  | toBuilder (s : Nat)
  | dropBuilder (b : Nat)
  | dropSnapshot (s : Nat)

/-- The lists of builders and snapshots, none once dropped, and the state that the rules share. -/
@[ext]
structure PlainLists (α σ : Type) where
  builders : List (Option (List α)) := []
  snapshots : List (Option (List α)) := []
  host : σ

namespace PlainLists

def builder? (p : PlainLists α σ) (b : Nat) : Option (List α) := p.builders[b]?.join

def snapshot? (p : PlainLists α σ) (s : Nat) : Option (List α) := p.snapshots[s]?.join

/-- What is asked of a builder or a snapshot that was dropped is not done. -/
def step (p : PlainLists α σ) : Command α σ → PlainLists α σ
  | .create => { p with builders := p.builders ++ [some []] }
  | .change b c =>
    match p.builder? b with
    | some xs =>
      let changed := (c.plain xs).run p.host
      { p with builders := p.builders.set b (some changed.1), host := changed.2 }
    | none => p
  | .snapshot b => { p with snapshots := p.snapshots ++ [p.builder? b] }
  | .toBuilder s => { p with builders := p.builders ++ [p.snapshot? s] }
  | .dropBuilder b => { p with builders := p.builders.set b none }
  | .dropSnapshot s => { p with snapshots := p.snapshots.set s none }

theorem step_change {p : PlainLists α σ} {b : Nat} {xs : List α} (hb : p.builder? b = some xs)
    (c : Change α σ) :
    p.step (.change b c) =
      { p with
        builders := p.builders.set b (some ((c.plain xs).run p.host).1)
        host := ((c.plain xs).run p.host).2 } := by
  rw [step, hb]

def run (host : σ) (commands : List (Command α σ)) : PlainLists α σ :=
  commands.foldl step { host }

theorem run_append (host : σ) (before after : List (Command α σ)) :
    run host (before ++ after) = after.foldl step (run host before) := List.foldl_append

def alters (p : PlainLists α σ) (b : Nat) : Command α σ → Bool
  | .change b' c => b' == b && (p.builder? b).any fun xs => c.isEffective xs p.host
  | _ => false

theorem alters_of_ne_change (p : PlainLists α σ) {b : Nat} {c : Command α σ}
    (hc : ∀ e, c ≠ .change b e) : p.alters b c = false := by
  cases c with
  | change b' e =>
    have hne : b' ≠ b := fun h => hc e (by rw [h])
    rw [alters, beq_false_of_ne hne, Bool.false_and]
  | _ => rfl

def altered (p : PlainLists α σ) (b : Nat) : List (Command α σ) → Bool
  | [] => false
  | c :: cs => p.alters b c || (p.step c).altered b cs

end PlainLists

namespace Store

def share? (s : Store α) (buffer : Option Nat) : Store α := buffer.elim s s.share

def release? (s : Store α) (buffer : Option Nat) : Store α := buffer.elim s s.release

end Store

structure Workspace (α σ : Type) where
  store : Store α := .empty
  builders : List (Option Nat) := []
  snapshots : List (Option Nat) := []
  host : σ

namespace Workspace

def builder? (w : Workspace α σ) (b : Nat) : Option Nat := w.builders[b]?.join

def snapshot? (w : Workspace α σ) (s : Nat) : Option Nat := w.snapshots[s]?.join

def change (w : Workspace α σ) (b buffer : Nat) (c : Change α σ) : Workspace α σ :=
  let changed := (c.edit (w.store.contents buffer)).run w.host
  let (buffer', store) := w.store.edit buffer changed.1
  { w with store := store, builders := w.builders.set b (some buffer'), host := changed.2 }

def step (w : Workspace α σ) : Command α σ → Workspace α σ
  | .create =>
    let (buffer, store) := w.store.allocate []
    { w with store := store, builders := w.builders ++ [some buffer] }
  | .change b c =>
    match w.builder? b with
    | some buffer => w.change b buffer c
    | none => w
  | .snapshot b =>
    { w with
      store := w.store.share? (w.builder? b)
      snapshots := w.snapshots ++ [w.builder? b] }
  | .toBuilder s =>
    { w with
      store := w.store.share? (w.snapshot? s)
      builders := w.builders ++ [w.snapshot? s] }
  | .dropBuilder b =>
    { w with
      store := w.store.release? (w.builder? b)
      builders := w.builders.set b none }
  | .dropSnapshot s =>
    { w with
      store := w.store.release? (w.snapshot? s)
      snapshots := w.snapshots.set s none }

def run (host : σ) (commands : List (Command α σ)) : Workspace α σ :=
  commands.foldl step { host }

theorem run_append (host : σ) (before after : List (Command α σ)) :
    run host (before ++ after) = after.foldl step (run host before) := List.foldl_append

def plain (w : Workspace α σ) : PlainLists α σ where
  builders := w.builders.map (·.map w.store.contents)
  snapshots := w.snapshots.map (·.map w.store.contents)
  host := w.host

theorem builder?_plain (w : Workspace α σ) (b : Nat) :
    w.plain.builder? b = (w.builder? b).map w.store.contents := by
  rw [PlainLists.builder?, builder?, plain, List.getElem?_map]
  rcases w.builders[b]? with _ | _ | buffer <;> rfl

theorem snapshot?_plain (w : Workspace α σ) (s : Nat) :
    w.plain.snapshot? s = (w.snapshot? s).map w.store.contents := by
  rw [PlainLists.snapshot?, snapshot?, plain, List.getElem?_map]
  rcases w.snapshots[s]? with _ | _ | buffer <;> rfl

theorem builder?_eq_some_iff {w : Workspace α σ} {b buffer : Nat} :
    w.builder? b = some buffer ↔ w.builders[b]? = some (some buffer) := by
  rw [builder?, Option.join_eq_some_iff]

theorem snapshot?_eq_some_iff {w : Workspace α σ} {s buffer : Nat} :
    w.snapshot? s = some buffer ↔ w.snapshots[s]? = some (some buffer) := by
  rw [snapshot?, Option.join_eq_some_iff]

end Workspace

end BuildItems
