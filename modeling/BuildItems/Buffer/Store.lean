import BuildItems.Buffer.Edit

/-!
# Shared buffers

A list lives in a numbered buffer, which its builder and its snapshots own together. A builder
that owns its buffer alone changes it in place; otherwise it moves to a copy, so that a snapshot
reads for ever what it read first. Two snapshots share storage if they own one buffer.
-/

namespace BuildItems

structure Store (α : Type) where
  contents : Nat → List α
  owners : Nat → Nat
  next : Nat

namespace Store

variable {α : Type}

def empty : Store α := ⟨fun _ => [], fun _ => 0, 0⟩

def set {β : Type} (f : Nat → β) (n : Nat) (b : β) : Nat → β := fun m => if m = n then b else f m

def allocate (s : Store α) (xs : List α) : Nat × Store α :=
  (s.next, ⟨set s.contents s.next xs, set s.owners s.next 1, s.next + 1⟩)

def share (s : Store α) (buffer : Nat) : Store α :=
  { s with owners := set s.owners buffer (s.owners buffer + 1) }

def release (s : Store α) (buffer : Nat) : Store α :=
  { s with owners := set s.owners buffer (s.owners buffer - 1) }

/-- New contents for one owner: in place if there is no other. -/
def overwrite (s : Store α) (buffer : Nat) (xs : List α) : Nat × Store α :=
  if s.owners buffer = 1 then (buffer, { s with contents := set s.contents buffer xs })
  else (s.release buffer).allocate xs

def edit (s : Store α) (buffer : Nat) : Edit α → Nat × Store α
  | .keep => (buffer, s)
  | .write xs => s.overwrite buffer xs
  | .reset => (s.release buffer).allocate []

@[simp]
theorem set_same {β : Type} (f : Nat → β) (n : Nat) (b : β) : set f n b n = b := by
  simp [set]

/-- A builder reads what the edit makes of the plain list. -/
theorem contents_edit (s : Store α) (buffer : Nat) (e : Edit α) :
    (s.edit buffer e).2.contents (s.edit buffer e).1 = e.apply (s.contents buffer) := by
  cases e with
  | keep => rfl
  | write xs =>
    by_cases h : s.owners buffer = 1 <;> simp [edit, overwrite, allocate, Edit.apply, h]
  | reset => simp [edit, allocate, Edit.apply]

end Store

end BuildItems
