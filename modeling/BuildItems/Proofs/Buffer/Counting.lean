import BuildItems.Proofs.Buffer.Workspace
import Mathlib.Data.List.Induction

/-!
# Owners are counted exactly

The store counts for every buffer the builders and the snapshots that own it, and no more. So a
builder that has a buffer to itself may write to it, and one that moves takes its one count along.
No other builder and no snapshot reads anything new.
-/

namespace BuildItems

variable {α σ : Type}

theorem count_set_add {l : List (Option Nat)} {i : Nat} {x : Option Nat} (h : l[i]? = some x)
    (y : Option Nat) (n : Nat) :
    (l.set i y).count (some n) + (if x = some n then 1 else 0) =
      l.count (some n) + if y = some n then 1 else 0 := by
  obtain ⟨hi, rfl⟩ := List.getElem?_eq_some_iff.mp h
  have hpos : l[i] = some n → 0 < l.count (some n) :=
    fun h => List.count_pos_iff.mpr (h ▸ List.getElem_mem hi)
  rw [List.count_set hi]
  simp only [beq_iff_eq]
  split
  · next hx =>
    have := hpos hx
    omega
  · omega

/-- What is counted once is at one place. -/
theorem eq_of_count_le_one {l : List (Option Nat)} {i j n : Nat} (hcount : l.count (some n) ≤ 1)
    (hi : l[i]? = some (some n)) (hj : l[j]? = some (some n)) : i = j := by
  by_contra hne
  have hj' : (l.set i none)[j]? = some (some n) := by rw [List.getElem?_set_ne hne, hj]
  have hpos := List.count_pos_iff.mpr (List.mem_of_getElem? hj')
  have hset := count_set_add hi none n
  rw [if_pos rfl, if_neg (Option.some_ne_none n).symm] at hset
  omega

theorem count_set_none (l : List (Option Nat)) (i n : Nat) :
    (l.set i none).count (some n) + (if l[i]?.join = some n then 1 else 0) = l.count (some n) := by
  cases hi : l[i]? with
  | none => rw [List.set_eq_of_length_le (List.getElem?_eq_none_iff.mp hi)]; rfl
  | some x => exact count_set_add hi none n

theorem count_concat (l : List (Option Nat)) (x : Option Nat) (n : Nat) :
    (l ++ [x]).count (some n) = l.count (some n) + if x = some n then 1 else 0 := by
  simp [List.count_append, List.count_singleton]

namespace Store

variable {s : Store α} {n k : Nat} {e : Edit α}

def Fresh (s : Store α) : Prop := ∀ n, s.next ≤ n → s.owners n = 0

theorem Fresh.lt (h : s.Fresh) (hn : 0 < s.owners n) : n < s.next := by
  by_contra hle
  have := h n (Nat.not_lt.mp hle)
  omega

theorem owners_share (s : Store α) (n k : Nat) :
    (s.share n).owners k = s.owners k + if n = k then 1 else 0 := by
  change (if k = n then _ else _) = _
  by_cases hk : n = k
  · simp [hk]
  · simp [hk, Ne.symm hk]

theorem owners_release (hn : 0 < s.owners n) (k : Nat) :
    (s.release n).owners k + (if n = k then 1 else 0) = s.owners k := by
  change (if k = n then _ else _) + _ = _
  by_cases hk : n = k
  · subst hk
    simp only [if_pos]
    omega
  · simp [hk, Ne.symm hk]

theorem Fresh.owners_allocate (h : s.Fresh) (xs : List α) (k : Nat) :
    (s.allocate xs).2.owners k = s.owners k + if s.next = k then 1 else 0 := by
  have hzero := h s.next (Nat.le_refl _)
  change (if k = s.next then 1 else _) = _
  by_cases hk : s.next = k
  · simp [← hk, hzero]
  · simp [hk, Ne.symm hk]

theorem Fresh.share (h : s.Fresh) (hn : 0 < s.owners n) : (s.share n).Fresh := by
  intro k hk
  have hlt := h.lt hn
  change s.next ≤ k at hk
  rw [owners_share, h k hk, if_neg (by omega)]

theorem Fresh.release (h : s.Fresh) (n : Nat) : (s.release n).Fresh := by
  intro k hk
  have hzero := h k hk
  change (if k = n then _ else _) = _
  split
  · next hkn => rw [← hkn, hzero]
  · exact hzero

theorem Fresh.allocate (h : s.Fresh) (xs : List α) : (s.allocate xs).2.Fresh := by
  intro k hk
  change s.next + 1 ≤ k at hk
  rw [h.owners_allocate, h k (by omega), if_neg (by omega)]

theorem owners_share? (s : Store α) (o : Option Nat) (k : Nat) :
    (s.share? o).owners k = s.owners k + if o = some k then 1 else 0 := by
  cases o with
  | none => rfl
  | some n =>
    rw [share?, Option.elim_some, owners_share]
    simp only [Option.some.injEq]

theorem owners_release? {o : Option Nat} (ho : ∀ n, o = some n → 0 < s.owners n) (k : Nat) :
    (s.release? o).owners k + (if o = some k then 1 else 0) = s.owners k := by
  cases o with
  | none => rfl
  | some n =>
    simp only [Option.some.injEq]
    exact owners_release (ho n rfl) k

theorem Fresh.share? (h : s.Fresh) {o : Option Nat} (ho : ∀ n, o = some n → 0 < s.owners n) :
    (s.share? o).Fresh := by
  cases o with
  | none => exact h
  | some n => exact h.share (ho n rfl)

theorem Fresh.release? (h : s.Fresh) (o : Option Nat) : (s.release? o).Fresh := by
  cases o with
  | none => exact h
  | some n => exact h.release n

theorem contents_share? (s : Store α) (o : Option Nat) : (s.share? o).contents = s.contents := by
  cases o <;> rfl

theorem contents_release? (s : Store α) (o : Option Nat) :
    (s.release? o).contents = s.contents := by
  cases o <;> rfl

/-- Where an edit moves a builder, it moves to the next buffer, which it then has to itself. -/
theorem edit_cases (s : Store α) (n : Nat) (e : Edit α) :
    (e = .keep ∧ s.edit n e = (n, s)) ∨
      (e.isEffective = true ∧ s.owners n = 1 ∧ ∃ xs, s.edit n e =
        (n, { s with contents := set s.contents n xs })) ∨
      (e.isEffective = true ∧ ∃ xs, s.edit n e = (s.release n).allocate xs) := by
  cases e with
  | keep => exact .inl ⟨rfl, rfl⟩
  | write xs =>
    by_cases hone : s.owners n = 1
    · exact .inr (.inl ⟨rfl, hone, xs, by rw [edit, overwrite, if_pos hone]⟩)
    · exact .inr (.inr ⟨rfl, xs, by rw [edit, overwrite, if_neg hone]⟩)
  | reset => exact .inr (.inr ⟨rfl, [], rfl⟩)

theorem edit_of_not_isEffective (h : e.isEffective = false) : s.edit n e = (n, s) := by
  cases e with
  | keep => rfl
  | write xs => cases h
  | reset => cases h

theorem owners_edit (hs : s.Fresh) (hn : 0 < s.owners n) (e : Edit α) (k : Nat) :
    (s.edit n e).2.owners k + (if n = k then 1 else 0) =
      s.owners k + if (s.edit n e).1 = k then 1 else 0 := by
  rcases edit_cases s n e with ⟨_, h⟩ | ⟨_, _, xs, h⟩ | ⟨_, xs, h⟩
  · rw [h]
  · rw [h]
  · have hrelease := owners_release hn k
    rw [h, (hs.release n).owners_allocate]
    change _ = s.owners k + if s.next = k then 1 else 0
    rw [← hrelease]
    change (s.release n).owners k + (if s.next = k then 1 else 0) + _ = _
    omega

theorem Fresh.edit (hs : s.Fresh) (n : Nat) (e : Edit α) : (s.edit n e).2.Fresh := by
  rcases edit_cases s n e with ⟨_, h⟩ | ⟨_, _, xs, h⟩ | ⟨_, xs, h⟩
  · rw [h]
    exact hs
  · rw [h]
    exact hs
  · rw [h]
    exact (hs.release n).allocate xs

/-- An edit writes to no buffer but the one that the builder has afterwards. -/
theorem contents_edit_of_ne (h : k ≠ (s.edit n e).1) :
    (s.edit n e).2.contents k = s.contents k := by
  rcases edit_cases s n e with ⟨_, he⟩ | ⟨_, _, xs, he⟩ | ⟨_, xs, he⟩
  · rw [he]
  · rw [he] at h ⊢
    exact if_neg h
  · rw [he] at h ⊢
    exact if_neg h

/-- After an edit with effect the builder has its buffer to itself. -/
theorem owners_edit_eq_one (h : e.isEffective = true) :
    (s.edit n e).2.owners (s.edit n e).1 = 1 := by
  rcases edit_cases s n e with ⟨rfl, _⟩ | ⟨_, hone, xs, he⟩ | ⟨_, xs, he⟩
  · cases h
  · rw [he]
    exact hone
  · rw [he]
    exact set_same _ _ _

end Store

namespace Workspace

variable {w : Workspace α σ} {b s n : Nat}

structure Counted (w : Workspace α σ) : Prop where
  owners : ∀ n, w.store.owners n = w.builders.count (some n) + w.snapshots.count (some n)
  fresh : w.store.Fresh

theorem Counted.owners_pos_of_builder (h : w.Counted) (hb : w.builder? b = some n) :
    0 < w.store.owners n := by
  have hmem := List.mem_of_getElem? (builder?_eq_some_iff.mp hb)
  have hpos := List.count_pos_iff.mpr hmem
  rw [h.owners]
  omega

theorem Counted.owners_pos_of_snapshot (h : w.Counted) (hs : w.snapshot? s = some n) :
    0 < w.store.owners n := by
  have hmem := List.mem_of_getElem? (snapshot?_eq_some_iff.mp hs)
  have hpos := List.count_pos_iff.mpr hmem
  rw [h.owners]
  omega

/-- A builder that has its buffer to itself shares it with no builder and no snapshot. -/
theorem Counted.sole (h : w.Counted) (hone : w.store.owners n = 1) (hb : w.builder? b = some n) :
    (∀ b', w.builder? b' = some n → b' = b) ∧ ∀ s, w.snapshot? s ≠ some n := by
  have hb := builder?_eq_some_iff.mp hb
  have hpos := List.count_pos_iff.mpr (List.mem_of_getElem? hb)
  have howners := h.owners n
  refine ⟨fun b' hb' => ?_, fun s hs => ?_⟩
  · exact eq_of_count_le_one (by omega) (builder?_eq_some_iff.mp hb') hb
  · have hsnap := List.count_pos_iff.mpr (List.mem_of_getElem? (snapshot?_eq_some_iff.mp hs))
    omega

theorem counted_start (host : σ) : ({ host } : Workspace α σ).Counted :=
  ⟨fun _ => rfl, fun _ _ => rfl⟩

abbrev editOf (w : Workspace α σ) (buffer : Nat) (c : Change α σ) : Edit α :=
  ((c.edit (w.store.contents buffer)).run w.host).1

theorem Counted.change (h : w.Counted) (hb : w.builder? b = some n) (c : Change α σ) :
    (w.change b n c).Counted := by
  have hpos := h.owners_pos_of_builder hb
  refine ⟨fun k => ?_, h.fresh.edit n _⟩
  have hedit := Store.owners_edit h.fresh hpos (w.editOf n c) k
  have hset := count_set_add (builder?_eq_some_iff.mp hb)
    (some (w.store.edit n (w.editOf n c)).1) k
  have howners := h.owners k
  simp only [Option.some.injEq] at hset
  change (w.store.edit n (w.editOf n c)).2.owners k =
    (w.builders.set b (some (w.store.edit n (w.editOf n c)).1)).count (some k) +
      w.snapshots.count (some k)
  omega

theorem Counted.step (h : w.Counted) (c : Command α σ) : (w.step c).Counted := by
  cases c with
  | create =>
    refine ⟨fun k => ?_, h.fresh.allocate []⟩
    change (w.store.allocate []).2.owners k =
      (w.builders ++ [some w.store.next]).count (some k) + w.snapshots.count (some k)
    rw [h.fresh.owners_allocate, h.owners, count_concat]
    simp only [Option.some.injEq]
    exact Nat.add_right_comm _ _ _
  | change b c =>
    rw [Workspace.step]
    cases hb : w.builder? b with
    | none => exact h
    | some n => exact h.change hb c
  | snapshot b =>
    have hpos : ∀ n, w.builder? b = some n → 0 < w.store.owners n :=
      fun n => h.owners_pos_of_builder
    refine ⟨fun k => ?_, h.fresh.share? hpos⟩
    change (w.store.share? _).owners k =
      w.builders.count (some k) + (w.snapshots ++ [w.builder? b]).count (some k)
    rw [Store.owners_share?, h.owners, count_concat, Nat.add_assoc]
  | toBuilder s =>
    have hpos : ∀ n, w.snapshot? s = some n → 0 < w.store.owners n :=
      fun n => h.owners_pos_of_snapshot
    refine ⟨fun k => ?_, h.fresh.share? hpos⟩
    change (w.store.share? _).owners k =
      (w.builders ++ [w.snapshot? s]).count (some k) + w.snapshots.count (some k)
    rw [Store.owners_share?, h.owners, count_concat, Nat.add_right_comm]
  | dropBuilder b =>
    refine ⟨fun k => ?_, h.fresh.release? _⟩
    have hrelease := Store.owners_release? (fun n => h.owners_pos_of_builder (b := b) (n := n)) k
    have hset := count_set_none w.builders b k
    have howners := h.owners k
    change (w.store.release? (w.builder? b)).owners k =
      (w.builders.set b none).count (some k) + w.snapshots.count (some k)
    rw [builder?] at hrelease ⊢
    omega
  | dropSnapshot s =>
    refine ⟨fun k => ?_, h.fresh.release? _⟩
    have hrelease := Store.owners_release? (fun n => h.owners_pos_of_snapshot (s := s) (n := n)) k
    have hset := count_set_none w.snapshots s k
    have howners := h.owners k
    change (w.store.release? (w.snapshot? s)).owners k =
      w.builders.count (some k) + (w.snapshots.set s none).count (some k)
    rw [snapshot?] at hrelease ⊢
    omega

theorem counted_run (host : σ) (commands : List (Command α σ)) : (run host commands).Counted := by
  induction commands using List.reverseRecOn with
  | nil => exact counted_start host
  | append_singleton commands c ih =>
    rw [run_append]
    exact ih.step c

end Workspace

end BuildItems
