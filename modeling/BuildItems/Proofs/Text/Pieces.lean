import BuildItems.Text.Blank
import Mathlib.Data.List.DropRight

/-!
# Pieces of a text

A text is cut at its separators and the pieces are trimmed. There is no separator left in a piece,
and a trimmed piece has no blank at either end.
-/

namespace BuildItems.Text

theorem not_of_mem_splitOnP {p : Char → Bool} {cs piece : List Char} (h : piece ∈ cs.splitOnP p)
    {c : Char} (hc : c ∈ piece) : p c = false := by
  induction cs generalizing piece with
  | nil =>
    cases List.mem_singleton.mp h
    cases hc
  | cons d cs ih =>
    rw [List.splitOnP_cons_eq_if_modifyHead] at h
    split at h
    · rcases List.mem_cons.mp h with rfl | h
      · cases hc
      · exact ih h hc
    · next hd =>
      -- the first piece has one character more, which is no separator
      generalize cs.splitOnP p = pieces at h ih
      cases pieces with
      | nil => cases h
      | cons first pieces =>
        rcases List.mem_cons.mp h with rfl | h
        · rcases List.mem_cons.mp hc with rfl | hc
          · exact Bool.not_eq_true _ ▸ hd
          · exact ih List.mem_cons_self hc
        · exact ih (List.mem_cons_of_mem _ h) hc

variable {cs : List Char}

theorem trimChars_eq (cs : List Char) :
    trimChars cs = (cs.dropWhile isBlank).rdropWhile isBlank := rfl

theorem mem_of_mem_trimChars {c : Char} (h : c ∈ trimChars cs) : c ∈ cs :=
  List.dropWhile_subset isBlank ((List.rdropWhile_prefix isBlank _).subset h)

theorem trimChars_eq_self (hfront : ∀ c ∈ cs.head?, isBlank c = false)
    (hback : ∀ c ∈ cs.getLast?, isBlank c = false) : trimChars cs = cs := by
  have hdrop : cs.dropWhile isBlank = cs := by
    cases cs with
    | nil => rfl
    | cons c cs => simp [hfront c rfl]
  rw [trimChars_eq, hdrop, List.rdropWhile_eq_self_iff]
  intro hne
  simp [hback _ (List.getLast?_eq_some_getLast hne)]

theorem trimChars_trimChars (cs : List Char) : trimChars (trimChars cs) = trimChars cs := by
  have hfront : (trimChars cs).dropWhile isBlank = trimChars cs := by
    have hprefix : trimChars cs <+: cs.dropWhile isBlank := List.rdropWhile_prefix isBlank _
    have hhead := List.head?_dropWhile_not isBlank cs
    cases hcs : trimChars cs with
    | nil => rfl
    | cons c rest =>
      obtain ⟨after, hafter⟩ := hcs ▸ hprefix
      rw [← hafter] at hhead
      have hc : isBlank c = false := hhead
      simp [hc]
  rw [trimChars_eq (trimChars cs), hfront]
  exact List.rdropWhile_idempotent isBlank _

end BuildItems.Text
