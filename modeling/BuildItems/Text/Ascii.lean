/-!
# The case of the letters a to z

Only the 26 letters fold; every other character stays as it is.
-/

namespace BuildItems.Text

def lowerAscii (s : String) : String := String.ofList (s.toList.map Char.toLower)

def sameLetter (a b : Char) : Bool := a.toLower == b.toLower

theorem sameLetter_iff (a b : Char) : sameLetter a b = true ↔ a.toLower = b.toLower := by
  simp [sameLetter]

def isAsciiLetter (c : Char) : Bool := ('a' ≤ c && c ≤ 'z') || ('A' ≤ c && c ≤ 'Z')

def isAsciiDigit (c : Char) : Bool := '0' ≤ c && c ≤ '9'

/-- Lowering changes letters only, and to letters. -/
theorem toLower_cases (c : Char) :
    c.toLower = c ∨ isAsciiLetter c = true ∧ isAsciiLetter c.toLower = true := by
  unfold Char.toLower
  split
  · next h =>
    have hA : 65 ≤ c.val.toNat := UInt32.le_iff_toNat_le.mp h.1
    have hZ : c.val.toNat ≤ 90 := UInt32.le_iff_toNat_le.mp h.2
    have hval : (c.val + ('a'.val - 'A'.val)).toNat = c.val.toNat + 32 := by
      rw [UInt32.toNat_add]
      exact Nat.mod_eq_of_lt (Nat.lt_of_le_of_lt (Nat.add_le_add_right hZ 32) (by decide))
    simp only [isAsciiLetter, Char.le_def, UInt32.le_iff_toNat_le, hval, Bool.or_eq_true,
      Bool.and_eq_true, decide_eq_true_eq]
    refine .inr ⟨.inr ⟨hA, hZ⟩, .inl ⟨?_, ?_⟩⟩
    · exact Nat.add_le_add_right hA 32
    · exact Nat.add_le_add_right hZ 32
  · exact .inl rfl

theorem toLower_of_not_letter {c : Char} (h : isAsciiLetter c = false) : c.toLower = c :=
  (toLower_cases c).resolve_right fun hletter => by simp [h] at hletter

theorem toLower_eq_iff {c d : Char} (h : isAsciiLetter d = false) : c.toLower = d ↔ c = d := by
  constructor
  · intro heq
    rcases toLower_cases c with hc | hc
    · exact hc.symm.trans heq
    · simp [heq, h] at hc
  · rintro rfl
    exact toLower_of_not_letter h

end BuildItems.Text
