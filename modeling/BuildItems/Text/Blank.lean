import BuildItems.Text.CodeRange

/-!
# Blank characters

The characters that count as white space, and texts with them cut off at both ends. Zero-width
characters and the information separators are not blank.
-/

namespace BuildItems.Text

def blanks : List CodeRange :=
  [(0x9, 0xD), (0x20, 0x20), (0x85, 0x85), (0xA0, 0xA0), (0x1680, 0x1680), (0x2000, 0x200A),
    (0x2028, 0x2029), (0x202F, 0x202F), (0x205F, 0x205F), (0x3000, 0x3000)]

def isBlank (c : Char) : Bool := inTable blanks c

def trimChars (cs : List Char) : List Char :=
  ((cs.dropWhile isBlank).reverse.dropWhile isBlank).reverse

def trim (s : String) : String := String.ofList (trimChars s.toList)

@[simp]
theorem toList_trim (s : String) : (trim s).toList = trimChars s.toList := by
  simp [trim]

theorem dropWhile_eq_nil_iff {p : Char → Bool} {cs : List Char} :
    cs.dropWhile p = [] ↔ ∀ c ∈ cs, p c = true := by
  induction cs with
  | nil => simp
  | cons c cs ih => by_cases hc : p c = true <;> simp [hc, ih]

theorem trimChars_eq_nil_iff (cs : List Char) :
    trimChars cs = [] ↔ ∀ c ∈ cs, isBlank c = true := by
  rw [trimChars, List.reverse_eq_nil_iff, dropWhile_eq_nil_iff]
  constructor
  · intro h c hc
    rw [← List.takeWhile_append_dropWhile (p := isBlank) (l := cs)] at hc
    rcases List.mem_append.1 hc with hc | hc
    · exact (List.all_eq_true.1 List.all_takeWhile) c hc
    · exact h c (List.mem_reverse.2 hc)
  · intro h
    simp [dropWhile_eq_nil_iff.2 h]

def isBlankText (s : String) : Bool := s.toList.all isBlank

theorem isBlankText_iff (s : String) : isBlankText s = true ↔ trim s = "" := by
  rw [isBlankText, List.all_eq_true, ← trimChars_eq_nil_iff, ← toList_trim,
    ← String.toList_inj, String.toList_empty]

end BuildItems.Text
