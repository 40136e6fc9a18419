/-!
# Tables of code points

A table is a list of closed ranges of code points; membership is by the character's number.
-/

namespace BuildItems.Text

abbrev CodeRange := Nat × Nat

def CodeRange.contains (r : CodeRange) (c : Char) : Bool :=
  r.1 ≤ c.toNat && c.toNat ≤ r.2

def inTable (table : List CodeRange) (c : Char) : Bool :=
  table.any (CodeRange.contains · c)

theorem inTable_iff (table : List CodeRange) (c : Char) :
    inTable table c = true ↔ ∃ r ∈ table, r.1 ≤ c.toNat ∧ c.toNat ≤ r.2 := by
  simp [inTable, CodeRange.contains, List.any_eq_true]

end BuildItems.Text
