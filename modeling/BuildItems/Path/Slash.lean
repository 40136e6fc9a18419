/-!
# Separators of a path

A path may be written with either slash. Its plain form has forward slashes only and does not
begin with the current directory.
-/

namespace BuildItems.Path

def forward (cs : List Char) : List Char := cs.map fun c => if c = '\\' then '/' else c

def dropHere : List Char → List Char
  | '.' :: '/' :: rest => dropHere rest
  | cs => cs

theorem dropHere_eq_self {cs : List Char} (h : ¬ ['.', '/'] <+: cs) : dropHere cs = cs := by
  unfold dropHere
  split
  · next rest => exact absurd (List.prefix_append ['.', '/'] rest) h
  · rfl

theorem not_prefix_dropHere (cs : List Char) : ¬ ['.', '/'] <+: dropHere cs := by
  fun_induction dropHere cs with
  | case1 rest ih => exact ih
  | case2 cs h =>
    rintro ⟨rest, rfl⟩
    exact h rest rfl

def plain (cs : List Char) : List Char := dropHere (forward cs)

theorem forward_append (cs ds : List Char) : forward (cs ++ ds) = forward cs ++ forward ds :=
  List.map_append

theorem forward_eq_self {cs : List Char} (h : '\\' ∉ cs) : forward cs = cs := by
  refine (List.map_congr_left fun c hc => if_neg ?_).trans (List.map_id' cs)
  exact fun heq => h (heq ▸ hc)

theorem plain_eq_self {cs : List Char} (hslash : '\\' ∉ cs) (hhere : ¬ ['.', '/'] <+: cs) :
    plain cs = cs := by
  rw [plain, forward_eq_self hslash, dropHere_eq_self hhere]

end BuildItems.Path
