import BuildItems.Glob.Basic
import Mathlib.Computability.Language
import Mathlib.Data.List.Chain

/-!
# The language of a pattern

A pattern stands for a set of paths, and that set is put together from what its characters stand
for. The tokens that are read from a pattern stand for the same set. They also keep two stars to
whole components, and never follow one star with another.
-/

namespace BuildItems.Glob

def oneOf (p : Char → Prop) : Language Char := {path | ∃ c, p c ∧ path = [c]}

def runs : Language Char := {path | '/' ∉ path}

def folders : Language Char := {path | path = [] ∨ path.getLast? = some '/'}

/-- A character stands for itself; where case does not count, a letter stands for its other case
too. -/
def StandsFor (caseSensitive : Bool) (p c : Char) : Prop :=
  c = p ∨ caseSensitive = false ∧ c.toLower = p.toLower

/-- The paths that a pattern stands for. Two stars are read with the slash after them; at the end,
with or without it, they stand for any path at all. -/
def language (caseSensitive : Bool) : List Char → Language Char
  | [] => 1
  | ['*', '*'] | ['*', '*', '/'] => ⊤
  | '*' :: '*' :: '/' :: rest => folders * language caseSensitive rest
  | '*' :: rest => runs * language caseSensitive rest
  | '?' :: rest => oneOf (· ≠ '/') * language caseSensitive rest
  | c :: rest => oneOf (StandsFor caseSensitive c) * language caseSensitive rest

section Membership

variable {l : Language Char} {p : Char → Prop} {c : Char} {path : List Char}

theorem not_nil_mem_oneOf_mul : [] ∉ oneOf p * l := by
  rintro ⟨_, ⟨c, -, rfl⟩, rest, -, h⟩
  exact List.cons_ne_nil c rest h

theorem cons_mem_oneOf_mul : c :: path ∈ oneOf p * l ↔ p c ∧ path ∈ l := by
  constructor
  · rintro ⟨_, ⟨d, hd, rfl⟩, rest, hrest, h⟩
    obtain ⟨rfl, rfl⟩ := List.cons.inj h
    exact ⟨hd, hrest⟩
  · rintro ⟨hc, hpath⟩
    exact ⟨[c], ⟨c, hc, rfl⟩, path, hpath, rfl⟩

theorem cons_mem_runs : c :: path ∈ runs ↔ c ≠ '/' ∧ path ∈ runs := by
  refine List.mem_cons.not.trans (not_or.trans (and_congr_left' ?_))
  exact ne_comm

theorem mem_runs_mul_of_mem (h : path ∈ l) : path ∈ runs * l :=
  ⟨[], List.not_mem_nil, path, h, rfl⟩

theorem nil_mem_runs_mul : [] ∈ runs * l ↔ [] ∈ l := by
  refine ⟨?_, mem_runs_mul_of_mem⟩
  rintro ⟨run, -, rest, hrest, h⟩
  obtain ⟨-, rfl⟩ := List.append_eq_nil_iff.mp h
  exact hrest

theorem cons_mem_runs_mul :
    c :: path ∈ runs * l ↔ c :: path ∈ l ∨ c ≠ '/' ∧ path ∈ runs * l := by
  constructor
  · rintro ⟨run, hrun, rest, hrest, h⟩
    cases run with
    | nil => exact .inl (h ▸ hrest)
    | cons d run =>
      obtain ⟨rfl, rfl⟩ := List.cons.inj h
      obtain ⟨hd, hrun⟩ := cons_mem_runs.mp hrun
      exact .inr ⟨hd, run, hrun, rest, hrest, rfl⟩
  · rintro (h | ⟨hc, run, hrun, rest, hrest, rfl⟩)
    · exact mem_runs_mul_of_mem h
    · exact ⟨c :: run, cons_mem_runs.mpr ⟨hc, hrun⟩, rest, hrest, rfl⟩

theorem exists_suffix_of_mem_runs_mul (h : path ∈ runs * l) : ∃ rest ∈ l, rest <:+ path := by
  obtain ⟨run, -, rest, hrest, rfl⟩ := h
  exact ⟨rest, hrest, List.suffix_append run rest⟩

theorem mem_folders_mul :
    path ∈ folders * l ↔ path ∈ l ∨ ∃ rest ∈ l, '/' :: rest <:+ path := by
  constructor
  · rintro ⟨before, rfl | hlast, rest, hrest, rfl⟩
    · exact .inl hrest
    · obtain ⟨front, rfl⟩ := List.getLast?_eq_some_iff.mp hlast
      exact .inr ⟨rest, hrest, front, by simp⟩
  · rintro (h | ⟨rest, hrest, front, rfl⟩)
    · exact ⟨[], .inl rfl, path, h, rfl⟩
    · exact ⟨front ++ ['/'], .inr List.getLast?_concat, rest, hrest, by simp⟩

theorem nil_mem_folders_mul : [] ∈ folders * l ↔ [] ∈ l := by
  simp [mem_folders_mul]

/-- The last component of a path is a run, and what stands before it is folders. -/
theorem mem_folders_mul_runs (path : List Char) : path ∈ folders * runs := by
  induction path with
  | nil => exact nil_mem_folders_mul.mpr List.not_mem_nil
  | cons c path ih =>
    rcases mem_folders_mul.mp ih with hrun | ⟨rest, hrest, hsuffix⟩
    · by_cases hc : c = '/'
      · exact mem_folders_mul.mpr (.inr ⟨path, hrun, hc ▸ List.suffix_rfl⟩)
      · exact mem_folders_mul.mpr (.inl (cons_mem_runs.mpr ⟨hc, hrun⟩))
    · exact mem_folders_mul.mpr (.inr ⟨rest, hrest, hsuffix.trans (List.suffix_cons c path)⟩)

theorem folders_mul_top : folders * (⊤ : Language Char) = ⊤ :=
  eq_top_iff.mpr fun _ _ => mem_folders_mul.mpr (.inl trivial)

theorem folders_mul_folders : folders * folders = folders := by
  refine Language.ext fun path => ⟨fun h => ?_, fun h => mem_folders_mul.mpr (.inl h)⟩
  obtain ⟨front, hfront, rest, hrest, rfl⟩ := Language.mem_mul.mp h
  rcases hrest with rfl | hlast
  · rwa [List.append_nil]
  · exact .inr (by simp [hlast])

end Membership

def Token.language (caseSensitive : Bool) : Token → Language Char
  | .literal p => oneOf (StandsFor caseSensitive p)
  | .anyChar => oneOf (· ≠ '/')
  | .anyRun => runs
  | .anyFolders => folders

def openLanguage (caseSensitive : Bool) (ts : List Token) : Language Char :=
  (ts.map (Token.language caseSensitive)).prod

def closedLanguage (caseSensitive : Bool) : List Token → Language Char
  | [] => 1
  | [.anyFolders] => ⊤
  | t :: ts => t.language caseSensitive * closedLanguage caseSensitive ts

section Reading

variable {caseSensitive atStart : Bool} {t : Token} {read ts : List Token} {pattern : List Char}

theorem openLanguage_concat :
    openLanguage caseSensitive (ts ++ [t]) =
      openLanguage caseSensitive ts * t.language caseSensitive := by
  simp [openLanguage]

theorem closedLanguage_cons (h : t ≠ .anyFolders ∨ ts ≠ []) :
    closedLanguage caseSensitive (t :: ts) =
      t.language caseSensitive * closedLanguage caseSensitive ts := by
  cases t <;> cases ts <;> simp_all [closedLanguage]

theorem closedLanguage_concat_anyFolders :
    closedLanguage caseSensitive (ts ++ [.anyFolders]) = openLanguage caseSensitive ts * ⊤ := by
  induction ts with
  | nil => exact (one_mul _).symm
  | cons t ts ih =>
    rw [List.cons_append, closedLanguage_cons (.inr (by simp)), ih, ← mul_assoc]
    rfl

theorem closedLanguage_eq_openLanguage (h : ts.getLast? ≠ some .anyFolders) :
    closedLanguage caseSensitive ts = openLanguage caseSensitive ts := by
  induction ts with
  | nil => rfl
  | cons t ts ih =>
    cases ts with
    | nil =>
      have ht : t ≠ .anyFolders := fun ht => h (ht ▸ rfl)
      rw [closedLanguage_cons (.inl ht)]
      rfl
    | cons u us =>
      rw [closedLanguage_cons (.inr (List.cons_ne_nil u us)), ih (by simpa using h)]
      rfl

theorem openLanguage_pushFolders :
    openLanguage caseSensitive (pushFolders read).reverse =
      openLanguage caseSensitive read.reverse * folders := by
  unfold pushFolders
  split
  · next t ts =>
    -- the folders are read already, and folders after folders are folders
    rw [List.reverse_cons, openLanguage_concat, Token.language, mul_assoc, folders_mul_folders]
  · rw [List.reverse_cons, openLanguage_concat]
    rfl

theorem closedLanguage_pushFolders :
    closedLanguage caseSensitive (pushFolders read).reverse =
      openLanguage caseSensitive read.reverse * ⊤ := by
  unfold pushFolders
  split
  · next t ts =>
    rw [List.reverse_cons, closedLanguage_concat_anyFolders, openLanguage_concat, mul_assoc,
      Token.language, folders_mul_top]
  · rw [List.reverse_cons, closedLanguage_concat_anyFolders]

theorem language_star {rest : List Char} (h : ∀ tail, rest = '*' :: tail → False) :
    language caseSensitive ('*' :: rest) = runs * language caseSensitive rest := by
  rw [language]
  · exact fun hrest => h [] hrest
  · exact fun hrest => h ['/'] hrest
  · exact fun tail hrest => h ('/' :: tail) hrest

theorem language_literal {c : Char} {rest : List Char} (hstar : c = '*' → False)
    (hmark : c = '?' → False) :
    language caseSensitive (c :: rest) =
      oneOf (StandsFor caseSensitive c) * language caseSensitive rest := by
  rw [language]
  · exact fun hc _ => hstar hc
  · exact fun hc _ => hstar hc
  · exact fun _ hc _ => hstar hc
  · exact hstar
  · exact hmark

/-- The pattern still to be read, after the tokens read so far. Folders that end those tokens are
left to the pattern, unless it is at its end. -/
theorem closedLanguage_of_tokensAfter (h : tokensAfter atStart read pattern = .ok ts)
    (hend : pattern ≠ [] ∨ read.head? ≠ some .anyFolders) :
    closedLanguage caseSensitive ts =
      openLanguage caseSensitive read.reverse * language caseSensitive pattern := by
  fun_induction tokensAfter atStart read pattern with
  | case1 atStart read =>
    obtain rfl := Except.ok.inj h
    have hlast : read.reverse.getLast? ≠ some .anyFolders := by
      rw [List.getLast?_reverse]
      exact hend.resolve_left fun hne => hne rfl
    rw [closedLanguage_eq_openLanguage hlast]
    exact (mul_one _).symm
  | case3 read =>
    obtain rfl := Except.ok.inj h
    exact closedLanguage_pushFolders
  | case5 read rest ih =>
    cases rest with
    | nil =>
      obtain rfl := Except.ok.inj h
      exact closedLanguage_pushFolders
    | cons c rest =>
      rw [ih h (.inl (List.cons_ne_nil c rest)), openLanguage_pushFolders, mul_assoc]
      rfl
  | case8 atStart read rest _ _ _ hstar ih =>
    rw [ih h (.inr (by simp)), language_star hstar, List.reverse_cons, openLanguage_concat,
      mul_assoc]
    rfl
  | case9 atStart read rest ih =>
    rw [ih h (.inr (by simp)), List.reverse_cons, openLanguage_concat, mul_assoc]
    rfl
  | case10 atStart read c rest _ _ _ _ hstar hmark ih =>
    rw [ih h (.inr (by simp)), language_literal hstar hmark, List.reverse_cons,
      openLanguage_concat, mul_assoc]
    rfl
  | case2 | case4 | case6 | case7 => cases h

theorem closedLanguage_of_tokensOf (h : tokensOf pattern = .ok ts) :
    closedLanguage caseSensitive ts = language caseSensitive pattern := by
  rw [closedLanguage_of_tokensAfter h (.inr (by simp))]
  exact one_mul _

/-- Whether a token may stand right after another: folders only where a component starts, and no
run after a run. -/
def Token.MayFollow (u t : Token) : Prop :=
  (u = .anyFolders → t = .literal '/' ∨ t = .anyFolders) ∧ (u = .anyRun → t ≠ .anyRun)

theorem head?_pushFolders (read : List Token) : (pushFolders read).head? = some .anyFolders := by
  unfold pushFolders
  split <;> rfl

theorem isChain_pushFolders (hread : read.IsChain Token.MayFollow)
    (hstart : ∀ t ∈ read.head?, t = .literal '/' ∨ t = .anyFolders) :
    (pushFolders read).IsChain Token.MayFollow := by
  unfold pushFolders
  split
  · exact hread
  · exact hread.cons fun t ht => ⟨fun _ => hstart t ht, nofun⟩

theorem isChain_of_tokensAfter (h : tokensAfter atStart read pattern = .ok ts)
    (hread : read.IsChain Token.MayFollow)
    (hstart : atStart = true → ∀ t ∈ read.head?, t = .literal '/' ∨ t = .anyFolders)
    (hrun : read.head? = some .anyRun → ∀ tail, pattern ≠ '*' :: tail) :
    ts.reverse.IsChain Token.MayFollow := by
  fun_induction tokensAfter atStart read pattern with
  | case1 atStart read =>
    obtain rfl := Except.ok.inj h
    rwa [List.reverse_reverse]
  | case3 read =>
    obtain rfl := Except.ok.inj h
    rw [List.reverse_reverse]
    exact isChain_pushFolders hread (hstart rfl)
  | case5 read rest ih =>
    refine ih h (isChain_pushFolders hread (hstart rfl)) (fun _ t ht => .inr ?_) fun hhead => ?_
    · rw [head?_pushFolders] at ht
      exact (Option.some.inj ht).symm
    · rw [head?_pushFolders] at hhead
      cases hhead
  | case8 atStart read rest _ _ _ hstar ih =>
    refine ih h (hread.cons fun t ht => ⟨nofun, fun _ htrun => ?_⟩) nofun fun _ => hstar
    exact hrun (htrun ▸ ht) rest rfl
  | case9 atStart read rest ih =>
    exact ih h (hread.cons fun _ _ => ⟨nofun, nofun⟩) nofun nofun
  | case10 atStart read c rest _ _ _ _ _ _ ih =>
    refine ih h (hread.cons fun _ _ => ⟨nofun, nofun⟩) (fun hc t ht => .inl ?_) nofun
    rw [← Option.some.inj ht, eq_of_beq hc]
  | case2 | case4 | case6 | case7 => cases h

theorem isChain_of_tokensOf (h : tokensOf pattern = .ok ts) :
    ts.IsChain fun t u => u.MayFollow t :=
  List.isChain_reverse.mp (isChain_of_tokensAfter h .nil nofun nofun)

end Reading

end BuildItems.Glob
