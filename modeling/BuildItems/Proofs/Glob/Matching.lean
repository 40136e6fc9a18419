import BuildItems.Proofs.Glob.Language

/-!
# Matching decides the language

Where the path ends too early for the tokens, the match is given up for good, and no longer run of
an earlier wildcard is tried. Nothing is lost by that: the tokens then stand for no part of the path
that a longer run could leave to them. So a value is accepted just if its plain form is in the
language of the plain form of the pattern.
-/

namespace BuildItems.Glob

def StartsComponent (path rest : List Char) : Prop :=
  rest = path ∨ rest = [] ∨ '/' :: rest <:+ path

/-- What an earlier wildcard may leave of a path to tokens: folders only start where a component
does. -/
def LeavesTo (ts : List Token) (path rest : List Char) : Prop :=
  if ts.head? = some .anyFolders then StartsComponent path rest else rest <:+ path

/-- What a verdict on a path tells about a language. One for good tells the same of all that an
earlier wildcard may leave. -/
def Verdict.Tells (l : Language Char) (leaves : List Char → Prop) (path : List Char) :
    Verdict → Prop
  | matched => path ∈ l
  | failed => path ∉ l
  | exhausted => ∀ rest, leaves rest → rest ∉ l

variable {caseSensitive : Bool} {l : Language Char} {p : Char → Prop} {c : Char}
  {path rest : List Char} {t : Token} {ts : List Token} {next : List Char → Verdict} {v : Verdict}

theorem leavesTo_iff (h : ts.head? ≠ some .anyFolders) : LeavesTo ts path rest ↔ rest <:+ path := by
  rw [LeavesTo, if_neg h]

theorem leavesTo_cons_iff (h : t ≠ .anyFolders) : LeavesTo (t :: ts) path rest ↔ rest <:+ path :=
  leavesTo_iff fun hhead => h (Option.some.inj hhead)

theorem StartsComponent.isSuffix (h : StartsComponent path rest) : rest <:+ path := by
  rcases h with rfl | rfl | h
  · exact List.suffix_rfl
  · exact List.nil_suffix
  · exact (List.suffix_cons _ _).trans h

theorem StartsComponent.leavesTo (h : StartsComponent path rest) : LeavesTo ts path rest := by
  rw [LeavesTo]
  split
  · exact h
  · exact h.isSuffix

theorem Verdict.Tells.imp {leaves leaves' : List Char → Prop} (h : v.Tells l leaves path)
    (himp : ∀ rest, leaves' rest → leaves rest) : v.Tells l leaves' path := by
  cases v with
  | exhausted => exact fun rest hrest => h rest (himp rest hrest)
  | _ => exact h

theorem Verdict.Tells.cons (h : v.Tells l (· <:+ path) path) (hiff : c :: path ∈ l ↔ path ∈ l) :
    v.Tells l (· <:+ c :: path) (c :: path) := by
  cases v with
  | matched => exact hiff.mpr h
  | failed => exact fun hmem => h (hiff.mp hmem)
  | exhausted =>
    intro rest hrest hmem
    rcases List.suffix_cons_iff.mp hrest with rfl | hrest
    · exact h path List.suffix_rfl (hiff.mp hmem)
    · exact h rest hrest hmem

theorem tells_oneOf (h : v.Tells l (LeavesTo ts path) path) (hc : p c)
    (hslash : ts.head? = some .anyFolders → ∀ d, p d → d = '/') :
    v.Tells (oneOf p * l) (· <:+ c :: path) (c :: path) := by
  cases v with
  | matched => exact cons_mem_oneOf_mul.mpr ⟨hc, h⟩
  | failed => exact fun hmem => h (cons_mem_oneOf_mul.mp hmem).2
  | exhausted =>
    intro rest hrest hmem
    cases rest with
    | nil => exact not_nil_mem_oneOf_mul hmem
    | cons d rest =>
      obtain ⟨hd, hmem⟩ := cons_mem_oneOf_mul.mp hmem
      refine h rest ?_ hmem
      rw [LeavesTo]
      split
      · next hhead =>
        -- the folders that come next start after the slash that was matched
        obtain rfl := hslash hhead d hd
        rcases List.suffix_cons_iff.mp hrest with heq | hrest
        · exact .inl (List.cons.inj heq).2
        · exact .inr (.inr hrest)
      · rcases List.suffix_cons_iff.mp hrest with heq | hrest
        · exact (List.cons.inj heq).2 ▸ List.suffix_rfl
        · exact (List.suffix_cons d rest).trans hrest

theorem tells_runs (hnext : ∀ path, (next path).Tells l (· <:+ path) path) (path : List Char) :
    ((next path).orElse fun _ => retryInComponent next path).Tells (runs * l) (· <:+ path)
      path := by
  induction path with
  | nil =>
    have h := hnext []
    rw [retryInComponent]
    revert h
    cases next [] with
    | matched => exact nil_mem_runs_mul.mpr
    | failed => exact mt nil_mem_runs_mul.mp
    | exhausted =>
      intro h rest hrest hmem
      obtain rfl := List.suffix_nil.mp hrest
      exact h [] List.suffix_rfl (nil_mem_runs_mul.mp hmem)
  | cons c path ih =>
    have h := hnext (c :: path)
    revert h
    cases next (c :: path) with
    | matched => exact mem_runs_mul_of_mem
    | exhausted =>
      intro h rest hrest hmem
      obtain ⟨rest', hrest', hsuffix⟩ := exists_suffix_of_mem_runs_mul hmem
      exact h rest' (hsuffix.trans hrest) hrest'
    | failed =>
      intro h
      have hiff : c :: path ∈ runs * l ↔ c ≠ '/' ∧ path ∈ runs * l :=
        cons_mem_runs_mul.trans (or_iff_right h)
      change (retryInComponent next (c :: path)).Tells _ _ _
      rw [retryInComponent]
      split
      · next hc => exact fun hmem => (hiff.mp hmem).1 hc
      · next hc => exact ih.cons (hiff.trans (and_iff_right hc))

def ResumesIn (l : Language Char) (path : List Char) : Prop :=
  [] ∈ l ∨ ∃ rest ∈ l, '/' :: rest <:+ path

theorem resumesIn_cons :
    ResumesIn l (c :: path) ↔ c = '/' ∧ path ∈ l ∨ ResumesIn l path := by
  constructor
  · rintro (hnil | ⟨rest, hrest, hsuffix⟩)
    · exact .inr (.inl hnil)
    · rcases List.suffix_cons_iff.mp hsuffix with heq | hsuffix
      · obtain ⟨hc, rfl⟩ := List.cons.inj heq
        exact .inl ⟨hc.symm, hrest⟩
      · exact .inr (.inr ⟨rest, hrest, hsuffix⟩)
  · rintro (⟨rfl, hpath⟩ | hnil | ⟨rest, hrest, hsuffix⟩)
    · exact .inr ⟨path, hpath, List.suffix_rfl⟩
    · exact .inl hnil
    · exact .inr ⟨rest, hrest, hsuffix.trans (List.suffix_cons c path)⟩

theorem resumes_iff : path ∈ l ∨ ResumesIn l path ↔ [] ∈ l ∨ path ∈ folders * l := by
  rw [mem_folders_mul, ResumesIn]
  tauto

theorem ResumesIn.of_startsComponent (h : StartsComponent path rest)
    (hrest : rest ∈ l ∨ ResumesIn l rest) : path ∈ l ∨ ResumesIn l path := by
  rcases hrest with hrest | hnil | ⟨rest', hrest', hsuffix⟩
  · rcases h with rfl | rfl | hsuffix
    · exact .inl hrest
    · exact .inr (.inl hrest)
    · exact .inr (.inr ⟨rest, hrest, hsuffix⟩)
  · exact .inr (.inl hnil)
  · exact .inr (.inr ⟨rest', hrest', hsuffix.trans h.isSuffix⟩)

theorem orElse_retryInFolders (h : (next path).Tells l (StartsComponent path) path)
    (hretry : retryInFolders next path = .matched ↔ ResumesIn l path) :
    ((next path).orElse fun _ => retryInFolders next path) = .matched ↔
      path ∈ l ∨ ResumesIn l path := by
  revert h
  cases next path with
  | matched => exact fun h => iff_of_true rfl (.inl h)
  | failed => exact fun h => hretry.trans (or_iff_right h).symm
  | exhausted =>
    refine fun h => iff_of_false nofun (not_or.mpr ⟨h path (.inl rfl), ?_⟩)
    rintro (hnil | ⟨rest, hrest, hsuffix⟩)
    · exact h [] (.inr (.inl rfl)) hnil
    · exact h rest (.inr (.inr hsuffix)) hrest

theorem retryInFolders_eq_matched_iff
    (hnext : ∀ path, (next path).Tells l (StartsComponent path) path) (path : List Char) :
    retryInFolders next path = .matched ↔ ResumesIn l path := by
  induction path with
  | nil =>
    have h := hnext []
    have hnil : ResumesIn l [] ↔ [] ∈ l := by simp [ResumesIn]
    rw [retryInFolders, hnil]
    revert h
    cases next [] with
    | matched => exact iff_of_true rfl
    | failed => exact iff_of_false nofun
    | exhausted => exact fun h => iff_of_false nofun (h [] (.inl rfl))
  | cons c path ih =>
    rw [retryInFolders, resumesIn_cons]
    split
    · next hc => rw [orElse_retryInFolders (hnext path) ih, and_iff_right hc]
    · next hc => rw [ih, or_iff_right fun h => hc h.1]

theorem tells_folders (hnext : ∀ path, (next path).Tells l (StartsComponent path) path)
    {l' : Language Char} (hl' : ∀ path, path ∈ l' ↔ [] ∈ l ∨ path ∈ folders * l)
    (path : List Char) :
    ((next path).orElse fun _ => retryInFolders next path).Tells l' (StartsComponent path)
      path := by
  have hiff : ((next path).orElse fun _ => retryInFolders next path) = .matched ↔ path ∈ l' := by
    rw [hl', ← resumes_iff]
    exact orElse_retryInFolders (hnext path) (retryInFolders_eq_matched_iff hnext path)
  cases hv : (next path).orElse fun _ => retryInFolders next path with
  | matched => exact hiff.mp hv
  | failed => exact fun hmem => nomatch hv.symm.trans (hiff.mpr hmem)
  | exhausted =>
    intro rest hrest hmem
    have hpath : path ∈ l' := by
      rw [hl', ← resumes_iff] at hmem ⊢
      exact ResumesIn.of_startsComponent hrest hmem
    exact nomatch hv.symm.trans (hiff.mpr hpath)

theorem closedLanguage_literal (p : Char) :
    closedLanguage caseSensitive (.literal p :: ts) =
      oneOf (StandsFor caseSensitive p) * closedLanguage caseSensitive ts :=
  closedLanguage_cons (.inl nofun)

theorem closedLanguage_anyChar :
    closedLanguage caseSensitive (.anyChar :: ts) =
      oneOf (· ≠ '/') * closedLanguage caseSensitive ts :=
  closedLanguage_cons (.inl nofun)

theorem closedLanguage_anyRun :
    closedLanguage caseSensitive (.anyRun :: ts) = runs * closedLanguage caseSensitive ts :=
  closedLanguage_cons (.inl nofun)

theorem not_nil_mem_closedLanguage {u : Token} {us : List Token} (h : u.MayFollow .anyRun) :
    [] ∉ closedLanguage caseSensitive (u :: us) := by
  cases u with
  | literal p => exact closedLanguage_literal p ▸ not_nil_mem_oneOf_mul
  | anyChar => exact closedLanguage_anyChar ▸ not_nil_mem_oneOf_mul
  | anyRun => exact absurd rfl (h.2 rfl)
  | anyFolders => exact absurd (h.1 rfl) (by simp)

/-- Folders that need not be followed by anything stand for any path. -/
theorem closedLanguage_eq_top (hts : (Token.anyFolders :: ts).IsChain fun t u => u.MayFollow t)
    (h : [] ∈ closedLanguage caseSensitive ts) :
    closedLanguage caseSensitive (.anyFolders :: ts) = ⊤ := by
  induction ts with
  | nil => rfl
  | cons t ts ih =>
    rw [closedLanguage_cons (.inr (List.cons_ne_nil t ts))]
    cases t with
    | literal p => exact absurd (closedLanguage_literal p ▸ h) not_nil_mem_oneOf_mul
    | anyChar => exact absurd (closedLanguage_anyChar ▸ h) not_nil_mem_oneOf_mul
    | anyRun =>
      rw [closedLanguage_anyRun] at h ⊢
      cases ts with
      | nil =>
        rw [closedLanguage, mul_one]
        exact eq_top_iff.mpr fun path _ => mem_folders_mul_runs path
      | cons u us =>
        have hu : u.MayFollow .anyRun := (List.isChain_cons_cons.mp hts.tail).1
        exact absurd (nil_mem_runs_mul.mp h) (not_nil_mem_closedLanguage hu)
    | anyFolders =>
      have hnil : [] ∈ closedLanguage caseSensitive ts := by
        cases ts with
        | nil => exact Language.nil_mem_one
        | cons u us =>
          rw [closedLanguage_cons (.inr (List.cons_ne_nil u us))] at h
          exact nil_mem_folders_mul.mp h
      exact (congrArg (folders * ·) (ih hts.tail hnil)).trans folders_mul_top

theorem mem_closedLanguage_anyFolders
    (hts : (Token.anyFolders :: ts).IsChain fun t u => u.MayFollow t) (path : List Char) :
    path ∈ closedLanguage caseSensitive (.anyFolders :: ts) ↔
      [] ∈ closedLanguage caseSensitive ts ∨ path ∈ folders * closedLanguage caseSensitive ts := by
  by_cases hnil : [] ∈ closedLanguage caseSensitive ts
  · rw [closedLanguage_eq_top hts hnil]
    exact iff_of_true trivial (.inl hnil)
  · have hne : ts ≠ [] := fun h => hnil (h ▸ Language.nil_mem_one)
    rw [closedLanguage_cons (.inr hne), or_iff_right hnil]
    rfl

theorem sameChar_iff {d : Char} :
    sameChar caseSensitive c d = true ↔ StandsFor caseSensitive c d := by
  cases caseSensitive with
  | true => exact beq_iff_eq.trans (eq_comm.trans (or_iff_left fun h => nomatch h.1).symm)
  | false =>
    refine (Text.sameLetter_iff c d).trans ⟨fun h => .inr ⟨rfl, h.symm⟩, ?_⟩
    exact fun h => h.elim (fun heq => heq ▸ rfl) fun hletter => hletter.2.symm

theorem StandsFor.eq_of_not_letter {d : Char} (h : StandsFor caseSensitive c d)
    (hc : Text.isAsciiLetter c = false) : d = c := by
  rcases h with h | ⟨-, h⟩
  · exact h
  · rwa [Text.toLower_of_not_letter hc, Text.toLower_eq_iff hc] at h

/-- No path is left, and a character is still to come. -/
theorem tells_exhausted_nil {m : Language Char} :
    Verdict.exhausted.Tells (oneOf p * m) (· <:+ []) [] := by
  intro rest hrest hmem
  obtain rfl := List.suffix_nil.mp hrest
  exact not_nil_mem_oneOf_mul hmem

/-- The verdict on a path tells whether the tokens stand for it. Where it is for good, they stand
for nothing either that an earlier wildcard may leave of the path. -/
theorem tells_matchTokens (hts : ts.IsChain fun t u => u.MayFollow t) (path : List Char) :
    (matchTokens caseSensitive ts path).Tells (closedLanguage caseSensitive ts)
      (LeavesTo ts path) path := by
  induction ts generalizing path with
  | nil =>
    cases path with
    | nil => exact Language.nil_mem_one
    | cons c path => exact List.cons_ne_nil c path
  | cons t ts ih =>
    have ih := ih hts.tail
    have hhead : ts.head? = some .anyFolders → t = .literal '/' ∨ t = .anyFolders :=
      fun h => ((List.isChain_cons.mp hts).1 _ h).1 rfl
    cases t with
    | literal p =>
      rw [closedLanguage_literal]
      refine Verdict.Tells.imp ?_ fun _ => (leavesTo_cons_iff (t := .literal p) nofun).mp
      cases path with
      | nil => exact tells_exhausted_nil
      | cons c path =>
        rw [matchTokens]
        split
        · next hc =>
          refine tells_oneOf (ih path) (sameChar_iff.mp hc) fun h d hd => ?_
          obtain rfl : p = '/' := by simpa using hhead h
          exact hd.eq_of_not_letter rfl
        · next hc => exact fun hmem => hc (sameChar_iff.mpr (cons_mem_oneOf_mul.mp hmem).1)
    | anyChar =>
      rw [closedLanguage_anyChar]
      refine Verdict.Tells.imp ?_ fun _ => (leavesTo_cons_iff (t := .anyChar) nofun).mp
      cases path with
      | nil => exact tells_exhausted_nil
      | cons c path =>
        rw [matchTokens]
        split
        · next hc => exact fun hmem => (cons_mem_oneOf_mul.mp hmem).1 hc
        · next hc => exact tells_oneOf (ih path) hc fun h => absurd (hhead h) (by simp)
    | anyRun =>
      have hne : ts.head? ≠ some .anyFolders := fun h => absurd (hhead h) (by simp)
      rw [closedLanguage_anyRun, matchTokens]
      refine Verdict.Tells.imp ?_ fun _ => (leavesTo_cons_iff (t := .anyRun) nofun).mp
      exact tells_runs (fun path => (ih path).imp fun _ => (leavesTo_iff hne).mpr) path
    | anyFolders =>
      rw [matchTokens]
      refine Verdict.Tells.imp ?_ fun _ h => (if_pos rfl).mp h
      exact tells_folders (fun path => (ih path).imp fun _ => StartsComponent.leavesTo)
        (mem_closedLanguage_anyFolders hts) path

theorem matchTokens_eq_matched_iff (hts : ts.IsChain fun t u => u.MayFollow t) (path : List Char) :
    matchTokens caseSensitive ts path = .matched ↔ path ∈ closedLanguage caseSensitive ts := by
  have h : (matchTokens caseSensitive ts path).Tells _ (LeavesTo ts path) path :=
    tells_matchTokens hts path
  revert h
  cases matchTokens caseSensitive ts path with
  | matched => exact iff_of_true rfl
  | failed => exact iff_of_false nofun
  | exhausted =>
    exact fun h => iff_of_false nofun (h path (StartsComponent.leavesTo (.inl rfl)))

variable {text : String} {directory : Option String} {g : Glob}

theorem acceptsWhole_iff_mem_language (h : compile text caseSensitive directory = .ok g)
    (path : List Char) :
    g.acceptsWhole path = true ↔ path ∈ language caseSensitive (Path.plain text.toList) := by
  obtain ⟨tokens, htokens, rfl⟩ := exists_tokens_of_compile h
  rw [← closedLanguage_of_tokensOf htokens,
    ← matchTokens_eq_matched_iff (isChain_of_tokensOf htokens)]
  exact beq_iff_eq

/-- Without a base directory, a value is accepted just if its plain form is in the language of the
plain form of the pattern. -/
theorem accepts_iff_mem_language (h : compile text caseSensitive none = .ok g) (value : String) :
    g.accepts value = true ↔
      Path.plain value.toList ∈ language caseSensitive (Path.plain text.toList) := by
  rw [accepts_of_base_none (base_of_compile h), acceptsWhole_iff_mem_language h]

theorem accepts_iff_mem_language_brackets :
    ∃ g, compile ".\\src\\**/lib[1]*.c?" false none = .ok g ∧
      g.accepts "./SRC/x/y/Lib[1].z.cs" = true ∧
      Path.plain "./SRC/x/y/Lib[1].z.cs".toList ∈
        language false (Path.plain ".\\src\\**/lib[1]*.c?".toList) ∧
      g.accepts "src/lib1.cs" = false ∧
      Path.plain "src/lib1.cs".toList ∉
        language false (Path.plain ".\\src\\**/lib[1]*.c?".toList) := by
  obtain ⟨g, hcompile, hin, hout⟩ : ∃ g, compile ".\\src\\**/lib[1]*.c?" false none = .ok g ∧
      g.accepts "./SRC/x/y/Lib[1].z.cs" = true ∧ g.accepts "src/lib1.cs" = false :=
    ⟨_, rfl, by decide +kernel, by decide +kernel⟩
  refine ⟨g, hcompile, hin, (accepts_iff_mem_language hcompile _).mp hin, hout, fun hmem => ?_⟩
  exact nomatch hout.symm.trans ((accepts_iff_mem_language hcompile _).mpr hmem)

end BuildItems.Glob
