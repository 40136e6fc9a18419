import BuildItems.Glob.Basic
import Mathlib.Data.List.DropRight

/-!
# Values below a base directory

The base of a glob is the directory without any slash at its end, and a value is below it where one
slash follows. So a value that is joined to a directory is matched by its relative part, unless the
directory ends in a slash too many: then what is left of the slashes stays with the relative part,
and of a directory of nothing but slashes no base is left.
-/

namespace BuildItems

namespace Path

def closed (directory : List Char) : List Char :=
  if directory = [] ∨ directory.getLast? = some '/' then directory else directory ++ ['/']

/-- The slashes that a directory ends in, but one. -/
def surplus (directory : List Char) : List Char := (directory.rtakeWhile (· == '/')).tail

variable {directory relative : List Char}

theorem prefix_closed (directory : List Char) : directory <+: closed directory := by
  unfold closed
  split
  · exact List.prefix_rfl
  · exact List.prefix_append directory ['/']

theorem closed_here (directory : List Char) :
    closed ('.' :: '/' :: directory) = '.' :: '/' :: closed directory := by
  cases directory with
  | nil => rfl
  | cons c cs => simp [closed, apply_ite]

theorem dropHere_closed_append (directory relative : List Char) :
    dropHere (closed directory ++ relative) =
      dropHere (closed (dropHere directory) ++ relative) := by
  fun_induction dropHere directory with
  | case1 rest ih => rw [closed_here, ← ih]; rfl
  | case2 => rfl

theorem rtakeWhile_slash_eq_nil_iff :
    directory.rtakeWhile (· == '/') = [] ↔ directory.getLast? ≠ some '/' := by
  rw [List.rtakeWhile_eq_nil_iff]
  cases directory using List.reverseRecOn <;> simp

theorem cons_surplus (h : directory.getLast? = some '/') :
    '/' :: surplus directory = directory.rtakeWhile (· == '/') := by
  unfold surplus
  cases htake : directory.rtakeWhile (· == '/') with
  | nil => exact absurd h (rtakeWhile_slash_eq_nil_iff.mp htake)
  | cons c slashes =>
    have hc : (c == '/') = true :=
      List.mem_rtakeWhile_imp (p := (· == '/')) (htake.symm ▸ List.mem_cons_self)
    rw [eq_of_beq hc, List.tail_cons]

theorem closed_eq (h : directory ≠ []) :
    closed directory = directory.rdropWhile (· == '/') ++ '/' :: surplus directory := by
  have happend := List.rdropWhile_append_rtakeWhile (p := (· == '/')) (l := directory)
  by_cases hlast : directory.getLast? = some '/'
  · rw [closed, if_pos (.inr hlast), cons_surplus hlast, happend]
  · have hnil := rtakeWhile_slash_eq_nil_iff.mpr hlast
    rw [hnil, List.append_nil] at happend
    rw [closed, if_neg (not_or.mpr ⟨h, hlast⟩), surplus, hnil, happend]
    rfl

theorem surplus_eq_nil (h : ¬ ['/', '/'] <:+ directory) : surplus directory = [] := by
  induction directory using List.reverseRecOn with
  | nil => rfl
  | append_singleton front c _ =>
    rw [surplus, List.rtakeWhile_concat]
    split
    · next hc =>
      cases front using List.reverseRecOn with
      | nil => rfl
      | append_singleton front d =>
        rw [List.rtakeWhile_concat_neg]
        · rfl
        · refine fun hd => h ⟨front, ?_⟩
          rw [eq_of_beq hc, eq_of_beq hd, List.append_assoc, List.singleton_append]
    · rfl

theorem eq_nil_of_rdropWhile_eq_nil (h : directory.rdropWhile (· == '/') = [])
    (hsurplus : surplus directory = []) (hroot : directory ≠ ['/']) : directory = [] := by
  by_contra hne
  have hprefix := prefix_closed directory
  rw [closed_eq hne, h, hsurplus, List.nil_append, List.prefix_cons_iff] at hprefix
  obtain rfl | ⟨cs, rfl, hcs⟩ := hprefix
  · exact hne rfl
  · exact hroot (List.prefix_nil.mp hcs ▸ rfl)

theorem getLast?_forward (cs : List Char) :
    (forward cs).getLast? = some '/' ↔ cs.getLast? = some '/' ∨ cs.getLast? = some '\\' := by
  rw [forward, List.getLast?_map]
  cases cs.getLast? with
  | none => simp
  | some c => by_cases hc : c = '\\' <;> simp [hc]

theorem dropHere_closed_append_plain (h : ¬ ['.', '/'] <+: directory)
    (hrelative : ¬ ['.', '/'] <+: relative) :
    dropHere (closed directory ++ relative) =
      if directory = [] ∨ directory = ['.'] then relative
      else directory.rdropWhile (· == '/') ++ '/' :: (surplus directory ++ relative) := by
  split
  · next hhere =>
    rcases hhere with rfl | rfl
    · exact dropHere_eq_self hrelative
    · exact dropHere_eq_self hrelative
  · next hhere =>
    rw [dropHere_eq_self, closed_eq (mt .inl hhere), List.append_assoc, List.cons_append]
    -- the current directory is in front only if it was before, or is all the directory is
    intro hprefix
    have hdirectory : directory <+: closed directory ++ relative :=
      (prefix_closed directory).trans (List.prefix_append _ _)
    rcases List.prefix_or_prefix_of_prefix hprefix hdirectory with hdot | hdot
    · exact h hdot
    · obtain rfl | ⟨cs, rfl, hcs⟩ := List.prefix_cons_iff.mp hdot
      · exact hhere (.inl rfl)
      · obtain rfl | ⟨ds, rfl, hds⟩ := List.prefix_cons_iff.mp hcs
        · exact hhere (.inr rfl)
        · exact h (List.prefix_append _ _)

end Path

namespace Glob

/-- A relative value below a directory, after a slash unless the directory has a separator at its
end or is empty. -/
def join (directory relative : String) : String :=
  if directory.toList = [] ∨ directory.toList.getLast? = some '/' ∨
      directory.toList.getLast? = some '\\' then directory ++ relative
  else directory ++ "/" ++ relative

section Join

variable {directory relative : String}

theorem forward_join (h : '\\' ∉ relative.toList) :
    Path.forward (join directory relative).toList =
      Path.closed (Path.forward directory.toList) ++ relative.toList := by
  have hiff : Path.forward directory.toList = [] ∨
      (Path.forward directory.toList).getLast? = some '/' ↔ directory.toList = [] ∨
        directory.toList.getLast? = some '/' ∨ directory.toList.getLast? = some '\\' :=
    or_congr List.map_eq_nil_iff (Path.getLast?_forward _)
  unfold join
  split
  · next hend =>
    rw [Path.closed, if_pos (hiff.mpr hend), String.toList_append, Path.forward_append,
      Path.forward_eq_self h]
  · next hend =>
    rw [Path.closed, if_neg (mt hiff.mp hend), String.toList_append, String.toList_append,
      Path.forward_append, Path.forward_append, Path.forward_eq_self h]
    rfl

theorem plain_join (hslash : '\\' ∉ relative.toList) (hhere : ¬ ['.', '/'] <+: relative.toList) :
    Path.plain (join directory relative).toList =
      if Path.plain directory.toList = [] ∨ Path.plain directory.toList = ['.'] then
        relative.toList
      else (Path.plain directory.toList).rdropWhile (· == '/') ++
        '/' :: (Path.surplus (Path.plain directory.toList) ++ relative.toList) := by
  rw [Path.plain, forward_join hslash, Path.dropHere_closed_append]
  exact Path.dropHere_closed_append_plain (Path.not_prefix_dropHere _) hhere

end Join

section Accepting

variable {text directory relative : String} {caseSensitive : Bool} {g₀ g : Glob}
  {base path rest : List Char}

theorem baseOf_eq (directory : String) :
    baseOf directory =
      if (Path.plain directory.toList).rdropWhile (· == '/') = [] then none
      else some ((Path.plain directory.toList).rdropWhile (· == '/')) := rfl

theorem baseOf_eq_some_iff :
    baseOf directory = some base ↔
      (Path.plain directory.toList).rdropWhile (· == '/') = base ∧ base ≠ [] := by
  rw [baseOf_eq]
  split
  · next h => exact iff_of_false nofun fun hbase => hbase.2 (hbase.1.symm.trans h)
  · next h => exact Option.some_inj.trans (iff_self_and.mpr fun hbase => hbase ▸ h)

theorem below_eq_some_iff : below base path = some rest ↔ base ++ '/' :: rest = path := by
  simp [below]

theorem acceptsPath_iff :
    g.acceptsPath path = true ↔ g.acceptsWhole path = true ∨
      ∃ base ∈ g.base, ∃ rest, base ++ '/' :: rest = path ∧ g.acceptsWhole rest = true := by
  rw [acceptsPath, Bool.or_eq_true]
  refine or_congr_right ?_
  cases hbase : g.base with
  | none => simp
  | some base =>
    simp only [Option.bind_some, Option.mem_def, Option.some.injEq, exists_eq_left',
      ← below_eq_some_iff]
    cases below base path <;> simp

/-- Below a base directory, a value matches as a whole or by its relative part, with the surplus
slashes of the directory in front. -/
theorem accepts_join_iff_surplus (h₀ : compile text caseSensitive none = .ok g₀)
    (h : compile text caseSensitive (some directory) = .ok g)
    (hslash : '\\' ∉ relative.toList) (hhere : ¬ ['.', '/'] <+: relative.toList) :
    g.accepts (join directory relative) = true ↔
      g₀.accepts (join directory relative) = true ∨
        baseOf directory ≠ none ∧
          g₀.acceptsWhole
            (Path.surplus (Path.plain directory.toList) ++ relative.toList) = true := by
  have hwhole (path : List Char) : g.acceptsWhole path = g₀.acceptsWhole path := by
    rw [eq_of_compile h₀ h]
    rfl
  rw [accepts_of_base_none (base_of_compile h₀), accepts, acceptsPath_iff, base_of_compile h,
    plain_join hslash hhere, Option.bind_some]
  simp only [hwhole]
  by_cases hbase : baseOf directory = none
  · simp [hbase]
  · obtain ⟨base, hsome⟩ := Option.ne_none_iff_exists'.mp hbase
    obtain ⟨rfl, hne⟩ := baseOf_eq_some_iff.mp hsome
    simp only [hsome, Option.mem_some_iff, exists_eq_left', ne_eq, reduceCtorEq, not_false_eq_true,
      true_and]
    split
    · next hcurrent =>
      -- the current directory is dropped from the joined value
      obtain hdirectory | hdirectory := hcurrent
      · exact absurd (congrArg (List.rdropWhile (· == '/')) hdirectory) hne
      · rw [hdirectory]
        refine or_congr_right' fun hrelative => iff_of_false ?_ hrelative
        rintro ⟨rest, hrest, -⟩
        exact hhere ⟨rest, hrest⟩
    · exact or_congr_right (by simp)

/-- A value that is joined to the base directory and matches by its relative part is accepted,
unless the directory ends in a slash too many. Then it is accepted only if it matches as a whole, or
with the other slashes before its relative part. -/
theorem accepts_join_iff (h₀ : compile text caseSensitive none = .ok g₀)
    (h : compile text caseSensitive (some directory) = .ok g)
    (hslash : '\\' ∉ relative.toList) (hhere : ¬ ['.', '/'] <+: relative.toList)
    (hrelative : g₀.accepts relative = true) :
    g.accepts (join directory relative) = true ↔
      Path.plain directory.toList ≠ ['/'] ∧ ¬ ['/', '/'] <:+ Path.plain directory.toList ∨
      g₀.accepts (join directory relative) = true ∨
      baseOf directory ≠ none ∧
        g₀.acceptsWhole (Path.surplus (Path.plain directory.toList) ++ relative.toList) = true := by
  rw [accepts_join_iff_surplus h₀ h hslash hhere]
  refine (or_iff_right_of_imp ?_).symm
  rintro ⟨hroot, hend⟩
  have hsurplus := Path.surplus_eq_nil hend
  have hwhole : g₀.acceptsWhole relative.toList = true := by
    rwa [accepts_of_base_none (base_of_compile h₀), Path.plain_eq_self hslash hhere] at hrelative
  by_cases hbase : baseOf directory = none
  · have hdrop : (Path.plain directory.toList).rdropWhile (· == '/') = [] := by
      by_contra hne
      exact nomatch hbase.symm.trans (baseOf_eq_some_iff.mpr ⟨rfl, hne⟩)
    left
    rwa [accepts_of_base_none (base_of_compile h₀), plain_join hslash hhere,
      if_pos (.inl (Path.eq_nil_of_rdropWhile_eq_nil hdrop hsurplus hroot))]
  · exact .inr ⟨hbase, hsurplus ▸ hwhole⟩

theorem accepts_join_iff_windows :
    ∃ g₀ g, compile "src/*.cs" true none = .ok g₀ ∧
      compile "src/*.cs" true (some ".\\work\\proj\\") = .ok g ∧
      g₀.accepts "src/a.cs" = true ∧ join ".\\work\\proj\\" "src/a.cs" = ".\\work\\proj\\src/a.cs" ∧
      g.accepts ".\\work\\proj\\src/a.cs" = true := by
  obtain ⟨g₀, g, h₀, h, hrelative⟩ : ∃ g₀ g, compile "src/*.cs" true none = .ok g₀ ∧
      compile "src/*.cs" true (some ".\\work\\proj\\") = .ok g ∧ g₀.accepts "src/a.cs" = true :=
    ⟨_, _, rfl, rfl, by decide +kernel⟩
  have hjoin : join ".\\work\\proj\\" "src/a.cs" = ".\\work\\proj\\src/a.cs" := by decide +kernel
  refine ⟨g₀, g, h₀, h, hrelative, hjoin, ?_⟩
  rw [← hjoin]
  exact (accepts_join_iff h₀ h (by decide +kernel) (by decide +kernel) hrelative).mpr
    (.inl (by decide +kernel))

/-- Of the root no base is left, and of two slashes one stays with the relative part. -/
theorem not_accepts_join_slashes :
    ∃ g₀ g g', compile "*.cs" true none = .ok g₀ ∧ compile "*.cs" true (some "/") = .ok g ∧
      compile "*.cs" true (some "/p//") = .ok g' ∧ g₀.accepts "a.cs" = true ∧
      g.accepts (join "/" "a.cs") = false ∧ g'.accepts (join "/p//" "a.cs") = false :=
  ⟨_, _, _, rfl, rfl, rfl, by decide +kernel, by decide +kernel, by decide +kernel⟩

end Accepting

end Glob

end BuildItems
