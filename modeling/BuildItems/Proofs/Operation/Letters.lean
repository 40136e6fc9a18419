import BuildItems.Proofs.Glob.Base
import BuildItems.Proofs.Glob.Matching
import BuildItems.Proofs.Operation.Likeness

/-!
# Globs for which case does not count

No part of a pattern tells the letters apart by case, so neither does what the pattern stands for.
The base directory of a glob does: it is compared with the value character by character. So two
values that differ in the case of letters only are treated alike as far as both are below the base
directory, or neither is.
-/

namespace BuildItems

namespace Text

def SameLetters (cs ds : List Char) : Prop := cs.map Char.toLower = ds.map Char.toLower

theorem sameLetters_of_lowerAscii_eq {v w : String} (h : lowerAscii v = lowerAscii w) :
    SameLetters v.toList w.toList := String.ofList_injective h

end Text

open Text (SameLetters)

namespace Path

variable {c : Char} {cs ds : List Char}

theorem toLower_eq_slash_iff : c.toLower = '/' ↔ c = '/' := Text.toLower_eq_iff rfl

theorem forward_map_toLower (cs : List Char) :
    forward (cs.map Char.toLower) = (forward cs).map Char.toLower := by
  have hbackslash (c : Char) : c.toLower = '\\' ↔ c = '\\' := Text.toLower_eq_iff rfl
  simp only [forward, List.map_map]
  refine List.map_congr_left fun c _ => ?_
  by_cases hc : c = '\\' <;> simp [hbackslash, hc]

theorem here_prefix_map_toLower (cs : List Char) :
    ['.', '/'] <+: cs.map Char.toLower ↔ ['.', '/'] <+: cs := by
  have hdot (c : Char) : '.' = c.toLower ↔ '.' = c :=
    eq_comm.trans ((Text.toLower_eq_iff rfl).trans eq_comm)
  have hslash (c : Char) : '/' = c.toLower ↔ '/' = c :=
    eq_comm.trans (toLower_eq_slash_iff.trans eq_comm)
  match cs with
  | [] => exact Iff.rfl
  | [c] => simp
  | c :: d :: cs => simp [List.cons_prefix_cons, hdot, hslash]

theorem dropHere_map_toLower (cs : List Char) :
    dropHere (cs.map Char.toLower) = (dropHere cs).map Char.toLower := by
  fun_induction dropHere cs with
  | case1 rest ih => exact ih
  | case2 cs h =>
    refine dropHere_eq_self fun hprefix => ?_
    obtain ⟨rest, hrest⟩ := (here_prefix_map_toLower cs).mp hprefix
    exact h rest hrest.symm

theorem plain_sameLetters (h : SameLetters cs ds) : SameLetters (plain cs) (plain ds) := by
  unfold SameLetters plain
  rw [← dropHere_map_toLower, ← dropHere_map_toLower, ← forward_map_toLower,
    ← forward_map_toLower, h]

end Path

namespace Glob

/-- With a path, the language has any that differs in the case of letters only. -/
def Caseless (l : Language Char) : Prop :=
  ∀ ⦃path path'⦄, SameLetters path path' → path ∈ l → path' ∈ l

variable {l m : Language Char} {p : Char → Prop}

theorem caseless_one : Caseless 1 := by
  rintro _ path' h rfl
  exact List.map_eq_nil_iff.mp h.symm

theorem caseless_top : Caseless ⊤ := fun _ _ _ _ => trivial

theorem Caseless.mul (hl : Caseless l) (hm : Caseless m) : Caseless (l * m) := by
  rintro _ path' h ⟨front, hfront, rest, hrest, rfl⟩
  obtain ⟨front', rest', rfl, hfront', hrest'⟩ :=
    List.map_eq_append_iff.mp (h.symm.trans List.map_append)
  exact ⟨front', hl hfront'.symm hfront, rest', hm hrest'.symm hrest, rfl⟩

theorem caseless_oneOf (hp : ∀ c d, c.toLower = d.toLower → p c → p d) : Caseless (oneOf p) := by
  rintro _ path' h ⟨c, hc, rfl⟩
  obtain ⟨d, rfl, hd⟩ := List.map_eq_singleton_iff.mp h.symm
  exact ⟨d, hp c d hd.symm hc, rfl⟩

theorem caseless_of_map_toLower (h : ∀ path, path.map Char.toLower ∈ l ↔ path ∈ l) :
    Caseless l := by
  intro path path' hsame hpath
  rw [← h, hsame] at hpath
  exact (h path').mp hpath

theorem caseless_runs : Caseless runs := by
  refine caseless_of_map_toLower fun path => not_congr ?_
  simp [Path.toLower_eq_slash_iff]

theorem caseless_folders : Caseless folders := by
  refine caseless_of_map_toLower fun path => or_congr List.map_eq_nil_iff ?_
  simp [Path.toLower_eq_slash_iff]

theorem caseless_language (pattern : List Char) : Caseless (language false pattern) := by
  fun_induction language false pattern with
  | case1 => exact caseless_one
  | case2 => exact caseless_top
  | case3 => exact caseless_top
  | case4 rest _ ih => exact caseless_folders.mul ih
  | case5 rest _ _ _ ih => exact caseless_runs.mul ih
  | case6 rest ih =>
    refine (caseless_oneOf fun c d hcd hc hd => hc ?_).mul ih
    exact Path.toLower_eq_slash_iff.mp (hcd.trans (Path.toLower_eq_slash_iff.mpr hd))
  | case7 c rest _ _ _ _ _ ih =>
    refine (caseless_oneOf fun d e hde hd => .inr ⟨rfl, hde.symm.trans ?_⟩).mul ih
    exact hd.elim (fun heq => heq ▸ rfl) And.right

variable {text : String} {directory : Option String} {g : Glob} {path path' : List Char}

theorem acceptsWhole_of_sameLetters (h : compile text false directory = .ok g)
    (hsame : SameLetters path path') (haccepts : g.acceptsWhole path = true) :
    g.acceptsWhole path' = true := by
  rw [acceptsWhole_iff_mem_language h] at haccepts ⊢
  exact caseless_language _ hsame haccepts

theorem acceptsWhole_eq_of_sameLetters (h : compile text false directory = .ok g)
    (hsame : SameLetters path path') : g.acceptsWhole path = g.acceptsWhole path' :=
  Bool.eq_iff_iff.mpr
    ⟨acceptsWhole_of_sameLetters h hsame, acceptsWhole_of_sameLetters h hsame.symm⟩

/-- A glob tells two such paths apart only where it accepts one of them by the part below its base
directory, and the other one is written differently in that directory. -/
theorem acceptsPath_and_not_iff (h : compile text false directory = .ok g)
    (hsame : SameLetters path path') :
    g.acceptsPath path = true ∧ g.acceptsPath path' = false ↔
      g.acceptsWhole path = false ∧ ∃ base ∈ g.base, ¬ base ++ ['/'] <+: path' ∧
        ∃ rest, base ++ '/' :: rest = path ∧ g.acceptsWhole rest = true := by
  rw [← Bool.not_eq_true, ← Bool.not_eq_true, acceptsPath_iff, acceptsPath_iff,
    ← acceptsWhole_eq_of_sameLetters h hsame]
  constructor
  · rintro ⟨hwhole | ⟨base, hbase, rest, hrest, haccepts⟩, hnot⟩
    · exact absurd (.inl hwhole) hnot
    · refine ⟨mt .inl hnot, base, hbase, ?_, rest, hrest, haccepts⟩
      rintro ⟨rest', rfl⟩
      have hsame' : SameLetters rest rest' := by simpa [SameLetters, ← hrest] using hsame
      refine hnot (.inr ⟨base, hbase, rest', by simp, ?_⟩)
      exact acceptsWhole_of_sameLetters h hsame' haccepts
  · rintro ⟨hwhole, base, hbase, hbelow, rest, hrest, haccepts⟩
    refine ⟨.inr ⟨base, hbase, rest, hrest, haccepts⟩, ?_⟩
    rintro (hwhole' | ⟨base', hbase', rest', rfl, -⟩)
    · exact hwhole hwhole'
    · obtain rfl : base' = base := Option.some.inj (hbase'.symm.trans hbase)
      exact hbelow ⟨rest', by simp⟩

theorem acceptsPath_of_sameLetters (h : compile text false directory = .ok g)
    (hsame : SameLetters path path')
    (hbelow : ∀ base ∈ g.base, base ++ ['/'] <+: path → base ++ ['/'] <+: path')
    (haccepts : g.acceptsPath path = true) : g.acceptsPath path' = true := by
  by_contra hnot
  obtain ⟨-, base, hbase, hbelow', rest, rfl, -⟩ :=
    (acceptsPath_and_not_iff h hsame).mp ⟨haccepts, Bool.eq_false_iff.mpr hnot⟩
  exact hbelow' (hbelow base hbase ⟨rest, by simp⟩)

theorem accepts_eq_of_lowerAscii_eq {v w : String} (h : compile text false directory = .ok g)
    (hsame : Text.lowerAscii v = Text.lowerAscii w)
    (hbelow : ∀ base ∈ g.base,
      base ++ ['/'] <+: Path.plain v.toList ↔ base ++ ['/'] <+: Path.plain w.toList) :
    g.accepts v = g.accepts w := by
  have hplain := Path.plain_sameLetters (Text.sameLetters_of_lowerAscii_eq hsame)
  refine Bool.eq_iff_iff.mpr ⟨?_, ?_⟩
  · exact acceptsPath_of_sameLetters h hplain fun base hbase => (hbelow base hbase).mp
  · exact acceptsPath_of_sameLetters h hplain.symm fun base hbase => (hbelow base hbase).mpr

end Glob

namespace Operation

variable {o : Operation} {lists : Reference → List Entry} {values : Glob → List String}
  {pathCaseSensitive : Bool} {entries : List Entry} {e : Entry}

theorem mem_policy_iff (ha : o.action = .excludes ∨ o.action = .removes none) :
    e ∈ o.policy lists values pathCaseSensitive entries ↔
      e ∈ entries ∧ (o.condition = true → o.spec.matchesIn lists e.item.value = false) := by
  cases hc : o.condition with
  | false => simp [policy_of_not_condition hc]
  | true => simp [policy_of_excludes hc ha]

/-- Where case does not count, two values that differ in the case of letters only are treated alike
by every glob and by every Remove and Exclude of globs, if both are below the base directory, or
neither is. -/
theorem alike_of_lowerAscii_eq {directory : Option String} {v w : String}
    (hsame : Text.lowerAscii v = Text.lowerAscii w)
    (hbelow : ∀ base ∈ directory.bind Glob.baseOf,
      base ++ ['/'] <+: Path.plain v.toList ↔ base ++ ['/'] <+: Path.plain w.toList) :
    (∀ text g, Glob.compile text false directory = .ok g → g.accepts v = g.accepts w) ∧
      ∀ o : Operation, o.action = .excludes ∨ o.action = .removes none →
        (∀ f ∈ o.spec.fragments,
          ∃ text g, Glob.compile text false directory = .ok g ∧ f = .glob g) →
        ∀ lists values pathCaseSensitive entries, ∀ e ∈ entries, ∀ e' ∈ entries,
          e.item.value = v → e'.item.value = w →
            (e ∈ o.policy lists values pathCaseSensitive entries ↔
              e' ∈ o.policy lists values pathCaseSensitive entries) := by
  have haccepts : ∀ text g, Glob.compile text false directory = .ok g →
      g.accepts v = g.accepts w := fun text g hg =>
    Glob.accepts_eq_of_lowerAscii_eq hg hsame (Glob.base_of_compile hg ▸ hbelow)
  refine ⟨haccepts, fun o ha hglobs lists values pathCaseSensitive entries e he e' he' hv hw => ?_⟩
  have hmatches : o.spec.matchesIn lists v = o.spec.matchesIn lists w := by
    refine any_congr_of_mem fun f hf => ?_
    obtain ⟨text, g, hg, rfl⟩ := hglobs f hf
    exact haccepts text g hg
  rw [mem_policy_iff ha, mem_policy_iff ha, hv, hw, hmatches, iff_true_intro he, iff_true_intro he']

def removeFrom (g : Glob) (files : List String) : List Entry :=
  (⟨.removes none, ⟨"I", g.text, [.glob g]⟩, true, .inFile "", 1⟩ : Operation).policy
    (fun _ => []) (fun _ => []) true (files.map fun value => ⟨⟨"I", value, ∅⟩, 0⟩)

theorem alike_of_lowerAscii_eq_below :
    ∃ g, Glob.compile "src/*.cs" false (some "/Proj") = .ok g ∧
      g.accepts "/Proj/src/A.cs" = g.accepts "/Proj/SRC/a.CS" ∧
      (⟨⟨"I", "/Proj/src/A.cs", ∅⟩, 0⟩ ∈ removeFrom g ["/Proj/src/A.cs", "/Proj/SRC/a.CS"] ↔
        ⟨⟨"I", "/Proj/SRC/a.CS", ∅⟩, 0⟩ ∈ removeFrom g ["/Proj/src/A.cs", "/Proj/SRC/a.CS"]) := by
  obtain ⟨g, hg⟩ : ∃ g, Glob.compile "src/*.cs" false (some "/Proj") = .ok g := ⟨_, rfl⟩
  have hbelow : ∀ base ∈ (some "/Proj").bind Glob.baseOf,
      base ++ ['/'] <+: Path.plain "/Proj/src/A.cs".toList ↔
        base ++ ['/'] <+: Path.plain "/Proj/SRC/a.CS".toList := by decide +kernel
  obtain ⟨haccepts, hremove⟩ := alike_of_lowerAscii_eq (by decide +kernel) hbelow
  refine ⟨g, hg, haccepts _ g hg, ?_⟩
  exact hremove _ (.inr rfl) (fun f hf => ⟨_, g, hg, List.mem_singleton.mp hf⟩) _ _ _ _
    _ List.mem_cons_self _ (List.mem_cons_of_mem _ List.mem_cons_self) rfl rfl

/-- The base directory is written in one way only. -/
theorem not_alike_directory :
    ∃ g, Glob.compile "*.cs" false (some "/Proj") = .ok g ∧
      Text.lowerAscii "/Proj/a.cs" = Text.lowerAscii "/proj/a.cs" ∧
      g.accepts "/Proj/a.cs" = true ∧ g.accepts "/proj/a.cs" = false ∧
      removeFrom g ["/Proj/a.cs", "/proj/a.cs"] = [⟨⟨"I", "/proj/a.cs", ∅⟩, 0⟩] :=
  ⟨_, rfl, by decide +kernel, by decide +kernel, by decide +kernel, by decide +kernel⟩

end Operation

end BuildItems
