import BuildItems.Text.Lowercase
import Mathlib.Data.List.Induction

/-!
# The end of a word in lower case

A letter that has case keeps having it when it is lowered, and what is looked through stays as it
is. So the case of the letters around a place in a text does not matter for whether a word ends
there.
-/

namespace BuildItems.Text

/-- A table as a number: its code points are the places of the binary digits that are set. -/
def digits (table : List CodeRange) : Nat :=
  table.foldr (fun r n => (1 <<< (r.2 + 1 - r.1) - 1) <<< r.1 ||| n) 0

theorem testBit_digits_iff (table : List CodeRange) (n : Nat) :
    (digits table).testBit n = true ↔ ∃ r ∈ table, r.1 ≤ n ∧ n ≤ r.2 := by
  induction table with
  | nil => simp [digits]
  | cons r table ih =>
    have hdigits : digits (r :: table) =
        (1 <<< (r.2 + 1 - r.1) - 1) <<< r.1 ||| digits table := rfl
    simp only [hdigits, Nat.testBit_or, Nat.testBit_shiftLeft, Nat.one_shiftLeft,
      Nat.testBit_two_pow_sub_one, Bool.or_eq_true, Bool.and_eq_true, decide_eq_true_eq, ih,
      List.mem_cons, exists_eq_or_imp]
    refine or_congr_left ?_
    omega

theorem testBit_digits (table : List CodeRange) (c : Char) :
    (digits table).testBit c.toNat = inTable table c := by
  rw [Bool.eq_iff_iff, testBit_digits_iff, inTable_iff]

theorem isCaseIgnorable_of_isCased {c : Char} (h : isCased c = true) :
    isCaseIgnorable c = false := by
  have hdisjoint : digits cased &&& digits caseIgnorable = 0 := by decide +kernel
  have hdigit := congrArg (Nat.testBit · c.toNat) hdisjoint
  simp only [Nat.testBit_and, testBit_digits, Nat.zero_testBit] at hdigit
  rw [isCased] at h
  rwa [h, Bool.true_and] at hdigit

def CaseRun.points (r : CaseRun) : List Nat :=
  List.range' r.first ((r.last - r.first) / r.step + 1) r.step

theorem CaseRun.mem_points {r : CaseRun} {c : Char} (h : r.contains c = true) :
    c.toNat ∈ r.points := by
  simp only [CaseRun.contains, Bool.and_eq_true, decide_eq_true_eq, beq_iff_eq] at h
  obtain ⟨⟨hfirst, hlast⟩, hstep⟩ := h
  refine List.mem_range'.mpr ⟨(c.toNat - r.first) / r.step, ?_, ?_⟩
  · exact Nat.lt_succ_of_le (Nat.div_le_div_right (Nat.sub_le_sub_right hlast _))
  · rw [Nat.mul_div_cancel' (Nat.dvd_of_mod_eq_zero hstep)]
    omega

theorem cased_points : ∀ r ∈ lowering, ∀ n ∈ r.points,
    (digits cased).testBit n = true ∧ (digits cased).testBit (n + r.shift).toNat = true := by
  decide +kernel

theorem toNat_ofNat_of_cased {n : Nat} (h : (digits cased).testBit n = true) :
    (Char.ofNat n).toNat = n := by
  have hvalid : ∀ r ∈ cased, r.2 < 0xD800 ∨ 0xDFFF < r.1 ∧ r.2 < 0x110000 := by decide +kernel
  obtain ⟨r, hr, hfirst, hlast⟩ := (testBit_digits_iff cased n).mp h
  have hn : n.isValidChar := by
    rcases hvalid r hr with h | h
    · exact .inl (by omega)
    · exact .inr (by omega)
  rw [Char.ofNat, dif_pos hn]
  rfl

/-- A character that is changed has case before and after. -/
theorem lowerSimple_cases (c : Char) :
    lowerSimple c = c ∨ isCased c = true ∧ isCased (lowerSimple c) = true := by
  unfold lowerSimple
  split
  · next r hr =>
    have hpoint : c.toNat ∈ r.points := CaseRun.mem_points (List.find?_eq_some_iff_append.mp hr).1
    obtain ⟨hbefore, hafter⟩ := cased_points r (List.mem_of_find?_eq_some hr) _ hpoint
    refine .inr ⟨(testBit_digits cased c).symm.trans hbefore, ?_⟩
    rwa [isCased, ← testBit_digits, toNat_ofNat_of_cased hafter]
  · exact .inl rfl

/-- A character that is changed has case before, and after with at most marks behind it. -/
theorem lowerChar_cases (c : Char) :
    lowerChar c = [c] ∨ isCased c = true ∧ ∃ d marks, lowerChar c = d :: marks ∧
      isCased d = true ∧ ∀ e ∈ marks, isCaseIgnorable e = true := by
  unfold lowerChar
  split
  · next hc =>
    subst hc
    have hmark : isCaseIgnorable '\u0307' = true := by decide +kernel
    exact .inr ⟨by decide +kernel, 'i', ['\u0307'], rfl, by decide +kernel,
      List.forall_mem_singleton.mpr hmark⟩
  · rcases lowerSimple_cases c with h | ⟨hbefore, hafter⟩
    · exact .inl (congrArg (fun d => [d]) h)
    · exact .inr ⟨hbefore, _, [], rfl, hafter, List.forall_mem_nil _⟩

theorem casedFirst_cons (c : Char) (cs : List Char) :
    casedFirst (c :: cs) = if isCaseIgnorable c then casedFirst cs else isCased c := by
  cases h : isCaseIgnorable c with
  | true => simp [casedFirst, h]
  | false => simp [casedFirst, h]

theorem casedFirst_of_isCased {c : Char} (h : isCased c = true) (cs : List Char) :
    casedFirst (c :: cs) = true := by
  rw [casedFirst_cons, isCaseIgnorable_of_isCased h, if_neg Bool.false_ne_true, h]

theorem casedFirst_append {marks : List Char} (h : ∀ e ∈ marks, isCaseIgnorable e = true)
    (cs : List Char) : casedFirst (marks ++ cs) = casedFirst cs := by
  induction marks with
  | nil => rfl
  | cons e marks ih =>
    obtain ⟨he, hmarks⟩ := List.forall_mem_cons.mp h
    rw [List.cons_append, casedFirst_cons, if_pos he, ih hmarks]

def lowerEach (cs : List Char) : List Char := cs.flatMap lowerChar

theorem lowerEach_cons (c : Char) (cs : List Char) :
    lowerEach (c :: cs) = lowerChar c ++ lowerEach cs := List.flatMap_cons

theorem lowerEach_append (cs ds : List Char) :
    lowerEach (cs ++ ds) = lowerEach cs ++ lowerEach ds := List.flatMap_append

theorem casedFirst_lowerEach (cs : List Char) : casedFirst (lowerEach cs) = casedFirst cs := by
  induction cs with
  | nil => rfl
  | cons c cs ih =>
    rw [lowerEach_cons]
    rcases lowerChar_cases c with h | ⟨hbefore, d, marks, h, hd, -⟩
    · rw [h, List.singleton_append, casedFirst_cons, casedFirst_cons, ih]
    · rw [h, List.cons_append, casedFirst_of_isCased hd, casedFirst_of_isCased hbefore]

theorem casedFirst_reverse_lowerEach (cs : List Char) :
    casedFirst (lowerEach cs).reverse = casedFirst cs.reverse := by
  induction cs using List.reverseRecOn with
  | nil => rfl
  | append_singleton cs c ih =>
    have hlast : lowerEach [c] = lowerChar c := List.flatMap_singleton ..
    rw [lowerEach_append, hlast, List.reverse_append, List.reverse_concat]
    rcases lowerChar_cases c with h | ⟨hbefore, d, marks, h, hd, hmarks⟩
    · rw [h, List.reverse_singleton, List.singleton_append, casedFirst_cons, casedFirst_cons, ih]
    · rw [h, List.reverse_cons, List.append_assoc,
        casedFirst_append fun e he => hmarks e (List.mem_reverse.mp he), List.singleton_append,
        casedFirst_of_isCased hd, casedFirst_of_isCased hbefore]

/-- Whether a sigma ends a word is seen from the lowered text around it. -/
theorem lowerSigma_congr {before after before' after' : List Char}
    (hbefore : lowerEach before = lowerEach before') (hafter : lowerEach after = lowerEach after') :
    lowerSigma before.reverse after = lowerSigma before'.reverse after' := by
  have hfront : casedFirst before.reverse = casedFirst before'.reverse := by
    rw [← casedFirst_reverse_lowerEach, hbefore, casedFirst_reverse_lowerEach]
  have hback : casedFirst after = casedFirst after' := by
    rw [← casedFirst_lowerEach, hafter, casedFirst_lowerEach]
  rw [lowerSigma, lowerSigma, hfront, hback]

end BuildItems.Text
