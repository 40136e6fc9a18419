import BuildItems.Comparison.Match
import BuildItems.Proofs.Text.WordEnd

/-!
# Keys whatever the case

Lowering a text is lowering each of its characters, but for the capital sigma at the end of a word,
which becomes the final small one. So two values that agree when each character is lowered by itself
have the same key unless one of them has the capital and the other a small sigma at the end of a
word.
-/

namespace BuildItems

namespace Text

def CapitalSigmaAt (cs : List Char) (n : Nat) : Prop :=
  ∃ before after, cs = before ++ 'Σ' :: after ∧ (lowerEach before).length = n

/-- The capital sigma there ends a word, if `sofar` is what comes before, nearest first. -/
def FinalSigmaAt (sofar cs : List Char) (n : Nat) : Prop :=
  ∃ before after, cs = before ++ 'Σ' :: after ∧ (lowerEach before).length = n ∧
    lowerSigma (before.reverse ++ sofar) after = 'ς'

/-- Where one of the texts ends a word with a capital sigma, the other has a capital sigma too. -/
def SameCapitalEnds (cs ds : List Char) : Prop :=
  ∀ n, (FinalSigmaAt [] cs n → CapitalSigmaAt ds n) ∧ (FinalSigmaAt [] ds n → CapitalSigmaAt cs n)

variable {sofar cs ds : List Char} {n : Nat}

theorem lowerChar_sigma : lowerChar 'Σ' = ['σ'] := by decide +kernel

theorem lowerEach_sigma (before after : List Char) :
    lowerEach (before ++ 'Σ' :: after) = lowerEach before ++ 'σ' :: lowerEach after := by
  rw [lowerEach_append, lowerEach_cons, lowerChar_sigma, List.singleton_append]

theorem lowerSigma_cases (before after : List Char) :
    lowerSigma before after = 'ς' ∨ lowerSigma before after = 'σ' := by
  unfold lowerSigma
  split
  · exact .inl rfl
  · exact .inr rfl

/-- What a character is lowered to takes the same space whatever surrounds it. -/
theorem length_lowered (c : Char) (before after : List Char) :
    (if c = 'Σ' then [lowerSigma before after] else lowerChar c).length = (lowerChar c).length := by
  split
  · next h =>
    subst h
    rw [lowerChar_sigma]
    rfl
  · rfl

theorem exists_lowerAfter_append (sofar before after : List Char) :
    ∃ front, front.length = (lowerEach before).length ∧
      lowerAfter sofar (before ++ after) = front ++ lowerAfter (before.reverse ++ sofar) after := by
  induction before generalizing sofar with
  | nil => exact ⟨[], rfl, rfl⟩
  | cons c before ih =>
    obtain ⟨front, hlength, hlower⟩ := ih (c :: sofar)
    refine ⟨(if c = 'Σ' then [lowerSigma sofar (before ++ after)] else lowerChar c) ++ front, ?_, ?_⟩
    · rw [List.length_append, length_lowered, hlength, lowerEach_cons, List.length_append]
    · rw [List.cons_append, lowerAfter, hlower, List.append_assoc, List.reverse_cons,
        List.append_assoc, List.singleton_append]

theorem getElem?_lowerAfter_of_final (h : FinalSigmaAt sofar cs n) :
    (lowerAfter sofar cs)[n]? = some 'ς' := by
  obtain ⟨before, after, rfl, rfl, hfinal⟩ := h
  obtain ⟨front, hlength, hlower⟩ := exists_lowerAfter_append sofar before ('Σ' :: after)
  rw [hlower, ← hlength, List.getElem?_append_right (Nat.le_refl _), Nat.sub_self, lowerAfter,
    if_pos rfl, hfinal]
  rfl

theorem getElem?_lowerAfter_of_not_final (h : ¬ FinalSigmaAt sofar cs n) :
    (lowerAfter sofar cs)[n]? = (lowerEach cs)[n]? := by
  induction cs generalizing sofar n with
  | nil => rfl
  | cons c cs ih =>
    have hlength := length_lowered c sofar cs
    rw [lowerAfter, lowerEach_cons]
    rcases Nat.lt_or_ge n (lowerChar c).length with hn | hn
    · rw [List.getElem?_append_left (hlength ▸ hn), List.getElem?_append_left hn]
      split
      · next hc =>
        -- a sigma is one character, so the place is the sigma's own
        subst hc
        rw [lowerChar_sigma, List.length_singleton, Nat.lt_one_iff] at hn
        subst hn
        have hsigma : lowerSigma sofar cs = 'σ' :=
          (lowerSigma_cases sofar cs).resolve_left fun hfinal => h ⟨[], cs, rfl, rfl, hfinal⟩
        rw [hsigma, lowerChar_sigma]
      · rfl
    · rw [List.getElem?_append_right (hlength ▸ hn), List.getElem?_append_right hn, hlength]
      refine ih fun hfinal => h ?_
      obtain ⟨before, after, rfl, hbefore, hsigma⟩ := hfinal
      refine ⟨c :: before, after, rfl, ?_, ?_⟩
      · rw [lowerEach_cons, List.length_append, hbefore, Nat.add_sub_cancel' hn]
      · rwa [List.reverse_cons, List.append_assoc]

theorem CapitalSigmaAt.getElem?_lowerEach (h : CapitalSigmaAt cs n) :
    (lowerEach cs)[n]? = some 'σ' := by
  obtain ⟨before, after, rfl, rfl⟩ := h
  rw [lowerEach_sigma, List.getElem?_append_right (Nat.le_refl _), Nat.sub_self]
  rfl

theorem FinalSigmaAt.of_capitalSigmaAt (h : lowerEach cs = lowerEach ds)
    (hcs : FinalSigmaAt [] cs n) (hds : CapitalSigmaAt ds n) : FinalSigmaAt [] ds n := by
  obtain ⟨before, after, rfl, rfl, hfinal⟩ := hcs
  obtain ⟨before', after', rfl, hlength⟩ := hds
  rw [lowerEach_sigma, lowerEach_sigma] at h
  obtain ⟨hbefore, hafter⟩ := List.append_inj h hlength.symm
  rw [List.append_nil] at hfinal
  refine ⟨before', after', rfl, hlength, ?_⟩
  rw [List.append_nil, ← lowerSigma_congr hbefore (List.cons.inj hafter).2, hfinal]

theorem FinalSigmaAt.capitalSigmaAt (h : FinalSigmaAt sofar cs n) : CapitalSigmaAt cs n := by
  obtain ⟨before, after, hcs, hlength, -⟩ := h
  exact ⟨before, after, hcs, hlength⟩

/-- A small sigma at the place would stay a small one. -/
theorem FinalSigmaAt.capitalSigmaAt_of_lowerAfter_eq (hfinal : FinalSigmaAt [] cs n)
    (h : lowerEach cs = lowerEach ds) (heq : lowerAfter [] cs = lowerAfter [] ds) :
    CapitalSigmaAt ds n := by
  by_contra hds
  have hplain := getElem?_lowerAfter_of_not_final fun h : FinalSigmaAt [] ds n =>
    hds h.capitalSigmaAt
  rw [← heq, getElem?_lowerAfter_of_final hfinal, ← h, hfinal.capitalSigmaAt.getElem?_lowerEach]
    at hplain
  exact absurd (Option.some.inj hplain) (by decide)

theorem lowerAfter_eq_iff (h : lowerEach cs = lowerEach ds) :
    lowerAfter [] cs = lowerAfter [] ds ↔ SameCapitalEnds cs ds := by
  constructor
  · intro heq n
    exact ⟨fun hfinal => hfinal.capitalSigmaAt_of_lowerAfter_eq h heq,
      fun hfinal => hfinal.capitalSigmaAt_of_lowerAfter_eq h.symm heq.symm⟩
  · intro hcapital
    refine List.ext_getElem? fun n => ?_
    obtain ⟨hcs, hds⟩ := hcapital n
    by_cases hfinal : FinalSigmaAt [] cs n
    · rw [getElem?_lowerAfter_of_final hfinal,
        getElem?_lowerAfter_of_final (hfinal.of_capitalSigmaAt h (hcs hfinal))]
    · have hfinal' : ¬ FinalSigmaAt [] ds n :=
        fun hds' => hfinal (hds'.of_capitalSigmaAt h.symm (hds hds'))
      rw [getElem?_lowerAfter_of_not_final hfinal, getElem?_lowerAfter_of_not_final hfinal', h]

end Text

namespace ComparisonMode

theorem key_caseInsensitive (pathCaseSensitive : Bool) {value : String} (h : value ≠ "") :
    key caseInsensitive pathCaseSensitive value = some (Text.lower value) := if_neg h

/-- Values that agree character by character have the same key, and match each other under a name,
unless just one of them ends a word with a capital sigma where the other has a small one. -/
theorem alike_caseInsensitive_iff (pathCaseSensitive : Bool) {v w : String} (hv : v ≠ "")
    (hw : w ≠ "") (h : Text.lowerEach v.toList = Text.lowerEach w.toList) :
    (key caseInsensitive pathCaseSensitive v = key caseInsensitive pathCaseSensitive w ↔
        Text.SameCapitalEnds v.toList w.toList) ∧
      ∀ (name : String) (i j : Item), i.lookup name = some v → j.lookup name = some w →
        ((KeyIndex.ofItems ⟨.ofNames [name], 1, caseInsensitive⟩ pathCaseSensitive [i]).contains j =
            true ↔ Text.SameCapitalEnds v.toList w.toList) := by
  have hkey : key caseInsensitive pathCaseSensitive v = key caseInsensitive pathCaseSensitive w ↔
      Text.SameCapitalEnds v.toList w.toList := by
    rw [key_caseInsensitive _ hv, key_caseInsensitive _ hw, Option.some_inj, Text.lower, Text.lower,
      String.ofList_inj, Text.lowerAfter_eq_iff h]
  refine ⟨hkey, fun name i j hi hj => ?_⟩
  have hkeys : ∀ (k : Item) (u : String), k.lookup name = some u → u ≠ "" →
      MetadataMatch.keys? ⟨.ofNames [name], 1, caseInsensitive⟩ pathCaseSensitive k =
        some [Text.lower u] := by
    intro k u hk hu
    have hnames : (NameSet.ofNames [name]).names = [name] := rfl
    simp [MetadataMatch.keys?, hnames, hk, key_caseInsensitive _ hu]
  rw [KeyIndex.contains_ofItems, ← hkey, key_caseInsensitive _ hv, key_caseInsensitive _ hw]
  simp [hkeys i v hi hv, hkeys j w hj hw]

/-- The capital sigma at the end of the word is a final one in both. -/
theorem alike_caseInsensitive_word :
    "ΟΔΌΣ" ≠ "" ∧ "οδόΣ" ≠ "" ∧
      Text.lowerEach "ΟΔΌΣ".toList = Text.lowerEach "οδόΣ".toList ∧
      Text.SameCapitalEnds "ΟΔΌΣ".toList "οδόΣ".toList ∧
      (KeyIndex.ofItems ⟨.ofNames ["Link"], 1, caseInsensitive⟩ true
        [⟨"I", "a", NameMap.insert ∅ "Link" "ΟΔΌΣ"⟩]).contains
          ⟨"I", "b", NameMap.insert ∅ "Link" "οδόΣ"⟩ = true := by
  have h : Text.lowerEach "ΟΔΌΣ".toList = Text.lowerEach "οδόΣ".toList := by decide +kernel
  obtain ⟨hkey, hcontains⟩ := alike_caseInsensitive_iff true (by decide) (by decide) h
  have hends := hkey.mp (by decide +kernel)
  exact ⟨by decide, by decide, h, hends,
    (hcontains "Link" _ _ (by decide +kernel) (by decide +kernel)).mpr hends⟩

/-- A small sigma there stays a common one. -/
theorem not_alike_caseInsensitive_word :
    Text.lowerEach "ΟΔΌΣ".toList = Text.lowerEach "οδόσ".toList ∧
      key caseInsensitive true "ΟΔΌΣ" = some "οδός" ∧
      key caseInsensitive true "οδόσ" = some "οδόσ" ∧
      (KeyIndex.ofItems ⟨.ofNames ["Link"], 1, caseInsensitive⟩ true
        [⟨"I", "a", NameMap.insert ∅ "Link" "ΟΔΌΣ"⟩]).contains
          ⟨"I", "b", NameMap.insert ∅ "Link" "οδόσ"⟩ = false := by
  decide +kernel

end ComparisonMode

end BuildItems
