import BuildItems.Proofs.Spec.Joined
import BuildItems.Proofs.Text.Pieces

/-!
# Specifications written from their fragments

Every fragment is written as a piece that is read as the same fragment: a literal and a glob as the
piece they were read from, a reference with no blanks around the name. So a specification can be
written from its fragments and read back, and what is read is what was written.
-/

namespace BuildItems

namespace Spec

/-- What stands between semicolons without its blanks. -/
structure IsPiece (cs : List Char) : Prop where
  ne_nil : cs ≠ []
  trimmed : Text.trimChars cs = cs
  whole : ';' ∉ cs

theorem isPiece_of_mem_pieces {text : String} {piece : List Char} (h : piece ∈ pieces text) :
    IsPiece piece := by
  obtain ⟨hmem, hne⟩ := List.mem_filter.mp h
  obtain ⟨part, hpart, rfl⟩ := List.mem_map.mp hmem
  constructor
  · simpa using hne
  · exact Text.trimChars_trimChars part
  · intro hc
    exact absurd (Text.not_of_mem_splitOnP hpart (Text.mem_of_mem_trimChars hc)) (by simp)

theorem IsPiece.pieces_eq {text : String} (h : IsPiece text.toList) :
    pieces text = [text.toList] := by
  rw [pieces, List.splitOn_eq_singleton h.whole, List.map_singleton, h.trimmed]
  simp [h.ne_nil]

theorem pieces_intercalate {texts : List String} (h : ∀ text ∈ texts, IsPiece text.toList) :
    pieces (";".intercalate texts) = texts.map String.toList := by
  induction texts with
  | nil => decide +kernel
  | cons text texts ih =>
    obtain ⟨htext, htexts⟩ := List.forall_mem_cons.mp h
    cases texts with
    | nil => rw [String.intercalate_singleton, htext.pieces_eq, List.map_singleton]
    | cons next texts =>
      rw [String.intercalate_cons_cons, pieces_joined, htext.pieces_eq, ih htexts]
      rfl

variable {name : String} {c : Char} {cs : List Char}

theorem toNat_of_isNameChar (h : isNameChar c = true) : 45 ≤ c.toNat ∧ c.toNat ≤ 122 := by
  simp only [isNameChar, isNameStart, Text.isAsciiLetter, Text.isAsciiDigit, Char.le_def,
    UInt32.le_iff_toNat_le, Bool.or_eq_true, Bool.and_eq_true, decide_eq_true_eq, beq_iff_eq] at h
  change 45 ≤ c.val.toNat ∧ c.val.toNat ≤ 122
  rcases h with ((((h | h) | rfl) | h) | rfl) | rfl
  · change 97 ≤ c.val.toNat ∧ c.val.toNat ≤ 122 at h
    omega
  · change 65 ≤ c.val.toNat ∧ c.val.toNat ≤ 90 at h
    omega
  · decide
  · change 48 ≤ c.val.toNat ∧ c.val.toNat ≤ 57 at h
    omega
  · decide
  · decide

theorem isBlank_of_isNameChar (h : isNameChar c = true) : Text.isBlank c = false := by
  have haround : ∀ r ∈ Text.blanks, r.2 < 45 ∨ 122 < r.1 := by decide
  have hname := toNat_of_isNameChar h
  apply Bool.eq_false_iff.mpr
  intro hblank
  obtain ⟨r, hr, hfirst, hlast⟩ := (Text.inTable_iff _ _).mp hblank
  have hr := haround r hr
  omega

theorem isNameChar_of_isTypeName (h : isTypeName cs = true) (hc : c ∈ cs) :
    isNameChar c = true := by
  cases cs with
  | nil => cases hc
  | cons d cs =>
    obtain ⟨hd, hcs⟩ := Bool.and_eq_true_iff.mp h
    rcases List.mem_cons.mp hc with rfl | hc
    · simp [isNameChar, hd]
    · exact List.all_eq_true.mp hcs c hc

theorem trimChars_of_isTypeName (h : isTypeName cs = true) : Text.trimChars cs = cs := by
  have hblank : ∀ c ∈ cs, Text.isBlank c = false :=
    fun c hc => isBlank_of_isNameChar (isNameChar_of_isTypeName h hc)
  apply Text.trimChars_eq_self
  · exact fun c hc => hblank c (List.mem_of_mem_head? hc)
  · exact fun c hc => hblank c (List.mem_of_getLast? hc)

theorem typeName?_eq_some_iff {piece : List Char} :
    typeName? piece = some name ↔ ∃ body, referenceBody? piece = some body ∧
      Text.trimChars body = name.toList ∧ isTypeName name.toList = true := by
  unfold typeName?
  cases referenceBody? piece with
  | none => simp
  | some body =>
    by_cases hname : isTypeName (Text.trimChars body) = true
    · simp only [hname, if_true, Option.some_inj, exists_eq_left']
      constructor
      · rintro rfl
        simp [hname]
      · rintro ⟨htrim, -⟩
        simp [htrim]
    · simp only [hname, Option.some_inj, exists_eq_left']
      constructor
      · rintro ⟨⟩
      · rintro ⟨htrim, h⟩
        exact absurd h (htrim ▸ hname)

def referenceTo (name : List Char) : List Char := '@' :: '(' :: (name ++ [')'])

theorem getLast?_referenceTo (name : List Char) : (referenceTo name).getLast? = some ')' := by
  change ('@' :: '(' :: name ++ [')']).getLast? = _
  exact List.getLast?_concat

theorem isPiece_referenceTo (h : isTypeName cs = true) : IsPiece (referenceTo cs) := by
  have hname : ';' ∉ cs := by
    intro hc
    exact absurd (isNameChar_of_isTypeName h hc) (by decide)
  constructor
  · exact List.cons_ne_nil _ _
  · apply Text.trimChars_eq_self
    · rintro c ⟨⟩
      decide
    · rw [getLast?_referenceTo]
      rintro c ⟨⟩
      decide
  · simp [referenceTo, hname]

theorem typeName?_referenceTo (h : isTypeName name.toList = true) :
    typeName? (referenceTo name.toList) = some name := by
  apply typeName?_eq_some_iff.mpr
  refine ⟨name.toList, ?_, trimChars_of_isTypeName h, h⟩
  simp [referenceTo, referenceBody?]

variable {ctx : Scope} {itemType text : String} {s : Spec}

/-- A fragment is written as a piece, and that is read as the fragment. -/
theorem parseFragment_text {piece : List Char} {f : Fragment} (hpiece : IsPiece piece)
    (h : parseFragment ctx piece = .ok f) :
    IsPiece f.text.toList ∧ parseFragment ctx f.text.toList = .ok f := by
  rcases parseFragment_eq_ok_iff.mp h with ⟨-, name, hname, rfl⟩ | ⟨-, -, g, hg, rfl⟩ | ⟨-, -, rfl⟩
  · obtain ⟨-, -, -, htype⟩ := typeName?_eq_some_iff.mp hname
    have htext : (Fragment.reference ⟨name, ctx.declared name⟩).text.toList =
        referenceTo name.toList := by
      simp [Fragment.text, referenceTo]
    rw [htext]
    refine ⟨isPiece_referenceTo htype, parseFragment_eq_ok_iff.mpr (.inl ⟨rfl, name, ?_, rfl⟩)⟩
    exact typeName?_referenceTo htype
  · have htext : (Fragment.glob g).text.toList = piece := by
      rw [Fragment.text, Glob.text_of_compile hg, String.toList_ofList]
    rw [htext]
    exact ⟨hpiece, h⟩
  · have htext : (Fragment.literal (String.ofList piece)).text.toList = piece :=
      String.toList_ofList
    rw [htext]
    exact ⟨hpiece, h⟩

theorem parse_ofFragments (h : parse ctx itemType text = .ok s) :
    parse ctx itemType (ofFragments itemType s.fragments).text =
      .ok (ofFragments itemType s.fragments) := by
  obtain ⟨htype, hne, hfragments, -⟩ := parse_eq_ok_iff.mp h
  have hread : ∀ f ∈ s.fragments, IsPiece f.text.toList ∧
      parseFragment ctx f.text.toList = .ok f := by
    intro f hf
    obtain ⟨piece, hpiece, hparse⟩ := exists_of_mem_mapM hfragments hf
    exact parseFragment_text (isPiece_of_mem_pieces hpiece) hparse
  have hpieces : pieces (ofFragments itemType s.fragments).text =
      s.fragments.map (·.text.toList) := by
    rw [ofFragments, pieces_intercalate, List.map_map]
    · rfl
    · exact List.forall_mem_map.mpr fun f hf => (hread f hf).1
  refine parse_eq_ok_iff.mpr ⟨htype, hne, ?_, rfl, rfl⟩
  rw [hpieces, mapM_eq_ok_iff, List.forall₂_map_left_iff]
  exact List.forall₂_same.mpr fun f hf => (hread f hf).2

/-- A piece that cannot be read is a fault of the whole, whatever comes after it. -/
theorem parse_joined_of_error {text' : String} {e : EvalError}
    (h : parse ctx itemType text = .error e) (he : ∀ argument, e ≠ .missingArgument argument) :
    parse ctx itemType (text ++ ";" ++ text') = .error e := by
  unfold parse at h ⊢
  split at h
  · cases h
    exact absurd rfl (he _)
  · next hblank =>
    rw [if_neg hblank, pieces_joined, List.mapM_append]
    split at h
    · next e' hpieces =>
      cases h
      rw [hpieces]
      rfl
    · cases h
      exact absurd rfl (he _)
    · cases h

/-- Reading takes a semicolon to the fragments one after the other, or to the first fault of a
fragment; and what is written from the fragments that were read is read as the same fragments. -/
theorem parse_and_render (ctx : Scope) (itemType : String) :
    (∀ (left right : String) (s s' : Spec), parse ctx itemType left = .ok s →
        parse ctx itemType right = .ok s' →
        ∃ whole, parse ctx itemType (left ++ ";" ++ right) = .ok whole ∧
          whole.fragments = s.fragments ++ s'.fragments) ∧
      (∀ (left right : String) (e : EvalError), parse ctx itemType left = .error e →
        (∃ expression location, e = .unsupportedExpression expression location) ∨
          (∃ pattern reason, e = .invalidGlob pattern reason) →
        parse ctx itemType (left ++ ";" ++ right) = .error e) ∧
      ∀ (text : String) (s : Spec), parse ctx itemType text = .ok s →
        ∃ s', parse ctx itemType (ofFragments itemType s.fragments).text = .ok s' ∧
          s'.fragments = s.fragments ∧
          (ofFragments itemType s'.fragments).text = (ofFragments itemType s.fragments).text := by
  refine ⟨fun left right s s' h h' => ?_, fun left right e h he => ?_, fun text s h => ?_⟩
  · obtain ⟨whole, hwhole, hjoins⟩ := exists_parse_joined h h'
    exact ⟨whole, hwhole, hjoins.fragments⟩
  · apply parse_joined_of_error h
    rcases he with ⟨_, _, rfl⟩ | ⟨_, _, rfl⟩
    · simp
    · simp
  · exact ⟨_, parse_ofFragments h, rfl, rfl⟩

theorem parse_and_render_blanks :
    let ctx : Scope := ⟨.inFile "", true, none, fun _ => 2⟩
    let fault : EvalError := .unsupportedExpression "@(B)->x" (.inFile "")
    ∃ s s', parse ctx "I" " a.cs ;; *.c;@( B ) " = .ok s ∧
      (ofFragments "I" s.fragments).text = "a.cs;*.c;@(B)" ∧
      parse ctx "I" "a.cs;*.c;@(B)" = .ok s' ∧ s'.fragments = s.fragments ∧
      (∃ whole, parse ctx "I" (" a.cs ;; *.c;@( B ) " ++ ";" ++ "a.cs;*.c;@(B)") = .ok whole ∧
        whole.fragments = s.fragments ++ s'.fragments) ∧
      parse ctx "I" "a; @(B)->x" = .error fault ∧
      parse ctx "I" ("a; @(B)->x" ++ ";" ++ "***") = .error fault := by
  intro ctx fault
  obtain ⟨hjoin, hfault, hrender⟩ := parse_and_render ctx "I"
  obtain ⟨s, hs⟩ : ∃ s, parse ctx "I" " a.cs ;; *.c;@( B ) " = .ok s := ⟨_, rfl⟩
  have htext : (ofFragments "I" s.fragments).text = "a.cs;*.c;@(B)" := by
    have hmap : (parse ctx "I" " a.cs ;; *.c;@( B ) ").map
        (fun s => (ofFragments "I" s.fragments).text) = .ok "a.cs;*.c;@(B)" := by decide +kernel
    rw [hs] at hmap
    exact Except.ok.inj hmap
  obtain ⟨s', hs', hfragments, -⟩ := hrender _ s hs
  rw [htext] at hs'
  have hleft : parse ctx "I" "a; @(B)->x" = .error fault := by
    rfl
  exact ⟨s, s', hs, htext, hs', hfragments, hjoin _ _ s s' hs hs', hleft,
    hfault _ _ _ hleft (.inl ⟨_, _, rfl⟩)⟩

end Spec

end BuildItems
