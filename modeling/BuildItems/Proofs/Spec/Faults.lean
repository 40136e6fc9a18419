import BuildItems.Proofs.Spec.Rendering
import Mathlib.Data.List.Infix

/-!
# The faults of a specification

What is wrong with a text is told from its pieces alone, one after the other: which of them have an
expression in them without being a reference, and which cannot be read as globs. Reading the text
reports the first fault, whatever is declared and whatever globs are read for.
-/

namespace BuildItems

variable {ε α β : Type}

def faultOf : Except ε α → Option ε
  | .ok _ => none
  | .error e => some e

theorem faultOf_eq_some_iff {x : Except ε α} {e : ε} : faultOf x = some e ↔ x = .error e := by
  cases x <;> simp [faultOf]

theorem faultOf_eq_none_iff {x : Except ε α} : faultOf x = none ↔ ∃ a, x = .ok a := by
  cases x <;> simp [faultOf]

theorem faultOf_map (x : Except ε α) (f : α → β) : faultOf (x.map f) = faultOf x := by
  cases x <;> rfl

theorem faultOf_bind {x : Except ε α} {f : α → Except ε β} {rest : Option ε}
    (h : ∀ a, x = .ok a → faultOf (f a) = rest) : faultOf (x >>= f) = (faultOf x).or rest := by
  cases x with
  | error e => rfl
  | ok a => exact h a rfl

/-- The fault of a traversal is the first that its members have. -/
theorem faultOf_mapM (f : α → Except ε β) (xs : List α) :
    faultOf (xs.mapM f) = (xs.filterMap (faultOf <| f ·)).head? := by
  induction xs with
  | nil => rfl
  | cons x xs ih =>
    rw [List.mapM_cons]
    cases hx : f x with
    | error e => rw [List.filterMap_cons_some (by rw [hx]; rfl)]; rfl
    | ok y =>
      rw [List.filterMap_cons_none (by rw [hx]; rfl), ← ih]
      cases xs.mapM f <;> rfl

namespace Text

variable {cs name before after : List Char}

theorem exists_eq_trimChars (cs : List Char) :
    ∃ before after, cs = before ++ trimChars cs ++ after ∧ (∀ c ∈ before, isBlank c = true) ∧
      ∀ c ∈ after, isBlank c = true := by
  refine ⟨cs.takeWhile isBlank, (cs.dropWhile isBlank).rtakeWhile isBlank, ?_, ?_, ?_⟩
  · rw [trimChars_eq, List.append_assoc, List.rdropWhile_append_rtakeWhile,
      List.takeWhile_append_dropWhile]
  · exact fun c hc => List.mem_takeWhile_imp hc
  · exact fun c hc => List.mem_rtakeWhile_imp hc

theorem dropWhile_append_of_blank (hbefore : ∀ c ∈ before, isBlank c = true)
    (hname : ∀ c ∈ name, isBlank c = false) (hne : name ≠ []) :
    (before ++ name ++ after).dropWhile isBlank = name ++ after := by
  obtain ⟨c, rest, rfl⟩ := List.exists_cons_of_ne_nil hne
  have hc : ¬ isBlank c = true := by simp [hname c List.mem_cons_self]
  rw [List.append_assoc, List.dropWhile_append_of_pos hbefore, List.cons_append,
    List.dropWhile_cons_of_neg hc]

theorem trimChars_append_append (hbefore : ∀ c ∈ before, isBlank c = true)
    (hafter : ∀ c ∈ after, isBlank c = true) (hname : ∀ c ∈ name, isBlank c = false)
    (hne : name ≠ []) : trimChars (before ++ name ++ after) = name := by
  have hback : (after.reverse ++ name.reverse ++ []).dropWhile isBlank = name.reverse ++ [] := by
    apply dropWhile_append_of_blank
    · simpa using hafter
    · simpa using hname
    · simpa using hne
  rw [trimChars, dropWhile_append_of_blank hbefore hname hne, List.reverse_append]
  rw [List.append_nil, List.append_nil] at hback
  rw [hback, List.reverse_reverse]

end Text

namespace Spec

/-- A letter or an underscore, then letters, digits, underscores, hyphens and dots. -/
def IsName (cs : List Char) : Prop :=
  ∃ c rest, cs = c :: rest ∧ (Text.isAsciiLetter c = true ∨ c = '_') ∧
    ∀ d ∈ rest, Text.isAsciiLetter d = true ∨ Text.isAsciiDigit d = true ∨ d ∈ ['_', '-', '.']

/-- A name in parentheses after an at sign, perhaps with blanks around the name. -/
def IsReference (piece : List Char) : Prop :=
  ∃ before name after, piece = ['@', '('] ++ before ++ name ++ after ++ [')'] ∧ IsName name ∧
    (∀ c ∈ before, Text.isBlank c = true) ∧ ∀ c ∈ after, Text.isBlank c = true

theorem isTypeName_iff {cs : List Char} : isTypeName cs = true ↔ IsName cs := by
  cases cs with
  | nil => simp [isTypeName, IsName]
  | cons c rest =>
    simp only [isTypeName, isNameStart, isNameChar, IsName, Bool.and_eq_true, Bool.or_eq_true,
      beq_iff_eq, List.all_eq_true, List.cons.injEq, List.mem_cons, List.not_mem_nil, or_false]
    constructor
    · rintro ⟨hc, hrest⟩
      refine ⟨c, rest, ⟨rfl, rfl⟩, hc, fun d hd => ?_⟩
      have := hrest d hd
      tauto
    · rintro ⟨_, _, ⟨rfl, rfl⟩, hc, hrest⟩
      refine ⟨hc, fun d hd => ?_⟩
      have := hrest d hd
      tauto

theorem referenceBody?_eq_some_iff {piece body : List Char} :
    referenceBody? piece = some body ↔ piece = '@' :: '(' :: (body ++ [')']) := by
  unfold referenceBody?
  split
  · next rest =>
    simp only [List.cons.injEq, true_and]
    constructor
    · intro h
      split at h
      · next hlast =>
        rw [← Option.some.inj h, List.dropLast_append_getLast?]
        exact hlast
      · cases h
    · rintro rfl
      simp
  · next hnot =>
    simp only [reduceCtorEq, false_iff]
    exact hnot _

theorem isSome_typeName?_iff {piece : List Char} :
    (typeName? piece).isSome = true ↔ IsReference piece := by
  rw [Option.isSome_iff_exists]
  simp only [typeName?_eq_some_iff, referenceBody?_eq_some_iff]
  constructor
  · rintro ⟨name, body, rfl, htrim, hname⟩
    obtain ⟨before, after, hbody, hbefore, hafter⟩ := Text.exists_eq_trimChars body
    rw [htrim] at hbody
    refine ⟨before, name.toList, after, ?_, isTypeName_iff.mp hname, hbefore, hafter⟩
    simp [hbody]
  · rintro ⟨before, name, after, rfl, hname, hbefore, hafter⟩
    have htype := isTypeName_iff.mpr hname
    obtain ⟨c, rest, hcons, -⟩ := hname
    refine ⟨String.ofList name, before ++ name ++ after, by simp, ?_, by simpa using htype⟩
    rw [String.toList_ofList]
    apply Text.trimChars_append_append hbefore hafter
    · exact fun c hc => isBlank_of_isNameChar (isNameChar_of_isTypeName htype hc)
    · simp [hcons]

instance (piece : List Char) : Decidable (IsReference piece) :=
  decidable_of_iff _ isSome_typeName?_iff

theorem hasExpression_iff {cs : List Char} : hasExpression cs = true ↔ ['@', '('] <:+: cs := by
  induction cs with
  | nil => simp [hasExpression]
  | cons c cs ih =>
    rw [List.infix_cons_iff, ← ih, hasExpression.eq_def]
    split
    · next h =>
      cases h
      simp
    · next hnot h =>
      cases h
      have hopens : ¬ ['@', '('] <+: c :: cs := by
        rintro ⟨rest, hrest⟩
        obtain ⟨hc, hcs⟩ := List.cons_eq_cons.mp hrest
        exact hnot rest hc.symm hcs.symm
      simp [hopens]
    · next h => cases h

def pieceFault? (location : Location) (piece : List Char) : Option EvalError :=
  if ['@', '('] <:+: piece then
    if IsReference piece then none
    else some (.unsupportedExpression (String.ofList piece) location)
  else if '*' ∈ piece ∨ '?' ∈ piece then
    match Glob.tokensOf (Path.plain piece) with
    | .ok _ => none
    | .error defect => some (.invalidGlob (String.ofList piece) defect.reason)
  else none

theorem faultOf_compile (piece : List Char) (caseSensitive : Bool) (directory : Option String) :
    faultOf (Glob.compile (String.ofList piece) caseSensitive directory) =
      match Glob.tokensOf (Path.plain piece) with
      | .ok _ => none
      | .error defect => some (.invalidGlob (String.ofList piece) defect.reason) := by
  rw [Glob.compile, String.toList_ofList]
  cases Glob.tokensOf (Path.plain piece) <;> rfl

theorem hasWildcards_iff {piece : List Char} :
    Glob.hasWildcards (String.ofList piece) = true ↔ '*' ∈ piece ∨ '?' ∈ piece := by
  simp [Glob.hasWildcards, and_or_left, exists_or]

/-- The fault of a piece depends on the place where it is reported, and on nothing else around. -/
theorem faultOf_parseFragment (ctx : Scope) (piece : List Char) :
    faultOf (parseFragment ctx piece) = pieceFault? ctx.location piece := by
  unfold parseFragment pieceFault?
  simp only [hasExpression_iff, hasWildcards_iff, ← isSome_typeName?_iff, ← faultOf_compile piece
    ctx.globCaseSensitive ctx.directory]
  split
  · cases typeName? piece <;> rfl
  · split
    · exact faultOf_map _ _
    · rfl

/-- What is wrong with a text, in the order of its pieces; without a piece, it is missing. -/
def faults (location : Location) (text : String) : List EvalError :=
  match pieces text with
  | [] => [.missingArgument "item_spec"]
  | given => given.filterMap (pieceFault? location)

theorem faultOf_parse (ctx : Scope) (itemType text : String) :
    faultOf (parse ctx itemType text) =
      if Text.isBlankText itemType then some (.missingArgument "item_type")
      else (faults ctx.location text).head? := by
  have hmapM := faultOf_mapM (parseFragment ctx) (pieces text)
  simp only [faultOf_parseFragment] at hmapM
  unfold parse faults
  split
  · rfl
  · cases hpieces : pieces text with
    | nil => rfl
    | cons piece rest =>
      rw [hpieces] at hmapM
      change _ = ((piece :: rest).filterMap (pieceFault? ctx.location)).head?
      rw [← hmapM]
      cases hread : (piece :: rest).mapM (parseFragment ctx) with
      | error e => rfl
      | ok fragments =>
        cases mapM_eq_ok_iff.mp hread with
        | cons _ _ => rfl

def IsSingleReference (text : String) : Prop :=
  ∃ piece, pieces text = [piece] ∧ IsReference piece

instance (text : String) : Decidable (IsSingleReference text) :=
  match h : pieces text with
  | [piece] => decidable_of_iff (IsReference piece) (by simp [IsSingleReference, h])
  | [] => isFalse (by simp [IsSingleReference, h])
  | _ :: _ :: _ => isFalse (by simp [IsSingleReference, h])

theorem IsReference.hasExpression {piece : List Char} (h : IsReference piece) :
    hasExpression piece = true := by
  obtain ⟨before, name, after, rfl, -⟩ := h
  rw [hasExpression_iff]
  exact ⟨[], before ++ name ++ after ++ [')'], by simp⟩

theorem isSingleReference_of_parse {ctx : Scope} {itemType text : String} {s : Spec}
    (h : parse ctx itemType text = .ok s) :
    s.isSingleReference = true ↔ IsSingleReference text := by
  have hread := mapM_eq_ok_iff.mp (parse_eq_ok_iff.mp h).2.2.1
  rw [isSingleReference_iff]
  constructor
  · rintro ⟨r, hr⟩
    rw [hr] at hread
    obtain ⟨piece, _, hpiece, hrest, hpieces⟩ := List.forall₂_cons_right_iff.mp hread
    obtain rfl := List.forall₂_nil_right_iff.mp hrest
    refine ⟨piece, hpieces, isSome_typeName?_iff.mp ?_⟩
    rw [typeName?_of_parseFragment hpiece]
    rfl
  · rintro ⟨piece, hpieces, hreference⟩
    rw [hpieces] at hread
    obtain ⟨f, _, hpiece, hrest, hfragments⟩ := List.forall₂_cons_left_iff.mp hread
    obtain rfl := List.forall₂_nil_left_iff.mp hrest
    rcases parseFragment_eq_ok_iff.mp hpiece with ⟨-, name, -, rfl⟩ | ⟨hnone, -⟩ | ⟨hnone, -⟩
    · exact ⟨_, hfragments⟩
    · rw [hreference.hasExpression] at hnone
      cases hnone
    · rw [hreference.hasExpression] at hnone
      cases hnone

end Spec

end BuildItems
