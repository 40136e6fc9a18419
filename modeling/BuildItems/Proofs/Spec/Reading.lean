import BuildItems.Proofs.Failure
import BuildItems.Spec.Parser

/-!
# What a specification is read from

The fragments of a specification come from the pieces of its text, one each and in order. A
reference is frozen to what the scope says is declared of its type, and a glob is compiled with
the options and the directory of the scope.
-/

namespace BuildItems

namespace Spec

theorem parse_eq_ok_iff {ctx : Scope} {itemType text : String} {s : Spec} :
    parse ctx itemType text = .ok s ↔
      Text.isBlankText itemType = false ∧ s.fragments ≠ [] ∧
        (pieces text).mapM (parseFragment ctx) = .ok s.fragments ∧
        s.itemType = itemType ∧ s.text = text := by
  unfold parse
  split
  · next hblank => simp [hblank]
  · next hblank =>
    rw [Bool.not_eq_true] at hblank
    split
    · next h => simp [h]
    · next h =>
      simp only [h, reduceCtorEq, Except.ok.injEq, false_iff, not_and]
      exact fun _ hne heq => absurd heq.symm hne
    · next fragments hne h =>
      simp only [hblank, h, Except.ok.injEq, true_and]
      constructor
      · rintro rfl
        exact ⟨hne, rfl, rfl, rfl⟩
      · rintro ⟨_, rfl, rfl, rfl⟩
        rfl

theorem itemType_of_parse {ctx : Scope} {itemType text : String} {s : Spec}
    (h : parse ctx itemType text = .ok s) : s.itemType = itemType :=
  (parse_eq_ok_iff.mp h).2.2.2.1

theorem parseFragment_of_parse {ctx : Scope} {itemType text : String} {s : Spec}
    (h : parse ctx itemType text = .ok s) {f : Fragment} (hf : f ∈ s.fragments) :
    ∃ piece ∈ pieces text, parseFragment ctx piece = .ok f :=
  exists_of_mem_mapM (parse_eq_ok_iff.mp h).2.2.1 hf

theorem parseFragment_eq_ok_iff {ctx : Scope} {piece : List Char} {f : Fragment} :
    parseFragment ctx piece = .ok f ↔
      (hasExpression piece = true ∧
        ∃ name, typeName? piece = some name ∧ .reference ⟨name, ctx.declared name⟩ = f) ∨
      (hasExpression piece = false ∧ Glob.hasWildcards (String.ofList piece) = true ∧
        ∃ g, Glob.compile (String.ofList piece) ctx.globCaseSensitive ctx.directory = .ok g ∧
          .glob g = f) ∨
      (hasExpression piece = false ∧ Glob.hasWildcards (String.ofList piece) = false ∧
        .literal (String.ofList piece) = f) := by
  simp only [parseFragment]
  cases hasExpression piece with
  | true => cases typeName? piece <;> simp
  | false =>
    cases Glob.hasWildcards (String.ofList piece) with
    | true => simp [map_eq_ok_iff]
    | false => simp

theorem opCount_of_parseFragment {ctx : Scope} {piece : List Char} {r : Reference}
    (h : parseFragment ctx piece = .ok (.reference r)) : r.opCount = ctx.declared r.itemType := by
  rcases parseFragment_eq_ok_iff.mp h with ⟨_, name, _, h⟩ | ⟨_, _, g, _, h⟩ | ⟨_, _, h⟩
  · cases h
    rfl
  · cases h
  · cases h

theorem typeName?_of_parseFragment {ctx : Scope} {piece : List Char} {r : Reference}
    (h : parseFragment ctx piece = .ok (.reference r)) : typeName? piece = some r.itemType := by
  rcases parseFragment_eq_ok_iff.mp h with ⟨_, name, hname, h⟩ | ⟨_, _, g, _, h⟩ | ⟨_, _, h⟩
  · cases h
    exact hname
  · cases h
  · cases h

theorem compile_of_parseFragment {ctx : Scope} {piece : List Char} {g : Glob}
    (h : parseFragment ctx piece = .ok (.glob g)) :
    Glob.compile g.text ctx.globCaseSensitive ctx.directory = .ok g := by
  rcases parseFragment_eq_ok_iff.mp h with ⟨_, name, _, h⟩ | ⟨_, _, g', hg, h⟩ | ⟨_, _, h⟩
  · cases h
  · cases h
    rw [Glob.text_of_compile hg]
    exact hg
  · cases h

theorem mem_references_iff {s : Spec} {r : Reference} :
    r ∈ s.references ↔ .reference r ∈ s.fragments := by
  rw [references, List.mem_filterMap]
  constructor
  · rintro ⟨f, hf, h⟩
    cases f with
    | reference r' =>
      cases h
      exact hf
    | literal value => cases h
    | glob g => cases h
  · exact fun h => ⟨_, h, rfl⟩

/-- A reference sees exactly what is declared of its type where it is read. -/
theorem opCount_of_parse {ctx : Scope} {itemType text : String} {s : Spec}
    (h : parse ctx itemType text = .ok s) {r : Reference} (hr : r ∈ s.references) :
    r.opCount = ctx.declared r.itemType := by
  obtain ⟨piece, _, hpiece⟩ := parseFragment_of_parse h (mem_references_iff.mp hr)
  exact opCount_of_parseFragment hpiece

theorem typeName?_of_parse {ctx : Scope} {itemType text : String} {s : Spec}
    (h : parse ctx itemType text = .ok s) {r : Reference} (hr : r ∈ s.references) :
    ∃ piece ∈ pieces text, typeName? piece = some r.itemType := by
  obtain ⟨piece, hmem, hpiece⟩ := parseFragment_of_parse h (mem_references_iff.mp hr)
  exact ⟨piece, hmem, typeName?_of_parseFragment hpiece⟩

theorem compile_of_parse {ctx : Scope} {itemType text : String} {s : Spec}
    (h : parse ctx itemType text = .ok s) {g : Glob} (hg : .glob g ∈ s.fragments) :
    Glob.compile g.text ctx.globCaseSensitive ctx.directory = .ok g := by
  obtain ⟨piece, _, hpiece⟩ := parseFragment_of_parse h hg
  exact compile_of_parseFragment hpiece

end Spec

end BuildItems
