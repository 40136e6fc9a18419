import BuildItems.Spec.Bound

/-!
# Matching fragment by fragment

The lists of a bound specification are handed out to its references in order. Once each reference
has its list, a value matches if it matches one of the fragments by itself. So the fragments may
stand in any order, as long as each reference keeps its list.
-/

namespace BuildItems

inductive BoundFragment where
  | literal (text : String)
  | glob (g : Glob)
  | reference (r : Reference) (entries : List Entry)
  deriving DecidableEq

namespace BoundFragment

def fragment : BoundFragment → Fragment
  | literal text => .literal text
  | glob g => .glob g
  | reference r _ => .reference r

def resolved? : BoundFragment → Option ResolvedReference
  | reference r entries => some ⟨r.itemType, entries⟩
  | _ => none

def matchesValue (value : String) : BoundFragment → Bool
  | literal text => text == value
  | glob g => g.accepts value
  | reference _ entries => entries.any (·.item.value == value)

/-- Each reference takes the next list, as long as there are lists. -/
def handOut : List Fragment → List ResolvedReference → List BoundFragment
  | [], _ => []
  | .literal text :: fs, lists => literal text :: handOut fs lists
  | .glob g :: fs, lists => glob g :: handOut fs lists
  | .reference _ :: _, [] => []
  | .reference r :: fs, l :: lists => reference r l.entries :: handOut fs lists

theorem handOut_eq {fs : List Fragment} {lists : List ResolvedReference}
    (h : (fs.filterMap Fragment.reference?).map (·.itemType) = lists.map (·.itemType)) :
    (handOut fs lists).map fragment = fs ∧ (handOut fs lists).filterMap resolved? = lists := by
  induction fs generalizing lists with
  | nil =>
    obtain rfl : lists = [] := List.map_eq_nil_iff.mp h.symm
    exact ⟨rfl, rfl⟩
  | cons f fs ih =>
    cases f with
    | literal text =>
      obtain ⟨hfragments, hlists⟩ := ih h
      exact ⟨congrArg (Fragment.literal text :: ·) hfragments, hlists⟩
    | glob g =>
      obtain ⟨hfragments, hlists⟩ := ih h
      exact ⟨congrArg (Fragment.glob g :: ·) hfragments, hlists⟩
    | reference r =>
      cases lists with
      | nil => cases h
      | cons l lists =>
        obtain ⟨itemType, entries⟩ := l
        obtain ⟨htype, hrest⟩ := List.cons_eq_cons.mp h
        obtain ⟨hfragments, hlists⟩ := ih hrest
        obtain rfl : r.itemType = itemType := htype
        exact ⟨congrArg (Fragment.reference r :: ·) hfragments, congrArg (_ :: ·) hlists⟩

theorem map_itemType_resolved (parts : List BoundFragment) :
    ((parts.map fragment).filterMap Fragment.reference?).map (·.itemType) =
      (parts.filterMap resolved?).map (·.itemType) := by
  induction parts with
  | nil => rfl
  | cons part parts ih =>
    cases part with
    | literal text => exact ih
    | glob g => exact ih
    | reference r entries => exact congrArg (r.itemType :: ·) ih

theorem matchesAny_eq_any (value : String) (parts : List BoundFragment) :
    BoundSpec.matchesAny value (parts.map fragment) (parts.filterMap resolved?) =
      parts.any (matchesValue value) := by
  induction parts with
  | nil => rfl
  | cons part parts ih =>
    cases part with
    | literal text => exact congrArg (text == value || ·) ih
    | glob g => exact congrArg (g.accepts value || ·) ih
    | reference r entries => exact congrArg (entries.any (·.item.value == value) || ·) ih

theorem any_matchesValue_iff {value : String} {parts : List BoundFragment} :
    parts.any (matchesValue value) = true ↔
      Fragment.literal value ∈ parts.map fragment ∨
      (∃ g, Fragment.glob g ∈ parts.map fragment ∧ g.accepts value = true) ∨
      ∃ l ∈ parts.filterMap resolved?, ∃ e ∈ l.entries, e.item.value = value := by
  rw [List.any_eq_true]
  constructor
  · rintro ⟨part, hmem, hmatch⟩
    cases part with
    | literal text =>
      obtain rfl : text = value := eq_of_beq hmatch
      exact .inl (List.mem_map_of_mem hmem)
    | glob g => exact .inr (.inl ⟨g, List.mem_map_of_mem hmem, hmatch⟩)
    | reference r entries =>
      obtain ⟨e, he, hvalue⟩ := List.any_eq_true.mp hmatch
      exact .inr (.inr ⟨_, List.mem_filterMap.mpr ⟨_, hmem, rfl⟩, e, he, eq_of_beq hvalue⟩)
  · rintro (hliteral | ⟨g, hglob, haccepts⟩ | ⟨l, hlist, e, he, hvalue⟩)
    · obtain ⟨part, hmem, hpart⟩ := List.mem_map.mp hliteral
      cases part <;> cases hpart
      exact ⟨_, hmem, beq_self_eq_true value⟩
    · obtain ⟨part, hmem, hpart⟩ := List.mem_map.mp hglob
      cases part <;> cases hpart
      exact ⟨_, hmem, haccepts⟩
    · obtain ⟨part, hmem, hpart⟩ := List.mem_filterMap.mp hlist
      cases part <;> cases hpart
      exact ⟨_, hmem, List.any_eq_true.mpr ⟨e, he, beq_iff_eq.mpr hvalue⟩⟩

end BoundFragment

namespace BoundSpec

open BoundFragment

variable {spec : Spec} {references : List ResolvedReference} {m : BoundSpec}

theorem exists_bind_iff :
    (∃ m, bind spec references = .ok m) ↔
      spec.references.map (·.itemType) = references.map (·.itemType) := by
  simp [bind_ok_iff]

/-- Whatever parts a specification has, they bind, and what matches it matches one of them. -/
theorem bind_parts {parts : List BoundFragment} (h : spec.fragments = parts.map fragment) :
    bind spec (parts.filterMap resolved?) = .ok ⟨spec, parts.filterMap resolved?⟩ ∧
      ∀ item, matchesItem ⟨spec, parts.filterMap resolved?⟩ item =
        parts.any (BoundFragment.matchesValue item.value) := by
  refine ⟨bind_ok_iff.mpr ⟨?_, rfl⟩, fun item => ?_⟩
  · rw [Spec.references, h]
    exact map_itemType_resolved parts
  · rw [matchesItem, BoundSpec.matchesValue, h]
    exact matchesAny_eq_any item.value parts

/-- Lists are accepted if they are of the referenced types, in order. Then an item matches exactly
if its value is a literal of the specification, is accepted by one of its globs or is in one of the
lists; and it does so in whatever order the fragments stand, each reference with its list. -/
theorem matches_any_fragment (spec : Spec) (references : List ResolvedReference) :
    ((∃ m, bind spec references = .ok m) ↔
      spec.references.map (·.itemType) = references.map (·.itemType)) ∧
    ∀ m, bind spec references = .ok m →
      (∀ item, m.matchesItem item = true ↔
        Fragment.literal item.value ∈ spec.fragments ∨
        (∃ g, Fragment.glob g ∈ spec.fragments ∧ g.accepts item.value = true) ∨
        ∃ (k : Nat) (l : ResolvedReference), references[k]? = some l ∧
          ∃ e ∈ l.entries, e.item.value = item.value) ∧
      let parts := handOut spec.fragments references
      parts.map fragment = spec.fragments ∧ parts.filterMap resolved? = references ∧
        ∀ parts' : List BoundFragment, parts'.Perm parts →
          ∀ spec' : Spec, spec'.fragments = parts'.map fragment →
            ∃ m', bind spec' (parts'.filterMap resolved?) = .ok m' ∧
              ∀ item, m'.matchesItem item = m.matchesItem item := by
  refine ⟨exists_bind_iff, fun m h => ?_⟩
  obtain ⟨htypes, rfl⟩ := bind_ok_iff.mp h
  obtain ⟨hfragments, hlists⟩ := handOut_eq htypes
  have hmatches := (bind_parts hfragments.symm).2
  rw [hlists] at hmatches
  refine ⟨fun item => ?_, hfragments, hlists, ?_⟩
  · rw [hmatches, any_matchesValue_iff, hfragments, hlists]
    simp only [← List.mem_iff_getElem?, exists_comm (α := Nat), exists_and_right]
  · intro parts' hperm spec' hspec'
    obtain ⟨hbind', hmatches'⟩ := bind_parts hspec'
    refine ⟨_, hbind', fun item => ?_⟩
    rw [hmatches', hmatches, hperm.any_eq]

/-- One type is referenced twice, before and after it got another item. -/
theorem matches_any_fragment_swapped :
    let early : ResolvedReference := ⟨"R", [⟨⟨"R", "a.c", ∅⟩, 0⟩]⟩
    let late : ResolvedReference := ⟨"R", [⟨⟨"R", "a.c", ∅⟩, 0⟩, ⟨⟨"R", "b.c", ∅⟩, 2⟩]⟩
    let spec : Spec := .ofFragments "I" [.reference ⟨"R", 1⟩, .literal "x", .reference ⟨"R", 2⟩]
    let spec' : Spec := .ofFragments "I" [.literal "x", .reference ⟨"R", 2⟩, .reference ⟨"R", 1⟩]
    bind spec [early, late] = .ok ⟨spec, [early, late]⟩ ∧
      matchesItem ⟨spec, [early, late]⟩ ⟨"I", "b.c", ∅⟩ = true ∧
      ∃ m', bind spec' [late, early] = .ok m' ∧
        ∀ item, m'.matchesItem item = matchesItem ⟨spec, [early, late]⟩ item := by
  intro early late spec spec'
  have hbind : bind spec [early, late] = .ok ⟨spec, [early, late]⟩ := rfl
  obtain ⟨hmatches, -, -, hany⟩ := (matches_any_fragment spec [early, late]).2 _ hbind
  refine ⟨hbind, ?_, ?_⟩
  · apply (hmatches _).mpr
    exact .inr (.inr ⟨1, late, rfl, _, List.mem_cons_of_mem _ List.mem_cons_self, rfl⟩)
  · refine hany [.literal "x", .reference ⟨"R", 2⟩ late.entries, .reference ⟨"R", 1⟩ early.entries]
      ?_ spec' rfl
    decide

end BoundSpec

end BuildItems
