import BuildItems.Proofs.Spec.Reading
import BuildItems.Spec.Bound

/-!
# Specifications without their text

The text a specification was read from is kept beside its fragments, and what it stands for comes
from the fragments alone. Texts with the same pieces are read to the same fragments, or refused
with the same error.
-/

namespace BuildItems

namespace Spec

def unspelled (s : Spec) : Spec := { s with text := "" }

variable {ctx : Scope} {itemType text text' : String}

theorem parse_sameOutcome (h : pieces text = pieces text') :
    SameOutcome (fun s s' => s.unspelled = s'.unspelled) (parse ctx itemType text)
      (parse ctx itemType text') := by
  rw [parse, parse, h]
  split
  · exact .error _
  · rcases (pieces text').mapM (parseFragment ctx) with e | _ | ⟨f, fs⟩
    · exact .error e
    · exact .error _
    · exact .ok rfl

theorem pieces_eq_nil_of_isBlankText (h : Text.isBlankText text = true) : pieces text = [] := by
  have hblank : ∀ c ∈ text.toList, Text.isBlank c = true := List.all_eq_true.mp h
  have hwhole : text.toList.splitOn ';' = [text.toList] :=
    List.splitOn_eq_singleton fun hmem => absurd (hblank _ hmem) (by decide)
  rw [pieces, hwhole, List.map_singleton, (Text.trimChars_eq_nil_iff _).mpr hblank]
  rfl

theorem isBlankText_congr (h : pieces text = pieces text')
    (hnone : pieces text = [] → Text.isBlankText text = Text.isBlankText text') :
    Text.isBlankText text = Text.isBlankText text' := by
  by_cases hnil : pieces text = []
  · exact hnone hnil
  · have hnil' : pieces text' ≠ [] := h ▸ hnil
    have hblank := mt pieces_eq_nil_of_isBlankText hnil
    have hblank' := mt pieces_eq_nil_of_isBlankText hnil'
    simp_all

/-- A text of blanks and semicolons has nothing to read. -/
theorem parse_of_pieces_eq_nil (htype : Text.isBlankText itemType = false) (h : pieces text = []) :
    parse ctx itemType text = .error (.missingArgument "item_spec") := by
  rw [parse, h, htype]
  rfl

end Spec

namespace BoundSpec

def unspelled (m : BoundSpec) : BoundSpec := { m with spec := m.spec.unspelled }

end BoundSpec

end BuildItems
