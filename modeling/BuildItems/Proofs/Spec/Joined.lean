import BuildItems.Proofs.Operation.Policy
import BuildItems.Proofs.Project.Prefix

/-!
# Specifications joined by a semicolon

Two texts with a semicolon between them have the pieces of one and then those of the other. If
both can be read as specifications, so can the whole, and its fragments are theirs.
-/

namespace BuildItems

namespace Spec

theorem pieces_joined (left right : String) :
    pieces (left ++ ";" ++ right) = pieces left ++ pieces right := by
  have hchars : (left ++ ";" ++ right).toList = left.toList ++ ';' :: right.toList := by simp
  rw [pieces, hchars, List.splitOn_append_cons_self, List.map_append, List.filter_append]
  rfl

structure Joins (s left right : Spec) : Prop where
  fragments : s.fragments = left.fragments ++ right.fragments
  left : left.itemType = s.itemType
  right : right.itemType = s.itemType

theorem exists_parse_joined {ctx : Scope} {itemType left right : String} {s s' : Spec}
    (h : parse ctx itemType left = .ok s) (h' : parse ctx itemType right = .ok s') :
    ∃ whole : Spec, parse ctx itemType (left ++ ";" ++ right) = .ok whole ∧ whole.Joins s s' := by
  obtain ⟨htype, hne, hfragments, hitemType, _⟩ := parse_eq_ok_iff.mp h
  obtain ⟨_, _, hfragments', hitemType', _⟩ := parse_eq_ok_iff.mp h'
  refine ⟨⟨itemType, left ++ ";" ++ right, s.fragments ++ s'.fragments⟩,
    parse_eq_ok_iff.mpr ⟨htype, by simp [hne], ?_, rfl, rfl⟩, rfl, hitemType, hitemType'⟩
  rw [pieces_joined, List.mapM_append, hfragments, hfragments']
  rfl

namespace Joins

variable {s left right : Spec}

theorem references (h : s.Joins left right) :
    s.references = left.references ++ right.references := by
  rw [Spec.references, h.fragments, List.filterMap_append]
  rfl

theorem globs (h : s.Joins left right) : s.globs = left.globs ++ right.globs := by
  rw [Spec.globs, h.fragments, List.filterMap_append]
  rfl

theorem outside (h : s.Joins left right) : s.outside = left.outside ++ right.outside := by
  rw [Spec.outside, h.references, List.filter_append, Spec.outside, Spec.outside, h.left, h.right]

theorem matchesIn (h : s.Joins left right) (lists : Reference → List Entry) (value : String) :
    s.matchesIn lists value = (left.matchesIn lists value || right.matchesIn lists value) := by
  rw [Spec.matchesIn, h.fragments, List.any_append]
  rfl

theorem itemsIn (h : s.Joins left right) (lists : Reference → List Entry)
    (values : Glob → List String) (itemType : String) :
    s.itemsIn lists values itemType =
      left.itemsIn lists values itemType ++ right.itemsIn lists values itemType := by
  rw [Spec.itemsIn, h.fragments, List.flatMap_append]
  rfl

end Joins

end Spec

end BuildItems
