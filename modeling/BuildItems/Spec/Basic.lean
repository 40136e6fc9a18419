import BuildItems.Glob.Basic

/-!
# Specifications of items

A specification is a list of fragments, each a literal value, a glob, or a reference to the items
of a type. A reference is frozen: it says how many operations of the type it sees.
-/

namespace BuildItems

/-- The items of a type after its first `opCount` operations. -/
structure Reference where
  itemType : String
  opCount : Nat
  deriving DecidableEq, Inhabited

inductive Fragment where
  | literal (value : String)
  | glob (g : Glob)
  | reference (r : Reference)
  deriving DecidableEq, Inhabited

namespace Fragment

def text : Fragment → String
  | literal value => value
  | glob g => g.text
  | reference r => "@(" ++ r.itemType ++ ")"

def isGlob : Fragment → Bool
  | glob _ => true
  | _ => false

def reference? : Fragment → Option Reference
  | reference r => some r
  | _ => none

def glob? : Fragment → Option Glob
  | glob g => some g
  | _ => none

end Fragment

structure Spec where
  itemType : String
  text : String
  fragments : List Fragment
  deriving DecidableEq, Inhabited

namespace Spec

def ofFragments (itemType : String) (fragments : List Fragment) : Spec :=
  ⟨itemType, ";".intercalate (fragments.map Fragment.text), fragments⟩

def references (s : Spec) : List Reference := s.fragments.filterMap Fragment.reference?

def globTexts (s : Spec) : List String := s.fragments.filterMap (·.glob?.map Glob.text)

def isSingleReference (s : Spec) : Bool :=
  match s.fragments with
  | [.reference _] => true
  | _ => false

def isSingleReferenceTo (s : Spec) (itemType : String) : Bool :=
  match s.fragments with
  | [.reference r] => r.itemType == itemType
  | _ => false

theorem isSingleReference_iff (s : Spec) :
    s.isSingleReference = true ↔ ∃ r, s.fragments = [.reference r] := by
  unfold isSingleReference
  split <;> simp_all

end Spec

end BuildItems
