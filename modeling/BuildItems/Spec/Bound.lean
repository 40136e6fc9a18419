import BuildItems.Comparison.Match
import BuildItems.Spec.Basic
import BuildItems.Text.Quoted

/-!
# Matching items against a specification

Before a specification can match, each of its references is given the list it stands for, in
order. An item matches if its value is a literal of the specification, one of its globs accepts
it, or it is in one of the lists.
-/

namespace BuildItems

structure ResolvedReference where
  itemType : String
  entries : List Entry
  deriving Inhabited

def ResolvedReference.containsValue (r : ResolvedReference) (value : String) : Bool :=
  r.entries.any (·.item.value == value)

/-- A specification with one resolved list for each of its references. -/
structure BoundSpec where
  spec : Spec
  references : List ResolvedReference
  deriving Inhabited

namespace BoundSpec

/-- The lists must be of the referenced types, in order. -/
def bind (spec : Spec) (references : List ResolvedReference) : Except EvalError BoundSpec :=
  let resolved := references.map (·.itemType)
  if spec.references.map (·.itemType) = resolved then .ok ⟨spec, references⟩
  else
    .error <| .internal <| "resolved references " ++ Text.quoteList resolved ++
      " do not match spec '" ++ spec.text ++ "'"

theorem bind_ok_iff {spec : Spec} {references : List ResolvedReference} {m : BoundSpec} :
    bind spec references = .ok m ↔
      spec.references.map (·.itemType) = references.map (·.itemType) ∧ m = ⟨spec, references⟩ := by
  unfold bind
  by_cases h : spec.references.map (·.itemType) = references.map (·.itemType)
  · simp [h, eq_comm]
  · simp [h]

def matchesAny (value : String) : List Fragment → List ResolvedReference → Bool
  | [], _ => false
  | .literal text :: fs, rs => text == value || matchesAny value fs rs
  | .glob g :: fs, rs => g.accepts value || matchesAny value fs rs
  | .reference _ :: fs, [] => matchesAny value fs []
  | .reference _ :: fs, r :: rs => r.containsValue value || matchesAny value fs rs

def matchesValue (m : BoundSpec) (value : String) : Bool :=
  matchesAny value m.spec.fragments m.references

def matchesItem (m : BoundSpec) (item : Item) : Bool := m.matchesValue item.value

def metadataIndex (m : BoundSpec) (state : MetadataMatch) (pathCaseSensitive : Bool) :
    KeyIndex :=
  .ofItems state pathCaseSensitive (m.references.flatMap (·.entries.map (·.item)))

def matchesMetadata (m : BoundSpec) (state : MetadataMatch) (pathCaseSensitive : Bool)
    (item : Item) : Bool :=
  (m.metadataIndex state pathCaseSensitive).contains item

end BoundSpec

end BuildItems
