import BuildItems.Item.Metadata

/-!
# Items

An item has a type, a value and metadata. In a list it stands with the number of the declaration
that added it.
-/

namespace BuildItems

/-- The metadata name that an item's own value answers to. -/
def identityName : String := "Identity"

structure Item where
  itemType : String
  value : String
  metadata : Metadata := ∅
  deriving DecidableEq, Inhabited

namespace Item

/-- The value under a metadata name; the identity is the item's value unless it is overridden. -/
def lookup (i : Item) (name : String) : Option String :=
  match i.metadata.get? name with
  | some value => some value
  | none => if name = identityName then some i.value else none

def withMerged (i : Item) (updates : Metadata) : Item :=
  { i with metadata := i.metadata.merged updates }

end Item

structure Entry where
  item : Item
  order : Nat
  deriving DecidableEq, Inhabited

namespace Entry

def withItem (e : Entry) (item : Item) : Entry := { e with item := item }

end Entry

def valuesOf (entries : List Entry) : List String := entries.map (·.item.value)

end BuildItems
