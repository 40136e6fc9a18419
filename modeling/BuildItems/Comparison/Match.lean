import BuildItems.Comparison.Mode
import BuildItems.Item.Basic
import BuildItems.Ordered.NameSet

/-!
# Matching items by metadata

Instead of by value, an item may match a list of others by the values of named metadata: it
matches if its keys under all the names are those of one item of the list. An item without a key
under some name matches nothing.
-/

namespace BuildItems

structure MetadataMatch where
  names : NameSet
  count : Nat
  mode : ComparisonMode
  deriving DecidableEq

namespace MetadataMatch

/-- Blank names do not count; without any other there is nothing to match by. -/
def ofNames? (names : List String) (mode : ComparisonMode) : Option MetadataMatch :=
  match (names.map Text.trim).filter (· != "") with
  | [] => none
  | given => some ⟨.ofNames given, given.length, mode⟩

def singleName? (m : MetadataMatch) : Option String :=
  if m.count = 1 then m.names.names.head? else none

def keys? (m : MetadataMatch) (pathCaseSensitive : Bool) (item : Item) : Option (List String) :=
  m.names.names.mapM fun name => (item.lookup name).bind (m.mode.key pathCaseSensitive)

end MetadataMatch

structure KeyIndex where
  state : MetadataMatch
  pathCaseSensitive : Bool
  keys : List (List String)

namespace KeyIndex

def ofItems (state : MetadataMatch) (pathCaseSensitive : Bool) (items : List Item) :
    KeyIndex where
  state := state
  pathCaseSensitive := pathCaseSensitive
  keys := (items.filterMap (state.keys? pathCaseSensitive)).eraseDups

def size (x : KeyIndex) : Nat := x.keys.length

def contains (x : KeyIndex) (item : Item) : Bool :=
  match x.state.keys? x.pathCaseSensitive item with
  | some key => x.keys.contains key
  | none => false

/-- An item is found iff it has keys and some indexed item has the same. -/
theorem contains_ofItems (state : MetadataMatch) (pathCaseSensitive : Bool) (items : List Item)
    (item : Item) :
    (ofItems state pathCaseSensitive items).contains item = true ↔
      ∃ keys, state.keys? pathCaseSensitive item = some keys ∧
        ∃ i ∈ items, state.keys? pathCaseSensitive i = some keys := by
  unfold contains ofItems
  cases state.keys? pathCaseSensitive item <;> simp [List.mem_eraseDups]

end KeyIndex

end BuildItems
