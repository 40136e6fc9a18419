import BuildItems.Identifier
import BuildItems.Log.Event
import BuildItems.Ordered.NameSet

/-!
# Pool of strings

Documents loaded side by side share most of their strings. The pool hands out one instance of a
string for as long as some document holds it. A document holds what it has added since it was last
cleared. The empty string has one instance of its own; a string with the header of generated values
is never shared.
-/

namespace BuildItems

/-- A string as it was handed out. Equal strings may be different instances. -/
structure PooledString where
  text : String
  instanceId : Nat
  deriving DecidableEq, Inhabited

def PooledString.empty : PooledString := ⟨"", 0⟩

structure PoolEntry where
  string : PooledString
  holders : Nat
  deriving DecidableEq, Inhabited

structure StringPool where
  entries : NameMap PoolEntry := ∅
  /-- What each document holds, by its identifier. -/
  held : NameMap NameSet := ∅
  nextInstance : Nat := 1

namespace StringPool

/-- How the strings begin that are made anew for each project. -/
def generatedHeader : String := "MSBuildProjectInstance"

def isGenerated (key : String) : Bool := generatedHeader.toList.isPrefixOf key.toList

def heldBy (p : StringPool) (d : DocumentId) : NameSet := (p.held.get? d.text).getD ∅

def ensure (p : StringPool) (key : String) : PoolEntry × StringPool :=
  match p.entries.get? key with
  | some e => (e, p)
  | none =>
    let e := ⟨⟨key, p.nextInstance⟩, 0⟩
    (e, { p with entries := p.entries.insert key e, nextInstance := p.nextInstance + 1 })

/-- One holder more, unless the document holds the key already. -/
def hold (p : StringPool) (key : String) (e : PoolEntry) (d : DocumentId) : StringPool :=
  if (p.heldBy d).contains key then p
  else
    { p with
      entries := p.entries.insert key { e with holders := e.holders + 1 }
      held := p.held.insert d.text ((p.heldBy d).add key) }

def add (p : StringPool) (key : String) (d : DocumentId) : PooledString × StringPool :=
  if key = "" then (.empty, p)
  else if isGenerated key then
    (⟨key, p.nextInstance⟩, { p with nextInstance := p.nextInstance + 1 })
  else
    let (e, p) := p.ensure key
    (e.string, p.hold key e d)

def get? (p : StringPool) (key : String) : Option PooledString :=
  if key = "" then some .empty else (p.entries.get? key).map (·.string)

def drop (entries : NameMap PoolEntry) (key : String) : NameMap PoolEntry :=
  match entries.get? key with
  | some e =>
    if e.holders - 1 = 0 then entries.erase key
    else entries.insert key { e with holders := e.holders - 1 }
  | none => entries

def releasedStrings (d : DocumentId) (evicted : Nat) : Log.Event :=
  ⟨.debug, [("document", .text d.text), ("evicted", .number evicted),
    (Log.Field.message, .text "released document strings")]⟩

def clear (p : StringPool) (d : DocumentId) : StringPool × List Log.Event :=
  match p.held.get? d.text with
  | none => (p, [])
  | some keys =>
    let entries := keys.names.foldl drop p.entries
    ({ p with entries := entries, held := p.held.erase d.text },
      [releasedStrings d (p.entries.size - entries.size)])

def count (p : StringPool) : Nat := p.entries.size

def documentCount (p : StringPool) : Nat := p.held.size

end StringPool

end BuildItems
