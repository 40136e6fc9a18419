import BuildItems.Comparison.Mode
import BuildItems.Identifier
import BuildItems.Options.Basic

/-!
# Self-describing data

Locations, modes, options and identifiers as data that other programs exchange, and back. Data
that do not have the expected form are refused as a whole.
-/

namespace BuildItems

inductive Data where
  | null
  | bool (b : Bool)
  | natural (n : Nat)
  | otherNumber
  | text (s : String)
  | array (elements : List Data)
  | object (fields : List (String × Data))
  deriving Inhabited

namespace Data

def text? : Data → Option String
  | text s => some s
  | _ => none

def bool? : Data → Option Bool
  | bool b => some b
  | _ => none

def word? : Data → Option UInt32
  | natural n => if n < UInt32.size then some (UInt32.ofNat n) else none
  | _ => none

def field? (fields : List (String × Data)) (name : String) : Option Data := fields.lookup name

def isNull : Data → Bool
  | null => true
  | _ => false

end Data

namespace Location

def toData (l : Location) : Data :=
  .object [("file", .text l.file), ("line", .natural l.line.toNat),
    ("column", .natural l.column.toNat)]

/-- Three values by name, among others, or exactly three in order. -/
def ofData? : Data → Option Location
  | .object fields => do
    let file ← Data.field? fields "file"
    let line ← Data.field? fields "line"
    let column ← Data.field? fields "column"
    pure ⟨← file.text?, ← line.word?, ← column.word?⟩
  | .array [file, line, column] => do pure ⟨← file.text?, ← line.word?, ← column.word?⟩
  | _ => none

theorem ofData?_toData (l : Location) : ofData? l.toData = some l := by
  simp [ofData?, toData, Data.field?, List.lookup_cons, Data.text?, Data.word?,
    l.line.toNat_lt_size, l.column.toNat_lt_size]

end Location

namespace ComparisonMode

def toData (m : ComparisonMode) : Data := .text m.name

def ofData? : Data → Option ComparisonMode
  | .text name => ofName? name
  | .object [(name, value)] => if value.isNull then ofName? name else none
  | _ => none

theorem ofData?_toData (m : ComparisonMode) : ofData? m.toData = some m := ofName?_name m

end ComparisonMode

namespace Options

def toData (o : Options) : Data := .object (o.toList.map fun (name, value) => (name, .bool value))

def setData? (o : Options) (name : String) (value : Data) : Option Options :=
  value.bool?.bind (o.set? name)

/-- Options by name, or the first few in order; the others keep their defaults. -/
def ofData? : Data → Option Options
  | .object fields => fields.foldlM (fun o (name, value) => o.setData? name value) {}
  | .array values =>
    if values.length ≤ names.length then
      (names.zip values).foldlM (fun o (name, value) => o.setData? name value) {}
    else none
  | _ => none

theorem ofData?_toData (o : Options) : ofData? o.toData = some o := by
  rcases o with ⟨g, p, s⟩
  rfl

end Options

namespace EvaluationId

def toData (i : EvaluationId) : Data := .text i.text

def ofData? (d : Data) : Option EvaluationId := d.text?.map EvaluationId.mk

end EvaluationId

namespace DocumentId

def toData (i : DocumentId) : Data := .text i.text

def ofData? (d : Data) : Option DocumentId := d.text?.map DocumentId.mk

end DocumentId

end BuildItems
