import BuildItems.Log.Event
import BuildItems.Project.Basic
import BuildItems.Spec.Parser

/-!
# Declaring operations

A declaration is checked in a fixed order: the specification, the attributes its kind does not
take, matching by metadata, what an Include leaves out, and the form of a match by metadata. The
first fault is reported and nothing is declared. A reference is frozen to what has been declared
of its type so far.
-/

namespace BuildItems

structure Declaration where
  kind : OperationKind
  itemType : String
  itemSpec : String
  condition : Bool := true
  location : Location := .inFile ""
  exclude : Option String := none
  metadata : Metadata := ∅
  matchOnMetadata : List String := []
  comparisonMode : ComparisonMode := .caseSensitive

namespace Project

def specScope (p : Project) (location : Location) : Spec.Scope where
  location := location
  globCaseSensitive := p.options.globCaseSensitive
  directory := p.directory
  declared := p.operationCount

/-- What an Include leaves out; a blank text leaves out nothing. -/
def parseExclude (ctx : Spec.Scope) (itemType : String) :
    Option String → Except EvalError (Option Spec)
  | none => .ok none
  | some text =>
    if Text.isBlankText text then .ok none else (Spec.parse ctx itemType text).map some

def checkAttributes (d : Declaration) : Except EvalError Unit :=
  let refused (attr : String) : Except EvalError Unit :=
    .error (.attributeNotAllowed attr d.kind.name d.itemType d.location)
  if d.kind ≠ .includes ∧ d.exclude.isSome then refused "Exclude"
  else if (d.kind = .removes ∨ d.kind = .excludes) ∧ ¬ d.metadata.isEmpty then refused "metadata"
  else .ok ()

def checkMatch (d : Declaration) (byMetadata : Option MetadataMatch) : Except EvalError Unit :=
  if byMetadata.isSome ∧ d.kind ≠ .removes then
    .error (.matchOnMetadataRestricted d.itemType d.location)
  else .ok ()

def actionOf (ctx : Spec.Scope) (d : Declaration) (byMetadata : Option MetadataMatch) :
    Except EvalError Action :=
  match d.kind with
  | .includes => (parseExclude ctx d.itemType d.exclude).map (.includes · d.metadata)
  | .excludes => .ok .excludes
  | .removes => .ok (.removes byMetadata)
  | .updates => .ok (.updates d.metadata)

def operationOf (p : Project) (d : Declaration) : Except EvalError Operation := do
  let ctx := p.specScope d.location
  let byMetadata := MetadataMatch.ofNames? d.matchOnMetadata d.comparisonMode
  let spec ← Spec.parse ctx d.itemType d.itemSpec
  checkAttributes d
  checkMatch d byMetadata
  let action ← actionOf ctx d byMetadata
  let operation : Operation := ⟨action, spec, d.condition, d.location, p.operations.length⟩
  operation.validate
  pure operation

def append (p : Project) (o : Operation) : Project :=
  { p with operations := p.operations ++ [o] }

def declare (p : Project) (d : Declaration) : Except EvalError Project :=
  (p.operationOf d).map p.append

def declaredOperation (p : Project) (o : Operation) : Log.Event :=
  ⟨.debug, [(Log.Field.evaluationId, .text p.id.text), (Log.Field.itemType, .text o.itemType),
    (Log.Field.opKind, .text o.kind.name), (Log.Field.location, .text o.location.text),
    (Log.Field.message, .text "declared item operation")]⟩

def declareLogged (p : Project) (d : Declaration) :
    Except EvalError Project × List Log.Event :=
  match p.operationOf d with
  | .ok o => (.ok (p.append o), [p.declaredOperation o])
  | .error e => (.error e, [])

end Project

end BuildItems
