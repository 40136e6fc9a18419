import BuildItems.Comparison.Match
import BuildItems.Spec.Basic

/-!
# Operations on an item list

An operation adds items to the list of its type, removes some, or changes their metadata. It is
declared once, with a specification of the items meant and a condition, and has the number of its
declaration.
-/

namespace BuildItems

/-- The four operations by name. `Exclude` and `Remove` both remove; only `Remove` can also match
by metadata. -/
inductive OperationKind where
  | includes
  | excludes
  | removes
  | updates
  deriving DecidableEq, Inhabited

namespace OperationKind

def all : List OperationKind := [includes, excludes, removes, updates]

def name : OperationKind → String
  | includes => "Include"
  | excludes => "Exclude"
  | removes => "Remove"
  | updates => "Update"

def ofName? (name : String) : Option OperationKind := all.find? (·.name == name)

end OperationKind

inductive Action where
  | includes (exclude : Option Spec) (metadata : Metadata)
  | excludes
  | removes (byMetadata : Option MetadataMatch)
  | updates (metadata : Metadata)
  deriving DecidableEq

namespace Action

def kind : Action → OperationKind
  | includes .. => .includes
  | excludes => .excludes
  | removes _ => .removes
  | updates _ => .updates

def exclude? : Action → Option Spec
  | includes exclude _ => exclude
  | _ => none

def metadata : Action → Metadata
  | includes _ metadata | updates metadata => metadata
  | _ => ∅

def byMetadata? : Action → Option MetadataMatch
  | removes byMetadata => byMetadata
  | _ => none

end Action

structure Operation where
  action : Action
  spec : Spec
  condition : Bool
  location : Location
  order : Nat
  deriving DecidableEq

namespace Operation

def itemType (o : Operation) : String := o.spec.itemType

def kind (o : Operation) : OperationKind := o.action.kind

/-- Matching by metadata takes exactly one name, and exactly one reference to match against. -/
def validate (o : Operation) : Except EvalError Unit :=
  match o.action.byMetadata? with
  | some m =>
    if m.count = 1 ∧ o.spec.isSingleReference then .ok ()
    else .error (.matchOnMetadataRestricted o.itemType o.location)
  | none => .ok ()

def removedGlobs (o : Operation) : NameSet :=
  match o.kind with
  | .removes | .excludes => if o.condition then .ofNames o.spec.globTexts else ∅
  | .includes | .updates => ∅

theorem removedGlobs_of_not_condition {o : Operation} (h : o.condition = false) :
    o.removedGlobs = ∅ := by
  unfold removedGlobs
  split <;> simp [h]

end Operation

end BuildItems
