import BuildItems.Identifier
import BuildItems.Operation.Basic
import BuildItems.Options.Basic

/-!
# Projects

A project holds the operations declared so far, in order, each numbered by its place. The
operations of one type are those among them that are for it; a reference sees the first few.
-/

namespace BuildItems

structure Project where
  id : EvaluationId
  options : Options := {}
  /-- The directory globs are relative to, for the operations still to be declared. -/
  directory : Option String := none
  operations : List Operation := []

namespace Project

def operationsBefore (p : Project) (horizon : Nat) (itemType : String) : List Operation :=
  (p.operations.take horizon).filter (·.itemType == itemType)

def operationsOf (p : Project) (itemType : String) : List Operation :=
  p.operations.filter (·.itemType == itemType)

def operationCount (p : Project) (itemType : String) : Nat := (p.operationsOf itemType).length

def itemTypes (p : Project) : NameSet := .ofNames (p.operations.map (·.itemType))

theorem operationsBefore_length (p : Project) (itemType : String) :
    p.operationsBefore p.operations.length itemType = p.operationsOf itemType := by
  simp [operationsBefore, operationsOf]

end Project

end BuildItems
