import BuildItems.Error.Basic

/-!
# Error reports

An error as it is shown outside: a kind with a lasting code, a message, and what is known of the
operation, the item type and the place. A report may wrap another one.
-/

namespace BuildItems

inductive ErrorKind where
  | invalidSpecification
  | unsupportedExpression
  | invalidGlob
  | missingArgument
  | invalidConfiguration
  | internal
  deriving DecidableEq, Inhabited

namespace ErrorKind

def all : List ErrorKind :=
  [invalidSpecification, unsupportedExpression, invalidGlob, missingArgument,
    invalidConfiguration, internal]

def name : ErrorKind → String
  | invalidSpecification => "InvalidSpecification"
  | unsupportedExpression => "UnsupportedExpression"
  | invalidGlob => "InvalidGlob"
  | missingArgument => "MissingArgument"
  | invalidConfiguration => "InvalidConfiguration"
  | internal => "Internal"

def code : ErrorKind → String
  | invalidSpecification => "ERR_INVALID_SPECIFICATION"
  | unsupportedExpression => "ERR_UNSUPPORTED_EXPRESSION"
  | invalidGlob => "ERR_INVALID_GLOB"
  | missingArgument => "ERR_MISSING_ARGUMENT"
  | invalidConfiguration => "ERR_INVALID_CONFIGURATION"
  | internal => "ERR_INTERNAL"

def ofName? (name : String) : Option ErrorKind := all.find? (·.name == name)

theorem code_injective {a b : ErrorKind} (h : a.code = b.code) : a = b := by
  cases a <;> cases b <;> simp_all [code]

end ErrorKind

structure ErrorReport where
  kind : ErrorKind
  operation : Option String := none
  itemType : Option String := none
  location : Option String := none
  message : String := ""
  source : Option ErrorReport := none

namespace ErrorReport

def text (r : ErrorReport) : String :=
  "[" ++ r.kind.code ++ "]" ++
    (match r.operation with
      | some operation => " in operation '" ++ operation ++ "'"
      | none => "") ++
    (if r.message = "" then "" else ": " ++ r.message) ++
    (match r.itemType with
      | some itemType => " (item_type: " ++ itemType ++ ")"
      | none => "") ++
    (match r.location with
      | some location => " (at: " ++ location ++ ")"
      | none => "")

end ErrorReport

namespace EvalError

def kind : EvalError → ErrorKind
  | matchOnMetadataRestricted .. | attributeNotAllowed .. => .invalidSpecification
  | unsupportedExpression .. => .unsupportedExpression
  | invalidGlob .. => .invalidGlob
  | missingArgument .. => .missingArgument
  | referenceOutOfRange .. | internal .. => .internal
  | invalidComparisonMode .. | invalidOptions .. => .invalidConfiguration

def operation? : EvalError → Option String
  | attributeNotAllowed _ operation _ _ => some operation
  | _ => none

def itemType? : EvalError → Option String
  | matchOnMetadataRestricted itemType _ | attributeNotAllowed _ _ itemType _
  | referenceOutOfRange itemType _ _ => some itemType
  | _ => none

def report (e : EvalError) : ErrorReport where
  kind := e.kind
  operation := e.operation?
  itemType := e.itemType?
  location := e.location?.map Location.text
  message := e.message

theorem kind_eq_invalidSpecification_iff (e : EvalError) :
    e.kind = .invalidSpecification ↔ e.isInvalidSpecification = true := by
  cases e <;> simp [kind, isInvalidSpecification]

end EvalError

end BuildItems
