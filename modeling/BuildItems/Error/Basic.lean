import BuildItems.Location

/-!
# What can go wrong

Every failure of declaring and computing items, by its cause, and its one-line message.
-/

namespace BuildItems

inductive EvalError where
  /-- Matching by metadata takes one name, and one reference as the whole specification. -/
  | matchOnMetadataRestricted (itemType : String) (location : Location)
  /-- The operation does not take this attribute. -/
  | attributeNotAllowed (attr operation itemType : String) (location : Location)
  /-- An item expression that is not just a reference. -/
  | unsupportedExpression (expression : String) (location : Location)
  | invalidGlob (pattern reason : String)
  | missingArgument (argument : String)
  /-- A reference to more operations than there were. -/
  | referenceOutOfRange (itemType : String) (opCount available : Nat)
  | invalidComparisonMode (value : String)
  | invalidOptions (message : String)
  /-- Two parts disagree that never should. -/
  | internal (message : String)
  deriving DecidableEq, Inhabited

namespace EvalError

def message : EvalError → String
  | matchOnMetadataRestricted itemType location =>
    "Only one item type may be referenced when removing with MatchOnMetadata, " ++
      "and only one metadata name may be matched (" ++ itemType ++ " at " ++ location.text ++ ")"
  | attributeNotAllowed attr operation itemType location =>
    "Attribute '" ++ attr ++ "' is not valid on " ++ operation ++ " operations (" ++
      itemType ++ " at " ++ location.text ++ ")"
  | unsupportedExpression expression location =>
    "Unsupported item expression '" ++ expression ++ "' at " ++ location.text
  | invalidGlob pattern reason => "Invalid glob pattern '" ++ pattern ++ "': " ++ reason
  | missingArgument argument => "Missing required argument: " ++ argument
  | referenceOutOfRange itemType opCount available =>
    "Reference to " ++ itemType ++ " at operation " ++ toString opCount ++ " exceeds the " ++
      toString available ++ " declared operations"
  | invalidComparisonMode value => "Invalid metadata comparison mode: " ++ value
  | invalidOptions message => "Invalid evaluation options: " ++ message
  | internal message => "Internal error: " ++ message

/-- Whether the project that declares the items is at fault. -/
def isInvalidSpecification : EvalError → Bool
  | matchOnMetadataRestricted .. | attributeNotAllowed .. => true
  | _ => false

def location? : EvalError → Option Location
  | matchOnMetadataRestricted _ location | attributeNotAllowed _ _ _ location
  | unsupportedExpression _ location => some location
  | _ => none

theorem isSome_location?_of_isInvalidSpecification {e : EvalError}
    (h : e.isInvalidSpecification = true) : e.location?.isSome = true := by
  cases e <;> simp_all [isInvalidSpecification, location?]

end EvalError

end BuildItems
