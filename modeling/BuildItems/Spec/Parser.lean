import BuildItems.Spec.Basic
import BuildItems.Text.Ascii
import BuildItems.Text.Blank

/-!
# Reading a specification

Pieces stand between semicolons; blanks around them do not count, nor do empty pieces. A piece
with an at sign and an opening parenthesis in it has to be a reference as a whole, one with a
wildcard is a glob, any other is a literal.
-/

namespace BuildItems

structure Spec.Scope where
  location : Location
  globCaseSensitive : Bool
  /-- The directory globs are relative to. -/
  directory : Option String
  /-- How many operations of a type there are so far. -/
  declared : String → Nat

namespace Spec

def isNameStart (c : Char) : Bool := Text.isAsciiLetter c || c == '_'

def isNameChar (c : Char) : Bool :=
  isNameStart c || Text.isAsciiDigit c || c == '-' || c == '.'

def isTypeName : List Char → Bool
  | [] => false
  | c :: cs => isNameStart c && cs.all isNameChar

def hasExpression : List Char → Bool
  | '@' :: '(' :: _ => true
  | _ :: cs => hasExpression cs
  | [] => false

def referenceBody? : List Char → Option (List Char)
  | '@' :: '(' :: rest => if rest.getLast? = some ')' then some rest.dropLast else none
  | _ => none

def typeName? (piece : List Char) : Option String :=
  match referenceBody? piece with
  | some body =>
    let name := Text.trimChars body
    if isTypeName name then some (String.ofList name) else none
  | none => none

def pieces (text : String) : List (List Char) :=
  ((text.toList.splitOn ';').map Text.trimChars).filter (· != [])

def parseFragment (ctx : Spec.Scope) (piece : List Char) : Except EvalError Fragment :=
  let text := String.ofList piece
  if hasExpression piece then
    match typeName? piece with
    | some name => .ok (.reference ⟨name, ctx.declared name⟩)
    | none => .error (.unsupportedExpression text ctx.location)
  else if Glob.hasWildcards text then
    (Glob.compile text ctx.globCaseSensitive ctx.directory).map .glob
  else .ok (.literal text)

end Spec

def Spec.parse (ctx : Spec.Scope) (itemType text : String) : Except EvalError Spec :=
  if Text.isBlankText itemType then .error (.missingArgument "item_type")
  else
    match (Spec.pieces text).mapM (Spec.parseFragment ctx) with
    | .error e => .error e
    | .ok [] => .error (.missingArgument "item_spec")
    | .ok fragments => .ok ⟨itemType, text, fragments⟩

end BuildItems
