import BuildItems.Error.Basic
import BuildItems.Options.Basic
import BuildItems.Text.Ascii

/-!
# Reading options from a document

A document has lines, each blank, a comment after a number sign, or one option: its name, plain or
in quotes, an equals sign and `true` or `false`. Spaces and tabs may stand between the parts. An
option not given keeps its default; one given twice, or an unknown one, is refused.
-/

namespace BuildItems.Options

inductive Fault where
  | malformed (line : Nat)
  | unknownName (name : String)
  | repeatedName (name : String)
  deriving DecidableEq, Inhabited

def Fault.message : Fault → String
  | malformed line => "line " ++ toString line ++ " cannot be read"
  | unknownName name => "unknown option " ++ name
  | repeatedName name => "option " ++ name ++ " is given twice"

namespace Document

def isGap (c : Char) : Bool := c == ' ' || c == '\t'

def skipGap (cs : List Char) : List Char := cs.dropWhile isGap

def isCommentChar (c : Char) : Bool := c == '\t' || (' ' ≤ c && c != '\x7f')

def isNameChar (c : Char) : Bool :=
  Text.isAsciiLetter c || Text.isAsciiDigit c || c == '_' || c == '-'

def hexValue? (c : Char) : Option Nat :=
  if '0' ≤ c ∧ c ≤ '9' then some (c.toNat - '0'.toNat)
  else if 'a' ≤ c ∧ c ≤ 'f' then some (c.toNat - 'a'.toNat + 10)
  else if 'A' ≤ c ∧ c ≤ 'F' then some (c.toNat - 'A'.toNat + 10)
  else none

def charOfHex? (digits : List Char) : Option Char := do
  let n ← digits.foldlM (fun n d => (hexValue? d).map (16 * n + ·)) 0
  if n < 0xD800 ∨ (0xDFFF < n ∧ n < 0x110000) then some (Char.ofNat n) else none

def untilQuote : List Char → Option (List Char × List Char)
  | [] => none
  | '"' :: rest => some ([], rest)
  | '\\' :: 'u' :: a :: b :: c :: d :: rest => do
    let x ← charOfHex? [a, b, c, d]
    (untilQuote rest).map fun (name, rest) => (x :: name, rest)
  | '\\' :: 'U' :: a :: b :: c :: d :: e :: f :: g :: h :: rest => do
    let x ← charOfHex? [a, b, c, d, e, f, g, h]
    (untilQuote rest).map fun (name, rest) => (x :: name, rest)
  | '\\' :: c :: rest => do
    let x ← [('b', '\x08'), ('t', '\t'), ('n', '\n'), ('f', '\x0c'), ('r', '\r'), ('"', '"'),
      ('\\', '\\')].lookup c
    (untilQuote rest).map fun (name, rest) => (x :: name, rest)
  | c :: rest =>
    if isCommentChar c then (untilQuote rest).map fun (name, rest) => (c :: name, rest) else none

def name? : List Char → Option (List Char × List Char)
  | '"' :: rest => untilQuote rest
  | '\x27' :: rest =>
    match rest.span (· != '\x27') with
    | (name, _ :: rest) => if name.all isCommentChar then some (name, rest) else none
    | (_, []) => none
  | cs =>
    match cs.span isNameChar with
    | ([], _) => none
    | (name, rest) => some (name, rest)

def value? : List Char → Option (Bool × List Char)
  | 't' :: 'r' :: 'u' :: 'e' :: rest => some (true, rest)
  | 'f' :: 'a' :: 'l' :: 's' :: 'e' :: rest => some (false, rest)
  | _ => none

def isLineEnd (cs : List Char) : Bool :=
  match skipGap cs with
  | [] => true
  | '#' :: comment => comment.all isCommentChar
  | _ => false

def setting? (cs : List Char) : Option (List Char × Bool) := do
  let (name, rest) ← name? (skipGap cs)
  match skipGap rest with
  | '=' :: rest =>
    let (value, rest) ← value? (skipGap rest)
    if isLineEnd rest then some (name, value) else none
  | _ => none

/-- The lines of a document. A line ends with a line feed, which a carriage return may precede;
a byte order mark may stand before the first line. -/
def lines (text : String) : List (List Char) :=
  let cs := match text.toList with
    | '\uFEFF' :: rest => rest
    | cs => cs
  let ls := cs.splitOn '\n'
  ls.dropLast.map (fun l => if l.getLast? = some '\r' then l.dropLast else l) ++
    [ls.getLast?.getD []]

/-- Reads the lines from number `n` on; `given` are the options set so far. -/
def readLines (n : Nat) (given : List String) (o : Options) :
    List (List Char) → Except Fault Options
  | [] => .ok o
  | l :: ls =>
    if isLineEnd l then readLines (n + 1) given o ls
    else
      match setting? l with
      | none => .error (.malformed n)
      | some (cs, value) =>
        let name := String.ofList cs
        if given.contains name then .error (.repeatedName name)
        else
          match o.set? name value with
          | none => .error (.unknownName name)
          | some o' => readLines (n + 1) (name :: given) o' ls

end Document

def parse (text : String) : Except EvalError Options :=
  (Document.readLines 1 [] {} (Document.lines text)).mapError (.invalidOptions ·.message)

end BuildItems.Options
