import BuildItems.Text.Unprintable

/-!
# Quoted texts

A quoted text stands between double quotes on one line. A double quote and a backslash are
written with a backslash before them, four controls by a letter, and every other character that
does not print by its number in braces.
-/

namespace BuildItems.Text

def isPrintable (c : Char) : Bool := !inTable unprintable c

def hexDigits (n : Nat) : List Char := Nat.toDigits 16 n

def quoteChar (c : Char) : List Char :=
  if c = '"' ∨ c = '\\' then ['\\', c]
  else if c = '\n' then ['\\', 'n']
  else if c = '\r' then ['\\', 'r']
  else if c = '\t' then ['\\', 't']
  else if c = '\x00' then ['\\', '0']
  else if isPrintable c then [c]
  else ['\\', 'u', '\x7b'] ++ hexDigits c.toNat ++ ['\x7d']

def quote (s : String) : String :=
  String.ofList ('"' :: s.toList.flatMap quoteChar ++ ['"'])

def quoteList (ss : List String) : String :=
  "[" ++ ", ".intercalate (ss.map quote) ++ "]"

end BuildItems.Text
