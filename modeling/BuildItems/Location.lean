/-!
# Where a declaration stands

A file, with the line and column in it when they are known: neither, the line alone, or both.
Zero stands for an unknown number.
-/

namespace BuildItems

structure Location where
  file : String
  line : UInt32
  column : UInt32
  deriving DecidableEq, Inhabited

namespace Location

def inFile (file : String) : Location := ⟨file, 0, 0⟩

def hasLine (l : Location) : Bool := l.line != 0

def text (l : Location) : String :=
  if l.line = 0 then l.file
  else if l.column = 0 then l.file ++ " (" ++ toString l.line.toNat ++ ")"
  else l.file ++ " (" ++ toString l.line.toNat ++ "," ++ toString l.column.toNat ++ ")"

end Location

end BuildItems
