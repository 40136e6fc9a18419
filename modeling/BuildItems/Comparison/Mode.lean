import BuildItems.Error.Basic
import BuildItems.Path.Normal
import BuildItems.Text.Ascii
import BuildItems.Text.Blank
import BuildItems.Text.Lowercase

/-!
# Comparing metadata values

Two values agree under a mode if their keys are equal: as they are, whatever their case, or as
paths. The empty value has no key, so it agrees with nothing.
-/

namespace BuildItems

inductive ComparisonMode where
  | caseSensitive
  | caseInsensitive
  | pathLike
  deriving DecidableEq, Inhabited

namespace ComparisonMode

def all : List ComparisonMode := [caseSensitive, caseInsensitive, pathLike]

def name : ComparisonMode → String
  | caseSensitive => "CaseSensitive"
  | caseInsensitive => "CaseInsensitive"
  | pathLike => "PathLike"

def ofName? (name : String) : Option ComparisonMode := all.find? (·.name == name)

theorem ofName?_name (m : ComparisonMode) : ofName? m.name = some m := by
  cases m <;> rfl

def parse (text : String) : Except EvalError ComparisonMode :=
  match all.find? (Text.lowerAscii ·.name == Text.lowerAscii (Text.trim text)) with
  | some mode => .ok mode
  | none => .error (.invalidComparisonMode text)

/-- The key of a value. Case in paths counts only if `pathCaseSensitive`. -/
def key (mode : ComparisonMode) (pathCaseSensitive : Bool) (value : String) : Option String :=
  if value = "" then none
  else
    some <| match mode with
      | caseSensitive => value
      | caseInsensitive => Text.lower value
      | pathLike =>
        if pathCaseSensitive then Path.normalize value else Text.lower (Path.normalize value)

theorem key_eq_none_iff (mode : ComparisonMode) (pathCaseSensitive : Bool) (value : String) :
    mode.key pathCaseSensitive value = none ↔ value = "" := by
  by_cases h : value = "" <;> simp [key, h]

end ComparisonMode

end BuildItems
