/-!
# Tokens of a glob

The pattern of a glob is read left to right into tokens. A question mark stands for one
character of a path component and a star for a run of them. Two stars make up a whole component
and stand, with the slash after them, for any number of folders; more stars in a row are refused.
-/

namespace BuildItems

namespace Glob

inductive Token where
  | literal (c : Char)
  | anyChar
  | anyRun
  | anyFolders
  deriving DecidableEq, Inhabited

inductive Defect where
  | tooManyStars
  | notAComponent
  deriving DecidableEq, Inhabited

def Defect.reason : Defect → String
  | tooManyStars => "wildcards are either regular \x60*\x60 or recursive \x60**\x60"
  | notAComponent => "recursive wildcards must form a single path component"

/-- Any number of folders after the tokens read so far, last first. A second one in a row adds
nothing, but at the start of a pattern it is kept. -/
def pushFolders : List Token → List Token
  | .anyFolders :: t :: ts => .anyFolders :: t :: ts
  | ts => .anyFolders :: ts

/-- The tokens of a pattern, after those read so far, last first. `atStart` tells whether a path
component starts here. -/
def tokensAfter (atStart : Bool) (read : List Token) : List Char → Except Defect (List Token)
  | [] => .ok read.reverse
  | '*' :: '*' :: '*' :: _ => .error .tooManyStars
  | ['*', '*'] => if atStart then .ok (pushFolders read).reverse else .error .notAComponent
  | '*' :: '*' :: '/' :: rest =>
    if atStart then tokensAfter true (pushFolders read) rest else .error .notAComponent
  | '*' :: '*' :: _ => .error .notAComponent
  | '*' :: rest => tokensAfter false (.anyRun :: read) rest
  | '?' :: rest => tokensAfter false (.anyChar :: read) rest
  | c :: rest => tokensAfter (c == '/') (.literal c :: read) rest

def tokensOf (pattern : List Char) : Except Defect (List Token) := tokensAfter true [] pattern

end Glob

end BuildItems
