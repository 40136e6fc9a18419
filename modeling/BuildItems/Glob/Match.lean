import BuildItems.Glob.Token
import BuildItems.Text.Ascii

/-!
# Matching a path against tokens

The match goes forward through tokens and characters and retries each wildcard on longer and
longer runs. Besides success there are two failures: here, where a longer run of an earlier
wildcard may still help, and for good, where the path has ended too early for any run to help.
-/

namespace BuildItems

namespace Glob

inductive Verdict where
  | matched
  | failed
  | exhausted
  deriving DecidableEq, Inhabited

def sameChar (caseSensitive : Bool) (p c : Char) : Bool :=
  if caseSensitive then p == c else Text.sameLetter p c

def Verdict.orElse (v : Verdict) (next : Unit → Verdict) : Verdict :=
  match v with
  | failed => next ()
  | _ => v

/-- Retries what comes next after one, two, … characters of the same component. -/
def retryInComponent (next : List Char → Verdict) : List Char → Verdict
  | [] => next []
  | c :: cs =>
    if c = '/' then .failed else (next cs).orElse fun _ => retryInComponent next cs

def retryInFolders (next : List Char → Verdict) : List Char → Verdict
  | [] => next []
  | c :: cs =>
    if c = '/' then (next cs).orElse fun _ => retryInFolders next cs else retryInFolders next cs

def matchTokens (caseSensitive : Bool) : List Token → List Char → Verdict
  | [], [] => .matched
  | [], _ :: _ => .failed
  | .anyRun :: ts, cs =>
    (matchTokens caseSensitive ts cs).orElse fun _ =>
      retryInComponent (matchTokens caseSensitive ts) cs
  | .anyFolders :: ts, cs =>
    (matchTokens caseSensitive ts cs).orElse fun _ =>
      retryInFolders (matchTokens caseSensitive ts) cs
  | .anyChar :: _, [] | .literal _ :: _, [] => .exhausted
  | .anyChar :: ts, c :: cs => if c = '/' then .failed else matchTokens caseSensitive ts cs
  | .literal p :: ts, c :: cs =>
    if sameChar caseSensitive p c then matchTokens caseSensitive ts cs else .failed

end Glob

end BuildItems
