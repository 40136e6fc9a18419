import BuildItems.Text.CaseTable

/-!
# Lower case of a text

Every capital becomes its small letter, whatever the language. Two letters do not map one to
one: a dotted capital I becomes a small i with a dot above it, and a capital sigma becomes the
final small sigma at the end of a word, the common one elsewhere. A word ends after a letter
with case where none follows; characters without case of their own are looked through.
-/

namespace BuildItems.Text

def isCaseIgnorable (c : Char) : Bool := inTable caseIgnorable c

def isCased (c : Char) : Bool := inTable cased c

def casedFirst (cs : List Char) : Bool :=
  match cs.dropWhile isCaseIgnorable with
  | [] => false
  | c :: _ => isCased c

def CaseRun.contains (r : CaseRun) (c : Char) : Bool :=
  r.first ≤ c.toNat && c.toNat ≤ r.last && (c.toNat - r.first) % r.step == 0

def lowerSimple (c : Char) : Char :=
  match lowering.find? (·.contains c) with
  | some r => Char.ofNat (c.toNat + r.shift).toNat
  | none => c

def lowerChar (c : Char) : List Char :=
  if c = 'İ' then ['i', '\u0307'] else [lowerSimple c]

/-- The lower case of a capital sigma between the characters before it, nearest first, and
those after it. -/
def lowerSigma (before after : List Char) : Char :=
  if casedFirst before && !casedFirst after then 'ς' else 'σ'

def lowerAfter (before : List Char) : List Char → List Char
  | [] => []
  | c :: after =>
    (if c = 'Σ' then [lowerSigma before after] else lowerChar c) ++ lowerAfter (c :: before) after

def lower (s : String) : String := String.ofList (lowerAfter [] s.toList)

end BuildItems.Text
