import BuildItems.Error.Basic
import BuildItems.Glob.Match
import BuildItems.Path.Slash

/-!
# Globs

A glob is the text of a pattern and what was read from it: its tokens, whether case counts, and
the directory that the pattern is relative to. A path matches as a whole, or by its part below
that directory. Brackets have no meaning of their own.
-/

namespace BuildItems

structure Glob where
  text : String
  tokens : List Glob.Token
  caseSensitive : Bool
  /-- The base directory in plain form, without a slash at its end. -/
  base : Option (List Char)
  deriving DecidableEq, Inhabited

namespace Glob

def hasWildcards (text : String) : Bool := text.toList.any fun c => c == '*' || c == '?'

/-- The base directory a text names; a text of nothing but slashes names none. -/
def baseOf (directory : String) : Option (List Char) :=
  let path := ((Path.plain directory.toList).reverse.dropWhile (· == '/')).reverse
  if path = [] then none else some path

def compile (text : String) (caseSensitive : Bool) (directory : Option String) :
    Except EvalError Glob :=
  match tokensOf (Path.plain text.toList) with
  | .ok tokens => .ok ⟨text, tokens, caseSensitive, directory.bind baseOf⟩
  | .error defect => .error (.invalidGlob text defect.reason)

def acceptsWhole (g : Glob) (path : List Char) : Bool :=
  matchTokens g.caseSensitive g.tokens path == .matched

def below (directory path : List Char) : Option (List Char) :=
  (directory ++ ['/']).isPrefixOf? path

def acceptsPath (g : Glob) (path : List Char) : Bool :=
  g.acceptsWhole path ||
    match g.base.bind (below · path) with
    | some relative => g.acceptsWhole relative
    | none => false

def accepts (g : Glob) (value : String) : Bool := g.acceptsPath (Path.plain value.toList)

section Compiled

variable {text : String} {caseSensitive : Bool} {directory : Option String} {g : Glob}

theorem exists_tokens_of_compile (h : compile text caseSensitive directory = .ok g) :
    ∃ tokens, tokensOf (Path.plain text.toList) = .ok tokens ∧
      g = ⟨text, tokens, caseSensitive, directory.bind baseOf⟩ := by
  unfold compile at h
  split at h
  · next tokens htokens => exact ⟨tokens, htokens, (Except.ok.inj h).symm⟩
  · cases h

theorem text_of_compile (h : compile text caseSensitive directory = .ok g) : g.text = text := by
  obtain ⟨tokens, -, rfl⟩ := exists_tokens_of_compile h
  rfl

theorem base_of_compile (h : compile text caseSensitive directory = .ok g) :
    g.base = directory.bind baseOf := by
  obtain ⟨tokens, -, rfl⟩ := exists_tokens_of_compile h
  rfl

/-- The directory decides about the base of a glob and about nothing else. -/
theorem eq_of_compile {directory' : Option String} {h : Glob}
    (hg : compile text caseSensitive directory = .ok g)
    (hh : compile text caseSensitive directory' = .ok h) : h = { g with base := h.base } := by
  obtain ⟨tokens, htokens, rfl⟩ := exists_tokens_of_compile hg
  obtain ⟨tokens', htokens', rfl⟩ := exists_tokens_of_compile hh
  cases htokens.symm.trans htokens'
  rfl

end Compiled

theorem accepts_of_base_none {g : Glob} (h : g.base = none) (value : String) :
    g.accepts value = g.acceptsWhole (Path.plain value.toList) := by
  simp [accepts, acceptsPath, h]

end Glob

end BuildItems
