import BuildItems.Glob.Basic

/-!
# Expanding globs

An expander answers a glob with values, in its own order, or fails. It may keep a state `σ` from
one glob to the next; the fixed ones keep none.
-/

namespace BuildItems

abbrev Expander (σ : Type) := Glob → StateM σ (Except EvalError (List String))

namespace Expander

def fixed {σ : Type} (answer : Glob → Except EvalError (List String)) : Expander σ :=
  fun g => pure (answer g)

def nothing : Glob → Except EvalError (List String) := fun _ => .ok []

def files (paths : List String) : Glob → Except EvalError (List String) :=
  fun g => .ok (paths.filter g.accepts)

def failingOn (texts : List String) (reason : String)
    (answer : Glob → Except EvalError (List String)) : Glob → Except EvalError (List String) :=
  fun g => if texts.contains g.text then .error (.invalidGlob g.text reason) else answer g

def recording (answer : Glob → Except EvalError (List String)) : Expander (List String) :=
  fun g asked => (answer g, asked ++ [g.text])

end Expander

end BuildItems
