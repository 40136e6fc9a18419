/-!
# Options of an evaluation
-/

namespace BuildItems

structure Options where
  globCaseSensitive : Bool := true
  /-- Whether case counts when metadata are compared as paths. -/
  pathLikeCaseSensitive : Bool := true
  /-- Whether a glob is left unexpanded when a later operation removes what it yields. -/
  skipRemovedGlobs : Bool := true
  deriving DecidableEq, Inhabited

namespace Options

def names : List String :=
  ["glob_case_sensitive", "path_like_case_sensitive", "skip_removed_glob_expansion"]

def toList (o : Options) : List (String × Bool) :=
  names.zip [o.globCaseSensitive, o.pathLikeCaseSensitive, o.skipRemovedGlobs]

def set? (o : Options) (name : String) (value : Bool) : Option Options :=
  if name = "glob_case_sensitive" then some { o with globCaseSensitive := value }
  else if name = "path_like_case_sensitive" then some { o with pathLikeCaseSensitive := value }
  else if name = "skip_removed_glob_expansion" then some { o with skipRemovedGlobs := value }
  else none

end Options

end BuildItems
