import BuildItems.Path.Slash

/-!
# Normal form of a path

Two spellings name one path if they differ in slashes, empty segments, current-directory
segments, and segments undone by the parent-directory segment after them. The normal form keeps
the leading slash of a rooted path; a path that is not rooted may begin with parent directories.
-/

namespace BuildItems.Path

abbrev Segment := List Char

def here : Segment := ['.']

def parent : Segment := ['.', '.']

def pushSegment (rooted : Bool) (kept : List Segment) (s : Segment) : List Segment :=
  if s = [] ∨ s = here then kept
  else if s = parent then
    match kept with
    | [] => if rooted then [] else [parent]
    | top :: below => if top = parent then (if rooted then kept else parent :: kept) else below
  else s :: kept

def isRooted (cs : List Char) : Bool := cs.head? == some '/'

def normalSegments (rooted : Bool) (segments : List Segment) : List Segment :=
  (segments.foldl (pushSegment rooted) []).reverse

def normal (cs : List Char) : List Char :=
  let path := forward cs
  let joined := List.intercalate ['/'] (normalSegments (isRooted path) (path.splitOn '/'))
  if isRooted path then '/' :: joined else joined

def normalize (s : String) : String := String.ofList (normal s.toList)

end BuildItems.Path
