/-!
# Identifiers

Texts that tell evaluations and documents apart. Documents are ordered by their text.
-/

namespace BuildItems

structure EvaluationId where
  text : String
  deriving DecidableEq, Inhabited

structure DocumentId where
  text : String
  deriving DecidableEq, Inhabited

def DocumentId.compare (a b : DocumentId) : Ordering := compareOfLessAndEq a.text b.text

end BuildItems
