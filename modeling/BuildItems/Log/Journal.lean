import BuildItems.Log.Event

/-!
# Journals

A journal keeps the events of a run in order and answers questions about them.
-/

namespace BuildItems.Log

abbrev Journal := List Event

namespace Journal

def eventsFor (j : Journal) (op itemType : String) : List Event :=
  j.filter fun e => e.op? == some op && e.itemType? == some itemType

def count (j : Journal) (op : String) : Nat := j.countP fun e => e.op? == some op

def hasEvent (j : Journal) (op event : String) : Bool :=
  j.any fun e => e.op? == some op && e.event? == some event

def require (j : Journal) (op event : String) : Except String Unit :=
  if j.hasEvent op event then .ok ()
  else
    .error <| "Expected event op=" ++ op ++ " event=" ++ event ++ " not found in " ++
      toString j.length ++ " captured events"

end Journal

inductive Profile where
  | development
  | production
  | test
  deriving DecidableEq, Inhabited

def Profile.directive : Profile → String
  | development => "lazyitems_core=debug"
  | production => "lazyitems_core=info"
  | test => "off"

end BuildItems.Log
