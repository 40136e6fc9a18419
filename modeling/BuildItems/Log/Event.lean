import BuildItems.Error.Report

/-!
# Log events

An event has a level and named fields. The boundaries of an operation are its start and its end,
in success or in error. How long an operation took is not something it computes, so such a field
is only a mark.
-/

namespace BuildItems.Log

inductive Level where
  | trace
  | debug
  | info
  | warn
  | error
  deriving DecidableEq, Inhabited

def Level.name : Level → String
  | trace => "TRACE"
  | debug => "DEBUG"
  | info => "INFO"
  | warn => "WARN"
  | error => "ERROR"

inductive Boundary where
  | start
  | finish
  | failure
  deriving DecidableEq, Inhabited

def Boundary.name : Boundary → String
  | start => "start"
  | finish => "end"
  | failure => "end_error"

namespace Field

def component : String := "component"
def op : String := "op"
def event : String := "event"
def duration : String := "duration_ms"
def evaluationId : String := "evaluation_id"
def itemType : String := "item_type"
def opKind : String := "op_kind"
def location : String := "location"
def opCount : String := "op_count"
def itemCount : String := "item_count"
def globCount : String := "glob_count"
def errorKind : String := "err.kind"
def errorCode : String := "err.code"
def message : String := "message"

end Field

inductive Value where
  | text (s : String)
  | number (n : Int)
  | elapsed
  deriving DecidableEq, Inhabited

def Value.render : Value → String
  | text s => s
  | number n => toString n
  | elapsed => "*"

structure Event where
  level : Level
  fields : List (String × Value)
  deriving DecidableEq, Inhabited

namespace Event

def field? (e : Event) (name : String) : Option String := (e.fields.lookup name).map Value.render

def op? (e : Event) : Option String := e.field? Field.op

def event? (e : Event) : Option String := e.field? Field.event

def itemType? (e : Event) : Option String := e.field? Field.itemType

def boundary (level : Level) (op : String) (b : Boundary) (fields : List (String × Value)) : Event :=
  ⟨level, (Field.op, .text op) :: (Field.event, .text b.name) :: fields⟩

def start (op : String) (fields : List (String × Value)) : Event :=
  boundary .info op .start fields

def finish (op : String) (duration : Value) (fields : List (String × Value)) : Event :=
  boundary .info op .finish ((Field.duration, duration) :: fields)

def failure (op : String) (duration : Value) (e : EvalError) (fields : List (String × Value)) :
    Event :=
  boundary .error op .failure <|
    (Field.duration, duration) :: (Field.errorKind, .text e.kind.name) ::
      (Field.errorCode, .text e.kind.code) :: fields

end Event

end BuildItems.Log
