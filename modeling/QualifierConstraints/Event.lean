import QualifierConstraints.Primaries
import QualifierConstraints.Types

set_option autoImplicit false

namespace QualifierConstraints

open Text (listed)

inductive Event where
  | targetRelated (kind : Kind) (target other : Target) (hierarchies : OrderedSet Hierarchy)
  | typeRelated (kind : Kind) (target : Target) (type : AnnotatedType)
      (hierarchies : OrderedSet Hierarchy)
  | primaryKept (kind : Kind) (target : Target) (qualifier : Qualifier) (hierarchy : Hierarchy)
  | primaryDiscarded (kind : Kind) (target : Target) (qualifier : Qualifier) (hierarchy : Hierarchy)
deriving DecidableEq

inductive Level where
  | trace
  | debug
deriving DecidableEq

def Level.name : Level → String
  | .trace => "TRACE"
  | .debug => "DEBUG"

/-- What a log shows of an event: its level, the part of the program that it comes from, and its
fields by name, one of which is the message. -/
structure LogEntry where
  level : Level
  origin : String
  fields : List (String × String)
deriving DecidableEq

namespace Event

def ofFiling (kind : Kind) (target : Target) (f : Filing) : Event :=
  if f.kept then .primaryKept kind target f.qualifier f.hierarchy
  else .primaryDiscarded kind target f.qualifier f.hierarchy

/-- Only a discarded qualifier is told at the `debug` level. -/
def level : Event → Level
  | .targetRelated .. => .trace
  | .typeRelated .. => .trace
  | .primaryKept .. => .trace
  | .primaryDiscarded .. => .debug

def origin : String := "ty_qualifier_inference::constraints"

def message : Event → String
  | .targetRelated k .. => "add " ++ k.name ++ " constraint to target"
  | .typeRelated k .. => "add " ++ k.name ++ " constraint to type"
  | .primaryKept k .. => "add primary " ++ k.name ++ " constraint"
  | .primaryDiscarded k .. =>
    "discard primary " ++ k.name ++ " constraint, hierarchy already has one"

def target : Event → Target
  | .targetRelated _ t .. => t
  | .typeRelated _ t .. => t
  | .primaryKept _ t .. => t
  | .primaryDiscarded _ t .. => t

def setDetail (hs : OrderedSet Hierarchy) : String :=
  listed "\x7b" "\x7d" (hs.toList.map Hierarchy.detail)

/-- The fields that come after the message and the target. -/
def details : Event → List (String × String)
  | .targetRelated _ _ other hs => [("other", other.render), ("hierarchies", setDetail hs)]
  | .typeRelated _ _ type hs => [("ty", type.render), ("hierarchies", setDetail hs)]
  | .primaryKept _ _ q h => [("qualifier", q.render), ("hierarchy", h.render)]
  | .primaryDiscarded _ _ q h => [("qualifier", q.render), ("hierarchy", h.render)]

def fields (e : Event) : List (String × String) :=
  ("message", e.message) :: ("inference_target", e.target.render) :: e.details

def logEntry (e : Event) : LogEntry := ⟨e.level, origin, e.fields⟩

end Event
end QualifierConstraints
