import QualifierConstraints.Json.Reading
import QualifierConstraints.Resolution

/-!
# Values as JSON

`toJson` writes a value as an object with all its fields, and `ofJson` reads a value from an object
or an array. The members of an object are read in the order of their keys, and only then is it asked
whether one is missing; a member with another key does not matter. A hierarchy is written and read
as its top.
-/

set_option autoImplicit false

namespace QualifierConstraints

open Json (readText readBool readList readMember required expectEnd)

namespace Qualifier

def toJson (q : Qualifier) : Json :=
  .object [("name", .text q.name), ("arguments", .array (q.arguments.map Json.text))]

def ofJson : Json → Except Misfit Qualifier
  | .object members => do
    let arguments ← readMember (readList readText) "arguments" members
    let name ← readMember readText "name" members
    return ⟨← required "name" name, ← required "arguments" arguments⟩
  | .array [] => .error (.tooFewItems 0 .qualifier)
  | .array [name] => do
    let _ ← readText name
    .error (.tooFewItems 1 .qualifier)
  | .array (name :: arguments :: rest) => do
    let name ← readText name
    let arguments ← readList readText arguments
    expectEnd 2 rest
    return ⟨name, arguments⟩
  | j => .error (.wrongKind j (.form .qualifier))

end Qualifier

namespace Hierarchy

def toJson (h : Hierarchy) : Json := h.top.toJson

def ofJson (j : Json) : Except Misfit Hierarchy := (Qualifier.ofJson j).map Hierarchy.mk

end Hierarchy

namespace Target

def toJson (t : Target) : Json := .object [("name", .text t.name), ("binding", .text t.binding)]

def ofJson : Json → Except Misfit Target
  | .object members => do
    let binding ← readMember readText "binding" members
    let name ← readMember readText "name" members
    return ⟨← required "name" name, ← required "binding" binding⟩
  | .array [] => .error (.tooFewItems 0 .target)
  | .array [name] => do
    let _ ← readText name
    .error (.tooFewItems 1 .target)
  | .array (name :: binding :: rest) => do
    let name ← readText name
    let binding ← readText binding
    expectEnd 2 rest
    return ⟨name, binding⟩
  | j => .error (.wrongKind j (.form .target))

end Target

namespace AnnotatedType

mutual
def toJson : AnnotatedType → Json
  | ⟨name, arguments, qualifiers⟩ =>
    .object [("name", .text name), ("arguments", .array (toJsonAll arguments)),
      ("qualifiers", .array (qualifiers.map Qualifier.toJson))]

def toJsonAll : List AnnotatedType → List Json
  | [] => []
  | t :: ts => toJson t :: toJsonAll ts
end

mutual
def ofJson : Json → Except Misfit AnnotatedType
  | .object members => do
    let arguments ← argumentsMember members
    let name ← readMember readText "name" members
    let qualifiers ← readMember (readList Qualifier.ofJson) "qualifiers" members
    return ⟨← required "name" name, ← required "arguments" arguments,
      ← required "qualifiers" qualifiers⟩
  | .array [] => .error (.tooFewItems 0 .type)
  | .array [name] => do
    let _ ← readText name
    .error (.tooFewItems 1 .type)
  | .array [name, arguments] => do
    let _ ← readText name
    let _ ← ofJsonList arguments
    .error (.tooFewItems 2 .type)
  | .array (name :: arguments :: qualifiers :: rest) => do
    let name ← readText name
    let arguments ← ofJsonList arguments
    let qualifiers ← readList Qualifier.ofJson qualifiers
    expectEnd 3 rest
    return ⟨name, arguments, qualifiers⟩
  | j => .error (.wrongKind j (.form .type))

def ofJsonList : Json → Except Misfit (List AnnotatedType)
  | .array items => ofJsonItems items
  | j => .error (.wrongKind j .sequence)

def ofJsonItems : List Json → Except Misfit (List AnnotatedType)
  | [] => .ok []
  | j :: js => do
    let t ← ofJson j
    let ts ← ofJsonItems js
    return t :: ts

def argumentsMember : List (String × Json) → Except Misfit (Option (List AnnotatedType))
  | [] => .ok none
  | (key, j) :: members =>
    if key = "arguments" then (ofJsonList j).map some else argumentsMember members
end

end AnnotatedType

namespace Settings

def toJson (s : Settings) : Json := .object [("validate-hierarchies", .bool s.validateHierarchies)]

/-- Every field may be left out, in both forms. -/
def ofJson : Json → Except Misfit Settings
  | .object members => do
    let validate ← readMember readBool "validate-hierarchies" members
    return ⟨validate.getD standard.validateHierarchies⟩
  | .array [] => .ok standard
  | .array (validate :: rest) => do
    let validate ← readBool validate
    expectEnd 1 rest
    return ⟨validate⟩
  | j => .error (.wrongKind j (.form .settings))

end Settings
end QualifierConstraints
