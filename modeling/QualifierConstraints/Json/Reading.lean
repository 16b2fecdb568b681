import QualifierConstraints.Text.Decimal
import QualifierConstraints.Text.Quoted

set_option autoImplicit false

namespace QualifierConstraints

/-- A JSON value as a tree. Where a key occurs twice in an object, the first member counts. A number
is a whole number or a floating-point number of 64 bits, and `2` and `2.0` are different values. -/
inductive Json where
  | null
  | bool (b : Bool)
  | integer (n : Int)
  | float (x : Float)
  | text (s : String)
  | array (items : List Json)
  | object (members : List (String × Json))
deriving Inhabited

namespace Json

/-- What kind of value this is, with the value itself where it is a scalar. -/
def describe : Json → String
  | .null => "null"
  | .bool true => "boolean `true`"
  | .bool false => "boolean `false`"
  | .integer n => "integer `" ++ (if n < 0 then "-" else "") ++ n.natAbs.repr ++ "`"
  | .float x => "floating point `" ++ Text.float x ++ "`"
  | .text s => "string " ++ Text.quoted s
  | .array _ => "sequence"
  | .object _ => "map"

end Json

/-- The structures that are read from an object, by the names of their fields, or from an array that
holds the fields in their order. -/
inductive Form where
  | qualifier
  | target
  | type
  | settings
deriving DecidableEq

namespace Form

def title : Form → String
  | .qualifier => "struct Qualifier"
  | .target => "struct InferenceTarget"
  | .type => "struct ConcreteType"
  | .settings => "struct InferenceSettings"

def fields : Form → List String
  | .qualifier => ["name", "arguments"]
  | .target => ["name", "binding"]
  | .type => ["name", "arguments", "qualifiers"]
  | .settings => ["validate-hierarchies"]

end Form

inductive Expected where
  | text
  | sequence
  | boolean
  | form (f : Form)
deriving DecidableEq

def Expected.phrase : Expected → String
  | .text => "a string"
  | .sequence => "a sequence"
  | .boolean => "a boolean"
  | .form f => f.title

inductive Misfit where
  | wrongKind (found : Json) (expected : Expected)
  | missingField (name : String)
  | tooFewItems (present : Nat) (form : Form)
  | tooManyItems (present : Nat)

def Misfit.message : Misfit → String
  | .wrongKind found expected =>
    "invalid type: " ++ found.describe ++ ", expected " ++ expected.phrase
  | .missingField name => "missing field `" ++ name ++ "`"
  | .tooFewItems n f =>
    "invalid length " ++ n.repr ++ ", expected " ++ f.title ++ " with " ++ f.fields.length.repr ++
      " elements"
  | .tooManyItems n => "invalid length " ++ n.repr ++ ", expected fewer elements in array"

namespace Json

def readText : Json → Except Misfit String
  | .text s => .ok s
  | j => .error (.wrongKind j .text)

def readBool : Json → Except Misfit Bool
  | .bool b => .ok b
  | j => .error (.wrongKind j .boolean)

/-- The items from left to right; the first one that does not fit decides. -/
def readList {α : Type} (read : Json → Except Misfit α) : Json → Except Misfit (List α)
  | .array items => items.mapM read
  | j => .error (.wrongKind j .sequence)

def readMember {α : Type} (read : Json → Except Misfit α) (key : String)
    (members : List (String × Json)) : Except Misfit (Option α) :=
  match members.lookup key with
  | none => .ok none
  | some j => (read j).map some

def required {α : Type} (key : String) : Option α → Except Misfit α
  | none => .error (.missingField key)
  | some a => .ok a

/-- Nothing may follow once all fields have been read, `count` of them. -/
def expectEnd (count : Nat) (rest : List Json) : Except Misfit Unit :=
  if rest.isEmpty then .ok () else .error (.tooManyItems (count + rest.length))

end Json
end QualifierConstraints
