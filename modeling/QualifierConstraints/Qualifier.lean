import QualifierConstraints.Text.Quoted

set_option autoImplicit false

namespace QualifierConstraints

open Text (quoted listed)

/-- A name with arguments, such as `@NonNull` or `@KeyFor("map")`. -/
structure Qualifier where
  name : String
  arguments : List String
deriving DecidableEq

namespace Qualifier

def ofName (name : String) : Qualifier := ⟨name, []⟩

def withArguments (q : Qualifier) (arguments : List String) : Qualifier := ⟨q.name, arguments⟩

/-- The name after an at sign, and the arguments, if there are any, each between quotes. -/
def render (q : Qualifier) : String :=
  "@" ++ q.name ++
    if q.arguments.isEmpty then ""
    else listed "(" ")" (q.arguments.map fun a => "\"" ++ a ++ "\"")

/-- The fields spelled out, with every text between quotes. -/
def detail (q : Qualifier) : String :=
  "Qualifier \x7b name: " ++ quoted q.name ++ ", arguments: " ++
    listed "[" "]" (q.arguments.map quoted) ++ " \x7d"

end Qualifier

/-- One lattice of qualifiers, known by its most general qualifier. -/
structure Hierarchy where
  top : Qualifier
deriving DecidableEq

namespace Hierarchy

def render (h : Hierarchy) : String := h.top.render

def detail (h : Hierarchy) : String := "Hierarchy(" ++ h.top.detail ++ ")"

end Hierarchy
end QualifierConstraints
