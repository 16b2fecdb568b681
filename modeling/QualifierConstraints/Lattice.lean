import QualifierConstraints.Ordered.Map
import QualifierConstraints.Qualifier

set_option autoImplicit false

namespace QualifierConstraints

/-- Which hierarchy a qualifier belongs to. Nothing is asked of the answers: a resolver may name a
hierarchy whose own top it places elsewhere, or one that it does not list. -/
structure Resolver where
  topOf : Qualifier → Option Hierarchy
  hierarchies : OrderedSet Hierarchy

def Resolver.isHome (r : Resolver) (h : Hierarchy) : Bool := r.topOf h.top == some h

/-- The hierarchies registered so far. A qualifier is looked up by its name; its arguments play no
part in that, but they do tell two tops apart. -/
structure Lattice where
  byName : OrderedMap String Hierarchy
  hierarchies : OrderedSet Hierarchy
deriving DecidableEq

namespace Lattice

def empty : Lattice := ⟨.empty, .empty⟩

/-- Names that are new point to `h`; the others stay as they are. -/
def enterNames (names : OrderedMap String Hierarchy) (h : Hierarchy) (members : List Qualifier) :
    OrderedMap String Hierarchy :=
  members.foldl (fun names q => names.insertNew q.name h) names

/-- The hierarchy of `top` is listed, and its top comes first among its members. -/
def register (l : Lattice) (top : Qualifier) (members : List Qualifier) : Lattice :=
  ⟨enterNames l.byName ⟨top⟩ (top :: members), l.hierarchies.insert ⟨top⟩⟩

def add (l : Lattice) (top : Qualifier) (members : List Qualifier) : Lattice × Hierarchy :=
  (l.register top members, ⟨top⟩)

def topOf (l : Lattice) (q : Qualifier) : Option Hierarchy := l.byName.get? q.name

def resolver (l : Lattice) : Resolver := ⟨l.topOf, l.hierarchies⟩

end Lattice
end QualifierConstraints
