import QualifierConstraints.Ordered.Map
import QualifierConstraints.Qualifier

set_option autoImplicit false

namespace QualifierConstraints

open Text (listed)

/-- A target is equal to the other side, a supertype of it, or a subtype of it. -/
inductive Kind where
  | equality
  | supertype
  | subtype
deriving DecidableEq

namespace Kind

def all : List Kind := [.equality, .supertype, .subtype]

def name : Kind → String
  | .equality => "equality"
  | .supertype => "supertype"
  | .subtype => "subtype"

def operator : Kind → String
  | .equality => "=="
  | .supertype => ":>"
  | .subtype => "<:"

end Kind

/-- What became of one qualifier. -/
structure Filing where
  hierarchy : Hierarchy
  qualifier : Qualifier
  kept : Bool
deriving DecidableEq

/-- A way to file qualifiers by hierarchy. -/
class PrimaryStore (P : Type) where
  empty : P
  /-- The store with one more qualifier, and whether the qualifier was kept. -/
  merge : P → Hierarchy → Qualifier → P × Bool
  isEmpty : P → Bool
  /-- Equality without regard to order. -/
  equiv : P → P → Bool
  /-- One phrase for each hierarchy, in order. -/
  phrases : P → List String

/-- Files a list, and tells for each entry what became of it. -/
def PrimaryStore.mergeAll {P : Type} [PrimaryStore P] (p : P) :
    List (Hierarchy × Qualifier) → P × List Filing
  | [] => (p, [])
  | (h, q) :: entries =>
    let merged := PrimaryStore.merge p h q
    let rest := mergeAll merged.1 entries
    (rest.1, ⟨h, q, merged.2⟩ :: rest.2)

/-- An equality is one fact for each hierarchy, so the first qualifier stays and later ones are
discarded. -/
structure PrimaryEqualities where
  byHierarchy : OrderedMap Hierarchy Qualifier
deriving DecidableEq

namespace PrimaryEqualities

def get? (p : PrimaryEqualities) (h : Hierarchy) : Option Qualifier := p.byHierarchy.get? h

instance : PrimaryStore PrimaryEqualities where
  empty := ⟨.empty⟩
  merge p h q := (⟨p.byHierarchy.insertNew h q⟩, !p.byHierarchy.contains h)
  isEmpty p := p.byHierarchy.isEmpty
  equiv p r := p.byHierarchy.equiv (· == ·) r.byHierarchy
  phrases p := p.byHierarchy.entries.map fun e =>
    "primary " ++ e.2.render ++ " in " ++ e.1.render

end PrimaryEqualities

/-- Bounds are combined later on, so all of them are kept, each once. -/
structure PrimaryBounds where
  byHierarchy : OrderedMap Hierarchy (OrderedSet Qualifier)
deriving DecidableEq

namespace PrimaryBounds

def get? (p : PrimaryBounds) (h : Hierarchy) : Option (OrderedSet Qualifier) :=
  p.byHierarchy.get? h

instance : PrimaryStore PrimaryBounds where
  empty := ⟨.empty⟩
  merge p h q := (⟨p.byHierarchy.upsert h .empty (·.insert q)⟩, true)
  isEmpty p := p.byHierarchy.isEmpty
  equiv p r := p.byHierarchy.equiv OrderedSet.equiv r.byHierarchy
  phrases p := p.byHierarchy.entries.map fun e =>
    "primary " ++ listed "\x7b" "\x7d" (e.2.toList.map Qualifier.render) ++ " in " ++ e.1.render

end PrimaryBounds

abbrev Kind.Primaries : Kind → Type
  | .equality => PrimaryEqualities
  | .supertype => PrimaryBounds
  | .subtype => PrimaryBounds

instance (k : Kind) : PrimaryStore k.Primaries :=
  match k with
  | .equality => inferInstanceAs (PrimaryStore PrimaryEqualities)
  | .supertype => inferInstanceAs (PrimaryStore PrimaryBounds)
  | .subtype => inferInstanceAs (PrimaryStore PrimaryBounds)

instance (k : Kind) : DecidableEq k.Primaries :=
  match k with
  | .equality => inferInstanceAs (DecidableEq PrimaryEqualities)
  | .supertype => inferInstanceAs (DecidableEq PrimaryBounds)
  | .subtype => inferInstanceAs (DecidableEq PrimaryBounds)

end QualifierConstraints
