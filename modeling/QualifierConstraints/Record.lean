import QualifierConstraints.Primaries
import QualifierConstraints.Types

set_option autoImplicit false

namespace QualifierConstraints

open Text (listed)

/-- All that one target is related to in one way: other targets and annotated types, each with the
hierarchies in which the relation holds, and primaries. -/
structure Relations (P : Type) where
  targets : OrderedMap Target (OrderedSet Hierarchy)
  types : OrderedMap AnnotatedType (OrderedSet Hierarchy)
  primaries : P
deriving DecidableEq

namespace Relations

variable {P : Type}

def relateTarget (r : Relations P) (other : Target) (hierarchies : OrderedSet Hierarchy) :
    Relations P :=
  { r with targets := r.targets.unionAt other hierarchies }

def relateType (r : Relations P) (type : AnnotatedType) (hierarchies : OrderedSet Hierarchy) :
    Relations P :=
  { r with types := r.types.unionAt type hierarchies }

variable [PrimaryStore P]

def empty : Relations P := ⟨.empty, .empty, PrimaryStore.empty⟩

def isEmpty (r : Relations P) : Bool :=
  r.targets.isEmpty && r.types.isEmpty && PrimaryStore.isEmpty r.primaries

def filePrimaries (r : Relations P) (entries : List (Hierarchy × Qualifier)) :
    Relations P × List Filing :=
  let filed := PrimaryStore.mergeAll r.primaries entries
  ({ r with primaries := filed.1 }, filed.2)

/-- Equality without regard to order, at every level. -/
def equiv (r s : Relations P) : Bool :=
  r.targets.equiv OrderedSet.equiv s.targets && r.types.equiv OrderedSet.equiv s.types &&
    PrimaryStore.equiv r.primaries s.primaries

def hierarchiesPhrase (hs : OrderedSet Hierarchy) : String :=
  listed "\x7b" "\x7d" (hs.toList.map Hierarchy.render)

/-- One phrase for each target, each type and each hierarchy with primaries, in this order. -/
def phrases (r : Relations P) : List String :=
  r.targets.entries.map (fun e => e.1.render ++ " in " ++ hierarchiesPhrase e.2) ++
    r.types.entries.map (fun e => e.1.render ++ " in " ++ hierarchiesPhrase e.2) ++
    PrimaryStore.phrases r.primaries

end Relations

/-- The relations of one target, of each kind. -/
structure Record where
  target : Target
  equalities : Relations PrimaryEqualities
  supertypes : Relations PrimaryBounds
  subtypes : Relations PrimaryBounds
deriving DecidableEq

namespace Record

def empty (target : Target) : Record := ⟨target, .empty, .empty, .empty⟩

def isEmpty (r : Record) : Bool :=
  r.equalities.isEmpty && r.supertypes.isEmpty && r.subtypes.isEmpty

def relations (r : Record) : (k : Kind) → Relations k.Primaries
  | .equality => r.equalities
  | .supertype => r.supertypes
  | .subtype => r.subtypes

def withRelations (r : Record) : (k : Kind) → Relations k.Primaries → Record
  | .equality, s => { r with equalities := s }
  | .supertype, s => { r with supertypes := s }
  | .subtype, s => { r with subtypes := s }

/-- Equality without regard to order, at every level. -/
def equiv (r s : Record) : Bool :=
  r.target == s.target && r.equalities.equiv s.equalities && r.supertypes.equiv s.supertypes &&
    r.subtypes.equiv s.subtypes

def render (r : Record) : String :=
  r.target.render ++
    if r.isEmpty then "\n  (unconstrained)"
    else String.join (Kind.all.flatMap fun k =>
      (r.relations k).phrases.map fun phrase => "\n  " ++ k.operator ++ " " ++ phrase)

theorem relations_withRelations_self (r : Record) (k : Kind) (s : Relations k.Primaries) :
    (r.withRelations k s).relations k = s := by
  cases k <;> rfl

theorem relations_withRelations_of_ne (r : Record) {k j : Kind} (h : j ≠ k)
    (s : Relations k.Primaries) : (r.withRelations k s).relations j = r.relations j := by
  cases k <;> cases j <;> first | rfl | exact absurd rfl h

theorem target_withRelations (r : Record) (k : Kind) (s : Relations k.Primaries) :
    (r.withRelations k s).target = r.target := by
  cases k <;> rfl

end Record
end QualifierConstraints
