import QualifierConstraints.Event
import QualifierConstraints.Record
import QualifierConstraints.Resolution

set_option autoImplicit false

namespace QualifierConstraints

/-- Asks for one relation of a target to be recorded. -/
inductive Request where
  | relateTarget (kind : Kind) (target other : Target) (hierarchies : List Hierarchy)
  | relateType (kind : Kind) (target : Target) (type : AnnotatedType)
      (hierarchies : List Hierarchy)
  | filePrimaries (kind : Kind) (target : Target) (resolver : Resolver)
      (qualifiers : List Qualifier)

/-- What an accepted request amounts to. An edit cannot fail, so a rejected request changes nothing.
-/
inductive Edit where
  | relateTarget (other : Target) (hierarchies : OrderedSet Hierarchy)
  | relateType (type : AnnotatedType) (hierarchies : OrderedSet Hierarchy)
  | filePrimaries (entries : List (Hierarchy × Qualifier))
deriving DecidableEq

namespace Request

def kind : Request → Kind
  | .relateTarget k .. => k
  | .relateType k .. => k
  | .filePrimaries k .. => k

def target : Request → Target
  | .relateTarget _ t .. => t
  | .relateType _ t .. => t
  | .filePrimaries _ t .. => t

def edit (declared : Target → Bool) (settings : Settings) : Request → Except Rejection Edit
  | .relateTarget _ _ other hs =>
    if declared other then .ok (.relateTarget other (.ofList hs)) else .error (.unknownTarget other)
  | .relateType _ _ type hs => .ok (.relateType type (.ofList hs))
  | .filePrimaries _ _ r qs => (r.resolveAll settings qs).map .filePrimaries

/-- What `find` gives for the target of the request, with the edit to be made there. The target is
looked up before anything else that the request names. -/
def accept {α : Type} (find : Target → Option α) (settings : Settings) (request : Request) :
    Except Rejection (α × Edit) :=
  match find request.target with
  | none => .error (.unknownTarget request.target)
  | some found => (request.edit (fun t => (find t).isSome) settings).map (found, ·)

/-- The events of a request, given what became of its qualifiers if it was accepted. A relation to
a type is told even if it is rejected. -/
def events (request : Request) (filings : Option (List Filing)) : List Event :=
  match request, filings with
  | .relateTarget k t other hs, some _ => [.targetRelated k t other (.ofList hs)]
  | .relateTarget .., none => []
  | .relateType k t type hs, _ => [.typeRelated k t type (.ofList hs)]
  | .filePrimaries k t .., some fs => fs.map (.ofFiling k t)
  | .filePrimaries .., none => []

end Request

def Relations.edit {P : Type} [PrimaryStore P] (r : Relations P) : Edit → Relations P × List Filing
  | .relateTarget other hs => (r.relateTarget other hs, [])
  | .relateType type hs => (r.relateType type hs, [])
  | .filePrimaries entries => r.filePrimaries entries

def Edit.apply (k : Kind) (record : Record) (e : Edit) : Record × List Filing :=
  let edited := (record.relations k).edit e
  (record.withRelations k edited.1, edited.2)

theorem Edit.target_apply (k : Kind) (record : Record) (e : Edit) :
    (e.apply k record).1.target = record.target :=
  Record.target_withRelations record k _

theorem Edit.relations_apply_self (k : Kind) (record : Record) (e : Edit) :
    (e.apply k record).1.relations k = ((record.relations k).edit e).1 :=
  Record.relations_withRelations_self record k _

theorem Edit.relations_apply_of_ne {k j : Kind} (h : j ≠ k) (record : Record) (e : Edit) :
    (e.apply k record).1.relations j = record.relations j :=
  Record.relations_withRelations_of_ne record h _

end QualifierConstraints
