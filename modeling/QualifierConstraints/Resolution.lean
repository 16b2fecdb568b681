import QualifierConstraints.Types

set_option autoImplicit false

namespace QualifierConstraints

/-- With `validateHierarchies`, a qualifier is refused when the hierarchy it resolves to does not
contain its own top. -/
structure Settings where
  validateHierarchies : Bool
deriving DecidableEq

namespace Settings

def standard : Settings := ⟨false⟩

def withValidation (_ : Settings) (validate : Bool) : Settings := ⟨validate⟩

end Settings

/-- Why a request is refused: it names a target that nobody declared, a qualifier that no hierarchy
holds, or a qualifier whose hierarchy is not at home in its own lattice. -/
inductive Rejection where
  | unknownTarget (target : Target)
  | unknownQualifier (qualifier : Qualifier)
  | hierarchyMismatch (qualifier : Qualifier) (hierarchy : Hierarchy)
deriving DecidableEq

def Rejection.message : Rejection → String
  | .unknownTarget t => "`" ++ t.render ++ "` is not one of the targets being inferred"
  | .unknownQualifier q => "qualifier `" ++ q.render ++ "` does not belong to any known hierarchy"
  | .hierarchyMismatch q h =>
    "qualifier `" ++ q.render ++ "` resolved to hierarchy `" ++ h.render ++
      "`, which is not the top of its own hierarchy"

namespace Resolver

/-- The hierarchy to file `q` under, which must be at home if the settings ask for it. -/
def resolve (r : Resolver) (settings : Settings) (q : Qualifier) : Except Rejection Hierarchy :=
  match r.topOf q with
  | none => .error (.unknownQualifier q)
  | some h =>
    if settings.validateHierarchies && !r.isHome h then .error (.hierarchyMismatch q h) else .ok h

/-- The first qualifier that cannot be resolved decides the rejection. -/
def resolveAll (r : Resolver) (settings : Settings) :
    List Qualifier → Except Rejection (List (Hierarchy × Qualifier))
  | [] => .ok []
  | q :: qs =>
    match r.resolve settings q with
    | .error e => .error e
    | .ok h => (r.resolveAll settings qs).map ((h, q) :: ·)

end Resolver
end QualifierConstraints
