import QualifierConstraints.Lattice

set_option autoImplicit false

namespace QualifierConstraints

open Text (listed)

/-- A type parameter whose qualifiers are being inferred. The declaration that binds it belongs to
it, since its name alone does not tell it apart. -/
structure Target where
  name : String
  binding : String
deriving DecidableEq

namespace Target

def render (t : Target) : String := t.name ++ "@" ++ t.binding

end Target

/-- A type as it is written: a name, type arguments, and the qualifiers that stand directly before
it. -/
structure AnnotatedType where
  name : String
  arguments : List AnnotatedType
  qualifiers : List Qualifier

namespace AnnotatedType

mutual
def decideEq : (a b : AnnotatedType) → Decidable (a = b)
  | ⟨n, as, qs⟩, ⟨m, bs, rs⟩ =>
    match decideEqAll as bs with
    | .isTrue h =>
      if h' : n = m ∧ qs = rs then .isTrue (by rw [h, h'.1, h'.2])
      else .isFalse fun e => h' (by injection e; constructor <;> assumption)
    | .isFalse h => .isFalse fun e => h (by injection e)

def decideEqAll : (as bs : List AnnotatedType) → Decidable (as = bs)
  | [], [] => .isTrue rfl
  | [], _ :: _ => .isFalse (by simp)
  | _ :: _, [] => .isFalse (by simp)
  | a :: as, b :: bs =>
    match decideEq a b, decideEqAll as bs with
    | .isTrue h, .isTrue h' => .isTrue (by rw [h, h'])
    | .isFalse h, _ => .isFalse fun e => h (by injection e)
    | _, .isFalse h => .isFalse fun e => h (by injection e)
end

instance : DecidableEq AnnotatedType := decideEq

mutual
/-- Each qualifier with a blank after it, the name, and the arguments, if there are any. -/
def render : AnnotatedType → String
  | ⟨name, arguments, qualifiers⟩ =>
    String.join (qualifiers.map fun q => q.render ++ " ") ++ name ++
      match arguments with
      | [] => ""
      | a :: as => listed "<" ">" (render a :: renderAll as)

def renderAll : List AnnotatedType → List String
  | [] => []
  | t :: ts => render t :: renderAll ts
end

/-- The first qualifier of the type itself that resolves to `h`. -/
def primaryQualifier (t : AnnotatedType) (h : Hierarchy) (r : Resolver) : Option Qualifier :=
  t.qualifiers.find? fun q => r.topOf q == some h

theorem renderAll_eq_map (ts : List AnnotatedType) : renderAll ts = ts.map render := by
  induction ts with
  | nil => rw [renderAll, List.map_nil]
  | cons t ts ih => rw [renderAll, List.map_cons, ih]

end AnnotatedType
end QualifierConstraints
