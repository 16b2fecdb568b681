import QualifierConstraints.Lattice

set_option autoImplicit false

namespace QualifierConstraints

/-- Every qualifier of a name, or one qualifier only. -/
inductive QualifierPattern where
  | named (name : String)
  | exactly (qualifier : Qualifier)
deriving DecidableEq

def QualifierPattern.covers : QualifierPattern → Qualifier → Bool
  | .named name, q => q.name == name
  | .exactly r, q => q == r

structure Rule where
  pattern : QualifierPattern
  top : Option Hierarchy
deriving DecidableEq

/-- A resolver written out as a list of rules, the first applicable one of which decides. Such a
table can give answers that no lattice gives. -/
structure RuleTable where
  rules : List Rule
deriving DecidableEq

namespace RuleTable

def topOf (t : RuleTable) (q : Qualifier) : Option Hierarchy :=
  (t.rules.find? fun r => r.pattern.covers q).bind Rule.top

def hierarchies (t : RuleTable) : OrderedSet Hierarchy := .ofList (t.rules.filterMap Rule.top)

def resolver (t : RuleTable) : Resolver := ⟨t.topOf, t.hierarchies⟩

end RuleTable
end QualifierConstraints
