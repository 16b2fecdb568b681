import QualifierConstraints.Workspace

set_option autoImplicit false

namespace QualifierConstraints

/-- A store that keeps a whole table under each name. Copying a table copies all of its records, so
nothing is ever shared, and a request changes the one table it is submitted to. -/
structure TableStore where
  tables : OrderedMap String ConstraintTable
deriving DecidableEq

namespace TableStore

def empty : TableStore := ⟨.empty⟩

def create (s : TableStore) (name : String) (targets : List Target) (settings : Settings) :
    TableStore :=
  ⟨s.tables.set name (.ofTargets targets settings)⟩

def copy (s : TableStore) (name copyName : String) : TableStore :=
  match s.tables.get? name with
  | none => s
  | some m => ⟨s.tables.set copyName m⟩

def drop (s : TableStore) (name : String) : TableStore := ⟨s.tables.erase name⟩

def submit (s : TableStore) (name : String) (request : Request) : TableStore × Option Receipt :=
  match s.tables.get? name with
  | none => (s, none)
  | some m =>
    let submitted := m.submit request
    (⟨s.tables.set name submitted.1⟩, some submitted.2)

def perform (s : TableStore) : Step → TableStore × Option Receipt
  | .create name targets settings => (s.create name targets settings, none)
  | .copy name copyName => (s.copy name copyName, none)
  | .drop name => (s.drop name, none)
  | .submit name request => s.submit name request

def run (s : TableStore) : List Step → TableStore × List (Option Receipt)
  | [] => (s, [])
  | t :: ts =>
    let performed := s.perform t
    let rest := performed.1.run ts
    (rest.1, performed.2 :: rest.2)

end TableStore

/-- The store that a workspace stands for. -/
def Workspace.tables (w : Workspace) : TableStore := ⟨w.branches.mapValues fun _ b => w.tableOf b⟩

end QualifierConstraints
