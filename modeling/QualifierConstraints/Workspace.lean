import QualifierConstraints.ConstraintTable

/-!
# Workspaces

A workspace keeps constraint tables under names and lets them share records. The records lie in
numbered cells, and a branch is a table that holds, for each of its targets, the number of a cell.
Copying a branch copies the numbers alone. A request that is accepted writes to the cell of its
target if no other branch holds that cell; otherwise the branch first gets a cell of its own, so
that no branch sees what another one records. `table` gives the table that a branch stands for.
-/

set_option autoImplicit false

namespace QualifierConstraints

/-- What can be done with the tables of a workspace. Only a request has a receipt. -/
inductive Step where
  | create (name : String) (targets : List Target) (settings : Settings)
  | copy (name copyName : String)
  | drop (name : String)
  | submit (name : String) (request : Request)

structure Branch where
  cells : OrderedMap Target Nat
  settings : Settings
deriving DecidableEq

structure Workspace where
  cells : Array Record
  branches : OrderedMap String Branch
deriving DecidableEq

namespace Workspace

def empty : Workspace := ⟨#[], .empty⟩

def read (w : Workspace) (t : Target) (cell : Nat) : Record :=
  (w.cells[cell]?).getD (.empty t)

def tableOf (w : Workspace) (b : Branch) : ConstraintTable :=
  ⟨b.cells.mapValues w.read, b.settings⟩

def table (w : Workspace) (name : String) : Option ConstraintTable :=
  (w.branches.get? name).map w.tableOf

/-- How many times branches hold the cell. -/
def holders (w : Workspace) (cell : Nat) : Nat :=
  (w.branches.values.flatMap fun b => b.cells.values).count cell

/-- A new table under `name`, with a fresh cell for each target. A table that had the name is
gone. -/
def create (w : Workspace) (name : String) (targets : List Target) (settings : Settings) :
    Workspace :=
  let ts := OrderedSet.ofList targets
  ⟨w.cells ++ (ts.toList.map Record.empty).toArray,
    w.branches.set name ⟨.numbered ts w.cells.size, settings⟩⟩

/-- The table under `name` gets the second name `copyName` too, and from then on they go apart. -/
def copy (w : Workspace) (name copyName : String) : Workspace :=
  match w.branches.get? name with
  | none => w
  | some b => ⟨w.cells, w.branches.set copyName b⟩

def drop (w : Workspace) (name : String) : Workspace := ⟨w.cells, w.branches.erase name⟩

/-- Writes in place a cell that is held once, and a copy of its own otherwise. -/
def write (w : Workspace) (name : String) (b : Branch) (t : Target) (cell : Nat) (record : Record) :
    Workspace :=
  if w.holders cell ≤ 1 then ⟨w.cells.setIfInBounds cell record, w.branches⟩
  else ⟨w.cells.push record, w.branches.set name ⟨b.cells.set t w.cells.size, b.settings⟩⟩

def submitTo (w : Workspace) (name : String) (b : Branch) (request : Request) :
    Workspace × Receipt :=
  match request.accept b.cells.get? b.settings with
  | .error e => (w, ⟨.error e, request.events none⟩)
  | .ok (cell, edit) =>
    let edited := edit.apply request.kind (w.read request.target cell)
    (w.write name b request.target cell edited.1, ⟨.ok (), request.events (some edited.2)⟩)

/-- There is no receipt where there is no table. -/
def submit (w : Workspace) (name : String) (request : Request) : Workspace × Option Receipt :=
  match w.branches.get? name with
  | none => (w, none)
  | some b =>
    let submitted := w.submitTo name b request
    (submitted.1, some submitted.2)

def perform (w : Workspace) : Step → Workspace × Option Receipt
  | .create name targets settings => (w.create name targets settings, none)
  | .copy name copyName => (w.copy name copyName, none)
  | .drop name => (w.drop name, none)
  | .submit name request => w.submit name request

def run (w : Workspace) : List Step → Workspace × List (Option Receipt)
  | [] => (w, [])
  | s :: ss =>
    let performed := w.perform s
    let rest := performed.1.run ss
    (rest.1, performed.2 :: rest.2)

/-- Both tables know the target and hold the same cell for it. -/
def shares (w : Workspace) (a b : String) (t : Target) : Bool :=
  match (w.branches.get? a).bind (·.cells.get? t), (w.branches.get? b).bind (·.cells.get? t) with
  | some i, some j => i == j
  | _, _ => false

end Workspace
end QualifierConstraints
