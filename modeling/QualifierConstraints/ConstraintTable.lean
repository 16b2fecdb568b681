import QualifierConstraints.Request

set_option autoImplicit false

namespace QualifierConstraints

/-- One record for each target that the table was made for, in the order of declaration. -/
structure ConstraintTable where
  records : OrderedMap Target Record
  settings : Settings
deriving DecidableEq

/-- What comes back from a request: whether it was accepted, and the events it caused. -/
structure Receipt where
  result : Except Rejection Unit
  events : List Event

def Receipt.log (r : Receipt) : List LogEntry := r.events.map Event.logEntry

namespace ConstraintTable

/-- Repeated targets count once. -/
def ofTargets (targets : List Target) (settings : Settings) : ConstraintTable :=
  ⟨.ofKeys targets .empty, settings⟩

def targets (m : ConstraintTable) : List Target := m.records.keys

def size (m : ConstraintTable) : Nat := m.records.size

def isEmpty (m : ConstraintTable) : Bool := m.records.isEmpty

def contains (m : ConstraintTable) (t : Target) : Bool := m.records.contains t

def get? (m : ConstraintTable) (t : Target) : Option Record := m.records.get? t

def record (m : ConstraintTable) (t : Target) : Except Rejection Record :=
  match m.get? t with
  | none => .error (.unknownTarget t)
  | some r => .ok r

def submit (m : ConstraintTable) (request : Request) : ConstraintTable × Receipt :=
  match request.accept m.get? m.settings with
  | .error e => (m, ⟨.error e, request.events none⟩)
  | .ok (record, edit) =>
    let edited := edit.apply request.kind record
    (⟨m.records.set request.target edited.1, m.settings⟩, ⟨.ok (), request.events (some edited.2)⟩)

def submitAll (m : ConstraintTable) : List Request → ConstraintTable × List Receipt
  | [] => (m, [])
  | r :: rs =>
    let submitted := m.submit r
    let rest := submitted.1.submitAll rs
    (rest.1, submitted.2 :: rest.2)

def equiv (m n : ConstraintTable) : Bool :=
  m.records.equiv Record.equiv n.records && m.settings == n.settings

def render (m : ConstraintTable) : String :=
  String.intercalate "\n" (m.records.values.map Record.render)

theorem submit_of_accept_error {m : ConstraintTable} {request : Request} {e : Rejection}
    (h : request.accept m.get? m.settings = .error e) :
    m.submit request = (m, ⟨.error e, request.events none⟩) := by
  rw [submit, h]

theorem submit_of_accept_ok {m : ConstraintTable} {request : Request} {record : Record} {edit : Edit}
    (h : request.accept m.get? m.settings = .ok (record, edit)) :
    m.submit request =
      (⟨m.records.set request.target (edit.apply request.kind record).1, m.settings⟩,
        ⟨.ok (), request.events (some (edit.apply request.kind record).2)⟩) := by
  rw [submit, h]

end ConstraintTable
end QualifierConstraints
