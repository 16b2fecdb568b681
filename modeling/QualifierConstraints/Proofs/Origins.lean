import QualifierConstraints.Proofs.SeparateTables
import QualifierConstraints.Proofs.Verdicts

set_option autoImplicit false

namespace QualifierConstraints

/-- What a table is made for. -/
structure Declaration where
  targets : List Target
  settings : Settings

/-- The declaration that the table under `name` goes back to. The steps come latest first; a copy
takes over the declaration of its source, and there is none where there is no table. -/
def origin : List Step → String → Option Declaration
  | [], _ => none
  | step :: earlier, name =>
    match step with
    | .create made targets settings =>
      if name = made then some ⟨targets, settings⟩ else origin earlier name
    | .copy source copyName =>
      if name = copyName then (origin earlier source).or (origin earlier name)
      else origin earlier name
    | .drop dropped => if name = dropped then none else origin earlier name
    | .submit .. => origin earlier name

/-- A history of requests that pass under the declaration has led to the table. -/
def ConstraintTable.GoesBackTo (m : ConstraintTable) (d : Declaration) : Prop :=
  ∃ history, (∀ request ∈ history, request.passes d.targets d.settings = true) ∧
    m = .ofHistory d.targets d.settings history

theorem ConstraintTable.goesBackTo_ofTargets (targets : List Target) (settings : Settings) :
    (ofTargets targets settings).GoesBackTo ⟨targets, settings⟩ :=
  ⟨[], by simp, ofTargets_eq_ofHistory targets settings⟩

theorem ConstraintTable.GoesBackTo.submit {m : ConstraintTable} {d : Declaration}
    (h : m.GoesBackTo d) (request : Request) : (m.submit request).1.GoesBackTo d := by
  obtain ⟨history, hpass, rfl⟩ := h
  rw [submit_ofHistory, result_submit_ofHistory]
  exact ⟨_, fun _ hr => Request.passes_of_mem_append hpass hr, rfl⟩

theorem ConstraintTable.GoesBackTo.submitAll {m : ConstraintTable} {d : Declaration}
    (h : m.GoesBackTo d) (requests : List Request) : (m.submitAll requests).1.GoesBackTo d := by
  induction requests generalizing m with
  | nil => exact h
  | cons request requests ih => exact ih (h.submit request)

namespace TableStore

/-- There is a table exactly where there is an origin, and it goes back to it. -/
def FollowsOrigins (s : TableStore) (steps : List Step) : Prop :=
  ∀ name, Option.Rel ConstraintTable.GoesBackTo (s.tables.get? name) (origin steps name)

variable {s : TableStore} {steps : List Step}

theorem followsOrigins_empty : empty.FollowsOrigins [] := fun _ => .none

theorem FollowsOrigins.create (h : s.FollowsOrigins steps) (made : String) (targets : List Target)
    (settings : Settings) :
    (s.create made targets settings).FollowsOrigins (.create made targets settings :: steps) := by
  intro name
  rw [TableStore.create, OrderedMap.get?_set, origin]
  split_ifs
  · exact .some (ConstraintTable.goesBackTo_ofTargets targets settings)
  · exact h name

theorem FollowsOrigins.copy (h : s.FollowsOrigins steps) (source copyName : String) :
    (s.copy source copyName).FollowsOrigins (.copy source copyName :: steps) := by
  intro name
  have hsource := h source
  rw [TableStore.copy, origin]
  generalize origin steps source = o at hsource
  cases hm : s.tables.get? source with
  | none =>
    -- There is nothing to copy, so a table that has the name already stays.
    rw [hm] at hsource
    cases hsource
    rw [Option.none_or, ite_self]
    exact h name
  | some m =>
    rw [hm] at hsource
    cases hsource with
    | some hd =>
      rw [OrderedMap.get?_set, Option.some_or]
      split_ifs
      · exact .some hd
      · exact h name

theorem FollowsOrigins.drop (h : s.FollowsOrigins steps) (dropped : String) :
    (s.drop dropped).FollowsOrigins (.drop dropped :: steps) := by
  intro name
  rw [TableStore.drop, OrderedMap.get?_erase, origin]
  split_ifs
  · exact .none
  · exact h name

theorem FollowsOrigins.submit (h : s.FollowsOrigins steps) (writer : String) (request : Request) :
    (s.submit writer request).1.FollowsOrigins (.submit writer request :: steps) := by
  intro name
  rw [origin]
  cases hm : s.tables.get? writer with
  | none =>
    rw [TableStore.submit, hm]
    exact h name
  | some m =>
    rw [submit_of_table hm, OrderedMap.get?_set]
    split_ifs with hn
    · subst hn
      have hname := h name
      rw [hm] at hname
      generalize origin steps name = o at hname
      cases hname with
      | some hd => exact .some (hd.submit request)
    · exact h name

theorem FollowsOrigins.perform (h : s.FollowsOrigins steps) (step : Step) :
    (s.perform step).1.FollowsOrigins (step :: steps) := by
  cases step with
  | create made targets settings => exact h.create made targets settings
  | copy source copyName => exact h.copy source copyName
  | drop dropped => exact h.drop dropped
  | submit writer request => exact h.submit writer request

theorem FollowsOrigins.run (h : s.FollowsOrigins steps) (more : List Step) :
    (s.run more).1.FollowsOrigins (more.reverse ++ steps) := by
  induction more generalizing s steps with
  | nil => exact h
  | cons step more ih =>
    rw [List.reverse_cons, List.append_assoc]
    exact ih (h.perform step)

end TableStore

/-- A table is there exactly if its name has an origin, and then it goes back to it. -/
theorem Workspace.table_goesBackTo (steps : List Step) (name : String) :
    Option.Rel ConstraintTable.GoesBackTo ((empty.run steps).1.table name)
      (origin steps.reverse name) := by
  have h := TableStore.followsOrigins_empty.run steps name
  have hrun : TableStore.empty.run steps = ((empty.run steps).1.tables, (empty.run steps).2) :=
    tables_run wellFormed_empty steps
  rw [hrun, List.append_nil] at h
  rwa [table_eq_get?_tables]

theorem Workspace.exists_origin_of_table {steps : List Step} {name : String} {m : ConstraintTable}
    (h : (empty.run steps).1.table name = some m) :
    ∃ d, origin steps.reverse name = some d ∧ m.GoesBackTo d := by
  have hrel := table_goesBackTo steps name
  rw [h] at hrel
  generalize origin steps.reverse name = declared at hrel ⊢
  cases hrel with
  | some hback => exact ⟨_, rfl, hback⟩

end QualifierConstraints
