import QualifierConstraints.Proofs.Cells
import QualifierConstraints.Proofs.FirstOccurrence
import QualifierConstraints.TableStore

/-!
# Shared records behave as copies

`Workspace.tables` reads a workspace, whose branches share records, as a store that keeps a whole
table under each name and shares nothing. Every step passes through this reading, so a run on
shared records and a run on separate tables give the same receipts and the same tables, and no
step is seen under a name that it is not about.
-/

set_option autoImplicit false

namespace QualifierConstraints

/-- The name under which a step may change a table. -/
def Step.slot : Step → String
  | .create name _ _ => name
  | .copy _ copyName => copyName
  | .drop name => name
  | .submit name _ => name

namespace Workspace

variable {w : Workspace} {name : String} {b : Branch}

theorem table_eq_get?_tables (w : Workspace) (name : String) :
    w.table name = w.tables.tables.get? name :=
  (OrderedMap.get?_mapValues (fun _ b => w.tableOf b) w.branches name).symm

theorem tables_eq_mapValues (w : Workspace) :
    w.tables = ⟨w.branches.mapValues fun _ b => w.tableOf b⟩ := rfl

theorem tableOf_congr {cells cells' : Array Record} {branches branches' : OrderedMap String Branch}
    (h : ∀ cell ∈ b.cells.values, cells'[cell]? = cells[cell]?) :
    (Workspace.mk cells' branches').tableOf b = (Workspace.mk cells branches).tableOf b := by
  refine congrArg (ConstraintTable.mk · b.settings) (OrderedMap.mapValues_congr fun e he => ?_)
  rw [read, read, h e.2 (List.mem_map_of_mem he)]

/-- A branch that is put under a name, with cells added at most, is one table replaced. -/
theorem tables_set_branch (h : w.WellFormed) {cells : Array Record} {m : ConstraintTable}
    (hcells : ∀ cell < w.cells.size, cells[cell]? = w.cells[cell]?)
    (hb : (Workspace.mk cells w.branches).tableOf b = m) :
    (Workspace.mk cells (w.branches.set name b)).tables = ⟨w.tables.tables.set name m⟩ := by
  have hold : (w.branches.mapValues fun _ c => (Workspace.mk cells w.branches).tableOf c) =
      w.branches.mapValues fun _ c => w.tableOf c := by
    refine OrderedMap.mapValues_congr fun e he => tableOf_congr fun cell hc => ?_
    exact hcells cell (h e.2 (List.mem_map_of_mem he) cell hc)
  rw [tables_eq_mapValues, OrderedMap.set_mapValues]
  rw [tables_eq_mapValues, ← hb, ← hold]
  rfl

theorem tableOf_numbered (cells : Array Record) (ts : OrderedSet Target) (settings : Settings)
    (branches : OrderedMap String Branch) :
    (Workspace.mk (cells ++ (ts.toList.map Record.empty).toArray) branches).tableOf
        ⟨.numbered ts cells.size, settings⟩ =
      ⟨.tabulate ts .empty, settings⟩ := by
  refine congrArg (ConstraintTable.mk · settings) (OrderedMap.ext ?_)
  have hread : ∀ e ∈ ts.toList.zipIdx cells.size,
      (Workspace.mk (cells ++ (ts.toList.map Record.empty).toArray) branches).read e.1 e.2 =
        .empty e.1 := by
    intro e he
    obtain ⟨hle, hget⟩ := List.mk_mem_zipIdx_iff_le_and_getElem?_sub.1 he
    rw [read, Array.getElem?_append_right hle]
    simp [hget]
  calc
    _ = (ts.toList.zipIdx cells.size).map fun e => (e.1, Record.empty e.1) :=
      List.map_congr_left fun e he => by rw [hread e he]
    _ = ((ts.toList.zipIdx cells.size).map Prod.fst).map fun t => (t, Record.empty t) := by
      rw [List.map_map]
      rfl
    _ = ts.toList.map fun t => (t, Record.empty t) := by rw [List.zipIdx_map_fst]

theorem tables_create (h : w.WellFormed) (name : String) (targets : List Target)
    (settings : Settings) :
    (w.create name targets settings).tables = w.tables.create name targets settings := by
  refine tables_set_branch h (fun cell hc => Array.getElem?_append_left hc) ?_
  rw [tableOf_numbered, ConstraintTable.ofTargets, OrderedMap.ofKeys_eq_tabulate,
    OrderedSet.withoutRepeats_eq_ofList]

theorem tables_copy (h : w.WellFormed) (name copyName : String) :
    (w.copy name copyName).tables = w.tables.copy name copyName := by
  rw [TableStore.copy, ← table_eq_get?_tables, table, copy]
  cases w.branches.get? name with
  | none => rfl
  | some b => exact tables_set_branch h (fun _ _ => rfl) rfl

theorem tables_drop (w : Workspace) (name : String) :
    (w.drop name).tables = w.tables.drop name := by
  rw [tables_eq_mapValues]
  exact congrArg TableStore.mk (OrderedMap.erase_mapValues (fun _ b => w.tableOf b) _ _)

theorem tables_write_in_place (h : w.WellFormed) (hb : w.branches.get? name = some b) {t : Target}
    {cell : Nat} (hc : b.cells.get? t = some cell) (hn : w.holders cell ≤ 1) (record : Record) :
    (Workspace.mk (w.cells.setIfInBounds cell record) w.branches).tables =
      ⟨w.tables.tables.set name ⟨(w.tableOf b).records.set t record, b.settings⟩⟩ := by
  have hbm := OrderedMap.mem_entries_of_get? hb
  have hheld : ((name, t), cell) ∈ w.holdings :=
    mem_holdings_of_mem hbm (OrderedMap.mem_entries_of_get? hc)
  have hother : ∀ cell' ≠ cell, ((w.cells.setIfInBounds cell record)[cell']?) = w.cells[cell']? :=
    fun cell' hne => Array.getElem?_setIfInBounds_ne (Ne.symm hne)
  have hself : (Workspace.mk (w.cells.setIfInBounds cell record) w.branches).read t cell =
      record := by
    rw [read, Array.getElem?_setIfInBounds_self_of_lt ((h.branch hb).lt_of_get? hc)]
    rfl
  have hown : (Workspace.mk (w.cells.setIfInBounds cell record) w.branches).tableOf b =
      ⟨(w.tableOf b).records.set t record, b.settings⟩ := by
    refine congrArg (ConstraintTable.mk · b.settings) ?_
    refine (OrderedMap.mapValues_eq_set (f := w.read) hc ?_).trans ?_
    · intro d hd hne
      rw [read, read, hother d.2 (ne_of_holders_le_one hn hheld hbm hd fun he =>
        hne (congrArg Prod.snd he))]
    · rw [hself]
      rfl
  rw [tables_eq_mapValues, tables_eq_mapValues, ← hown]
  refine congrArg TableStore.mk
    (OrderedMap.mapValues_eq_set (f := fun _ c => w.tableOf c) hb fun e he hne => ?_)
  refine tableOf_congr fun cell' hc' => hother cell' ?_
  obtain ⟨d, hd, rfl⟩ := List.mem_map.1 hc'
  exact ne_of_holders_le_one hn hheld he hd fun heq => hne (congrArg Prod.fst heq)

/-- A write to a new cell, which `name` then holds for `t`, changes that one record too. -/
theorem tables_write_to_new_cell (h : w.WellFormed) (hb : w.branches.get? name = some b)
    (t : Target) (record : Record) :
    (Workspace.mk (w.cells.push record)
        (w.branches.set name ⟨b.cells.set t w.cells.size, b.settings⟩)).tables =
      ⟨w.tables.tables.set name ⟨(w.tableOf b).records.set t record, b.settings⟩⟩ := by
  have hcells : ∀ cell < w.cells.size, (w.cells.push record)[cell]? = w.cells[cell]? := by
    intro cell hc
    rw [Array.getElem?_push, if_neg (Nat.ne_of_lt hc)]
  have hself : (Workspace.mk (w.cells.push record) w.branches).read t w.cells.size = record := by
    rw [read, Array.getElem?_push_size]
    rfl
  have hold : (Workspace.mk (w.cells.push record) w.branches).tableOf b = w.tableOf b :=
    tableOf_congr fun cell hc => hcells cell (h.branch hb cell hc)
  refine tables_set_branch h hcells ?_
  rw [← hold]
  refine congrArg (ConstraintTable.mk · b.settings) ?_
  refine (OrderedMap.set_mapValues
    (Workspace.mk (w.cells.push record) w.branches).read _ _ _).trans ?_
  rw [hself]
  rfl

theorem tables_write (h : w.WellFormed) (hb : w.branches.get? name = some b) {t : Target}
    {cell : Nat} (hc : b.cells.get? t = some cell) (record : Record) :
    (w.write name b t cell record).tables =
      ⟨w.tables.tables.set name ⟨(w.tableOf b).records.set t record, b.settings⟩⟩ := by
  by_cases hn : w.holders cell ≤ 1
  · rw [write_of_held_once hn]
    exact tables_write_in_place h hb hc hn record
  · rw [write_of_shared hn]
    exact tables_write_to_new_cell h hb t record

theorem get?_tableOf (w : Workspace) (b : Branch) (t : Target) :
    (w.tableOf b).get? t = (b.cells.get? t).map (w.read t) :=
  OrderedMap.get?_mapValues w.read b.cells t

theorem accept_tableOf (w : Workspace) (b : Branch) (request : Request) :
    request.accept (w.tableOf b).get? (w.tableOf b).settings =
      (request.accept b.cells.get? b.settings).map
        fun p => (w.read request.target p.1, p.2) := by
  have hfind : (w.tableOf b).get? = fun t => (b.cells.get? t).map (w.read t) :=
    funext (w.get?_tableOf b)
  rw [hfind]
  exact Request.accept_map w.read

end Workspace

theorem TableStore.submit_of_table {s : TableStore} {name : String} {m : ConstraintTable}
    (h : s.tables.get? name = some m) (request : Request) :
    s.submit name request =
      (⟨s.tables.set name (m.submit request).1⟩, some (m.submit request).2) := by
  rw [submit, h]

namespace Workspace

variable {w : Workspace}

theorem tables_submit (h : w.WellFormed) (name : String) (request : Request) :
    w.tables.submit name request =
      ((w.submit name request).1.tables, (w.submit name request).2) := by
  have htable := w.table_eq_get?_tables name
  cases hb : w.branches.get? name with
  | none =>
    rw [table, hb] at htable
    rw [submit_of_no_branch hb, TableStore.submit, ← htable]
    rfl
  | some b =>
    rw [table, hb] at htable
    rw [TableStore.submit_of_table htable.symm]
    have haccept := w.accept_tableOf b request
    cases ha : request.accept b.cells.get? b.settings with
    | error e =>
      rw [ha] at haccept
      rw [submit_of_accept_error hb ha, ConstraintTable.submit_of_accept_error haccept,
        OrderedMap.set_eq_self htable.symm]
    | ok found =>
      obtain ⟨cell, edit⟩ := found
      rw [ha] at haccept
      have hcell : b.cells.get? request.target = some cell := (Request.accept_eq_ok_iff.1 ha).1
      rw [submit_of_accept_ok hb ha, ConstraintTable.submit_of_accept_ok haccept,
        tables_write h hb hcell]
      rfl

theorem tables_perform (h : w.WellFormed) (s : Step) :
    w.tables.perform s = ((w.perform s).1.tables, (w.perform s).2) := by
  cases s with
  | create name targets settings =>
    exact congrArg (·, none) (tables_create h name targets settings).symm
  | copy name copyName => exact congrArg (·, none) (tables_copy h name copyName).symm
  | drop name => exact congrArg (·, none) (w.tables_drop name).symm
  | submit name request => exact tables_submit h name request

theorem tables_run (h : w.WellFormed) (steps : List Step) :
    w.tables.run steps = ((w.run steps).1.tables, (w.run steps).2) := by
  induction steps generalizing w with
  | nil => rfl
  | cons s steps ih =>
    rw [TableStore.run, tables_perform h s, ih (h.perform s)]
    rfl

end Workspace

namespace TableStore

theorem get?_perform_of_ne {s : TableStore} {step : Step} {name : String} (h : step.slot ≠ name) :
    (s.perform step).1.tables.get? name = s.tables.get? name := by
  cases step with
  | create n targets settings =>
    exact (OrderedMap.get?_set _ _ _ _).trans (if_neg (Ne.symm h))
  | copy n copyName =>
    change (s.copy n copyName).tables.get? name = _
    rw [copy]
    split
    · rfl
    · exact (OrderedMap.get?_set _ _ _ _).trans (if_neg (Ne.symm h))
  | drop n => exact (OrderedMap.get?_erase _ _ _).trans (if_neg (Ne.symm h))
  | submit n request =>
    change (s.submit n request).1.tables.get? name = _
    rw [submit]
    split
    · rfl
    · exact (OrderedMap.get?_set _ _ _ _).trans (if_neg (Ne.symm h))

theorem get?_run_of_ne {s : TableStore} {steps : List Step} {name : String}
    (h : ∀ step ∈ steps, step.slot ≠ name) :
    (s.run steps).1.tables.get? name = s.tables.get? name := by
  induction steps generalizing s with
  | nil => rfl
  | cons step steps ih =>
    rw [List.forall_mem_cons] at h
    exact (ih h.2).trans (get?_perform_of_ne h.1)

end TableStore

/-- Branches that share records until they write cannot be told from tables that were copied
record by record: the receipts agree, and so does the table under every name, with everything that
is read off it. In particular steps about other names, copies of a table or sources of it among
them, leave a table as it was. -/
theorem Workspace.run_eq_run_separate (steps : List Step) :
    (empty.run steps).2 = (TableStore.empty.run steps).2 ∧
      (∀ name, (empty.run steps).1.table name = (TableStore.empty.run steps).1.tables.get? name) ∧
      ∀ (more : List Step) (name : String), (∀ step ∈ more, step.slot ≠ name) →
        ((empty.run steps).1.run more).1.table name = (empty.run steps).1.table name := by
  have hwf := wellFormed_empty.run steps
  have hrun : TableStore.empty.run steps = ((empty.run steps).1.tables, (empty.run steps).2) :=
    tables_run wellFormed_empty steps
  refine ⟨by rw [hrun], fun name => by rw [hrun, table_eq_get?_tables], fun more name h => ?_⟩
  have hmore : ((empty.run steps).1.tables.run more).1 =
      ((empty.run steps).1.run more).1.tables := congrArg Prod.fst (tables_run hwf more)
  rw [table_eq_get?_tables, table_eq_get?_tables, ← hmore]
  exact TableStore.get?_run_of_ne h

end QualifierConstraints
