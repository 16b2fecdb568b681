import QualifierConstraints.Proofs.Acceptance
import QualifierConstraints.Proofs.InsertionOrder
import QualifierConstraints.Workspace

set_option autoImplicit false

namespace QualifierConstraints

/-- Of `size` cells the branch holds only such as there are. -/
def Branch.InBounds (size : Nat) (b : Branch) : Prop := ∀ cell ∈ b.cells.values, cell < size

namespace Workspace

/-- Every cell that is held exists. -/
def WellFormed (w : Workspace) : Prop := ∀ b ∈ w.branches.values, b.InBounds w.cells.size

def cellOf (w : Workspace) (name : String) (t : Target) : Option Nat :=
  (w.branches.get? name).bind (·.cells.get? t)

def Declares (w : Workspace) (name : String) (t : Target) : Prop :=
  ∃ m, w.table name = some m ∧ t ∈ m.targets

/-- Every branch and target with the cell that is held there. -/
def holdings (w : Workspace) : List ((String × Target) × Nat) :=
  w.branches.entries.flatMap fun e => e.2.cells.entries.map fun d => ((e.1, d.1), d.2)

end Workspace

namespace Branch

variable {size size' : Nat} {b : Branch}

theorem InBounds.mono (h : b.InBounds size) (hle : size ≤ size') : b.InBounds size' :=
  fun cell hc => Nat.lt_of_lt_of_le (h cell hc) hle

theorem InBounds.lt_of_get? (h : b.InBounds size) {t : Target} {cell : Nat}
    (hc : b.cells.get? t = some cell) : cell < size :=
  h cell (List.mem_map_of_mem (OrderedMap.mem_entries_of_get? hc))

end Branch

namespace Workspace

variable {w : Workspace}

theorem WellFormed.branch (h : w.WellFormed) {name : String} {b : Branch}
    (hb : w.branches.get? name = some b) : b.InBounds w.cells.size :=
  h b (List.mem_map_of_mem (OrderedMap.mem_entries_of_get? hb))

theorem cellOf_of_branch {name : String} {b : Branch} (hb : w.branches.get? name = some b)
    (t : Target) : w.cellOf name t = b.cells.get? t := by
  rw [cellOf, hb, Option.bind_some]

theorem WellFormed.lt_of_cellOf (h : w.WellFormed) {name : String} {t : Target} {cell : Nat}
    (hc : w.cellOf name t = some cell) : cell < w.cells.size := by
  obtain ⟨b, hb, hbc⟩ := Option.bind_eq_some_iff.1 hc
  exact (h.branch hb).lt_of_get? hbc

theorem targets_tableOf (w : Workspace) (b : Branch) : (w.tableOf b).targets = b.cells.keys :=
  OrderedMap.keys_mapValues w.read b.cells

theorem declares_iff (w : Workspace) (name : String) (t : Target) :
    w.Declares name t ↔ ∃ cell, w.cellOf name t = some cell := by
  rw [Declares, table, cellOf]
  cases w.branches.get? name with
  | none => simp
  | some b =>
    rw [Option.bind_some, ← Option.isSome_iff_exists, OrderedMap.isSome_get?_iff,
      ← w.targets_tableOf b]
    constructor
    · rintro ⟨m, hm, ht⟩
      rwa [Option.some.inj hm]
    · intro ht
      exact ⟨w.tableOf b, rfl, ht⟩

theorem shares_iff (w : Workspace) (a b : String) (t : Target) :
    w.shares a b t = true ↔ ∃ cell, w.cellOf a t = some cell ∧ w.cellOf b t = some cell := by
  unfold shares cellOf
  cases (w.branches.get? a).bind (·.cells.get? t) with
  | none => simp
  | some i =>
    cases (w.branches.get? b).bind (·.cells.get? t) with
    | none => simp
    | some j =>
      constructor
      · intro h
        exact ⟨i, rfl, congrArg some (beq_iff_eq.1 h).symm⟩
      · rintro ⟨cell, hi, hj⟩
        exact beq_iff_eq.2 (Option.some.inj (hi.trans hj.symm))

theorem mem_holdings_of_mem {name : String} {b : Branch} (hb : (name, b) ∈ w.branches.entries)
    {t : Target} {cell : Nat} (hc : (t, cell) ∈ b.cells.entries) :
    ((name, t), cell) ∈ w.holdings :=
  List.mem_flatMap.2 ⟨(name, b), hb, List.mem_map.2 ⟨(t, cell), hc, rfl⟩⟩

theorem mem_holdings_of_cellOf {name : String} {t : Target} {cell : Nat}
    (h : w.cellOf name t = some cell) : ((name, t), cell) ∈ w.holdings := by
  obtain ⟨b, hb, hc⟩ := Option.bind_eq_some_iff.1 h
  exact mem_holdings_of_mem (OrderedMap.mem_entries_of_get? hb) (OrderedMap.mem_entries_of_get? hc)

theorem holders_eq_count (w : Workspace) (cell : Nat) :
    w.holders cell = (w.holdings.map Prod.snd).count cell := by
  have hcells : w.holdings.map Prod.snd = w.branches.values.flatMap fun b => b.cells.values := by
    rw [holdings, List.map_flatMap, OrderedMap.values, List.flatMap_map]
    refine List.flatMap_congr fun e _ => ?_
    rw [List.map_map]
    rfl
  rw [hcells, holders]

theorem eq_of_holders_le_one {cell : Nat} (h : w.holders cell ≤ 1) {x y : String × Target}
    (hx : (x, cell) ∈ w.holdings) (hy : (y, cell) ∈ w.holdings) : x = y := by
  have hfilter : (w.holdings.filter fun e => e.2 == cell).length ≤ 1 := by
    rw [holders_eq_count, List.count, List.countP_map, List.countP_eq_length_filter] at h
    exact h
  have hx' : (x, cell) ∈ w.holdings.filter fun e => e.2 == cell :=
    List.mem_filter.2 ⟨hx, beq_self_eq_true cell⟩
  have hy' : (y, cell) ∈ w.holdings.filter fun e => e.2 == cell :=
    List.mem_filter.2 ⟨hy, beq_self_eq_true cell⟩
  match hl : w.holdings.filter fun e => e.2 == cell with
  | [] => rw [hl] at hx'; cases hx'
  | [e] =>
    rw [hl] at hx' hy'
    exact congrArg Prod.fst ((List.mem_singleton.1 hx').trans (List.mem_singleton.1 hy').symm)
  | e :: d :: es =>
    rw [hl] at hfilter
    simp at hfilter

/-- Where a cell is held once, all other places hold other cells. -/
theorem ne_of_holders_le_one {cell : Nat} (h : w.holders cell ≤ 1) {x : String × Target}
    (hx : (x, cell) ∈ w.holdings) {e : String × Branch} (he : e ∈ w.branches.entries)
    {d : Target × Nat} (hd : d ∈ e.2.cells.entries) (hne : (e.1, d.1) ≠ x) : d.2 ≠ cell := by
  intro hcell
  have hmem : ((e.1, d.1), d.2) ∈ w.holdings := mem_holdings_of_mem he hd
  rw [hcell] at hmem
  exact hne (eq_of_holders_le_one h hmem hx)

variable {name : String} {b : Branch} {request : Request}

theorem submit_of_no_branch (hb : w.branches.get? name = none) :
    w.submit name request = (w, none) := by
  rw [submit, hb]

theorem submit_of_accept_error (hb : w.branches.get? name = some b) {e : Rejection}
    (ha : request.accept b.cells.get? b.settings = .error e) :
    w.submit name request = (w, some ⟨.error e, request.events none⟩) := by
  rw [submit, hb]
  simp only [submitTo, ha]

theorem submit_of_accept_ok (hb : w.branches.get? name = some b) {cell : Nat} {edit : Edit}
    (ha : request.accept b.cells.get? b.settings = .ok (cell, edit)) :
    w.submit name request =
      (w.write name b request.target cell
        (edit.apply request.kind (w.read request.target cell)).1,
      some ⟨.ok (), request.events
        (some (edit.apply request.kind (w.read request.target cell)).2)⟩) := by
  rw [submit, hb]
  simp only [submitTo, ha]

/-- Only an accepted request changes a workspace, by a write to the cell of its target. -/
theorem fst_submit_eq_self_or_write (w : Workspace) (name : String) (request : Request) :
    (w.submit name request).1 = w ∨ ∃ b cell record, w.branches.get? name = some b ∧
      b.cells.get? request.target = some cell ∧
      (w.submit name request).1 = w.write name b request.target cell record := by
  cases hb : w.branches.get? name with
  | none =>
    rw [submit_of_no_branch hb]
    exact .inl rfl
  | some b =>
    cases ha : request.accept b.cells.get? b.settings with
    | error e =>
      rw [submit_of_accept_error hb ha]
      exact .inl rfl
    | ok found =>
      obtain ⟨cell, edit⟩ := found
      rw [submit_of_accept_ok hb ha]
      exact .inr ⟨b, cell, _, rfl, (Request.accept_eq_ok_iff.1 ha).1, rfl⟩

theorem write_of_held_once {cell : Nat} (h : w.holders cell ≤ 1) (t : Target) (record : Record) :
    w.write name b t cell record = ⟨w.cells.setIfInBounds cell record, w.branches⟩ :=
  if_pos h

theorem write_of_shared {cell : Nat} (h : ¬ w.holders cell ≤ 1) (t : Target) (record : Record) :
    w.write name b t cell record =
      ⟨w.cells.push record, w.branches.set name ⟨b.cells.set t w.cells.size, b.settings⟩⟩ :=
  if_neg h

theorem cellOf_set_branch (cells : Array Record) (name n : String) (b : Branch) (t : Target) :
    (Workspace.mk cells (w.branches.set name b)).cellOf n t =
      if n = name then b.cells.get? t else w.cellOf n t := by
  rw [cellOf, OrderedMap.get?_set]
  split_ifs <;> rfl

theorem cellOf_create (w : Workspace) (made : String) (targets : List Target) (settings : Settings)
    (n : String) (t : Target) : (w.create made targets settings).cellOf n t =
      if n = made then
        (OrderedMap.numbered (.ofList targets) w.cells.size).get? t
      else w.cellOf n t :=
  cellOf_set_branch _ _ _ _ _

theorem cellOf_copy (hb : w.branches.get? name = some b) (copyName n : String) (t : Target) :
    (w.copy name copyName).cellOf n t =
      if n = copyName then w.cellOf name t else w.cellOf n t := by
  rw [copy, hb, cellOf_of_branch hb]
  exact cellOf_set_branch _ _ _ _ _

theorem cellOf_drop (w : Workspace) (name n : String) (t : Target) :
    (w.drop name).cellOf n t = if n = name then none else w.cellOf n t := by
  rw [drop, cellOf, OrderedMap.get?_erase]
  split_ifs <;> rfl

theorem cellOf_write_of_held_once {cell : Nat} (h : w.holders cell ≤ 1) (t : Target)
    (record : Record) : (w.write name b t cell record).cellOf = w.cellOf := by
  rw [write_of_held_once h]
  rfl

theorem cellOf_write_of_shared (hb : w.branches.get? name = some b) {cell : Nat}
    (h : ¬ w.holders cell ≤ 1) (t u : Target) (record : Record) (n : String) :
    (w.write name b t cell record).cellOf n u =
      if n = name ∧ u = t then some w.cells.size else w.cellOf n u := by
  rw [write_of_shared h, cellOf_set_branch, OrderedMap.get?_set]
  by_cases hn : n = name
  · rw [if_pos hn, hn, cellOf_of_branch hb]
    simp
  · rw [if_neg hn, if_neg fun hc => hn hc.1]

theorem cellOf_write_of_other (hb : w.branches.get? name = some b) (t : Target) (cell : Nat)
    (record : Record) {n : String} {u : Target} (h : ¬ (n = name ∧ u = t)) :
    (w.write name b t cell record).cellOf n u = w.cellOf n u := by
  by_cases hn : w.holders cell ≤ 1
  · rw [cellOf_write_of_held_once hn]
  · rw [cellOf_write_of_shared hb hn, if_neg h]

theorem isSome_branch_write (hb : w.branches.get? name = some b) (t : Target) (cell : Nat)
    (record : Record) (n : String) :
    ((w.write name b t cell record).branches.get? n).isSome = (w.branches.get? n).isSome := by
  by_cases hn : w.holders cell ≤ 1
  · rw [write_of_held_once hn]
  · rw [write_of_shared hn, OrderedMap.get?_set]
    split_ifs with h
    · rw [h, hb]
      rfl
    · rfl

theorem wellFormed_empty : empty.WellFormed := fun _ hb => by cases hb

theorem WellFormed.set_branch (h : w.WellFormed) {cells : Array Record}
    (hsize : w.cells.size ≤ cells.size) (hb : b.InBounds cells.size) :
    (Workspace.mk cells (w.branches.set name b)).WellFormed := by
  intro c hc
  obtain ⟨e, he, rfl⟩ := List.mem_map.1 hc
  obtain rfl | he := OrderedMap.eq_or_mem_of_mem_set he
  · exact hb
  · exact (h e.2 (List.mem_map_of_mem he)).mono hsize

theorem inBounds_numbered (ts : OrderedSet Target) (settings : Settings) (size : Nat) :
    (Branch.mk (.numbered ts size) settings).InBounds (size + ts.size) := by
  intro cell hc
  obtain ⟨e, he, rfl⟩ := List.mem_map.1 hc
  have hlt := List.snd_lt_add_of_mem_zipIdx he
  rw [OrderedSet.size]
  omega

theorem WellFormed.create (h : w.WellFormed) (name : String) (targets : List Target)
    (settings : Settings) : (w.create name targets settings).WellFormed := by
  have hsize : (w.cells ++ ((OrderedSet.ofList targets).toList.map Record.empty).toArray).size =
      w.cells.size + (OrderedSet.ofList targets).size := by simp [OrderedSet.size]
  refine h.set_branch (by omega) ?_
  rw [hsize]
  exact inBounds_numbered _ settings w.cells.size

theorem WellFormed.copy (h : w.WellFormed) (name copyName : String) :
    (w.copy name copyName).WellFormed := by
  rw [Workspace.copy]
  split
  · exact h
  · rename_i b hb
    exact h.set_branch (Nat.le_refl _) (h.branch hb)

theorem WellFormed.drop (h : w.WellFormed) (name : String) : (w.drop name).WellFormed := by
  intro b hb
  obtain ⟨e, he, rfl⟩ := List.mem_map.1 hb
  exact h e.2 (List.mem_map_of_mem (List.mem_filter.1 he).1)

theorem WellFormed.write (h : w.WellFormed) (hb : w.branches.get? name = some b) (t : Target)
    (cell : Nat) (record : Record) : (w.write name b t cell record).WellFormed := by
  by_cases hn : w.holders cell ≤ 1
  · rw [write_of_held_once hn]
    intro c hc
    rw [Array.size_setIfInBounds]
    exact h c hc
  · rw [write_of_shared hn]
    refine h.set_branch (by simp) fun c hc => ?_
    rw [Array.size_push]
    obtain ⟨e, he, rfl⟩ := List.mem_map.1 hc
    obtain rfl | he := OrderedMap.eq_or_mem_of_mem_set he
    · exact Nat.lt_succ_self _
    · exact Nat.lt_succ_of_lt (h.branch hb e.2 (List.mem_map_of_mem he))

/-- After a write the writer is alone with its cell. -/
theorem WellFormed.eq_iff_of_cellOf_write (h : w.WellFormed) (hb : w.branches.get? name = some b)
    {t u : Target} {cell : Nat} (hc : b.cells.get? t = some cell) {record : Record} {n : String}
    {i j : Nat} (hi : (w.write name b t cell record).cellOf name t = some i)
    (hj : (w.write name b t cell record).cellOf n u = some j) : i = j ↔ n = name ∧ u = t := by
  constructor
  · intro hij
    subst hij
    by_cases hn : w.holders cell ≤ 1
    · rw [cellOf_write_of_held_once hn] at hi hj
      obtain rfl : i = cell := Option.some.inj (hi.symm.trans ((cellOf_of_branch hb t).trans hc))
      exact Prod.mk.inj (eq_of_holders_le_one hn (mem_holdings_of_cellOf hj)
        (mem_holdings_of_cellOf hi))
    · rw [cellOf_write_of_shared hb hn, if_pos ⟨rfl, rfl⟩] at hi
      cases hi
      by_contra hother
      rw [cellOf_write_of_shared hb hn, if_neg hother] at hj
      exact Nat.lt_irrefl _ (h.lt_of_cellOf hj)
  · rintro ⟨rfl, rfl⟩
    exact Option.some.inj (hi.symm.trans hj)

theorem WellFormed.submit (h : w.WellFormed) (name : String) (request : Request) :
    (w.submit name request).1.WellFormed := by
  obtain he | ⟨b, cell, record, hb, _, he⟩ := w.fst_submit_eq_self_or_write name request
  · rw [he]
    exact h
  · rw [he]
    exact h.write hb _ _ _

theorem WellFormed.perform (h : w.WellFormed) (s : Step) : (w.perform s).1.WellFormed := by
  cases s with
  | create name targets settings => exact h.create name targets settings
  | copy name copyName => exact h.copy name copyName
  | drop name => exact h.drop name
  | submit name request => exact h.submit name request

theorem WellFormed.run (h : w.WellFormed) (steps : List Step) : (w.run steps).1.WellFormed := by
  induction steps generalizing w with
  | nil => exact h
  | cons s steps ih => exact ih (h.perform s)

end Workspace
end QualifierConstraints
