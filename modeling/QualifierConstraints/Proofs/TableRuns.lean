import QualifierConstraints.Proofs.History
import QualifierConstraints.Proofs.SeparateTables
import QualifierConstraints.Proofs.Verdicts

set_option autoImplicit false

namespace QualifierConstraints

theorem Resolver.map_snd_placements {r : Resolver} {settings : Settings} {qs : List Qualifier}
    (h : ∀ q ∈ qs, ¬ r.Refuses settings q) : (r.placements qs).map Prod.snd = qs := by
  induction qs with
  | nil => rfl
  | cons q qs ih =>
    rw [List.forall_mem_cons] at h
    obtain ⟨t, ht, _⟩ := resolve_of_not_refuses h.1
    have hcons : r.placements (q :: qs) = (t, q) :: r.placements qs := by
      rw [placements, List.filterMap_cons, ht]
      rfl
    rw [hcons, List.map_cons, ih h.2]

namespace ConstraintTable

theorem settings_submit (m : ConstraintTable) (request : Request) :
    (m.submit request).1.settings = m.settings := by
  rw [submit]
  split <;> rfl

theorem exists_edit_of_result_ok {m : ConstraintTable} {request : Request}
    (h : (m.submit request).2.result = .ok ()) :
    ∃ record e, m.get? request.target = some record ∧
      request.edit (fun t => (m.get? t).isSome) m.settings = .ok e ∧
      (m.submit request).1.get? request.target = some (e.apply request.kind record).1 := by
  cases ha : request.accept m.get? m.settings with
  | error rejection =>
    rw [submit_of_accept_error ha] at h
    cases h
  | ok found =>
    obtain ⟨hfind, hedit⟩ := Request.accept_eq_ok_iff.1 ha
    rw [submit_of_accept_ok ha]
    exact ⟨found.1, found.2, hfind, hedit, (OrderedMap.get?_set _ _ _ _).trans (if_pos rfl)⟩

theorem edit_of_submit_isOk {m : ConstraintTable} {request : Request}
    (h : (m.submit request).2.result.isOk = true) :
    ∃ e, request.edit (fun t => (m.get? t).isSome) m.settings = .ok e := by
  have hok : (m.submit request).2.result = .ok () := by
    cases hresult : (m.submit request).2.result with
    | error rejection =>
      rw [hresult] at h
      cases h
    | ok _ => rfl
  obtain ⟨_, e, _, hedit, _⟩ := exists_edit_of_result_ok hok
  exact ⟨e, hedit⟩

theorem edit_of_mem_accepted {m : ConstraintTable} {request : Request} {requests : List Request}
    (h : request ∈ m.accepted requests) :
    ∃ declared e, request.edit declared m.settings = .ok e := by
  induction requests generalizing m with
  | nil => cases h
  | cons first requests ih =>
    rw [accepted_cons, List.mem_append] at h
    obtain h | h := h
    · split_ifs at h with hok
      · rw [List.mem_singleton.1 h]
        exact ⟨_, edit_of_submit_isOk hok⟩
      · cases h
    · rw [← settings_submit m first]
      exact ih h

theorem submitAll_append (m : ConstraintTable) (requests more : List Request) :
    m.submitAll (requests ++ more) = (((m.submitAll requests).1.submitAll more).1,
      (m.submitAll requests).2 ++ ((m.submitAll requests).1.submitAll more).2) := by
  induction requests generalizing m with
  | nil => rfl
  | cons request requests ih =>
    rw [List.cons_append, submitAll, ih]
    rfl

theorem length_snd_submitAll (m : ConstraintTable) (requests : List Request) :
    (m.submitAll requests).2.length = requests.length := by
  induction requests generalizing m with
  | nil => rfl
  | cons request requests ih => exact congrArg (· + 1) (ih _)

theorem getElem?_snd_submitAll (m : ConstraintTable) (before : List Request) (request : Request)
    (after : List Request) : (m.submitAll (before ++ request :: after)).2[before.length]? =
      some ((m.submitAll before).1.submit request).2 := by
  rw [submitAll_append, ← length_snd_submitAll m before,
    List.getElem?_append_right (Nat.le_refl _), Nat.sub_self]
  rfl

end ConstraintTable

theorem TableStore.run_submits {s : TableStore} {name : String} {m : ConstraintTable}
    (h : s.tables.get? name = some m) (requests : List Request) :
    (s.run (requests.map (.submit name))).1.tables.get? name = some (m.submitAll requests).1 ∧
      (s.run (requests.map (.submit name))).2 = (m.submitAll requests).2.map some := by
  induction requests generalizing s m with
  | nil => exact ⟨h, rfl⟩
  | cons request requests ih =>
    have hnext : (s.perform (.submit name request)).1.tables.get? name =
        some (m.submit request).1 := by
      change (s.submit name request).1.tables.get? name = _
      rw [submit_of_table h, OrderedMap.get?_set, if_pos rfl]
    have hreceipt : (s.perform (.submit name request)).2 = some (m.submit request).2 :=
      congrArg Prod.snd (submit_of_table h request)
    obtain ⟨htable, hreceipts⟩ := ih hnext
    rw [List.map_cons, run]
    exact ⟨htable, by rw [hreceipt, hreceipts]; rfl⟩

namespace Workspace

variable {w : Workspace}

theorem run_submits (hwf : w.WellFormed) {name : String} {m : ConstraintTable}
    (h : w.table name = some m) (requests : List Request) :
    (w.run (requests.map (.submit name))).1.table name = some (m.submitAll requests).1 ∧
      (w.run (requests.map (.submit name))).2 = (m.submitAll requests).2.map some := by
  rw [table_eq_get?_tables] at h
  obtain ⟨htable, hreceipts⟩ := TableStore.run_submits h requests
  rw [tables_run hwf] at htable hreceipts
  exact ⟨(table_eq_get?_tables _ _).trans htable, hreceipts⟩

theorem table_submit (hwf : w.WellFormed) {name : String} {m : ConstraintTable}
    (h : w.table name = some m) (request : Request) :
    (w.submit name request).1.table name = some (m.submit request).1 ∧
      (w.submit name request).2 = some (m.submit request).2 := by
  obtain ⟨htable, hreceipts⟩ := run_submits hwf h [request]
  exact ⟨htable, List.head_eq_of_cons_eq hreceipts⟩

theorem run_submits_ofHistory (hwf : w.WellFormed) {name : String} {targets : List Target}
    {settings : Settings} {history : List Request}
    (h : w.table name = some (.ofHistory targets settings history)) (requests : List Request) :
    (w.run (requests.map (.submit name))).1.table name = some (.ofHistory targets settings
        (history ++ requests.filter (·.passes targets settings))) ∧
      (w.run (requests.map (.submit name))).2.map (·.map Receipt.result) = requests.map
        fun r => some ((ConstraintTable.ofHistory targets settings history).submit r).2.result := by
  obtain ⟨htable, hreceipts⟩ := run_submits hwf h requests
  rw [ConstraintTable.fst_submitAll_ofHistory] at htable
  refine ⟨htable, ?_⟩
  have hresults := congrArg (List.map some)
    (ConstraintTable.results_submitAll_eq_map_submit targets settings history requests)
  rw [List.map_map, List.map_map] at hresults
  rw [hreceipts, List.map_map]
  exact hresults

theorem submit_ofHistory (hwf : w.WellFormed) {name : String} {targets : List Target}
    {settings : Settings} {history : List Request}
    (h : w.table name = some (.ofHistory targets settings history)) (request : Request) :
    (w.submit name request).1.table name = some (.ofHistory targets settings
        (history ++ if request.passes targets settings then [request] else [])) ∧
      (w.submit name request).2.map Receipt.result = some (request.verdict targets settings) := by
  obtain ⟨htable, hreceipts⟩ := run_submits hwf h [request]
  rw [ConstraintTable.fst_submitAll_ofHistory, List.filter_cons, List.filter_nil] at htable
  have hreceipt : (w.submit name request).2 =
      some ((ConstraintTable.ofHistory targets settings history).submit request).2 :=
    List.head_eq_of_cons_eq hreceipts
  rw [hreceipt, Option.map_some, ConstraintTable.result_submit_ofHistory]
  exact ⟨htable, rfl⟩

theorem table_create (hwf : w.WellFormed) (name : String) (targets : List Target)
    (settings : Settings) :
    (w.create name targets settings).table name = some (.ofTargets targets settings) := by
  rw [table_eq_get?_tables, tables_create hwf]
  exact (OrderedMap.get?_set _ _ _ _).trans (if_pos rfl)

end Workspace

/-- A new table in any workspace, after any requests to it, is the table of the accepted ones: it
has the declared targets in order, and for each target and kind what the history says. An accepted
request files all of its qualifiers, and the workspace gives the receipts of the table alone. -/
theorem Workspace.table_of_requests (earlier : List Step) (name : String) (targets : List Target)
    (settings : Settings) (requests : List Request) :
    (∃ m, (((empty.run earlier).1.create name targets settings).run
        (requests.map (.submit name))).1.table name = some m ∧
      m = .ofHistory targets settings
        ((ConstraintTable.ofTargets targets settings).accepted requests) ∧
      m.targets = targets.eraseDups ∧
      ∀ t ∈ targets, ∀ k, (m.get? t).map (·.relations k) = some (.ofHistory k t
        ((ConstraintTable.ofTargets targets settings).accepted requests))) ∧
    (∀ k t r qs, .filePrimaries k t r qs ∈
        (ConstraintTable.ofTargets targets settings).accepted requests →
      (r.placements qs).map Prod.snd = qs) ∧
    (((empty.run earlier).1.create name targets settings).run (requests.map (.submit name))).2 =
      ((ConstraintTable.ofTargets targets settings).submitAll requests).2.map some := by
  have hwf := (wellFormed_empty.run earlier).create name targets settings
  have hcreated : ((empty.run earlier).1.create name targets settings).tables.tables.get? name =
      some (.ofTargets targets settings) := by
    rw [tables_create (wellFormed_empty.run earlier)]
    exact (OrderedMap.get?_set _ _ _ _).trans (if_pos rfl)
  obtain ⟨htable, hreceipts⟩ := TableStore.run_submits hcreated requests
  rw [tables_run hwf] at htable hreceipts
  refine ⟨⟨_, (table_eq_get?_tables _ _).trans htable, ?_, ?_, fun t ht k => ?_⟩,
    fun k t r qs h => ?_, hreceipts⟩
  · rw [ConstraintTable.ofTargets_eq_ofHistory, ConstraintTable.submitAll_ofHistory,
      List.nil_append]
  · rw [ConstraintTable.ofTargets_eq_ofHistory, ConstraintTable.submitAll_ofHistory,
      ConstraintTable.targets_ofHistory]
  · rw [ConstraintTable.ofTargets_eq_ofHistory, ConstraintTable.submitAll_ofHistory,
      ConstraintTable.get?_ofHistory, if_pos ht, Option.map_some, Record.relations_ofHistory,
      List.nil_append]
  · obtain ⟨declared, e, he⟩ := ConstraintTable.edit_of_mem_accepted h
    exact Resolver.map_snd_placements (Request.edit_filePrimaries_eq_ok_iff.1 he).1

end QualifierConstraints
