import Mathlib.Data.List.Forall2
import QualifierConstraints.Proofs.Registration
import QualifierConstraints.Proofs.TableRuns
import QualifierConstraints.Proofs.Unordered

set_option autoImplicit false

namespace QualifierConstraints

def IsMismatch (result : Except Rejection Unit) : Prop :=
  ∃ q h, result = .error (.hierarchyMismatch q h)

namespace Resolver

theorem resolve_eq_or_mismatch (r : Resolver) (q : Qualifier) :
    r.resolve ⟨true⟩ q = r.resolve ⟨false⟩ q ∨
      ∃ h, r.resolve ⟨true⟩ q = .error (.hierarchyMismatch q h) := by
  rw [resolve, resolve]
  cases r.topOf q with
  | none => exact .inl rfl
  | some h => cases hh : r.isHome h <;> simp [hh]

theorem resolveAll_eq_or_mismatch (r : Resolver) (qs : List Qualifier) :
    r.resolveAll ⟨true⟩ qs = r.resolveAll ⟨false⟩ qs ∨
      ∃ q h, r.resolveAll ⟨true⟩ qs = .error (.hierarchyMismatch q h) := by
  induction qs with
  | nil => exact .inl rfl
  | cons q qs ih =>
    rw [resolveAll, resolveAll]
    obtain hq | ⟨h, hq⟩ := r.resolve_eq_or_mismatch q
    · rw [hq]
      cases r.resolve ⟨false⟩ q with
      | error e => exact .inl rfl
      | ok top =>
        obtain hqs | ⟨p, h, hqs⟩ := ih
        · rw [hqs]
          exact .inl rfl
        · rw [hqs]
          exact .inr ⟨p, h, rfl⟩
    · rw [hq]
      exact .inr ⟨q, h, rfl⟩

end Resolver

namespace Request

theorem accept_eq_or_mismatch {α : Type} (find : Target → Option α) (request : Request) :
    request.accept find ⟨true⟩ = request.accept find ⟨false⟩ ∨
      ∃ q h, request.accept find ⟨true⟩ = .error (.hierarchyMismatch q h) := by
  cases hf : find request.target with
  | none => exact .inl ((accept_of_find_none hf).trans (accept_of_find_none hf).symm)
  | some found =>
    rw [accept_of_find_some hf, accept_of_find_some hf]
    cases request with
    | relateTarget k t other hs => exact .inl rfl
    | relateType k t type hs => exact .inl rfl
    | filePrimaries k t r qs =>
      rw [edit, edit]
      obtain hqs | ⟨q, h, hqs⟩ := r.resolveAll_eq_or_mismatch qs
      · rw [hqs]
        exact .inl rfl
      · rw [hqs]
        exact .inr ⟨q, h, rfl⟩

theorem verdict_eq_or_mismatch (targets : List Target) (request : Request) :
    request.verdict targets ⟨true⟩ = request.verdict targets ⟨false⟩ ∨
      IsMismatch (request.verdict targets ⟨true⟩) := by
  rw [verdict, verdict]
  obtain h | ⟨q, top, h⟩ := request.accept_eq_or_mismatch fun t =>
    if t ∈ targets then some () else none
  · rw [h]
    exact .inl rfl
  · rw [h]
    exact .inr ⟨q, top, rfl⟩

theorem passes_of_passes_validating {targets : List Target} {request : Request}
    (h : request.passes targets ⟨true⟩ = true) : request.passes targets ⟨false⟩ = true := by
  rw [passes] at h ⊢
  obtain he | ⟨q, top, he⟩ := request.verdict_eq_or_mismatch targets
  · rwa [← he]
  · rw [he] at h
    cases h

/-- The request files no qualifiers, or it files them by a lattice in which registrations keep
apart. -/
def UsesSoundLattice : Request → Prop
  | .filePrimaries _ _ r _ => ∃ registrations, Registration.KeepApart registrations ∧
    r = (Lattice.ofRegistrations registrations).resolver
  | _ => True

theorem not_isMismatch_of_usesSoundLattice {request : Request} (h : request.UsesSoundLattice)
    (targets : List Target) (settings : Settings) :
    ¬ IsMismatch (request.verdict targets settings) := by
  rintro ⟨q, top, he⟩
  cases verdict_eq_error_iff.1 he with
  | hierarchy _ _ _ hq hhome =>
    obtain ⟨registrations, hapart, rfl⟩ := h
    exact hhome (Lattice.topOf_top_of_answer hapart hq)

end Request

namespace ConstraintTable

theorem submit_eq_of_not_isMismatch {m n : ConstraintTable} (hrecords : m.records = n.records)
    (hm : m.settings = ⟨true⟩) (hn : n.settings = ⟨false⟩) {request : Request}
    (h : ¬ IsMismatch (m.submit request).2.result) :
    (m.submit request).2 = (n.submit request).2 ∧
      (m.submit request).1.records = (n.submit request).1.records := by
  have hget : n.get? = m.get? := by
    funext t
    rw [get?, get?, hrecords]
  have haccept : request.accept n.get? n.settings = request.accept m.get? m.settings := by
    rw [hget, hm, hn]
    obtain he | ⟨q, top, he⟩ := request.accept_eq_or_mismatch m.get?
    · exact he.symm
    · rw [← hm] at he
      rw [submit_of_accept_error he] at h
      exact absurd ⟨q, top, rfl⟩ h
  cases ha : request.accept m.get? m.settings with
  | error e =>
    rw [ha] at haccept
    rw [submit_of_accept_error ha, submit_of_accept_error haccept]
    exact ⟨rfl, hrecords⟩
  | ok found =>
    rw [ha] at haccept
    rw [submit_of_accept_ok ha, submit_of_accept_ok haccept, hrecords]
    exact ⟨rfl, rfl⟩

theorem submitAll_eq_of_not_isMismatch {m n : ConstraintTable} (hrecords : m.records = n.records)
    (hm : m.settings = ⟨true⟩) (hn : n.settings = ⟨false⟩) {requests : List Request}
    (h : ∀ receipt ∈ (m.submitAll requests).2, ¬ IsMismatch receipt.result) :
    (m.submitAll requests).2 = (n.submitAll requests).2 ∧
      (m.submitAll requests).1.records = (n.submitAll requests).1.records := by
  induction requests generalizing m n with
  | nil => exact ⟨rfl, hrecords⟩
  | cons request requests ih =>
    -- The settings stay different, so what carries over is that the records are the same.
    rw [submitAll, List.forall_mem_cons] at h
    obtain ⟨hreceipt, hnext⟩ := submit_eq_of_not_isMismatch hrecords hm hn h.1
    obtain ⟨hreceipts, htable⟩ := ih hnext ((settings_submit m request).trans hm)
      ((settings_submit n request).trans hn) h.2
    rw [submitAll, submitAll, hreceipt, hreceipts]
    exact ⟨rfl, htable⟩

theorem within_submitAll_ofTargets (targets : List Target) (requests : List Request) (t : Target) :
    Option.Rel Record.Within (((ofTargets targets ⟨true⟩).submitAll requests).1.get? t)
      (((ofTargets targets ⟨false⟩).submitAll requests).1.get? t) := by
  rw [ofTargets_eq_ofHistory, ofTargets_eq_ofHistory, fst_submitAll_ofHistory,
    fst_submitAll_ofHistory, get?_ofHistory, get?_ofHistory]
  split_ifs
  · refine .some (Record.within_ofHistory t fun request hr => ?_)
    rw [List.nil_append, List.mem_filter] at hr ⊢
    exact ⟨hr.1, Request.passes_of_passes_validating hr.2⟩
  · exact .none

variable (targets : List Target) (requests : List Request)

theorem results_submitAll_ofTargets (settings : Settings) :
    ((ofTargets targets settings).submitAll requests).2.map Receipt.result =
      requests.map (·.verdict targets settings) := by
  rw [ofTargets_eq_ofHistory, results_submitAll_ofHistory]

theorem forall₂_submitAll_ofTargets :
    List.Forall₂ (fun s l : Receipt => s.result = l.result ∨ IsMismatch s.result)
      ((ofTargets targets ⟨true⟩).submitAll requests).2
      ((ofTargets targets ⟨false⟩).submitAll requests).2 := by
  have hverdicts : List.Forall₂ (fun s l => s = l ∨ IsMismatch s)
      (requests.map (·.verdict targets ⟨true⟩)) (requests.map (·.verdict targets ⟨false⟩)) := by
    rw [List.forall₂_map_left_iff, List.forall₂_map_right_iff, List.forall₂_same]
    exact fun request _ => request.verdict_eq_or_mismatch targets
  rwa [← results_submitAll_ofTargets, ← results_submitAll_ofTargets, List.forall₂_map_left_iff,
    List.forall₂_map_right_iff] at hverdicts

theorem submitAll_ofTargets_eq_of_not_isMismatch
    (h : ∀ s ∈ ((ofTargets targets ⟨true⟩).submitAll requests).2, ¬ IsMismatch s.result) :
    ((ofTargets targets ⟨true⟩).submitAll requests).2 =
        ((ofTargets targets ⟨false⟩).submitAll requests).2 ∧
      ((ofTargets targets ⟨true⟩).submitAll requests).1.records =
        ((ofTargets targets ⟨false⟩).submitAll requests).1.records :=
  submitAll_eq_of_not_isMismatch (m := ofTargets targets ⟨true⟩) (n := ofTargets targets ⟨false⟩)
    rfl rfl rfl h

theorem not_isMismatch_of_usesSoundLattice (h : ∀ request ∈ requests, request.UsesSoundLattice) :
    ∀ s ∈ ((ofTargets targets ⟨true⟩).submitAll requests).2, ¬ IsMismatch s.result := by
  intro s hs
  have hmem := List.mem_map_of_mem (f := Receipt.result) hs
  rw [results_submitAll_ofTargets] at hmem
  obtain ⟨request, hr, he⟩ := List.mem_map.1 hmem
  rw [← he]
  exact Request.not_isMismatch_of_usesSoundLattice (h request hr) targets ⟨true⟩

end ConstraintTable

/-- The same requests to two new tables, one of which validates. Each result of the validating
table is the other's or a mismatch; without a mismatch the receipts and the records are the same;
what the validating table holds is in the other; and there is no mismatch where all qualifiers are
filed by lattices in which registrations keep apart. -/
theorem Workspace.validating_run (earlier : List Step) (name : String) (targets : List Target)
    (requests : List Request) :
    let run := fun settings => ((empty.run earlier).1.create name targets settings).run
      (requests.map (.submit name))
    ∃ m n strict lax, (run ⟨true⟩).1.table name = some m ∧ (run ⟨false⟩).1.table name = some n ∧
      (run ⟨true⟩).2 = strict.map some ∧ (run ⟨false⟩).2 = lax.map some ∧
      List.Forall₂ (fun s l : Receipt => s.result = l.result ∨ IsMismatch s.result) strict lax ∧
      ((∀ s ∈ strict, ¬ IsMismatch s.result) → strict = lax ∧ m.records = n.records) ∧
      (∀ t, Option.Rel Record.Within (m.get? t) (n.get? t)) ∧
      ((∀ request ∈ requests, request.UsesSoundLattice) →
        (∀ s ∈ strict, ¬ IsMismatch s.result) ∧ strict = lax ∧ m.records = n.records) := by
  intro run
  have hrun : ∀ settings, (run settings).1.table name =
        some ((ConstraintTable.ofTargets targets settings).submitAll requests).1 ∧
      (run settings).2 =
        ((ConstraintTable.ofTargets targets settings).submitAll requests).2.map some := by
    intro settings
    have hwf := wellFormed_empty.run earlier
    exact run_submits (hwf.create name targets settings) (table_create hwf name targets settings)
      requests
  refine ⟨_, _, _, _, (hrun ⟨true⟩).1, (hrun ⟨false⟩).1, (hrun ⟨true⟩).2, (hrun ⟨false⟩).2,
    ConstraintTable.forall₂_submitAll_ofTargets targets requests,
    ConstraintTable.submitAll_ofTargets_eq_of_not_isMismatch targets requests,
    ConstraintTable.within_submitAll_ofTargets targets requests, fun hsound => ?_⟩
  have hno := ConstraintTable.not_isMismatch_of_usesSoundLattice targets requests hsound
  exact ⟨hno, ConstraintTable.submitAll_ofTargets_eq_of_not_isMismatch targets requests hno⟩

end QualifierConstraints
