import QualifierConstraints.Proofs.History
import QualifierConstraints.Proofs.Rejections

set_option autoImplicit false

namespace QualifierConstraints

namespace Request

/-- What comes of a request to any table with these targets and settings. -/
def verdict (targets : List Target) (settings : Settings) (request : Request) :
    Except Rejection Unit :=
  (request.accept (fun t => if t ∈ targets then some () else none) settings).map fun _ => ()

def passes (targets : List Target) (settings : Settings) (request : Request) : Bool :=
  (request.verdict targets settings).isOk

variable {targets : List Target} {settings : Settings} {request : Request}

theorem isSome_declared (t : Target) :
    (if t ∈ targets then some () else none).isSome = decide (t ∈ targets) := by
  split_ifs with h <;> simp [h]

theorem verdict_eq_error_iff {e : Rejection} : request.verdict targets settings = .error e ↔
    request.RejectedFor (· ∈ targets) settings e := by
  have hdeclared : (fun t => ((if t ∈ targets then some () else none).isSome : Prop)) =
      (· ∈ targets) := by
    funext t
    rw [isSome_declared, decide_eq_true_eq]
  rw [← hdeclared, ← accept_eq_error_iff, verdict]
  cases request.accept (fun t => if t ∈ targets then some () else none) settings <;>
    simp [Except.map]

theorem passes_iff : request.passes targets settings = true ↔ request.target ∈ targets ∧
    ∃ e, request.edit (fun t => decide (t ∈ targets)) settings = .ok e := by
  have hdeclared : (fun t => (if t ∈ targets then some () else none).isSome) =
      fun t => decide (t ∈ targets) := funext isSome_declared
  by_cases ht : request.target ∈ targets
  · rw [passes, verdict, accept_of_find_some (if_pos ht), hdeclared, and_iff_right ht]
    cases request.edit (fun t => decide (t ∈ targets)) settings <;>
      simp [Except.map, Except.isOk, Except.toBool]
  · rw [passes, verdict, accept_of_find_none (if_neg ht)]
    exact iff_of_false Bool.false_ne_true fun h => ht h.1

theorem passes_iff_verdict :
    request.passes targets settings = true ↔ request.verdict targets settings = .ok () := by
  rw [passes]
  cases request.verdict targets settings <;> simp [Except.isOk, Except.toBool]

theorem target_mem_of_passes (h : request.passes targets settings = true) :
    request.target ∈ targets :=
  (passes_iff.1 h).1

theorem other_mem_of_passes {k : Kind} {t other : Target} {hs : List Hierarchy}
    (h : (relateTarget k t other hs).passes targets settings = true) : other ∈ targets := by
  obtain ⟨_, e, he⟩ := passes_iff.1 h
  exact of_decide_eq_true (edit_relateTarget_eq_ok_iff.1 he).1

theorem passes_filePrimaries_iff {k : Kind} {t : Target} {r : Resolver} {qs : List Qualifier} :
    (filePrimaries k t r qs).passes targets settings = true ↔
      t ∈ targets ∧ ∀ q ∈ qs, ¬ r.Refuses settings q := by
  rw [passes_iff]
  simp only [edit_filePrimaries_eq_ok_iff]
  exact and_congr_right fun _ => ⟨fun ⟨_, h, _⟩ => h, fun h => ⟨_, h, rfl⟩⟩

theorem not_refuses_of_passes {k : Kind} {t : Target} {r : Resolver} {qs : List Qualifier}
    (h : (filePrimaries k t r qs).passes targets settings = true) :
    ∀ q ∈ qs, ¬ r.Refuses settings q :=
  (passes_filePrimaries_iff.1 h).2

theorem passes_of_mem_append {history : List Request}
    (h : ∀ r ∈ history, r.passes targets settings = true) {r : Request}
    (hr : r ∈ history ++ if request.passes targets settings then [request] else []) :
    r.passes targets settings = true := by
  obtain hr | hr := List.mem_append.1 hr
  · exact h r hr
  · split_ifs at hr with hpass
    · rwa [List.mem_singleton.1 hr]
    · cases hr

end Request

namespace ConstraintTable

variable (targets : List Target) (settings : Settings)

theorem result_submit_ofHistory (history : List Request) (request : Request) :
    ((ofHistory targets settings history).submit request).2.result =
      request.verdict targets settings := by
  have hfind : (ofHistory targets settings history).get? = fun t =>
      (if t ∈ targets then some () else none).map fun _ => Record.ofHistory t history := by
    funext t
    rw [get?_ofHistory]
    split_ifs <;> rfl
  have haccept : request.accept (ofHistory targets settings history).get? settings =
      (request.accept (fun t => if t ∈ targets then some () else none) settings).map
        fun p => (Record.ofHistory request.target history, p.2) := by
    rw [hfind]
    exact Request.accept_map fun t _ => Record.ofHistory t history
  rw [Request.verdict]
  cases ha : request.accept (fun t => if t ∈ targets then some () else none) settings with
  | error e =>
    rw [ha] at haccept
    rw [submit_of_accept_error haccept]
    rfl
  | ok found =>
    rw [ha] at haccept
    rw [submit_of_accept_ok haccept]
    rfl

theorem results_submitAll_ofHistory (history requests : List Request) :
    ((ofHistory targets settings history).submitAll requests).2.map Receipt.result =
      requests.map (·.verdict targets settings) := by
  induction requests generalizing history with
  | nil => rfl
  | cons request requests ih =>
    rw [submitAll, List.map_cons, List.map_cons, result_submit_ofHistory, submit_ofHistory, ih]

theorem accepted_ofHistory (history requests : List Request) :
    (ofHistory targets settings history).accepted requests =
      requests.filter (·.passes targets settings) := by
  induction requests generalizing history with
  | nil => rfl
  | cons request requests ih =>
    rw [accepted_cons, submit_ofHistory, ih, result_submit_ofHistory, List.filter_cons]
    change (if request.passes targets settings then [request] else []) ++ _ = _
    split_ifs <;> rfl

/-- A request gets the result that it would have got before the others. -/
theorem results_submitAll_eq_map_submit (history requests : List Request) :
    ((ofHistory targets settings history).submitAll requests).2.map Receipt.result =
      requests.map fun request =>
        ((ofHistory targets settings history).submit request).2.result := by
  rw [results_submitAll_ofHistory]
  simp only [result_submit_ofHistory]

theorem fst_submitAll_ofHistory (history requests : List Request) :
    ((ofHistory targets settings history).submitAll requests).1 =
      ofHistory targets settings (history ++ requests.filter (·.passes targets settings)) := by
  rw [submitAll_ofHistory, accepted_ofHistory]

end ConstraintTable
end QualifierConstraints
