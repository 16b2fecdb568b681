import QualifierConstraints.Proofs.TableRuns
import QualifierConstraints.Proofs.Unordered
import QualifierConstraints.Proofs.WellFormedTables

set_option autoImplicit false

namespace QualifierConstraints

/-- Alike without regard to order, but for which qualifier an equality has in a hierarchy. -/
structure Record.AlikeButEqualities (r s : Record) : Prop where
  target : r.target = s.target
  targets : ∀ k, (r.relations k).targets.equiv OrderedSet.equiv (s.relations k).targets = true
  types : ∀ k, (r.relations k).types.equiv OrderedSet.equiv (s.relations k).types = true
  supertypes : PrimaryStore.equiv r.supertypes.primaries s.supertypes.primaries = true
  subtypes : PrimaryStore.equiv r.subtypes.primaries s.subtypes.primaries = true
  equalities : ∀ h, h ∈ r.equalities.primaries.byHierarchy.keys ↔
    h ∈ s.equalities.primaries.byHierarchy.keys

namespace Request

def filesEqualities (t : Target) : Request → Bool
  | .filePrimaries .equality t' .. => t' = t
  | _ => false

theorem filings_equality_of_not_filesEqualities {t : Target} {request : Request}
    (h : request.filesEqualities t = false) : request.filings .equality t = [] := by
  cases request with
  | relateTarget | relateType => rfl
  | filePrimaries k t' r qs =>
    refine if_neg ?_
    rintro ⟨rfl, rfl⟩
    simp [filesEqualities] at h

/-- Only the requests that file equalities of `t` matter for these. -/
theorem flatMap_filings_equality (t : Target) (history : List Request) :
    history.flatMap (filings .equality t) =
      (history.filter (filesEqualities t)).flatMap (filings .equality t) := by
  induction history with
  | nil => rfl
  | cons request history ih =>
    rw [List.flatMap_cons, List.filter_cons, ih]
    cases h : request.filesEqualities t with
    | true => rfl
    | false => rw [filings_equality_of_not_filesEqualities h, List.nil_append]; rfl

end Request

namespace Record

theorem alikeButEqualities_ofHistory (t : Target) {history history' : List Request}
    (h : ∀ request, request ∈ history ↔ request ∈ history') :
    (ofHistory t history).AlikeButEqualities (ofHistory t history') := by
  have hin := within_ofHistory t fun request => (h request).1
  have hin' := within_ofHistory t fun request => (h request).2
  refine ⟨rfl, fun k => ?_, fun k => ?_, ?_, ?_, fun top => ?_⟩
  · exact OrderedMap.equiv_of_within (hin.targets k) (hin'.targets k)
  · exact OrderedMap.equiv_of_within (hin.types k) (hin'.types k)
  · exact OrderedMap.equiv_of_within hin.supertypes hin'.supertypes
  · exact OrderedMap.equiv_of_within hin.subtypes hin'.subtypes
  · exact ⟨hin.equalities top, hin'.equalities top⟩

theorem AlikeButEqualities.equiv {r s : Record} (h : r.AlikeButEqualities s)
    (he : PrimaryStore.equiv r.equalities.primaries s.equalities.primaries = true) :
    r.equiv s = true := by
  refine equiv_iff.2 ⟨h.target, fun k => Relations.equiv_iff.2 ⟨h.targets k, h.types k, ?_⟩⟩
  cases k with
  | equality => exact he
  | supertype => exact h.supertypes
  | subtype => exact h.subtypes

theorem equiv_ofHistory {t : Target} {history history' : List Request}
    (h : ∀ request, request ∈ history ↔ request ∈ history')
    (he : history.filter (·.filesEqualities t) = history'.filter (·.filesEqualities t)) :
    (ofHistory t history).equiv (ofHistory t history') = true := by
  refine (alikeButEqualities_ofHistory t h).equiv ?_
  have hsame : (ofHistory t history').equalities.primaries =
      (ofHistory t history).equalities.primaries := by
    change Kind.primariesOf .equality (history'.flatMap (Request.filings .equality t)) =
      Kind.primariesOf .equality (history.flatMap (Request.filings .equality t))
    rw [Request.flatMap_filings_equality, ← he, ← Request.flatMap_filings_equality]
  rw [hsame]
  exact OrderedMap.equiv_refl fun q _ => beq_self_eq_true q

end Record

namespace ConstraintTable

theorem equiv_ofHistory (targets : List Target) (settings : Settings)
    {history history' : List Request} (h : ∀ request, request ∈ history ↔ request ∈ history')
    (he : ∀ t, history.filter (·.filesEqualities t) = history'.filter (·.filesEqualities t)) :
    (ofHistory targets settings history).equiv (ofHistory targets settings history') = true := by
  rw [equiv, Bool.and_eq_true]
  refine ⟨OrderedMap.equiv_iff.2 ⟨fun t => ?_, ?_⟩, beq_self_eq_true settings⟩
  · change t ∈ (ofHistory targets settings history).targets ↔
      t ∈ (ofHistory targets settings history').targets
    rw [targets_ofHistory, targets_ofHistory]
  · intro t r s hr hs
    change (ofHistory targets settings history).get? t = some r at hr
    change (ofHistory targets settings history').get? t = some s at hs
    rw [get?_ofHistory] at hr hs
    split_ifs at hr hs
    obtain rfl := Option.some.inj hr
    obtain rfl := Option.some.inj hs
    exact Record.equiv_ofHistory h (he t)

end ConstraintTable

/-- Requests to any table of a workspace get the results in one order that they get in any other,
namely those they would have got at once, and the tables they leave have the same targets with
records alike up to insertion order, but for the qualifiers of equalities. If requests that file
equalities of one target stay in their order, the tables are equal. -/
theorem Workspace.run_submits_perm (steps : List Step) (name : String) {m : ConstraintTable}
    (h : (empty.run steps).1.table name = some m) {requests requests' : List Request}
    (hperm : requests.Perm requests') :
    ∃ n n', ((empty.run steps).1.run (requests.map (.submit name))).1.table name = some n ∧
      ((empty.run steps).1.run (requests'.map (.submit name))).1.table name = some n' ∧
      ((empty.run steps).1.run (requests.map (.submit name))).2.map (·.map Receipt.result) =
        requests.map (fun request => some (m.submit request).2.result) ∧
      ((empty.run steps).1.run (requests'.map (.submit name))).2.map (·.map Receipt.result) =
        requests'.map (fun request => some (m.submit request).2.result) ∧
      n.targets = m.targets ∧ n'.targets = m.targets ∧
      (∀ t, Option.Rel Record.AlikeButEqualities (n.get? t) (n'.get? t)) ∧
      ((∀ t, requests.filter (·.filesEqualities t) = requests'.filter (·.filesEqualities t)) →
        n.equiv n' = true) := by
  have hwf := wellFormed_empty.run steps
  obtain ⟨⟨targets, settings⟩, _, history, _, rfl⟩ := exists_origin_of_table h
  have htable := run_submits_ofHistory hwf h requests
  have htable' := run_submits_ofHistory hwf h requests'
  -- The accepted requests are the same ones, since a verdict does not depend on what came before.
  have hmem : ∀ request, request ∈ history ++ requests.filter (·.passes targets settings) ↔
      request ∈ history ++ requests'.filter (·.passes targets settings) := by
    intro request
    simp only [List.mem_append, List.mem_filter, hperm.mem_iff]
  refine ⟨_, _, htable.1, htable'.1, htable.2, htable'.2, ?_, ?_, fun t => ?_, fun hkept => ?_⟩
  · rw [ConstraintTable.targets_ofHistory, ConstraintTable.targets_ofHistory]
  · rw [ConstraintTable.targets_ofHistory, ConstraintTable.targets_ofHistory]
  · rw [ConstraintTable.get?_ofHistory, ConstraintTable.get?_ofHistory]
    split_ifs
    · exact .some (Record.alikeButEqualities_ofHistory t hmem)
    · exact .none
  · refine ConstraintTable.equiv_ofHistory _ _ hmem fun t => ?_
    rw [List.filter_append, List.filter_append, List.filter_comm, hkept, List.filter_comm]

/-- Two relations and two equalities the other way round. The hierarchies of the relation change
places, and the tables are equal all the same. -/
theorem Workspace.run_submits_perm_at_reverse :
    let requests : List Request :=
      [.relateTarget .supertype ⟨"T", "Box"⟩ ⟨"U", "Box"⟩ [⟨.ofName "Nullable"⟩],
        .filePrimaries .equality ⟨"T", "Box"⟩ ⟨fun _ => some ⟨.ofName "Nullable"⟩, .empty⟩
          [.ofName "NonNull"],
        .relateTarget .supertype ⟨"T", "Box"⟩ ⟨"U", "Box"⟩ [⟨.ofName "Mutable"⟩],
        .filePrimaries .equality ⟨"U", "Box"⟩ ⟨fun _ => some ⟨.ofName "Nullable"⟩, .empty⟩
          [.ofName "Nullable"]]
    (empty.run [.create "main" [⟨"T", "Box"⟩, ⟨"U", "Box"⟩] .standard]).1.table "main" =
        some (.ofTargets [⟨"T", "Box"⟩, ⟨"U", "Box"⟩] .standard) ∧
      requests.Perm requests.reverse ∧
      (∀ t, requests.filter (·.filesEqualities t) =
        requests.reverse.filter (·.filesEqualities t)) ∧
      ∃ n n', ((empty.run [.create "main" [⟨"T", "Box"⟩, ⟨"U", "Box"⟩] .standard]).1.run
          (requests.map (.submit "main"))).1.table "main" = some n ∧
        ((empty.run [.create "main" [⟨"T", "Box"⟩, ⟨"U", "Box"⟩] .standard]).1.run
          (requests.reverse.map (.submit "main"))).1.table "main" = some n' ∧
        n.equiv n' = true := by
  intro requests
  have htable : (empty.run [.create "main" [⟨"T", "Box"⟩, ⟨"U", "Box"⟩] .standard]).1.table "main" =
      some (.ofTargets [⟨"T", "Box"⟩, ⟨"U", "Box"⟩] .standard) := by decide
  have hperm : requests.Perm requests.reverse := (List.reverse_perm requests).symm
  have hkept : ∀ t, requests.filter (·.filesEqualities t) =
      requests.reverse.filter (·.filesEqualities t) := by
    intro t
    by_cases hT : (⟨"T", "Box"⟩ : Target) = t
    · subst hT
      rfl
    · by_cases hU : (⟨"U", "Box"⟩ : Target) = t
      · subst hU
        rfl
      · simp [requests, Request.filesEqualities, hT, hU]
  obtain ⟨n, n', hn, hn', _, _, _, _, _, hequiv⟩ := run_submits_perm _ "main" htable hperm
  exact ⟨htable, hperm, hkept, n, n', hn, hn', hequiv hkept⟩

/-- Equalities of one target do not change places. -/
example :
    let file (name : String) : Step := .submit "main" (.filePrimaries .equality ⟨"T", "Box"⟩
      ⟨fun _ => some ⟨.ofName "Nullable"⟩, .empty⟩ [.ofName name])
    let w := Workspace.empty.create "main" [⟨"T", "Box"⟩] .standard
    ((w.run [file "NonNull", file "Nullable"]).1.table "main").bind (fun n =>
      ((w.run [file "Nullable", file "NonNull"]).1.table "main").map n.equiv) = some false := by
  decide

end QualifierConstraints
