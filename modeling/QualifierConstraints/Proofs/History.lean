import QualifierConstraints.ConstraintTable
import QualifierConstraints.Proofs.Acceptance
import QualifierConstraints.Proofs.FirstOccurrence

/-!
# Tables as histories of requests

What a table holds is a function of the requests that it accepted, in their order. `ofHistory` says
which one, without any request being carried out: every entry is read off the list of requests.
The main statement is `submitAll_ofHistory`: a run leaves the table of the longer history.
-/

set_option autoImplicit false

namespace QualifierConstraints

namespace Request

/-- The other target and the hierarchies, if the request relates `t` to a target in the way `k`. -/
def targetRelation (k : Kind) (t : Target) : Request → Option (Target × List Hierarchy)
  | .relateTarget k' t' other hs => if k' = k ∧ t' = t then some (other, hs) else none
  | _ => none

def typeRelation (k : Kind) (t : Target) : Request → Option (AnnotatedType × List Hierarchy)
  | .relateType k' t' type hs => if k' = k ∧ t' = t then some (type, hs) else none
  | _ => none

/-- The qualifiers with their hierarchies, if the request files some for `t` in the way `k`. -/
def filings (k : Kind) (t : Target) : Request → List (Hierarchy × Qualifier)
  | .filePrimaries k' t' r qs => if k' = k ∧ t' = t then r.placements qs else []
  | _ => []

theorem targetRelation_eq_some_iff {k : Kind} {t other : Target} {hs : List Hierarchy}
    {request : Request} : request.targetRelation k t = some (other, hs) ↔
      request = .relateTarget k t other hs := by
  cases request <;> simp [targetRelation, and_assoc]

theorem mem_filings {k : Kind} {t : Target} {entry : Hierarchy × Qualifier} {request : Request} :
    entry ∈ request.filings k t ↔
      ∃ r qs, request = .filePrimaries k t r qs ∧ entry ∈ r.placements qs := by
  cases request with
  | relateTarget | relateType => simp [filings]
  | filePrimaries k' t' r qs =>
    rw [filings]
    split_ifs with h
    · obtain ⟨rfl, rfl⟩ := h
      simp
    · simp only [List.not_mem_nil, false_iff]
      rintro ⟨_, _, he, _⟩
      cases he
      exact h ⟨rfl, rfl⟩

end Request

def allHierarchies (hss : List (List Hierarchy)) : OrderedSet Hierarchy :=
  .withoutRepeats hss.flatten

/-- Of filed qualifiers an equality keeps the first of each hierarchy, a bound each one once. -/
def Kind.primariesOf : (k : Kind) → List (Hierarchy × Qualifier) → k.Primaries
  | .equality, filed => ⟨.firsts filed⟩
  | .supertype, filed => ⟨.collect .withoutRepeats filed⟩
  | .subtype, filed => ⟨.collect .withoutRepeats filed⟩

def Relations.ofHistory (k : Kind) (t : Target) (history : List Request) :
    Relations k.Primaries :=
  ⟨.collect allHierarchies (history.filterMap (Request.targetRelation k t)),
    .collect allHierarchies (history.filterMap (Request.typeRelation k t)),
    k.primariesOf (history.flatMap (Request.filings k t))⟩

def Record.ofHistory (t : Target) (history : List Request) : Record :=
  ⟨t, .ofHistory .equality t history, .ofHistory .supertype t history,
    .ofHistory .subtype t history⟩

/-- A record for each declared target, repeated declarations counting once. -/
def ConstraintTable.ofHistory (targets : List Target) (settings : Settings)
    (history : List Request) : ConstraintTable :=
  ⟨.tabulate (.withoutRepeats targets) fun t => .ofHistory t history, settings⟩

namespace Record

theorem ext_relations {r s : Record} (ht : r.target = s.target)
    (h : ∀ k, r.relations k = s.relations k) : r = s := by
  obtain ⟨t, e, sup, sub⟩ := r
  obtain ⟨t', e', sup', sub'⟩ := s
  have he : e = e' := h .equality
  have hsup : sup = sup' := h .supertype
  have hsub : sub = sub' := h .subtype
  change t = t' at ht
  rw [ht, he, hsup, hsub]

theorem relations_ofHistory (t : Target) (history : List Request) (k : Kind) :
    (ofHistory t history).relations k = .ofHistory k t history := by
  cases k <;> rfl

end Record

theorem collect_hierarchies_concat {κ : Type} [DecidableEq κ] (xs : List (κ × List Hierarchy))
    (key : κ) (hs : List Hierarchy) :
    OrderedMap.collect allHierarchies (xs ++ [(key, hs)]) =
      (OrderedMap.collect allHierarchies xs).unionAt key (.ofList hs) := by
  refine OrderedMap.collect_concat allHierarchies (fun hs s => s.union (.ofList hs)) ?_ xs key hs
  intro hss hs
  rw [allHierarchies, allHierarchies, List.flatten_append, List.flatten_singleton,
    OrderedSet.withoutRepeats_eq_ofList, OrderedSet.withoutRepeats_eq_ofList,
    OrderedSet.ofList_append]

theorem collect_qualifiers_concat (filed : List (Hierarchy × Qualifier)) (h : Hierarchy)
    (q : Qualifier) :
    OrderedMap.collect OrderedSet.withoutRepeats (filed ++ [(h, q)]) =
      (OrderedMap.collect OrderedSet.withoutRepeats filed).upsert h .empty (·.insert q) := by
  refine OrderedMap.collect_concat OrderedSet.withoutRepeats (fun q s => s.insert q) ?_ filed h q
  intro qs q
  rw [OrderedSet.withoutRepeats_eq_ofList, OrderedSet.withoutRepeats_eq_ofList,
    OrderedSet.ofList_concat]

theorem Kind.merge_primariesOf (k : Kind) (filed : List (Hierarchy × Qualifier)) (h : Hierarchy)
    (q : Qualifier) :
    (PrimaryStore.merge (k.primariesOf filed) h q).1 = k.primariesOf (filed ++ [(h, q)]) := by
  cases k with
  | equality => exact congrArg PrimaryEqualities.mk (OrderedMap.firsts_concat filed h q).symm
  | supertype => exact congrArg PrimaryBounds.mk (collect_qualifiers_concat filed h q).symm
  | subtype => exact congrArg PrimaryBounds.mk (collect_qualifiers_concat filed h q).symm

theorem Kind.mergeAll_primariesOf (k : Kind) (filed entries : List (Hierarchy × Qualifier)) :
    (PrimaryStore.mergeAll (k.primariesOf filed) entries).1 = k.primariesOf (filed ++ entries) := by
  induction entries generalizing filed with
  | nil => rw [List.append_nil]; rfl
  | cons e entries ih =>
    obtain ⟨h, q⟩ := e
    change (PrimaryStore.mergeAll (PrimaryStore.merge (k.primariesOf filed) h q).1 entries).1 = _
    rw [merge_primariesOf, ih, List.append_assoc, List.singleton_append]

namespace Relations

/-- A request leaves its effect among the relations of its kind and target. -/
theorem ofHistory_concat_of_eq {k : Kind} {t : Target} {request : Request}
    (h : request.kind = k ∧ request.target = t) (history : List Request) :
    ofHistory k t (history ++ [request]) = ((ofHistory k t history).edit request.effect).1 := by
  obtain ⟨rfl, rfl⟩ := h
  cases request with
  | relateTarget k t other hs =>
    change ofHistory k t _ = (ofHistory k t history).relateTarget other (.ofList hs)
    simp [ofHistory, relateTarget, Request.targetRelation, Request.typeRelation, Request.filings,
      List.filterMap_cons, collect_hierarchies_concat]
  | relateType k t type hs =>
    change ofHistory k t _ = (ofHistory k t history).relateType type (.ofList hs)
    simp [ofHistory, relateType, Request.targetRelation, Request.typeRelation, Request.filings,
      List.filterMap_cons, collect_hierarchies_concat]
  | filePrimaries k t r qs =>
    change ofHistory k t _ = ((ofHistory k t history).filePrimaries (r.placements qs)).1
    simp [ofHistory, filePrimaries, Request.targetRelation, Request.typeRelation, Request.filings,
      List.filterMap_cons, Kind.mergeAll_primariesOf]

theorem ofHistory_concat_of_other {k : Kind} {t : Target} {request : Request}
    (h : ¬ (request.kind = k ∧ request.target = t)) (history : List Request) :
    ofHistory k t (history ++ [request]) = ofHistory k t history := by
  cases request with
  | relateTarget k' t' other hs =>
    have hr : Request.targetRelation k t (.relateTarget k' t' other hs) = none := if_neg h
    simp [ofHistory, hr, Request.typeRelation, Request.filings, List.filterMap_cons]
  | relateType k' t' type hs =>
    have hr : Request.typeRelation k t (.relateType k' t' type hs) = none := if_neg h
    simp [ofHistory, hr, Request.targetRelation, Request.filings, List.filterMap_cons]
  | filePrimaries k' t' r qs =>
    have hr : Request.filings k t (.filePrimaries k' t' r qs) = [] := if_neg h
    simp [ofHistory, hr, Request.targetRelation, Request.typeRelation, List.filterMap_cons]

end Relations

namespace Record

theorem ofHistory_concat_of_ne {t : Target} {request : Request} (h : t ≠ request.target)
    (history : List Request) : ofHistory t (history ++ [request]) = ofHistory t history := by
  refine ext_relations rfl fun k => ?_
  rw [relations_ofHistory, relations_ofHistory]
  exact Relations.ofHistory_concat_of_other (fun hk => h hk.2.symm) history

theorem apply_ofHistory {request : Request} {declared : Target → Bool} {settings : Settings}
    {e : Edit} (h : request.edit declared settings = .ok e) (history : List Request) :
    (e.apply request.kind (ofHistory request.target history)).1 =
      ofHistory request.target (history ++ [request]) := by
  obtain rfl := Request.eq_effect_of_edit_eq_ok h
  refine ext_relations (Edit.target_apply _ _ _) fun j => ?_
  rw [relations_ofHistory]
  by_cases hj : j = request.kind
  · subst hj
    rw [Edit.relations_apply_self, relations_ofHistory,
      Relations.ofHistory_concat_of_eq ⟨rfl, rfl⟩]
  · rw [Edit.relations_apply_of_ne hj, relations_ofHistory,
      Relations.ofHistory_concat_of_other fun hk => hj hk.1.symm]

end Record

namespace ConstraintTable

theorem ofTargets_eq_ofHistory (targets : List Target) (settings : Settings) :
    ofTargets targets settings = ofHistory targets settings [] := by
  rw [ofTargets, OrderedMap.ofKeys_eq_tabulate]
  rfl

theorem targets_ofHistory (targets : List Target) (settings : Settings) (history : List Request) :
    (ofHistory targets settings history).targets = targets.eraseDups :=
  OrderedMap.keys_tabulate _ _

theorem ofHistory_congr (targets : List Target) (settings : Settings)
    {history history' : List Request}
    (h : ∀ k t, Relations.ofHistory k t history = Relations.ofHistory k t history') :
    ofHistory targets settings history = ofHistory targets settings history' := by
  refine congrArg (ConstraintTable.mk · settings) (OrderedMap.tabulate_congr fun t _ => ?_)
  refine Record.ext_relations rfl fun k => ?_
  rw [Record.relations_ofHistory, Record.relations_ofHistory, h k t]

theorem get?_ofHistory (targets : List Target) (settings : Settings) (history : List Request)
    (t : Target) : (ofHistory targets settings history).get? t =
      if t ∈ targets then some (.ofHistory t history) else none := by
  refine (OrderedMap.get?_tabulate _ _ t).trans ?_
  simp only [OrderedSet.mem_withoutRepeats]

def accepted (m : ConstraintTable) (requests : List Request) : List Request :=
  ((requests.zip (m.submitAll requests).2).filter (·.2.result.isOk)).map Prod.fst

theorem accepted_cons (m : ConstraintTable) (request : Request) (requests : List Request) :
    m.accepted (request :: requests) =
      (if (m.submit request).2.result.isOk then [request] else []) ++
        (m.submit request).1.accepted requests := by
  rw [accepted, submitAll, List.zip_cons_cons, List.filter_cons]
  split_ifs <;> rfl

theorem submit_ofHistory (targets : List Target) (settings : Settings) (history : List Request)
    (request : Request) :
    ((ofHistory targets settings history).submit request).1 =
      ofHistory targets settings (history ++
        if ((ofHistory targets settings history).submit request).2.result.isOk then [request]
        else []) := by
  cases ha : request.accept (ofHistory targets settings history).get? settings with
  | error e =>
    rw [submit_of_accept_error ha]
    simp [Except.isOk, Except.toBool]
  | ok found =>
    obtain ⟨record, e⟩ := found
    rw [submit_of_accept_ok ha]
    obtain ⟨hfind, hedit⟩ := Request.accept_eq_ok_iff.1 ha
    rw [get?_ofHistory] at hfind
    split_ifs at hfind with hmem
    have hrecord : record = Record.ofHistory request.target history :=
      (Option.some.inj hfind).symm
    simp only [Except.isOk, Except.toBool, if_true]
    refine congrArg (ConstraintTable.mk · settings) ?_
    change (OrderedMap.tabulate _ _).set _ _ = _
    rw [hrecord, Record.apply_ofHistory hedit,
      OrderedMap.set_tabulate ((OrderedSet.mem_withoutRepeats targets _).2 hmem)]
    refine OrderedMap.tabulate_congr fun t _ => ?_
    by_cases ht : t = request.target
    · rw [if_pos ht, ht]
    · rw [if_neg ht, Record.ofHistory_concat_of_ne ht]

theorem submitAll_ofHistory (targets : List Target) (settings : Settings)
    (history requests : List Request) :
    ((ofHistory targets settings history).submitAll requests).1 =
      ofHistory targets settings
        (history ++ (ofHistory targets settings history).accepted requests) := by
  induction requests generalizing history with
  | nil =>
    change _ = ofHistory targets settings (history ++ [])
    rw [List.append_nil]
    rfl
  | cons request requests ih =>
    rw [accepted_cons, submitAll, submit_ofHistory, ih, List.append_assoc]

end ConstraintTable
end QualifierConstraints
