import Mathlib.Data.List.Chain
import QualifierConstraints.Proofs.Origins
import QualifierConstraints.Proofs.Unordered

set_option autoImplicit false

namespace QualifierConstraints

structure PrimaryBounds.WellFormed (p : PrimaryBounds) : Prop where
  distinct : p.byHierarchy.keys.Nodup
  sets : ∀ qs ∈ p.byHierarchy.values, qs.toList.Nodup
  nonempty : ∀ qs ∈ p.byHierarchy.values, qs.isEmpty = false

def Kind.WellFormedPrimaries : (k : Kind) → k.Primaries → Prop
  | .equality, p => p.byHierarchy.keys.Nodup
  | .supertype, p => p.WellFormed
  | .subtype, p => p.WellFormed

structure Relations.WellFormed (k : Kind) (r : Relations k.Primaries) : Prop where
  targets : r.targets.keys.Nodup
  targetSets : ∀ hs ∈ r.targets.values, hs.toList.Nodup
  types : r.types.keys.Nodup
  typeSets : ∀ hs ∈ r.types.values, hs.toList.Nodup
  primaries : k.WellFormedPrimaries r.primaries

namespace ConstraintTable

structure WellFormed (m : ConstraintTable) : Prop where
  distinct : m.records.keys.Nodup
  /-- The records come in the order of the targets. -/
  ordered : m.records.values.map Record.target = m.targets
  keyed : ∀ t record, m.get? t = some record → record.target = t
  relations : ∀ record ∈ m.records.values, ∀ k, (record.relations k).WellFormed k
  closed : ∀ record ∈ m.records.values, ∀ k, ∀ other ∈ (record.relations k).targets.keys,
    other ∈ m.targets

/-- The record of `t` relates it to the target `other` in some way. -/
def Leads (m : ConstraintTable) (t other : Target) : Prop :=
  ∃ record k, m.record t = .ok record ∧ other ∈ (record.relations k).targets.keys

end ConstraintTable

theorem Kind.wellFormed_primariesOf (k : Kind) (filed : List (Hierarchy × Qualifier)) :
    k.WellFormedPrimaries (k.primariesOf filed) := by
  have hbounds : (PrimaryBounds.mk (.collect .withoutRepeats filed)).WellFormed := by
    refine ⟨OrderedMap.nodup _, fun qs _ => qs.nodup, fun qs hqs => ?_⟩
    obtain ⟨key, ⟨q, hq⟩, rfl⟩ := OrderedMap.mem_values_collect.1 hqs
    have hmem : q ∈ OrderedSet.withoutRepeats (OrderedMap.valuesAt key filed) :=
      (OrderedSet.mem_withoutRepeats _ q).2 (OrderedMap.mem_valuesAt.2 hq)
    exact List.isEmpty_eq_false_iff.2 (List.ne_nil_of_mem hmem)
  cases k with
  | equality => exact OrderedMap.nodup _
  | supertype => exact hbounds
  | subtype => exact hbounds

theorem Relations.wellFormed_ofHistory (k : Kind) (t : Target) (history : List Request) :
    (Relations.ofHistory k t history).WellFormed k where
  targets := OrderedMap.nodup _
  targetSets hs _ := hs.nodup
  types := OrderedMap.nodup _
  typeSets hs _ := hs.nodup
  primaries := k.wellFormed_primariesOf _

theorem Relations.mem_targets_ofHistory {k : Kind} {t other : Target} {history : List Request} :
    other ∈ (ofHistory k t history).targets.keys ↔
      ∃ hs, .relateTarget k t other hs ∈ history := by
  rw [ofHistory, OrderedMap.mem_keys_collect]
  simp only [List.mem_filterMap, Request.targetRelation_eq_some_iff, exists_eq_right]

namespace ConstraintTable

theorem mem_values_ofHistory {targets : List Target} {settings : Settings}
    {history : List Request} {record : Record}
    (h : record ∈ (ofHistory targets settings history).records.values) :
    ∃ t, record = .ofHistory t history := by
  obtain ⟨e, he, rfl⟩ := List.mem_map.1 h
  obtain ⟨t, _, rfl⟩ := List.mem_map.1 he
  exact ⟨t, rfl⟩

theorem wellFormed_ofHistory {targets : List Target} {settings : Settings}
    {history : List Request} (h : ∀ request ∈ history, request.passes targets settings = true) :
    (ofHistory targets settings history).WellFormed where
  distinct := OrderedMap.nodup _
  ordered := by
    rw [targets_ofHistory, ofHistory, OrderedMap.values_tabulate, List.map_map]
    exact List.map_id targets.eraseDups
  keyed t record hr := by
    rw [get?_ofHistory] at hr
    split_ifs at hr
    exact congrArg Record.target (Option.some.inj hr).symm
  relations record hr k := by
    obtain ⟨t, rfl⟩ := mem_values_ofHistory hr
    rw [Record.relations_ofHistory]
    exact Relations.wellFormed_ofHistory k t history
  closed record hr k other ho := by
    obtain ⟨t, rfl⟩ := mem_values_ofHistory hr
    rw [Record.relations_ofHistory] at ho
    obtain ⟨hs, hmem⟩ := Relations.mem_targets_ofHistory.1 ho
    rw [targets_ofHistory, List.mem_eraseDups]
    exact Request.other_mem_of_passes (h _ hmem)

theorem GoesBackTo.wellFormed {m : ConstraintTable} {d : Declaration} (h : m.GoesBackTo d) :
    m.WellFormed := by
  obtain ⟨history, hpass, rfl⟩ := h
  exact wellFormed_ofHistory hpass

theorem GoesBackTo.targets_eq {m : ConstraintTable} {d : Declaration} (h : m.GoesBackTo d) :
    m.targets = d.targets.eraseDups := by
  obtain ⟨history, _, rfl⟩ := h
  exact targets_ofHistory d.targets d.settings history

theorem GoesBackTo.settings_eq {m : ConstraintTable} {d : Declaration} (h : m.GoesBackTo d) :
    m.settings = d.settings := by
  obtain ⟨history, _, rfl⟩ := h
  rfl

variable {m : ConstraintTable}

theorem record_eq_ok_iff {t : Target} {record : Record} :
    m.record t = .ok record ↔ m.get? t = some record := by
  rw [ConstraintTable.record]
  cases m.get? t <;> simp

theorem WellFormed.relations_of_get? (h : m.WellFormed) {t : Target} {record : Record}
    (hr : m.get? t = some record) (k : Kind) : (record.relations k).WellFormed k :=
  h.relations record (List.mem_map_of_mem (OrderedMap.mem_entries_of_get? hr)) k

theorem WellFormed.exists_record (h : m.WellFormed) {t : Target} (ht : t ∈ m.targets) :
    ∃ record, m.record t = .ok record ∧ record.target = t := by
  obtain ⟨record, hr⟩ := Option.isSome_iff_exists.1 ((OrderedMap.isSome_get?_iff m.records t).2 ht)
  exact ⟨record, record_eq_ok_iff.2 hr, h.keyed t record hr⟩

theorem WellFormed.mem_targets_of_leads (h : m.WellFormed) {t other : Target}
    (hl : m.Leads t other) : other ∈ m.targets := by
  obtain ⟨record, k, hr, ho⟩ := hl
  have hget := record_eq_ok_iff.1 hr
  exact h.closed record (List.mem_map_of_mem (OrderedMap.mem_entries_of_get? hget)) k other ho

theorem WellFormed.exists_record_of_path (h : m.WellFormed) {t : Target} (ht : t ∈ m.targets)
    {path : List Target} (hp : (t :: path).IsChain m.Leads) :
    ∀ u ∈ t :: path, ∃ record, m.record u = .ok record ∧ record.target = u := by
  induction path generalizing t with
  | nil =>
    intro u hu
    rw [List.mem_singleton.1 hu]
    exact h.exists_record ht
  | cons next path ih =>
    obtain ⟨hl, hrest⟩ := List.isChain_cons_cons.1 hp
    rw [List.forall_mem_cons]
    exact ⟨h.exists_record ht, ih (h.mem_targets_of_leads hl) hrest⟩

end ConstraintTable

/-- After any steps every table has the targets and settings of the declaration that it goes back
to, is well-formed, and lets recorded relations be followed from any of its targets along any path,
with a record for each target on the way. -/
theorem Workspace.table_wellFormed (steps : List Step) (name : String) :
    ((empty.run steps).1.table name).map (fun m => (m.targets, m.settings)) =
      (origin steps.reverse name).map (fun d => (d.targets.eraseDups, d.settings)) ∧
    ∀ m, (empty.run steps).1.table name = some m → m.WellFormed ∧
      ∀ t ∈ m.targets, ∀ path : List Target, (t :: path).IsChain m.Leads →
        ∀ u ∈ t :: path, ∃ record, m.record u = .ok record ∧ record.target = u := by
  have hrel := table_goesBackTo steps name
  generalize (empty.run steps).1.table name = found at hrel ⊢
  generalize origin steps.reverse name = declared at hrel ⊢
  cases hrel with
  | none => exact ⟨rfl, fun m hm => by cases hm⟩
  | some h =>
    refine ⟨?_, fun m hm => ?_⟩
    · rw [Option.map_some, Option.map_some, h.targets_eq, h.settings_eq]
    · obtain rfl := Option.some.inj hm
      exact ⟨h.wellFormed, fun t ht path => h.wellFormed.exists_record_of_path ht⟩

end QualifierConstraints
