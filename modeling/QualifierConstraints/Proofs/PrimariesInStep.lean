import Mathlib.Data.List.Nodup
import QualifierConstraints.Proofs.Replays
import QualifierConstraints.Proofs.TypeQualifiers

set_option autoImplicit false

namespace QualifierConstraints

namespace PrimaryStore

variable {P : Type} [PrimaryStore P]

/-- What is left when the qualifiers are filed one after the other, from the start. -/
def ofEntries (entries : List (Hierarchy × Qualifier)) : P := (mergeAll empty entries).1

theorem merge_ofEntries (entries : List (Hierarchy × Qualifier)) (h : Hierarchy) (q : Qualifier) :
    (merge (ofEntries entries : P) h q).1 = ofEntries (entries ++ [(h, q)]) := by
  rw [ofEntries, ofEntries, mergeAll_append]
  rfl

end PrimaryStore

open PrimaryStore (ofEntries merge_ofEntries)

namespace PrimaryEqualities

theorem merge_eq_self_iff (p : PrimaryEqualities) (h : Hierarchy) (q : Qualifier) :
    (PrimaryStore.merge p h q).1 = p ↔ h ∈ p.byHierarchy.keys := by
  rw [merge_eq]
  constructor
  · intro he
    have hkeys := congrArg (fun r : PrimaryEqualities => r.byHierarchy.keys) he
    rw [OrderedMap.keys_insertNew] at hkeys
    by_contra hh
    rw [if_neg hh] at hkeys
    simp at hkeys
  · intro hh
    exact congrArg PrimaryEqualities.mk (OrderedMap.insertNew_of_mem hh q)

theorem equiv_merge_iff (p : PrimaryEqualities) (h : Hierarchy) (q : Qualifier) :
    PrimaryStore.equiv (PrimaryStore.merge p h q).1 p = true ↔ h ∈ p.byHierarchy.keys := by
  constructor
  · intro he
    obtain ⟨hkeys, _⟩ := OrderedMap.equiv_iff.1 he
    refine (hkeys h).1 ?_
    rw [merge_eq, OrderedMap.keys_insertNew]
    split_ifs with hh
    · exact hh
    · simp
  · intro hh
    rw [(merge_eq_self_iff p h q).2 hh]
    exact OrderedMap.equiv_refl fun q _ => beq_self_eq_true q

end PrimaryEqualities

namespace PrimaryBounds

def pairs (b : PrimaryBounds) : List (Hierarchy × Qualifier) :=
  b.byHierarchy.entries.flatMap fun e => e.2.toList.map (e.1, ·)

theorem mem_pairs_iff {b : PrimaryBounds} {h : Hierarchy} {q : Qualifier} :
    (h, q) ∈ b.pairs ↔ ∃ qs, b.get? h = some qs ∧ q ∈ qs := by
  rw [pairs, List.mem_flatMap]
  constructor
  · rintro ⟨⟨top, qs⟩, he, hq⟩
    obtain ⟨_, hq, heq⟩ := List.mem_map.1 hq
    cases heq
    exact ⟨qs, OrderedMap.get?_of_mem_entries he, hq⟩
  · rintro ⟨qs, hqs, hq⟩
    exact ⟨(h, qs), OrderedMap.mem_entries_of_get? hqs, List.mem_map_of_mem hq⟩

theorem nodup_pairs (b : PrimaryBounds) : b.pairs.Nodup := by
  rw [pairs, List.nodup_flatMap]
  constructor
  · intro e _
    exact e.2.nodup.map fun _ _ heq => (Prod.mk.inj heq).2
  · refine (List.pairwise_map.1 b.byHierarchy.nodup).imp fun hne => ?_
    intro pair hpair hpair'
    obtain ⟨_, _, rfl⟩ := List.mem_map.1 hpair
    obtain ⟨_, _, heq⟩ := List.mem_map.1 hpair'
    exact hne (congrArg Prod.fst heq).symm

theorem mem_pairs_of_equiv {b c : PrimaryBounds} (he : PrimaryStore.equiv b c = true)
    {h : Hierarchy} {q : Qualifier} (hq : (h, q) ∈ b.pairs) : (h, q) ∈ c.pairs := by
  obtain ⟨hkeys, halike⟩ := OrderedMap.equiv_iff.1 he
  obtain ⟨qs, hqs, hmem⟩ := mem_pairs_iff.1 hq
  have hkey : h ∈ c.byHierarchy.keys := (hkeys h).1 (OrderedMap.mem_keys_of_get? hqs)
  obtain ⟨rs, hrs⟩ := Option.isSome_iff_exists.1 ((OrderedMap.isSome_get?_iff _ h).2 hkey)
  have hsame := OrderedSet.equiv_iff.1 (halike h qs rs hqs hrs)
  exact mem_pairs_iff.2 ⟨rs, hrs, (hsame q).1 hmem⟩

theorem equiv_refl (b : PrimaryBounds) : PrimaryStore.equiv b b = true :=
  OrderedMap.equiv_refl fun _ _ => OrderedSet.equiv_iff.2 fun _ => Iff.rfl

theorem keys_merge_eq_iff (b : PrimaryBounds) (h : Hierarchy) (q : Qualifier) :
    (PrimaryStore.merge b h q).1.byHierarchy.keys = b.byHierarchy.keys ↔
      h ∈ b.byHierarchy.keys := by
  change (b.byHierarchy.upsert h .empty (·.insert q)).keys = _ ↔ _
  rw [OrderedMap.keys_upsert]
  split_ifs with hh <;> simp [hh]

theorem ofEntries_eq (entries : List (Hierarchy × Qualifier)) :
    (ofEntries entries : PrimaryBounds) = ⟨.collect .withoutRepeats entries⟩ :=
  Kind.mergeAll_primariesOf .supertype [] entries

theorem wellFormed_ofEntries (entries : List (Hierarchy × Qualifier)) :
    (ofEntries entries : PrimaryBounds).WellFormed := by
  rw [ofEntries_eq]
  exact Kind.wellFormed_primariesOf .supertype entries

theorem mem_pairs_ofEntries {entries : List (Hierarchy × Qualifier)} {e : Hierarchy × Qualifier} :
    e ∈ (ofEntries entries : PrimaryBounds).pairs ↔ e ∈ entries := by
  obtain ⟨h, q⟩ := e
  rw [mem_pairs_iff, ofEntries_eq]
  change (∃ qs, (OrderedMap.collect _ entries).get? h = some qs ∧ q ∈ qs) ↔ _
  simp only [OrderedMap.get?_collect_eq_some_iff]
  constructor
  · rintro ⟨_, ⟨_, rfl⟩, hq⟩
    exact OrderedMap.mem_valuesAt.1 ((OrderedSet.mem_withoutRepeats _ q).1 hq)
  · intro he
    exact ⟨_, ⟨⟨q, he⟩, rfl⟩, (OrderedSet.mem_withoutRepeats _ q).2 (OrderedMap.mem_valuesAt.2 he)⟩

theorem merge_ofEntries_of_mem {entries : List (Hierarchy × Qualifier)} {h : Hierarchy}
    {q : Qualifier} (hq : (h, q) ∈ entries) :
    (PrimaryStore.merge (ofEntries entries : PrimaryBounds) h q).1 = ofEntries entries := by
  rw [ofEntries_eq]
  exact congrArg PrimaryBounds.mk (upsert_collect_qualifiers_of_mem hq)

theorem equiv_merge_ofEntries_iff (entries : List (Hierarchy × Qualifier)) (h : Hierarchy)
    (q : Qualifier) :
    PrimaryStore.equiv (PrimaryStore.merge (ofEntries entries : PrimaryBounds) h q).1
      (ofEntries entries) = true ↔ (h, q) ∈ entries := by
  constructor
  · intro he
    rw [merge_ofEntries] at he
    exact mem_pairs_ofEntries.1 (mem_pairs_of_equiv he (mem_pairs_ofEntries.2 (by simp)))
  · intro hq
    rw [merge_ofEntries_of_mem hq]
    exact equiv_refl _

theorem merge_ofEntries_eq_self_iff (entries : List (Hierarchy × Qualifier)) (h : Hierarchy)
    (q : Qualifier) :
    (PrimaryStore.merge (ofEntries entries : PrimaryBounds) h q).1 = ofEntries entries ↔
      (h, q) ∈ entries := by
  constructor
  · intro he
    rw [← equiv_merge_ofEntries_iff, he]
    exact equiv_refl _
  · exact merge_ofEntries_of_mem

end PrimaryBounds

namespace PrimaryStore

/-- The same hierarchies in the same order, and what an equality has comes first among bounds. -/
structure InStep (p : PrimaryEqualities) (b : PrimaryBounds) : Prop where
  keys : p.byHierarchy.keys = b.byHierarchy.keys
  first : ∀ h, b.first? h = p.get? h

variable {p : PrimaryEqualities} {b : PrimaryBounds}

theorem inStep_empty : InStep empty empty := ⟨rfl, fun _ => rfl⟩

theorem InStep.merge (hpb : InStep p b) (h : Hierarchy) (q : Qualifier) :
    InStep (merge p h q).1 (merge b h q).1 where
  keys := by
    change (p.byHierarchy.insertNew h q).keys = (b.byHierarchy.upsert h .empty (·.insert q)).keys
    rw [OrderedMap.keys_insertNew, OrderedMap.keys_upsert, hpb.keys]
  first top := by
    rw [PrimaryBounds.first?_merge, hpb.first]
    exact (OrderedMap.get?_insertNew p.byHierarchy h top q).symm

theorem InStep.mergeAll (hpb : InStep p b) (entries : List (Hierarchy × Qualifier)) :
    InStep (mergeAll p entries).1 (mergeAll b entries).1 := by
  induction entries generalizing p b with
  | nil => exact hpb
  | cons e entries ih => exact ih (hpb.merge e.1 e.2)

/-- However many qualifiers were filed, both stores hold the same hierarchies in the same order, the
bounds of each start with its equality, and they are the distinct pairs that were filed. One more
qualifier is discarded among equalities exactly if the bounds get no new hierarchy, and exactly then
the equalities stay as they are; it is always kept among bounds, and they stay as they are exactly
if it was filed before. What changes does so even without regard to order. -/
theorem merge_in_step (entries : List (Hierarchy × Qualifier)) (h : Hierarchy) (q : Qualifier) :
    let p : PrimaryEqualities := ofEntries entries
    let b : PrimaryBounds := ofEntries entries
    (p.byHierarchy.keys = b.byHierarchy.keys ∧ ∀ top, b.StartWith top (p.get? top)) ∧
    (b.pairs.Nodup ∧ ∀ e, e ∈ b.pairs ↔ e ∈ entries) ∧
    ((merge p h q).2 = false ↔ (merge b h q).1.byHierarchy.keys = b.byHierarchy.keys) ∧
    ((merge p h q).2 = false ↔ (merge p h q).1 = p) ∧
    ((merge p h q).1 = p ↔ equiv (merge p h q).1 p = true) ∧
    (merge b h q).2 = true ∧
    ((merge b h q).1 = b ↔ (h, q) ∈ entries) ∧
    ((merge b h q).1 = b ↔ equiv (merge b h q).1 b = true) := by
  intro p b
  have hpb : InStep p b := inStep_empty.mergeAll entries
  have hb : b.WellFormed := PrimaryBounds.wellFormed_ofEntries entries
  refine ⟨⟨hpb.keys, fun top => hb.startWith (hpb.first top)⟩,
    ⟨PrimaryBounds.nodup_pairs b, fun e => PrimaryBounds.mem_pairs_ofEntries⟩, ?_, ?_, ?_, rfl,
    PrimaryBounds.merge_ofEntries_eq_self_iff entries h q, ?_⟩
  · rw [PrimaryEqualities.kept_eq_false_iff, PrimaryBounds.keys_merge_eq_iff, hpb.keys]
  · rw [PrimaryEqualities.kept_eq_false_iff, PrimaryEqualities.merge_eq_self_iff]
  · rw [PrimaryEqualities.merge_eq_self_iff, PrimaryEqualities.equiv_merge_iff]
  · rw [PrimaryBounds.merge_ofEntries_eq_self_iff, PrimaryBounds.equiv_merge_ofEntries_iff]

end PrimaryStore
end QualifierConstraints
