import Mathlib.Data.List.Perm.Subperm
import QualifierConstraints.Proofs.History

set_option autoImplicit false

namespace QualifierConstraints

/-- Without repeats, as many elements and each one found again is the same elements. -/
theorem length_eq_and_subset_iff {α : Type} {xs ys : List α} (hx : xs.Nodup) (hy : ys.Nodup) :
    (xs.length = ys.length ∧ ∀ a ∈ xs, a ∈ ys) ↔ ∀ a, a ∈ xs ↔ a ∈ ys := by
  constructor
  · rintro ⟨hlength, hsub⟩ a
    have hperm : xs.Perm ys :=
      (List.subperm_of_subset hx hsub).perm_of_length_le (Nat.le_of_eq hlength.symm)
    exact hperm.mem_iff
  · intro h
    exact ⟨((List.perm_ext_iff_of_nodup hx hy).2 h).length_eq, fun a => (h a).1⟩

theorem OrderedSet.equiv_iff {α : Type} [DecidableEq α] {s t : OrderedSet α} :
    s.equiv t = true ↔ ∀ a, a ∈ s ↔ a ∈ t := by
  rw [equiv, Bool.and_eq_true, beq_iff_eq, List.all_eq_true]
  simp only [decide_eq_true_eq]
  exact length_eq_and_subset_iff s.nodup t.nodup

namespace OrderedMap

variable {κ α β : Type} [DecidableEq κ]

theorem equiv_iff {alike : β → β → Bool} {m n : OrderedMap κ β} :
    m.equiv alike n = true ↔ (∀ k, k ∈ m.keys ↔ k ∈ n.keys) ∧
      ∀ k v u, m.get? k = some v → n.get? k = some u → alike v u = true := by
  rw [equiv, Bool.and_eq_true, beq_iff_eq, List.all_eq_true, keys, keys,
    ← length_eq_and_subset_iff m.nodup n.nodup]
  simp only [List.length_map, size]
  constructor
  · rintro ⟨hsize, hall⟩
    refine ⟨⟨hsize, fun k hk => ?_⟩, fun k v u hv hu => ?_⟩
    · obtain ⟨e, he, rfl⟩ := List.mem_map.1 hk
      obtain ⟨u, hu, _⟩ := (Option.any_eq_true _ _).1 (hall e he)
      exact mem_keys_of_get? hu
    · have hany := hall (k, v) (mem_entries_of_get? hv)
      rw [hu] at hany
      exact hany
  · rintro ⟨⟨hsize, hkeys⟩, halike⟩
    refine ⟨hsize, fun e he => ?_⟩
    obtain ⟨u, hu⟩ := Option.isSome_iff_exists.1
      ((isSome_get?_iff n e.1).2 (hkeys e.1 (List.mem_map_of_mem he)))
    rw [hu]
    exact halike e.1 e.2 u (get?_of_mem_entries he) hu

theorem equiv_refl {alike : β → β → Bool} {m : OrderedMap κ β}
    (h : ∀ v ∈ m.values, alike v v = true) : m.equiv alike m = true := by
  refine equiv_iff.2 ⟨fun _ => Iff.rfl, fun k v u hv hu => ?_⟩
  obtain rfl : v = u := Option.some.inj (hv.symm.trans hu)
  exact h v (List.mem_map_of_mem (mem_entries_of_get? hv))

/-- Each set of the left is there in the right, with all its elements. -/
def Within (m n : OrderedMap κ (OrderedSet α)) : Prop :=
  ∀ k s, m.get? k = some s → ∃ u, n.get? k = some u ∧ ∀ a ∈ s, a ∈ u

theorem Within.mem_keys {m n : OrderedMap κ (OrderedSet α)} (h : m.Within n) {k : κ}
    (hk : k ∈ m.keys) : k ∈ n.keys := by
  obtain ⟨s, hs⟩ := Option.isSome_iff_exists.1 ((isSome_get?_iff m k).2 hk)
  obtain ⟨u, hu, _⟩ := h k s hs
  exact mem_keys_of_get? hu

theorem equiv_of_within [DecidableEq α] {m n : OrderedMap κ (OrderedSet α)} (h : m.Within n)
    (h' : n.Within m) : m.equiv OrderedSet.equiv n = true := by
  refine equiv_iff.2 ⟨fun k => ⟨h.mem_keys, h'.mem_keys⟩, fun k s u hs hu => ?_⟩
  obtain ⟨u', hu', hsub⟩ := h k s hs
  obtain ⟨s', hs', hsub'⟩ := h' k u hu
  obtain rfl : u = u' := Option.some.inj (hu.symm.trans hu')
  obtain rfl : s = s' := Option.some.inj (hs.symm.trans hs')
  exact OrderedSet.equiv_iff.2 fun a => ⟨hsub a, hsub' a⟩

theorem within_collect {f : List β → OrderedSet α}
    (hf : ∀ bs cs, (∀ b ∈ bs, b ∈ cs) → ∀ a ∈ f bs, a ∈ f cs) {xs ys : List (κ × β)}
    (h : ∀ x ∈ xs, x ∈ ys) : (collect f xs).Within (collect f ys) := by
  intro k s hs
  obtain ⟨⟨b, hb⟩, rfl⟩ := get?_collect_eq_some_iff.1 hs
  refine ⟨_, get?_collect_eq_some_iff.2 ⟨⟨b, h _ hb⟩, rfl⟩, ?_⟩
  exact hf _ _ fun c hc => mem_valuesAt.2 (h _ (mem_valuesAt.1 hc))

end OrderedMap

theorem Relations.equiv_iff {P : Type} [PrimaryStore P] {r s : Relations P} :
    r.equiv s = true ↔ r.targets.equiv OrderedSet.equiv s.targets = true ∧
      r.types.equiv OrderedSet.equiv s.types = true ∧
      PrimaryStore.equiv r.primaries s.primaries = true := by
  rw [equiv, Bool.and_eq_true, Bool.and_eq_true, and_assoc]

theorem Record.equiv_iff {r s : Record} : r.equiv s = true ↔
    r.target = s.target ∧ ∀ k, (r.relations k).equiv (s.relations k) = true := by
  rw [equiv, Bool.and_eq_true, Bool.and_eq_true, Bool.and_eq_true, beq_iff_eq, and_assoc, and_assoc]
  refine and_congr_right fun _ => ⟨?_, fun h => ⟨h .equality, h .supertype, h .subtype⟩⟩
  rintro ⟨hequalities, hsupertypes, hsubtypes⟩ k
  cases k with
  | equality => exact hequalities
  | supertype => exact hsupertypes
  | subtype => exact hsubtypes

/-- What the one record holds is in the other, but for which qualifier an equality has. -/
structure Record.Within (r s : Record) : Prop where
  targets : ∀ k, (r.relations k).targets.Within (s.relations k).targets
  types : ∀ k, (r.relations k).types.Within (s.relations k).types
  supertypes : r.supertypes.primaries.byHierarchy.Within s.supertypes.primaries.byHierarchy
  subtypes : r.subtypes.primaries.byHierarchy.Within s.subtypes.primaries.byHierarchy
  equalities : ∀ h ∈ r.equalities.primaries.byHierarchy.keys,
    h ∈ s.equalities.primaries.byHierarchy.keys

theorem mem_allHierarchies {hss : List (List Hierarchy)} {h : Hierarchy} :
    h ∈ allHierarchies hss ↔ ∃ hs ∈ hss, h ∈ hs := by
  rw [allHierarchies, OrderedSet.mem_withoutRepeats, List.mem_flatten]

theorem within_collect_allHierarchies {κ : Type} [DecidableEq κ]
    {xs ys : List (κ × List Hierarchy)} (h : ∀ x ∈ xs, x ∈ ys) :
    (OrderedMap.collect allHierarchies xs).Within (OrderedMap.collect allHierarchies ys) := by
  refine OrderedMap.within_collect (fun hss kss hsub top htop => ?_) h
  obtain ⟨hs, hmem, ht⟩ := mem_allHierarchies.1 htop
  exact mem_allHierarchies.2 ⟨hs, hsub hs hmem, ht⟩

theorem within_collect_filterMap {κ : Type} [DecidableEq κ]
    (f : Request → Option (κ × List Hierarchy)) {history history' : List Request}
    (h : ∀ request ∈ history, request ∈ history') :
    (OrderedMap.collect allHierarchies (history.filterMap f)).Within
      (OrderedMap.collect allHierarchies (history'.filterMap f)) := by
  refine within_collect_allHierarchies fun x hx => ?_
  obtain ⟨request, hr, hx⟩ := List.mem_filterMap.1 hx
  exact List.mem_filterMap.2 ⟨request, h request hr, hx⟩

theorem within_collect_withoutRepeats {xs ys : List (Hierarchy × Qualifier)}
    (h : ∀ x ∈ xs, x ∈ ys) : (OrderedMap.collect OrderedSet.withoutRepeats xs).Within
      (OrderedMap.collect OrderedSet.withoutRepeats ys) := by
  refine OrderedMap.within_collect (fun qs ps hsub q hq => ?_) h
  rw [OrderedSet.mem_withoutRepeats] at hq ⊢
  exact hsub q hq

theorem Record.within_ofHistory (t : Target) {history history' : List Request}
    (h : ∀ request ∈ history, request ∈ history') :
    (ofHistory t history).Within (ofHistory t history') := by
  have hfilings : ∀ k, ∀ e ∈ history.flatMap (Request.filings k t),
      e ∈ history'.flatMap (Request.filings k t) := by
    intro k e he
    obtain ⟨request, hr, hf⟩ := List.mem_flatMap.1 he
    exact List.mem_flatMap.2 ⟨request, h request hr, hf⟩
  refine ⟨fun k => ?_, fun k => ?_, within_collect_withoutRepeats (hfilings .supertype),
    within_collect_withoutRepeats (hfilings .subtype), fun top htop => ?_⟩
  · rw [relations_ofHistory, relations_ofHistory]
    exact within_collect_filterMap (Request.targetRelation k t) h
  · rw [relations_ofHistory, relations_ofHistory]
    exact within_collect_filterMap (Request.typeRelation k t) h
  · obtain ⟨q, hq⟩ := OrderedMap.mem_keys_firsts.1 htop
    exact OrderedMap.mem_keys_firsts.2 ⟨q, hfilings .equality _ hq⟩

end QualifierConstraints
