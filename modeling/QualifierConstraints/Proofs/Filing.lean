import QualifierConstraints.Proofs.TableRuns

set_option autoImplicit false

namespace QualifierConstraints

namespace Resolver

variable {r : Resolver} {settings : Settings} {before after : List Qualifier} {q : Qualifier}

theorem placements_append_cons (hall : ∀ p ∈ before ++ q :: after, ¬ r.Refuses settings p) :
    ∃ h, r.topOf q = some h ∧
      r.placements (before ++ q :: after) = r.placements before ++ (h, q) :: r.placements after := by
  obtain ⟨h, hq, _⟩ := resolve_of_not_refuses (hall q (by simp))
  refine ⟨h, hq, ?_⟩
  rw [placements, List.filterMap_append, List.filterMap_cons, hq]
  rfl

theorem length_placements {qs : List Qualifier} (hall : ∀ q ∈ qs, ¬ r.Refuses settings q) :
    (r.placements qs).length = qs.length := by
  rw [← List.length_map Prod.snd, map_snd_placements hall]

theorem mem_map_fst_placements {qs : List Qualifier} {h : Hierarchy} :
    h ∈ (r.placements qs).map Prod.fst ↔ ∃ p ∈ qs, r.topOf p = some h := by
  rw [List.mem_map]
  constructor
  · rintro ⟨⟨_, p⟩, hp, rfl⟩
    exact ⟨p, mem_placements.1 hp⟩
  · rintro ⟨p, hp⟩
    exact ⟨(h, p), mem_placements.2 hp, rfl⟩

end Resolver

namespace PrimaryStore

variable {P : Type} [PrimaryStore P]

theorem mergeAll_append (p : P) (entries more : List (Hierarchy × Qualifier)) :
    mergeAll p (entries ++ more) = ((mergeAll (mergeAll p entries).1 more).1,
      (mergeAll p entries).2 ++ (mergeAll (mergeAll p entries).1 more).2) := by
  induction entries generalizing p with
  | nil => rfl
  | cons e entries ih =>
    rw [List.cons_append, mergeAll, ih]
    rfl

theorem length_snd_mergeAll (p : P) (entries : List (Hierarchy × Qualifier)) :
    (mergeAll p entries).2.length = entries.length := by
  induction entries generalizing p with
  | nil => rfl
  | cons e entries ih => exact congrArg (· + 1) (ih _)

/-- An entry is merged into the store that the entries before it have left. -/
theorem getElem?_snd_mergeAll (p : P) (before : List (Hierarchy × Qualifier)) (h : Hierarchy)
    (q : Qualifier) (after : List (Hierarchy × Qualifier)) :
    (mergeAll p (before ++ (h, q) :: after)).2[before.length]? =
      some ⟨h, q, (merge (mergeAll p before).1 h q).2⟩ := by
  rw [mergeAll_append, ← length_snd_mergeAll p before, List.getElem?_append_right (Nat.le_refl _),
    Nat.sub_self]
  rfl

end PrimaryStore

namespace PrimaryEqualities

theorem merge_eq (p : PrimaryEqualities) (h : Hierarchy) (q : Qualifier) :
    PrimaryStore.merge p h q = (⟨p.byHierarchy.insertNew h q⟩, !p.byHierarchy.contains h) :=
  rfl

theorem kept_eq_false_iff (p : PrimaryEqualities) (h : Hierarchy) (q : Qualifier) :
    (PrimaryStore.merge p h q).2 = false ↔ h ∈ p.byHierarchy.keys := by
  rw [merge_eq, Bool.not_eq_false', OrderedMap.contains, decide_eq_true_eq]

theorem mem_keys_mergeAll (p : PrimaryEqualities) (entries : List (Hierarchy × Qualifier))
    (h : Hierarchy) : h ∈ (PrimaryStore.mergeAll p entries).1.byHierarchy.keys ↔
      h ∈ p.byHierarchy.keys ∨ h ∈ entries.map Prod.fst := by
  induction entries generalizing p with
  | nil => simp [PrimaryStore.mergeAll]
  | cons e entries ih =>
    obtain ⟨top, q⟩ := e
    change h ∈ (PrimaryStore.mergeAll (⟨p.byHierarchy.insertNew top q⟩ : PrimaryEqualities)
      entries).1.byHierarchy.keys ↔ _
    rw [ih, List.map_cons, List.mem_cons, ← or_assoc]
    refine or_congr_left ?_
    rw [← OrderedMap.isSome_get?_iff, OrderedMap.get?_insertNew, ← OrderedMap.isSome_get?_iff,
      Option.isSome_or]
    split_ifs with htop <;> simp [htop]

theorem entries_mergeAll (p : PrimaryEqualities) (entries : List (Hierarchy × Qualifier)) :
    (PrimaryStore.mergeAll p entries).1.byHierarchy.entries = p.byHierarchy.entries ++
      ((PrimaryStore.mergeAll p entries).2.filter (·.kept)).map
        fun f => (f.hierarchy, f.qualifier) := by
  induction entries generalizing p with
  | nil => exact (List.append_nil _).symm
  | cons e entries ih =>
    obtain ⟨h, q⟩ := e
    rw [PrimaryStore.mergeAll, merge_eq, ih, OrderedMap.insertNew, OrderedMap.contains]
    by_cases hh : h ∈ p.byHierarchy.keys
    · simp [hh]
    · simp [hh]

end PrimaryEqualities

theorem Record.kept_eq_false_iff (record : Record) (k : Kind)
    (before : List (Hierarchy × Qualifier)) (h : Hierarchy) (q : Qualifier) :
    (PrimaryStore.merge (PrimaryStore.mergeAll (record.relations k).primaries before).1 h q).2 =
        false ↔
      k = .equality ∧
        ((∃ p, record.equalities.primaries.get? h = some p) ∨ h ∈ before.map Prod.fst) := by
  cases k with
  | equality =>
    rw [← Option.isSome_iff_exists, PrimaryEqualities.get?, OrderedMap.isSome_get?_iff,
      ← PrimaryEqualities.mem_keys_mergeAll, eq_self, true_and]
    exact PrimaryEqualities.kept_eq_false_iff _ h q
  | supertype | subtype => exact iff_of_false Bool.noConfusion fun hk => Kind.noConfusion hk.1

end QualifierConstraints
