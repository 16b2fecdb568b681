import QualifierConstraints.Proofs.Filing
import QualifierConstraints.Proofs.WellFormedTables

set_option autoImplicit false

namespace QualifierConstraints

def PrimaryBounds.first? (p : PrimaryBounds) (h : Hierarchy) : Option Qualifier :=
  (p.get? h).bind (·.toList.head?)

/-- The qualifier that came first, among those that a store keeps for a hierarchy. -/
def Kind.leading : (k : Kind) → k.Primaries → Hierarchy → Option Qualifier
  | .equality, p => p.get?
  | .supertype, p => p.first?
  | .subtype, p => p.first?

theorem OrderedSet.head?_insert {α : Type} [DecidableEq α] (s : OrderedSet α) (a : α) :
    (s.insert a).toList.head? = s.toList.head?.or (some a) := by
  by_cases h : a ∈ s
  · obtain ⟨b, hb⟩ := Option.ne_none_iff_exists'.1
      (mt List.head?_eq_none_iff.1 (List.ne_nil_of_mem h))
    rw [insert_of_mem h, hb, Option.some_or]
  · rw [toList_insert_of_not_mem h, List.head?_append]
    rfl

theorem PrimaryBounds.first?_merge (p : PrimaryBounds) (top h : Hierarchy) (q : Qualifier) :
    (PrimaryStore.merge p top q).1.first? h =
      (p.first? h).or (if h = top then some q else none) := by
  change ((p.byHierarchy.upsert top .empty (·.insert q)).get? h).bind _ =
    ((p.byHierarchy.get? h).bind _).or _
  rw [OrderedMap.get?_upsert]
  split_ifs with hh
  · subst hh
    rw [Option.bind_some, OrderedSet.head?_insert]
    cases p.byHierarchy.get? h <;> rfl
  · rw [Option.or_none]

namespace Kind

theorem leading_merge (k : Kind) (p : k.Primaries) (top h : Hierarchy) (q : Qualifier) :
    k.leading (PrimaryStore.merge p top q).1 h =
      (k.leading p h).or (if h = top then some q else none) := by
  cases k with
  | equality => exact OrderedMap.get?_insertNew p.byHierarchy top h q
  | supertype => exact PrimaryBounds.first?_merge p top h q
  | subtype => exact PrimaryBounds.first?_merge p top h q

/-- What leads stays in front, and where nothing does the first entry of the hierarchy takes the
lead. -/
theorem leading_mergeAll (k : Kind) (p : k.Primaries) (entries : List (Hierarchy × Qualifier))
    (h : Hierarchy) :
    k.leading (PrimaryStore.mergeAll p entries).1 h = (k.leading p h).or (entries.lookup h) := by
  induction entries generalizing p with
  | nil => exact Option.or_none.symm
  | cons e entries ih =>
    obtain ⟨top, q⟩ := e
    rw [PrimaryStore.mergeAll, ih, leading_merge, Option.or_assoc]
    by_cases hh : h = top
    · rw [hh, if_pos rfl, List.lookup_cons_self, Option.some_or]
    · have hb : (h == top) = false := by simpa using hh
      rw [if_neg hh, Option.none_or, List.lookup_cons, hb]

end Kind

theorem Resolver.lookup_placements (r : Resolver) (qs : List Qualifier) (h : Hierarchy) :
    (r.placements qs).lookup h = qs.find? fun q => r.topOf q == some h := by
  induction qs with
  | nil => rfl
  | cons q qs ih =>
    rw [placements, List.filterMap_cons, List.find?_cons]
    cases hq : r.topOf q with
    | none => exact ih
    | some top =>
      rw [Option.map_some, List.lookup_cons, Option.some_beq_some, BEq.comm]
      cases top == h with
      | true => rfl
      | false => exact ih

namespace PrimaryBounds

/-- The bounds in the hierarchy start with the qualifier; without a qualifier there are none. -/
def StartWith (p : PrimaryBounds) (h : Hierarchy) (q : Option Qualifier) : Prop :=
  (∀ qs, p.get? h = some qs → qs.toList.head? = q) ∧ (q = none ↔ p.get? h = none)

theorem WellFormed.startWith {p : PrimaryBounds} (hp : p.WellFormed) {h : Hierarchy}
    {q : Option Qualifier} (hq : p.first? h = q) : p.StartWith h q := by
  rw [first?] at hq
  cases hqs : p.get? h with
  | none =>
    rw [hqs] at hq
    exact ⟨by simp [hqs], by simp [hqs, ← hq]⟩
  | some qs =>
    rw [hqs, Option.bind_some] at hq
    have hne : qs.isEmpty = false :=
      hp.nonempty qs (List.mem_map_of_mem (OrderedMap.mem_entries_of_get? hqs))
    have hsome : q ≠ none := fun hn => by
      rw [← hq, List.head?_eq_none_iff] at hn
      rw [OrderedSet.isEmpty, hn] at hne
      cases hne
    exact ⟨by simp [hqs, hq], by simp [hqs, hsome]⟩

end PrimaryBounds

/-- What becomes of the primaries of a kind in one hierarchy when the qualifiers of a type are
filed. An equality that is there stays, and otherwise the type's own qualifier comes in; where there
are no bounds, the type's own qualifier comes first. -/
def Kind.TakesUp (type : AnnotatedType) (r : Resolver) (h : Hierarchy) :
    (k : Kind) → k.Primaries → k.Primaries → Prop
  | .equality, p, p' => p'.get? h = (p.get? h).or (type.primaryQualifier h r)
  | .supertype, p, p' => p.get? h = none → p'.StartWith h (type.primaryQualifier h r)
  | .subtype, p, p' => p.get? h = none → p'.StartWith h (type.primaryQualifier h r)

theorem Kind.takesUp_of_leading {k : Kind} {type : AnnotatedType} {r : Resolver} {h : Hierarchy}
    {p p' : k.Primaries} (hp : k.WellFormedPrimaries p')
    (hl : k.leading p' h = (k.leading p h).or (type.primaryQualifier h r)) :
    k.TakesUp type r h p p' := by
  cases k with
  | equality => exact hl
  | supertype | subtype =>
    intro hnone
    refine hp.startWith (hl.trans ?_)
    change ((p.get? h).bind _).or _ = _
    rw [hnone, Option.bind_none, Option.none_or]

theorem ConstraintTable.GoesBackTo.exists_takesUp {m : ConstraintTable} {d : Declaration}
    (hback : m.GoesBackTo d) {k : Kind} {t : Target} {r : Resolver} {type : AnnotatedType}
    (hok : (m.submit (.filePrimaries k t r type.qualifiers)).2.result = .ok ()) :
    ∃ before after, m.get? t = some before ∧
      (m.submit (.filePrimaries k t r type.qualifiers)).1.get? t = some after ∧
      ∀ h, k.TakesUp type r h (before.relations k).primaries (after.relations k).primaries := by
  obtain ⟨before, e, hbefore, hedit, hafter⟩ := exists_edit_of_result_ok hok
  obtain ⟨_, rfl⟩ := Request.edit_filePrimaries_eq_ok_iff.1 hedit
  have hwf := (hback.submit (.filePrimaries k t r type.qualifiers)).wellFormed
  refine ⟨before, _, hbefore, hafter, fun h => Kind.takesUp_of_leading ?_ ?_⟩
  · exact (hwf.relations_of_get? hafter k).primaries
  · rw [Request.kind, Edit.apply, Record.relations_withRelations_self,
      AnnotatedType.primaryQualifier, ← Resolver.lookup_placements]
    exact k.leading_mergeAll _ _ h

/-- Where the qualifiers of a type are filed with success, in a table of any workspace, every
hierarchy takes up the qualifier that the type itself gives for it. -/
theorem Workspace.takesUp_submit (steps : List Step) (name : String) {m : ConstraintTable}
    (h : (empty.run steps).1.table name = some m) (k : Kind) (t : Target) (r : Resolver)
    (type : AnnotatedType)
    (hok : ((empty.run steps).1.submit name
      (.filePrimaries k t r type.qualifiers)).2.map Receipt.result = some (.ok ())) :
    ∃ n before after, ((empty.run steps).1.submit name
        (.filePrimaries k t r type.qualifiers)).1.table name = some n ∧
      m.get? t = some before ∧ n.get? t = some after ∧
      ∀ top, k.TakesUp type r top (before.relations k).primaries (after.relations k).primaries := by
  obtain ⟨htable, hreceipt⟩ := table_submit (wellFormed_empty.run steps) h
    (.filePrimaries k t r type.qualifiers)
  rw [hreceipt, Option.map_some, Option.some.injEq] at hok
  obtain ⟨_, _, hback⟩ := exists_origin_of_table h
  obtain ⟨before, after, hrest⟩ := hback.exists_takesUp hok
  exact ⟨_, before, after, htable, hrest⟩

/-- A resolver that puts the top of one hierarchy into another one, and a type with two qualifiers
for each of them. The equality that is there stays, and the first qualifier of the type comes in for
the other hierarchy; among bounds the first one of each hierarchy leads. -/
theorem Workspace.takesUp_submit_at_misreport :
    let r : Resolver := ⟨fun q => some ⟨.ofName
      (if q.name = "PolyNull" ∨ q.name = "Initialized" then "NonNull" else "Nullable")⟩, .empty⟩
    let type : AnnotatedType := ⟨"String", [],
      [.ofName "PolyNull", .ofName "NonNull", .ofName "Initialized", .ofName "Unknown"]⟩
    let steps : List Step := [.create "main" [⟨"T", "Box"⟩] .standard,
      .submit "main" (.filePrimaries .equality ⟨"T", "Box"⟩ r [.ofName "Nullable"])]
    let file (k : Kind) : Request := .filePrimaries k ⟨"T", "Box"⟩ r type.qualifiers
    ∃ m, (empty.run steps).1.table "main" = some m ∧
      (∀ k, ((empty.run steps).1.submit "main" (file k)).2.map Receipt.result = some (.ok ())) ∧
      ∀ k, ∃ n before after, ((empty.run steps).1.submit "main" (file k)).1.table "main" = some n ∧
        m.get? ⟨"T", "Box"⟩ = some before ∧ n.get? ⟨"T", "Box"⟩ = some after ∧
        k.TakesUp type r ⟨.ofName "Nullable"⟩ (before.relations k).primaries
          (after.relations k).primaries ∧
        k.TakesUp type r ⟨.ofName "NonNull"⟩ (before.relations k).primaries
          (after.relations k).primaries ∧
        type.primaryQualifier ⟨.ofName "NonNull"⟩ r = some (.ofName "PolyNull") := by
  intro r type steps file
  obtain ⟨m, hm⟩ : ∃ m, (empty.run steps).1.table "main" = some m := ⟨_, rfl⟩
  have hok : ∀ k, ((empty.run steps).1.submit "main" (file k)).2.map Receipt.result =
      some (.ok ()) := by
    intro k
    cases k <;> decide
  refine ⟨m, hm, hok, fun k => ?_⟩
  obtain ⟨n, before, after, hn, hbefore, hafter, htakes⟩ :=
    takesUp_submit steps "main" hm k ⟨"T", "Box"⟩ r type (hok k)
  exact ⟨n, before, after, hn, hbefore, hafter, htakes _, htakes _, by decide⟩

end QualifierConstraints
