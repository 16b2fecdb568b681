import Mathlib.Data.Set.Insert
import QualifierConstraints.Proofs.TableRuns
import QualifierConstraints.Proofs.WellFormedTables

/-!
# What can be asked by key

Tables are equal without regard to order exactly if they give the same answer to every question by
key, where a set of hierarchies or of qualifiers is taken without its order. The comparison compares
the targets of records, which no key shows, so this hangs on each record being stored under its own
target, as it is in every table of a workspace. What a request does to the answers depends on the
answers alone, so equal tables stay equal, and their requests get the same results, however their
orders differ.
-/

set_option autoImplicit false

namespace QualifierConstraints

namespace OrderedSet

variable {α : Type}

def elements (s : OrderedSet α) : Set α := {a | a ∈ s}

theorem elements_empty : (empty : OrderedSet α).elements = ∅ :=
  Set.eq_empty_of_forall_notMem fun _ h => by cases h

variable [DecidableEq α]

theorem elements_insert (s : OrderedSet α) (a : α) :
    (s.insert a).elements = Insert.insert a s.elements := by
  ext b
  exact (mem_insert s a b).trans Or.comm

theorem elements_union (s t : OrderedSet α) :
    (s.union t).elements = s.elements ∪ t.elements := by
  ext b
  exact mem_insertMany s t.toList b

theorem equiv_iff_elements {s t : OrderedSet α} :
    s.equiv t = true ↔ s.elements = t.elements := by
  rw [equiv_iff, Set.ext_iff]
  rfl

end OrderedSet

namespace OrderedMap

variable {κ α β γ : Type} [DecidableEq κ]

/-- Values are alike if `f` makes the same of them; then maps are if look-ups do. -/
theorem equiv_iff_map_get? {alike : β → β → Bool} {m n : OrderedMap κ β} (f : β → γ)
    (h : ∀ k v u, m.get? k = some v → n.get? k = some u → (alike v u = true ↔ f v = f u)) :
    m.equiv alike n = true ↔ ∀ k, (m.get? k).map f = (n.get? k).map f := by
  rw [equiv_iff]
  constructor
  · rintro ⟨hkeys, halike⟩ k
    have hsome : (m.get? k).isSome ↔ (n.get? k).isSome := by
      rw [isSome_get?_iff, isSome_get?_iff, hkeys]
    cases hv : m.get? k with
    | none =>
      cases hu : n.get? k with
      | none => rfl
      | some u => simp [hv, hu] at hsome
    | some v =>
      cases hu : n.get? k with
      | none => simp [hv, hu] at hsome
      | some u => exact congrArg some ((h k v u hv hu).1 (halike k v u hv hu))
  · intro hmap
    constructor
    · intro k
      rw [← isSome_get?_iff, ← isSome_get?_iff, ← Option.isSome_map (f := f), hmap,
        Option.isSome_map]
    · intro k v u hv hu
      have hk := hmap k
      rw [hv, hu] at hk
      exact (h k v u hv hu).2 (Option.some.inj hk)

def setAt (m : OrderedMap κ (OrderedSet α)) (k : κ) : Option (Set α) :=
  (m.get? k).map OrderedSet.elements

variable {m n : OrderedMap κ (OrderedSet α)}

theorem setAt_upsert {f : OrderedSet α → OrderedSet α} {g : Set α → Set α}
    (hf : ∀ s, (f s).elements = g s.elements) (m : OrderedMap κ (OrderedSet α)) (k : κ) :
    (m.upsert k .empty f).setAt =
      fun j => if j = k then some (g ((m.setAt k).getD ∅)) else m.setAt j := by
  funext j
  rw [setAt, get?_upsert]
  split_ifs with hj
  · rw [Option.map_some, hf, setAt]
    cases m.get? k with
    | none => rw [Option.getD_none, OrderedSet.elements_empty]; rfl
    | some s => rfl
  · rfl

variable [DecidableEq α]

theorem equiv_iff_setAt : m.equiv OrderedSet.equiv n = true ↔ m.setAt = n.setAt := by
  rw [equiv_iff_map_get? OrderedSet.elements fun _ _ _ _ _ => OrderedSet.equiv_iff_elements,
    funext_iff]
  rfl

theorem setAt_unionAt (h : m.setAt = n.setAt) (k : κ) (s : OrderedSet α) :
    (m.unionAt k s).setAt = (n.unionAt k s).setAt := by
  have hunion : ∀ u : OrderedSet α, (u.union s).elements = u.elements ∪ s.elements :=
    fun u => u.elements_union s
  rw [unionAt, unionAt, setAt_upsert (g := (· ∪ s.elements)) hunion,
    setAt_upsert (g := (· ∪ s.elements)) hunion, h]

theorem setAt_upsert_insert (h : m.setAt = n.setAt) (k : κ) (a : α) :
    (m.upsert k .empty (·.insert a)).setAt = (n.upsert k .empty (·.insert a)).setAt := by
  have hinsert : ∀ u : OrderedSet α, (u.insert a).elements = insert a u.elements :=
    fun u => u.elements_insert a
  rw [setAt_upsert (g := insert a) hinsert, setAt_upsert (g := insert a) hinsert, h]

end OrderedMap

/-- What a hierarchy has among the primaries of a kind, without order. -/
abbrev Kind.Answer : Kind → Type
  | .equality => Qualifier
  | .supertype => Set Qualifier
  | .subtype => Set Qualifier

def Kind.answer : (k : Kind) → k.Primaries → Hierarchy → Option k.Answer
  | .equality, p => p.get?
  | .supertype, p => fun h => (p.get? h).map OrderedSet.elements
  | .subtype, p => fun h => (p.get? h).map OrderedSet.elements

structure Relations.Answers (k : Kind) where
  hierarchiesForTarget : Target → Option (Set Hierarchy)
  hierarchiesForType : AnnotatedType → Option (Set Hierarchy)
  primaries : Hierarchy → Option k.Answer

def Relations.answers (k : Kind) (r : Relations k.Primaries) : Answers k where
  hierarchiesForTarget := r.targets.setAt
  hierarchiesForType := r.types.setAt
  primaries := k.answer r.primaries

def Record.answers (r : Record) (k : Kind) : Relations.Answers k :=
  Relations.answers k (r.relations k)

/-- All that a table can be asked by key. -/
structure ConstraintTable.Answers where
  settings : Settings
  contains : Target → Bool
  records : Target → Option ((k : Kind) → Relations.Answers k)

def ConstraintTable.answers (m : ConstraintTable) : Answers where
  settings := m.settings
  contains := m.contains
  records t := (m.get? t).map Record.answers

theorem Kind.equiv_iff_answer {k : Kind} {p r : k.Primaries} :
    PrimaryStore.equiv p r = true ↔ k.answer p = k.answer r := by
  cases k with
  | equality =>
    refine (OrderedMap.equiv_iff_map_get? id fun _ q q' _ _ => ?_).trans ?_
    · exact beq_iff_eq
    · simp only [Option.map_id_fun, id_eq]
      exact funext_iff.symm
  | supertype => exact OrderedMap.equiv_iff_setAt
  | subtype => exact OrderedMap.equiv_iff_setAt

theorem Relations.answers_eq_iff {k : Kind} {r s : Relations k.Primaries} :
    answers k r = answers k s ↔ r.targets.setAt = s.targets.setAt ∧
      r.types.setAt = s.types.setAt ∧ k.answer r.primaries = k.answer s.primaries := by
  rw [answers, answers, Answers.mk.injEq]

theorem Relations.equiv_iff_answers {k : Kind} {r s : Relations k.Primaries} :
    r.equiv s = true ↔ answers k r = answers k s := by
  rw [equiv_iff, answers_eq_iff, Kind.equiv_iff_answer, OrderedMap.equiv_iff_setAt,
    OrderedMap.equiv_iff_setAt]

theorem Record.equiv_iff_answers {r s : Record} (ht : r.target = s.target) :
    r.equiv s = true ↔ r.answers = s.answers := by
  rw [equiv_iff, and_iff_right ht, funext_iff]
  exact forall_congr' fun k => Relations.equiv_iff_answers

namespace ConstraintTable

variable {m n : ConstraintTable}

theorem answers_eq_iff : m.answers = n.answers ↔ m.settings = n.settings ∧
    ∀ t, (m.get? t).map Record.answers = (n.get? t).map Record.answers := by
  rw [answers, answers, Answers.mk.injEq, funext_iff, funext_iff]
  refine and_congr_right fun _ => ⟨And.right, fun h => ⟨fun t => ?_, h⟩⟩
  have ht := congrArg Option.isSome (h t)
  rw [Option.isSome_map, Option.isSome_map] at ht
  rw [contains, contains, OrderedMap.contains_eq_isSome, OrderedMap.contains_eq_isSome]
  exact ht

theorem equiv_iff_answers (hm : m.WellFormed) (hn : n.WellFormed) :
    m.equiv n = true ↔ m.answers = n.answers := by
  rw [equiv, Bool.and_eq_true, beq_iff_eq, answers_eq_iff, and_comm]
  refine and_congr_right fun _ =>
    OrderedMap.equiv_iff_map_get? Record.answers fun t r s hr hs => ?_
  exact Record.equiv_iff_answers ((hm.keyed t r hr).trans (hn.keyed t s hs).symm)

end ConstraintTable

namespace Kind

variable {k : Kind} {p r : k.Primaries}

theorem answer_merge (h : k.answer p = k.answer r) (top : Hierarchy) (q : Qualifier) :
    k.answer (PrimaryStore.merge p top q).1 = k.answer (PrimaryStore.merge r top q).1 := by
  cases k with
  | equality =>
    funext other
    change (p.byHierarchy.insertNew top q).get? other = (r.byHierarchy.insertNew top q).get? other
    rw [OrderedMap.get?_insertNew, OrderedMap.get?_insertNew]
    exact congrArg (Option.or · _) (congrFun h other)
  | supertype => exact OrderedMap.setAt_upsert_insert h top q
  | subtype => exact OrderedMap.setAt_upsert_insert h top q

theorem answer_mergeAll (h : k.answer p = k.answer r) (entries : List (Hierarchy × Qualifier)) :
    k.answer (PrimaryStore.mergeAll p entries).1 =
      k.answer (PrimaryStore.mergeAll r entries).1 := by
  induction entries generalizing p r with
  | nil => exact h
  | cons e entries ih => exact ih (answer_merge h e.1 e.2)

end Kind

theorem Record.answers_withRelations {r s : Record} (h : r.answers = s.answers) {k : Kind}
    {x y : Relations k.Primaries} (hxy : Relations.answers k x = Relations.answers k y) :
    (r.withRelations k x).answers = (s.withRelations k y).answers := by
  funext j
  by_cases hj : j = k
  · subst hj
    rw [answers, answers, relations_withRelations_self, relations_withRelations_self, hxy]
  · rw [answers, answers, relations_withRelations_of_ne r hj, relations_withRelations_of_ne s hj]
    exact congrFun h j

theorem Edit.answers_apply {r s : Record} (h : r.answers = s.answers) (k : Kind) (e : Edit) :
    (e.apply k r).1.answers = (e.apply k s).1.answers := by
  obtain ⟨htargets, htypes, hprimaries⟩ := Relations.answers_eq_iff.1 (congrFun h k)
  cases e with
  | relateTarget other hs =>
    refine Record.answers_withRelations h (Relations.answers_eq_iff.2 ⟨?_, htypes, hprimaries⟩)
    exact OrderedMap.setAt_unionAt htargets other hs
  | relateType type hs =>
    refine Record.answers_withRelations h (Relations.answers_eq_iff.2 ⟨htargets, ?_, hprimaries⟩)
    exact OrderedMap.setAt_unionAt htypes type hs
  | filePrimaries entries =>
    refine Record.answers_withRelations h (Relations.answers_eq_iff.2 ⟨htargets, htypes, ?_⟩)
    exact Kind.answer_mergeAll hprimaries entries

namespace ConstraintTable

variable {m n : ConstraintTable}

theorem answers_set {settings : Settings} (h : m.answers = n.answers) (t : Target)
    {r s : Record} (hrs : r.answers = s.answers) :
    (ConstraintTable.mk (m.records.set t r) settings).answers =
      (ConstraintTable.mk (n.records.set t s) settings).answers := by
  refine answers_eq_iff.2 ⟨rfl, fun u => ?_⟩
  change ((m.records.set t r).get? u).map _ = ((n.records.set t s).get? u).map _
  rw [OrderedMap.get?_set, OrderedMap.get?_set]
  split_ifs
  · exact congrArg some hrs
  · exact (answers_eq_iff.1 h).2 u

theorem submit_of_answers_eq (h : m.answers = n.answers) (request : Request) :
    (m.submit request).2.result = (n.submit request).2.result ∧
      (m.submit request).1.answers = (n.submit request).1.answers := by
  obtain ⟨hsettings, hrecords⟩ := answers_eq_iff.1 h
  have hsome : (fun t => (m.get? t).isSome) = fun t => (n.get? t).isSome := by
    funext t
    rw [← Option.isSome_map (f := Record.answers), hrecords, Option.isSome_map]
  have htarget := hrecords request.target
  cases hr : m.get? request.target with
  | none =>
    rw [hr, Option.map_none, eq_comm, Option.map_eq_none_iff] at htarget
    rw [submit_of_accept_error (Request.accept_of_find_none hr),
      submit_of_accept_error (Request.accept_of_find_none htarget)]
    exact ⟨rfl, h⟩
  | some r =>
    rw [hr, Option.map_some, eq_comm, Option.map_eq_some_iff] at htarget
    obtain ⟨s, hs, hsr⟩ := htarget
    have hm : request.accept m.get? m.settings = _ := Request.accept_of_find_some hr
    have hn : request.accept n.get? n.settings = _ := Request.accept_of_find_some hs
    rw [← hsome, ← hsettings] at hn
    cases hedit : request.edit (fun t => (m.get? t).isSome) m.settings with
    | error e =>
      rw [hedit] at hm hn
      rw [submit_of_accept_error hm, submit_of_accept_error (hsettings ▸ hn)]
      exact ⟨rfl, h⟩
    | ok e =>
      rw [hedit] at hm hn
      rw [submit_of_accept_ok hm, submit_of_accept_ok (hsettings ▸ hn), hsettings]
      exact ⟨rfl, answers_set h request.target (Edit.answers_apply hsr.symm request.kind e)⟩

theorem submitAll_of_answers_eq (h : m.answers = n.answers) (requests : List Request) :
    (m.submitAll requests).2.map Receipt.result = (n.submitAll requests).2.map Receipt.result ∧
      (m.submitAll requests).1.answers = (n.submitAll requests).1.answers := by
  induction requests generalizing m n with
  | nil => exact ⟨rfl, h⟩
  | cons request requests ih =>
    obtain ⟨hresult, hnext⟩ := submit_of_answers_eq h request
    obtain ⟨hresults, hlast⟩ := ih hnext
    rw [submitAll, submitAll, List.map_cons, List.map_cons, hresult, hresults]
    exact ⟨rfl, hlast⟩

end ConstraintTable

/-- Among the tables of workspaces, to be equal without regard to order is an equivalence; it is to
give the same answers to all questions by key; and requests to equal tables get the same results and
leave equal tables. -/
theorem Workspace.equiv_congruence {steps steps' : List Step} {a b : String}
    {m n : ConstraintTable} (hm : (empty.run steps).1.table a = some m)
    (hn : (empty.run steps').1.table b = some n) :
    m.equiv m = true ∧ (m.equiv n = true → n.equiv m = true) ∧
    (∀ earlier name o, (empty.run earlier).1.table name = some o → m.equiv n = true →
      n.equiv o = true → m.equiv o = true) ∧
    (m.equiv n = true ↔ m.answers = n.answers) ∧
    (m.equiv n = true → ∀ requests : List Request,
      ((empty.run steps).1.run (requests.map (.submit a))).2.map (·.map Receipt.result) =
        ((empty.run steps').1.run (requests.map (.submit b))).2.map (·.map Receipt.result) ∧
      ∃ m' n', ((empty.run steps).1.run (requests.map (.submit a))).1.table a = some m' ∧
        ((empty.run steps').1.run (requests.map (.submit b))).1.table b = some n' ∧
        m'.equiv n' = true) := by
  obtain ⟨_, _, hback⟩ := exists_origin_of_table hm
  obtain ⟨_, _, hback'⟩ := exists_origin_of_table hn
  have hiff := ConstraintTable.equiv_iff_answers hback.wellFormed hback'.wellFormed
  refine ⟨?_, fun h => ?_, fun earlier name o ho hmn hno => ?_, hiff, fun h requests => ?_⟩
  · exact (ConstraintTable.equiv_iff_answers hback.wellFormed hback.wellFormed).2 rfl
  · exact (ConstraintTable.equiv_iff_answers hback'.wellFormed hback.wellFormed).2 (hiff.1 h).symm
  · obtain ⟨_, _, hback''⟩ := exists_origin_of_table ho
    have hno' := (ConstraintTable.equiv_iff_answers hback'.wellFormed hback''.wellFormed).1 hno
    exact (ConstraintTable.equiv_iff_answers hback.wellFormed hback''.wellFormed).2
      ((hiff.1 hmn).trans hno')
  · obtain ⟨hresults, hanswers⟩ := ConstraintTable.submitAll_of_answers_eq (hiff.1 h) requests
    obtain ⟨htable, hreceipts⟩ := run_submits (wellFormed_empty.run steps) hm requests
    obtain ⟨htable', hreceipts'⟩ := run_submits (wellFormed_empty.run steps') hn requests
    refine ⟨?_, _, _, htable, htable', ?_⟩
    · have hsome := congrArg (List.map some) hresults
      rw [List.map_map, List.map_map] at hsome
      rw [hreceipts, hreceipts', List.map_map, List.map_map]
      exact hsome
    · exact (ConstraintTable.equiv_iff_answers (hback.submitAll requests).wellFormed
        (hback'.submitAll requests).wellFormed).2 hanswers

/-- Targets declared in another order, and one relation in two requests or in one. The tables are
equal, and so they are after a request that is accepted and one that is not. -/
theorem Workspace.equiv_congruence_at_orders :
    let apart : List Step := [.create "main" [⟨"T", "Box"⟩, ⟨"U", "Box"⟩] .standard,
      .submit "main" (.relateTarget .supertype ⟨"T", "Box"⟩ ⟨"U", "Box"⟩ [⟨.ofName "Nullable"⟩]),
      .submit "main" (.relateTarget .supertype ⟨"T", "Box"⟩ ⟨"U", "Box"⟩ [⟨.ofName "Mutable"⟩])]
    let together : List Step := [.create "side" [⟨"U", "Box"⟩, ⟨"T", "Box"⟩] .standard,
      .submit "side" (.relateTarget .supertype ⟨"T", "Box"⟩ ⟨"U", "Box"⟩
        [⟨.ofName "Mutable"⟩, ⟨.ofName "Nullable"⟩])]
    let requests : List Request := [.relateTarget .equality ⟨"U", "Box"⟩ ⟨"V", "Box"⟩ [],
      .filePrimaries .equality ⟨"U", "Box"⟩ ⟨fun _ => some ⟨.ofName "Nullable"⟩, .empty⟩
        [.ofName "NonNull"]]
    ∃ m n, (empty.run apart).1.table "main" = some m ∧ (empty.run together).1.table "side" = some n ∧
      m ≠ n ∧ m.equiv n = true ∧ n.equiv m = true ∧ m.answers = n.answers ∧
      ∃ m' n', ((empty.run apart).1.run (requests.map (.submit "main"))).1.table "main" = some m' ∧
        ((empty.run together).1.run (requests.map (.submit "side"))).1.table "side" = some n' ∧
        m'.equiv n' = true := by
  intro apart together requests
  obtain ⟨m, hm⟩ : ∃ m, (empty.run apart).1.table "main" = some m := ⟨_, rfl⟩
  obtain ⟨n, hn⟩ : ∃ n, (empty.run together).1.table "side" = some n := ⟨_, rfl⟩
  have hsome : (some m).bind (fun m => (some n).map fun n => (decide (m ≠ n), m.equiv n)) =
      some (true, true) := by
    rw [← hm, ← hn]
    decide
  obtain ⟨hne, heq⟩ := Prod.mk.inj (Option.some.inj hsome)
  obtain ⟨_, hsymm, _, hiff, hkept⟩ := equiv_congruence hm hn
  exact ⟨m, n, hm, hn, of_decide_eq_true hne, heq, hsymm heq, hiff.1 heq, (hkept heq requests).2⟩

end QualifierConstraints
