import QualifierConstraints.Lattice
import QualifierConstraints.Proofs.SeparateTables

set_option autoImplicit false

namespace QualifierConstraints

namespace OrderedSet

variable {α : Type} [DecidableEq α]

theorem prefix_insert (s : OrderedSet α) (a : α) : s.toList <+: (s.insert a).toList := by
  by_cases h : a ∈ s
  · exact (insert_of_mem h).symm ▸ List.prefix_refl _
  · rw [toList_insert_of_not_mem h]
    exact List.prefix_append _ _

theorem prefix_insertMany (s : OrderedSet α) (xs : List α) :
    s.toList <+: (s.insertMany xs).toList := by
  induction xs generalizing s with
  | nil => exact List.prefix_refl _
  | cons x xs ih => exact (s.prefix_insert x).trans (ih (s.insert x))

end OrderedSet

namespace OrderedMap

variable {κ α β : Type} [DecidableEq κ]

/-- Keys stay in place with new ones behind them, each set grows at its end, and only the keys that
are `touched` get another set. -/
structure Grows (touched : κ → Prop) (m n : OrderedMap κ (OrderedSet α)) : Prop where
  keys : m.keys <+: n.keys
  sets : ∀ k s, m.get? k = some s → ∃ u, n.get? k = some u ∧ s.toList <+: u.toList
  others : ∀ k, ¬ touched k → n.get? k = m.get? k

variable {touched wider : κ → Prop} {m n o : OrderedMap κ (OrderedSet α)}

theorem Grows.refl (touched : κ → Prop) (m : OrderedMap κ (OrderedSet α)) : m.Grows touched m :=
  ⟨List.prefix_refl _, fun _ s hs => ⟨s, hs, List.prefix_refl _⟩, fun _ _ => rfl⟩

theorem Grows.of_eq (h : n = m) : m.Grows touched n := h ▸ .refl touched n

theorem Grows.trans (h : m.Grows touched n) (h' : n.Grows touched o) : m.Grows touched o := by
  refine ⟨h.keys.trans h'.keys, fun k s hs => ?_, fun k hk => ?_⟩
  · obtain ⟨u, hu, hsu⟩ := h.sets k s hs
    obtain ⟨v, hv, huv⟩ := h'.sets k u hu
    exact ⟨v, hv, hsu.trans huv⟩
  · rw [h'.others k hk, h.others k hk]

theorem Grows.mono (h : m.Grows touched n) (hw : ∀ k, touched k → wider k) : m.Grows wider n :=
  ⟨h.keys, h.sets, fun k hk => h.others k fun ht => hk (hw k ht)⟩

theorem prefix_keys_upsert (m : OrderedMap κ β) (k : κ) (initial : β) (f : β → β) :
    m.keys <+: (m.upsert k initial f).keys := by
  rw [keys_upsert]
  split_ifs
  · exact List.prefix_refl _
  · exact List.prefix_append _ _

theorem grows_upsert (m : OrderedMap κ (OrderedSet α)) (k : κ) (initial : OrderedSet α)
    {f : OrderedSet α → OrderedSet α} (hf : ∀ s, s.toList <+: (f s).toList) :
    m.Grows (· = k) (m.upsert k initial f) := by
  refine ⟨m.prefix_keys_upsert k initial f, fun j s hs => ?_, fun j hj => ?_⟩
  · rw [get?_upsert]
    split_ifs with hj
    · rw [← hj, hs]
      exact ⟨f s, rfl, hf s⟩
    · exact ⟨s, hs, List.prefix_refl _⟩
  · rw [get?_upsert, if_neg hj]

theorem grows_unionAt [DecidableEq α] (m : OrderedMap κ (OrderedSet α)) (k : κ)
    (s : OrderedSet α) : m.Grows (· = k) (m.unionAt k s) :=
  m.grows_upsert k .empty fun t => t.prefix_insertMany s.toList

theorem prefix_entries_insertNew (m : OrderedMap κ β) (k : κ) (v : β) :
    m.entries <+: (m.insertNew k v).entries := by
  by_cases h : k ∈ m.keys
  · exact ⟨[], by rw [List.append_nil, insertNew_of_mem h]⟩
  · exact ⟨[(k, v)], (entries_insertNew_of_not_mem h v).symm⟩

end OrderedMap

/-- Entries stay in place with their qualifiers, and new ones only come in at hierarchies that are
`touched`. -/
structure PrimaryEqualities.Grows (touched : Hierarchy → Prop) (p r : PrimaryEqualities) :
    Prop where
  entries : p.byHierarchy.entries <+: r.byHierarchy.entries
  others : ∀ h, ¬ touched h → r.get? h = p.get? h

namespace Kind

def Grows (touched : Hierarchy → Prop) : (k : Kind) → k.Primaries → k.Primaries → Prop
  | .equality, p, r => p.Grows touched r
  | .supertype, p, r => p.byHierarchy.Grows touched r.byHierarchy
  | .subtype, p, r => p.byHierarchy.Grows touched r.byHierarchy

variable {touched wider : Hierarchy → Prop}

theorem grows_refl (k : Kind) (touched : Hierarchy → Prop) (p : k.Primaries) :
    k.Grows touched p p := by
  cases k with
  | equality => exact ⟨List.prefix_refl _, fun _ _ => rfl⟩
  | supertype => exact .refl touched p.byHierarchy
  | subtype => exact .refl touched p.byHierarchy

theorem grows_of_eq (k : Kind) {p r : k.Primaries} (h : r = p) : k.Grows touched p r :=
  h ▸ k.grows_refl touched r

theorem grows_trans (k : Kind) {p r s : k.Primaries} (h : k.Grows touched p r)
    (h' : k.Grows touched r s) : k.Grows touched p s := by
  cases k with
  | equality =>
    exact ⟨h.entries.trans h'.entries, fun top ht => (h'.others top ht).trans (h.others top ht)⟩
  | supertype => exact OrderedMap.Grows.trans h h'
  | subtype => exact OrderedMap.Grows.trans h h'

theorem grows_mono (k : Kind) {p r : k.Primaries} (h : k.Grows touched p r)
    (hw : ∀ top, touched top → wider top) : k.Grows wider p r := by
  cases k with
  | equality => exact ⟨h.entries, fun top ht => h.others top fun ht' => ht (hw top ht')⟩
  | supertype => exact OrderedMap.Grows.mono h hw
  | subtype => exact OrderedMap.Grows.mono h hw

theorem grows_merge (k : Kind) (p : k.Primaries) (top : Hierarchy) (q : Qualifier) :
    k.Grows (· = top) p (PrimaryStore.merge p top q).1 := by
  cases k with
  | equality =>
    refine ⟨OrderedMap.prefix_entries_insertNew p.byHierarchy top q, fun other ho => ?_⟩
    refine (OrderedMap.get?_insertNew p.byHierarchy top other q).trans ?_
    rw [if_neg ho, Option.or_none]
    rfl
  | supertype => exact OrderedMap.grows_upsert _ top .empty fun s => s.prefix_insert q
  | subtype => exact OrderedMap.grows_upsert _ top .empty fun s => s.prefix_insert q

theorem grows_mergeAll (k : Kind) (p : k.Primaries) (entries : List (Hierarchy × Qualifier)) :
    k.Grows (fun top => ∃ q, (top, q) ∈ entries) p (PrimaryStore.mergeAll p entries).1 := by
  induction entries generalizing p with
  | nil => exact k.grows_refl _ p
  | cons e entries ih =>
    obtain ⟨top, q⟩ := e
    refine k.grows_trans (k.grows_mono (k.grows_merge p top q) ?_) (k.grows_mono (ih _) ?_)
    · rintro _ rfl
      exact ⟨q, List.mem_cons_self⟩
    · rintro other ⟨r, hr⟩
      exact ⟨r, List.mem_cons_of_mem _ hr⟩

end Kind

/-- What a request may do to the relations of its kind `k`: the side that it is about grows, at what
it names, and the two other sides stay. -/
def Request.Adds (k : Kind) (request : Request) (r s : Relations k.Primaries) : Prop :=
  match request with
  | .relateTarget _ _ other _ =>
    r.targets.Grows (· = other) s.targets ∧ s.types = r.types ∧ s.primaries = r.primaries
  | .relateType _ _ type _ =>
    s.targets = r.targets ∧ r.types.Grows (· = type) s.types ∧ s.primaries = r.primaries
  | .filePrimaries _ _ resolver qs =>
    s.targets = r.targets ∧ s.types = r.types ∧
      k.Grows (fun top => ∃ q ∈ qs, resolver.topOf q = some top) r.primaries s.primaries

theorem Request.adds_apply {request : Request} {declared : Target → Bool} {settings : Settings}
    {e : Edit} (h : request.edit declared settings = .ok e) (k : Kind) (record : Record) :
    request.Adds k (record.relations k) ((e.apply k record).1.relations k) := by
  obtain rfl := eq_effect_of_edit_eq_ok h
  rw [Edit.relations_apply_self]
  cases request with
  | relateTarget _ t other hs => exact ⟨OrderedMap.grows_unionAt _ other _, rfl, rfl⟩
  | relateType _ t type hs => exact ⟨rfl, OrderedMap.grows_unionAt _ type _, rfl⟩
  | filePrimaries _ t resolver qs =>
    refine ⟨rfl, rfl, k.grows_mono (k.grows_mergeAll _ (resolver.placements qs)) ?_⟩
    rintro top ⟨q, hq⟩
    exact ⟨q, Resolver.mem_placements.1 hq⟩

structure Relations.Grows (k : Kind) (r s : Relations k.Primaries) : Prop where
  targets : r.targets.Grows (fun _ => True) s.targets
  types : r.types.Grows (fun _ => True) s.types
  primaries : k.Grows (fun _ => True) r.primaries s.primaries

namespace Relations

variable {k : Kind} {r s u : Relations k.Primaries}

theorem Grows.refl (k : Kind) (r : Relations k.Primaries) : r.Grows k r :=
  ⟨.refl _ _, .refl _ _, k.grows_refl _ _⟩

theorem Grows.trans (h : r.Grows k s) (h' : s.Grows k u) : r.Grows k u :=
  ⟨h.targets.trans h'.targets, h.types.trans h'.types, k.grows_trans h.primaries h'.primaries⟩

theorem grows_of_adds {request : Request} (h : request.Adds k r s) : r.Grows k s := by
  cases request with
  | relateTarget =>
    obtain ⟨htargets, htypes, hprimaries⟩ := h
    exact ⟨htargets.mono fun _ _ => trivial, .of_eq htypes, k.grows_of_eq hprimaries⟩
  | relateType =>
    obtain ⟨htargets, htypes, hprimaries⟩ := h
    exact ⟨.of_eq htargets, htypes.mono fun _ _ => trivial, k.grows_of_eq hprimaries⟩
  | filePrimaries =>
    obtain ⟨htargets, htypes, hprimaries⟩ := h
    exact ⟨.of_eq htargets, .of_eq htypes, k.grows_mono hprimaries fun _ _ => trivial⟩

end Relations

structure Record.Grows (r s : Record) : Prop where
  target : s.target = r.target
  relations : ∀ k, (r.relations k).Grows k (s.relations k)

theorem Record.Grows.refl (r : Record) : r.Grows r := ⟨rfl, fun k => .refl k _⟩

theorem Record.Grows.trans {r s u : Record} (h : r.Grows s) (h' : s.Grows u) : r.Grows u :=
  ⟨h'.target.trans h.target, fun k => (h.relations k).trans (h'.relations k)⟩

namespace ConstraintTable

/-- The targets and the settings are the same, and every record has grown. -/
structure Grows (m n : ConstraintTable) : Prop where
  targets : n.targets = m.targets
  settings : n.settings = m.settings
  records : ∀ t r, m.get? t = some r → ∃ s, n.get? t = some s ∧ r.Grows s

variable {m n o : ConstraintTable} {request : Request}

theorem Grows.refl (m : ConstraintTable) : m.Grows m :=
  ⟨rfl, rfl, fun _ r hr => ⟨r, hr, .refl r⟩⟩

theorem Grows.trans (h : m.Grows n) (h' : n.Grows o) : m.Grows o := by
  refine ⟨h'.targets.trans h.targets, h'.settings.trans h.settings, fun t r hr => ?_⟩
  obtain ⟨s, hs, hrs⟩ := h.records t r hr
  obtain ⟨u, hu, hsu⟩ := h'.records t s hs
  exact ⟨u, hu, hrs.trans hsu⟩

/-- The record of the target may differ, in the relations of the kind, by what the request adds. -/
structure GrowsBy (request : Request) (m n : ConstraintTable) : Prop where
  targets : n.targets = m.targets
  settings : n.settings = m.settings
  others : ∀ t ≠ request.target, n.get? t = m.get? t
  record : ∃ r s, m.get? request.target = some r ∧ n.get? request.target = some s ∧
    s.target = r.target ∧ (∀ k ≠ request.kind, s.relations k = r.relations k) ∧
    request.Adds request.kind (r.relations request.kind) (s.relations request.kind)

theorem GrowsBy.grows (h : m.GrowsBy request n) : m.Grows n := by
  obtain ⟨r, s, hr, hs, htarget, hkinds, hadds⟩ := h.record
  refine ⟨h.targets, h.settings, fun t record ht => ?_⟩
  by_cases heq : t = request.target
  · subst heq
    obtain rfl : r = record := Option.some.inj (hr.symm.trans ht)
    refine ⟨s, hs, htarget, fun k => ?_⟩
    by_cases hk : k = request.kind
    · subst hk
      exact Relations.grows_of_adds hadds
    · rw [hkinds k hk]
      exact .refl k _
  · exact ⟨record, (h.others t heq).trans ht, .refl record⟩

theorem growsBy_of_accept_ok {record : Record} {e : Edit}
    (ha : request.accept m.get? m.settings = .ok (record, e)) :
    m.GrowsBy request (m.submit request).1 := by
  obtain ⟨hfind, hedit⟩ := Request.accept_eq_ok_iff.1 ha
  rw [submit_of_accept_ok ha]
  refine ⟨?_, rfl, fun t ht => ?_, record, _, hfind, ?_, Edit.target_apply _ _ e, fun k hk => ?_,
    Request.adds_apply hedit request.kind record⟩
  · exact (OrderedMap.keys_upsert _ _ _ _).trans (if_pos (OrderedMap.mem_keys_of_get? hfind))
  · exact (OrderedMap.get?_set _ _ _ _).trans (if_neg ht)
  · exact (OrderedMap.get?_set _ _ _ _).trans (if_pos rfl)
  · exact Edit.relations_apply_of_ne hk record e

theorem grows_submit (m : ConstraintTable) (request : Request) :
    m.Grows (m.submit request).1 := by
  cases ha : request.accept m.get? m.settings with
  | error e =>
    rw [submit_of_accept_error ha]
    exact .refl m
  | ok found => exact (growsBy_of_accept_ok ha).grows

theorem grows_submitAll (m : ConstraintTable) (requests : List Request) :
    m.Grows (m.submitAll requests).1 := by
  induction requests generalizing m with
  | nil => exact .refl m
  | cons request requests ih => exact (m.grows_submit request).trans (ih _)

end ConstraintTable

/-- The step puts no other table under `name` and does not drop the one that is there. -/
def Step.Keeps (name : String) : Step → Prop
  | .create made _ _ => made ≠ name
  | .copy _ copyName => copyName ≠ name
  | .drop dropped => dropped ≠ name
  | .submit _ _ => True

namespace TableStore

variable {s : TableStore} {name : String} {m : ConstraintTable}

theorem exists_grows_perform (h : s.tables.get? name = some m) {step : Step}
    (hk : step.Keeps name) : ∃ n, (s.perform step).1.tables.get? name = some n ∧ m.Grows n := by
  by_cases hslot : step.slot = name
  · cases step with
    | create | copy | drop => exact absurd hslot hk
    | submit writer request =>
      obtain rfl : writer = name := hslot
      refine ⟨(m.submit request).1, ?_, m.grows_submit request⟩
      change (s.submit writer request).1.tables.get? writer = _
      rw [submit_of_table h, OrderedMap.get?_set, if_pos rfl]
  · exact ⟨m, (get?_perform_of_ne hslot).trans h, .refl m⟩

theorem exists_grows_run (h : s.tables.get? name = some m) {steps : List Step}
    (hk : ∀ step ∈ steps, step.Keeps name) :
    ∃ n, (s.run steps).1.tables.get? name = some n ∧ m.Grows n := by
  induction steps generalizing s m with
  | nil => exact ⟨m, h, .refl m⟩
  | cons step steps ih =>
    rw [List.forall_mem_cons] at hk
    obtain ⟨next, hnext, hgrows⟩ := exists_grows_perform h hk.1
    obtain ⟨n, hn, hrest⟩ := ih hnext hk.2
    exact ⟨n, hn, hgrows.trans hrest⟩

end TableStore

theorem Workspace.exists_grows_run {w : Workspace} (hwf : w.WellFormed) {name : String}
    {m : ConstraintTable} (h : w.table name = some m) {steps : List Step}
    (hk : ∀ step ∈ steps, step.Keeps name) :
    ∃ n, (w.run steps).1.table name = some n ∧ m.Grows n := by
  rw [table_eq_get?_tables] at h
  obtain ⟨n, hn, hgrows⟩ := TableStore.exists_grows_run h hk
  rw [tables_run hwf] at hn
  exact ⟨n, (table_eq_get?_tables _ _).trans hn, hgrows⟩

/-- An accepted request changes one record of a table, only in the relations of its kind, and there
it only adds to the side that it is about, behind what stands there. So after any requests, and in a
workspace after any steps that leave the table where it is, nothing that was recorded is lost,
replaced or moved. -/
theorem ConstraintTable.growsBy_submit (m : ConstraintTable) :
    (∀ request, (m.submit request).2.result = .ok () → m.GrowsBy request (m.submit request).1) ∧
    (∀ requests, m.Grows (m.submitAll requests).1) ∧
    ∀ earlier name, (Workspace.empty.run earlier).1.table name = some m →
      ∀ steps, (∀ step ∈ steps, step.Keeps name) →
        ∃ n, ((Workspace.empty.run earlier).1.run steps).1.table name = some n ∧ m.Grows n := by
  refine ⟨fun request hok => ?_, m.grows_submitAll, fun earlier name h steps hk => ?_⟩
  · cases ha : request.accept m.get? m.settings with
    | error e =>
      rw [submit_of_accept_error ha] at hok
      cases hok
    | ok found => exact growsBy_of_accept_ok ha
  · exact Workspace.exists_grows_run (Workspace.wellFormed_empty.run earlier) h hk

/-- Two more bounds of one target, in a hierarchy where it has one already and in a new one. The
target that it is related to gets nothing. -/
theorem ConstraintTable.growsBy_submit_at_bounds :
    let lattice := (Lattice.empty.register (.ofName "Nullable") [.ofName "NonNull"]).register
      (.ofName "Unknown") [.ofName "KeyFor"]
    let m := ((ofTargets [⟨"T", "Box"⟩, ⟨"U", "Box"⟩] .standard).submitAll
      [.relateTarget .subtype ⟨"T", "Box"⟩ ⟨"U", "Box"⟩ [⟨.ofName "Nullable"⟩],
        .filePrimaries .subtype ⟨"T", "Box"⟩ lattice.resolver [.ofName "NonNull"]]).1
    let request : Request := .filePrimaries .subtype ⟨"T", "Box"⟩ lattice.resolver
      [.ofName "KeyFor", .ofName "Nullable"]
    (m.submit request).2.result = .ok () ∧ m.GrowsBy request (m.submit request).1 ∧
      (m.submit request).1.get? ⟨"U", "Box"⟩ = some (.empty ⟨"U", "Box"⟩) := by
  intro lattice m request
  have hok : (m.submit request).2.result = .ok () := by decide
  have hgrows : m.GrowsBy request (m.submit request).1 := (growsBy_submit m).1 request hok
  have hempty : m.get? ⟨"U", "Box"⟩ = some (.empty ⟨"U", "Box"⟩) := by decide
  exact ⟨hok, hgrows, (hgrows.others ⟨"U", "Box"⟩ (by decide)).trans hempty⟩

end QualifierConstraints
