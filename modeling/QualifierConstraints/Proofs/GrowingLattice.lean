import QualifierConstraints.Proofs.Registration
import QualifierConstraints.Proofs.TableRuns
import QualifierConstraints.Proofs.Unordered

/-!
# Filing by a growing lattice

Hierarchies may become known while constraints are taken in already. Then a qualifier is filed by
the lattice as it is at that moment, and the lattice goes on growing. What was filed is still found:
the requests that were accepted were resolved by earlier stages of the lattice, whose answers the
lattice keeps, and every bucket of the table holds qualifiers of such requests. `Recorded` is this
invariant of the lattice and the table together.
-/

set_option autoImplicit false

namespace QualifierConstraints

/-- What becomes known in the course of discovery. -/
inductive Finding where
  | hierarchy (registration : Registration)
  | targetRelation (kind : Kind) (target other : Target) (hierarchies : List Hierarchy)
  | typeRelation (kind : Kind) (target : Target) (type : AnnotatedType)
      (hierarchies : List Hierarchy)
  | primaries (kind : Kind) (target : Target) (qualifiers : List Qualifier)

/-- A lattice, and the workspace of the table that is filled with its help. -/
structure Discovery where
  lattice : Lattice
  workspace : Workspace

namespace Discovery

def start (earlier : List Step) (name : String) (targets : List Target) (settings : Settings) :
    Discovery :=
  ⟨.empty, (Workspace.empty.run earlier).1.create name targets settings⟩

def register (d : Discovery) (r : Registration) : Discovery :=
  ⟨d.lattice.register r.top r.members, d.workspace⟩

def submit (d : Discovery) (name : String) (request : Request) : Discovery × Option Receipt :=
  let submitted := d.workspace.submit name request
  (⟨d.lattice, submitted.1⟩, submitted.2)

/-- Qualifiers are filed by the lattice as it is now. -/
def note (d : Discovery) (name : String) : Finding → Discovery × Option Receipt
  | .hierarchy r => (d.register r, none)
  | .targetRelation k t other hs => d.submit name (.relateTarget k t other hs)
  | .typeRelation k t type hs => d.submit name (.relateType k t type hs)
  | .primaries k t qs => d.submit name (.filePrimaries k t d.lattice.resolver qs)

def noteAll (d : Discovery) (name : String) : List Finding → Discovery
  | [] => d
  | finding :: findings => (d.note name finding).1.noteAll name findings

theorem noteAll_append (d : Discovery) (name : String) (before after : List Finding) :
    d.noteAll name (before ++ after) = (d.noteAll name before).noteAll name after := by
  induction before generalizing d with
  | nil => rfl
  | cons finding before ih => exact ih _

end Discovery

/-- The qualifiers that stand in a hierarchy; an equality has one at most. -/
def Kind.bucket : (k : Kind) → k.Primaries → Hierarchy → Option (List Qualifier)
  | .equality, p, h => (p.get? h).map ([·])
  | .supertype, p, h => (p.get? h).map OrderedSet.toList
  | .subtype, p, h => (p.get? h).map OrderedSet.toList

def ConstraintTable.bucket (m : ConstraintTable) (t : Target) (k : Kind) (h : Hierarchy) :
    Option (List Qualifier) :=
  (m.get? t).bind fun record => k.bucket (record.relations k).primaries h

theorem map_toList_get?_collect_eq_some_iff {filed : List (Hierarchy × Qualifier)} {h : Hierarchy}
    {qs : List Qualifier} :
    ((OrderedMap.collect OrderedSet.withoutRepeats filed).get? h).map OrderedSet.toList = some qs ↔
      (∃ q, (h, q) ∈ filed) ∧ (OrderedMap.valuesAt h filed).eraseDups = qs := by
  simp only [Option.map_eq_some_iff, OrderedMap.get?_collect_eq_some_iff]
  constructor
  · rintro ⟨_, ⟨hq, rfl⟩, rfl⟩
    exact ⟨hq, rfl⟩
  · rintro ⟨hq, rfl⟩
    exact ⟨_, ⟨hq, rfl⟩, rfl⟩

namespace Kind

variable {filed : List (Hierarchy × Qualifier)} {h : Hierarchy} {qs : List Qualifier}

theorem mem_of_mem_bucket {k : Kind} (hb : k.bucket (k.primariesOf filed) h = some qs)
    {q : Qualifier} (hq : q ∈ qs) : (h, q) ∈ filed := by
  have bound : ((OrderedMap.collect OrderedSet.withoutRepeats filed).get? h).map
      OrderedSet.toList = some qs → (h, q) ∈ filed := by
    intro hb
    obtain ⟨_, rfl⟩ := map_toList_get?_collect_eq_some_iff.1 hb
    exact OrderedMap.mem_valuesAt.1 (List.mem_eraseDups.1 hq)
  cases k with
  | equality =>
    obtain ⟨p, hp, rfl⟩ := Option.map_eq_some_iff.1 hb
    rw [List.mem_singleton.1 hq]
    exact OrderedMap.mem_of_get?_firsts hp
  | supertype => exact bound hb
  | subtype => exact bound hb

theorem exists_mem_bucket {k : Kind} (hb : k.bucket (k.primariesOf filed) h = some qs) :
    ∃ q, q ∈ qs := by
  have bound : ((OrderedMap.collect OrderedSet.withoutRepeats filed).get? h).map
      OrderedSet.toList = some qs → ∃ q, q ∈ qs := by
    intro hb
    obtain ⟨⟨q, hq⟩, rfl⟩ := map_toList_get?_collect_eq_some_iff.1 hb
    exact ⟨q, List.mem_eraseDups.2 (OrderedMap.mem_valuesAt.2 hq)⟩
  cases k with
  | equality =>
    obtain ⟨p, _, rfl⟩ := Option.map_eq_some_iff.1 hb
    exact ⟨p, List.mem_singleton_self p⟩
  | supertype => exact bound hb
  | subtype => exact bound hb

theorem exists_bucket_of_mem {k : Kind} (hk : k ≠ .equality) {q : Qualifier}
    (hq : (h, q) ∈ filed) : ∃ found, k.bucket (k.primariesOf filed) h = some found ∧ q ∈ found := by
  have bound := map_toList_get?_collect_eq_some_iff.2 ⟨⟨q, hq⟩, rfl⟩
  have hmem := List.mem_eraseDups.2 (OrderedMap.mem_valuesAt.2 hq)
  cases k with
  | equality => exact absurd rfl hk
  | supertype => exact ⟨_, bound, hmem⟩
  | subtype => exact ⟨_, bound, hmem⟩

end Kind

namespace ConstraintTable

variable {targets : List Target} {settings : Settings} {history : List Request} {t : Target}
  {k : Kind} {h : Hierarchy} {qs : List Qualifier}

theorem bucket_ofHistory (ht : t ∈ targets) (k : Kind) (h : Hierarchy) :
    (ofHistory targets settings history).bucket t k h =
      k.bucket (k.primariesOf (history.flatMap (Request.filings k t))) h := by
  rw [bucket, get?_ofHistory, if_pos ht, Option.bind_some, Record.relations_ofHistory]
  rfl

theorem target_mem_of_bucket (hb : (ofHistory targets settings history).bucket t k h = some qs) :
    t ∈ targets := by
  by_contra ht
  rw [bucket, get?_ofHistory, if_neg ht] at hb
  cases hb

theorem exists_request_of_mem_bucket
    (hb : (ofHistory targets settings history).bucket t k h = some qs) {q : Qualifier}
    (hq : q ∈ qs) :
    ∃ r ps, .filePrimaries k t r ps ∈ history ∧ q ∈ ps ∧ r.topOf q = some h := by
  rw [bucket_ofHistory (target_mem_of_bucket hb)] at hb
  obtain ⟨request, hr, hf⟩ := List.mem_flatMap.1 (Kind.mem_of_mem_bucket hb hq)
  obtain ⟨r, ps, rfl, hplace⟩ := Request.mem_filings.1 hf
  exact ⟨r, ps, hr, Resolver.mem_placements.1 hplace⟩

theorem exists_mem_bucket (hb : (ofHistory targets settings history).bucket t k h = some qs) :
    ∃ q, q ∈ qs := by
  rw [bucket_ofHistory (target_mem_of_bucket hb)] at hb
  exact Kind.exists_mem_bucket hb

theorem exists_bucket_of_mem (ht : t ∈ targets) (hk : k ≠ .equality) {r : Resolver}
    (hr : .filePrimaries k t r qs ∈ history) {q : Qualifier} (hq : q ∈ qs)
    (htop : r.topOf q = some h) :
    ∃ found, (ofHistory targets settings history).bucket t k h = some found ∧ q ∈ found := by
  rw [bucket_ofHistory ht]
  refine Kind.exists_bucket_of_mem hk (List.mem_flatMap.2 ⟨_, hr, Request.mem_filings.2 ?_⟩)
  exact ⟨r, qs, rfl, Resolver.mem_placements.2 ⟨hq, htop⟩⟩

end ConstraintTable

namespace Discovery

/-- The table is that of a history of requests that pass, and the lattice keeps the answers by
which their qualifiers were filed. -/
structure Recorded (d : Discovery) (name : String) (targets : List Target) (settings : Settings)
    (history : List Request) : Prop where
  wellFormed : d.workspace.WellFormed
  table : d.workspace.table name = some (.ofHistory targets settings history)
  passes : ∀ request ∈ history, request.passes targets settings = true
  keeps : ∀ k t r qs, .filePrimaries k t r qs ∈ history → d.lattice.Keeps r
  listed : d.lattice.AnswersListed

variable {d : Discovery} {name : String} {targets : List Target} {settings : Settings}
  {history : List Request}

theorem recorded_start (earlier : List Step) (name : String) (targets : List Target)
    (settings : Settings) :
    (start earlier name targets settings).Recorded name targets settings [] where
  wellFormed := (Workspace.wellFormed_empty.run earlier).create name targets settings
  table := by
    rw [← ConstraintTable.ofTargets_eq_ofHistory]
    exact Workspace.table_create (Workspace.wellFormed_empty.run earlier) name targets settings
  passes := by simp
  keeps := by simp
  listed := Lattice.answersListed_empty

namespace Recorded

theorem register (h : d.Recorded name targets settings history) (r : Registration) :
    (d.register r).Recorded name targets settings history where
  wellFormed := h.wellFormed
  table := h.table
  passes := h.passes
  keeps k t earlier qs hr := (h.keeps k t earlier qs hr).register r
  listed := h.listed.register r

theorem submit (h : d.Recorded name targets settings history) {request : Request}
    (hr : ∀ k t r qs, request = .filePrimaries k t r qs → d.lattice.Keeps r) :
    (d.submit name request).1.Recorded name targets settings
      (history ++ if request.passes targets settings then [request] else []) where
  wellFormed := h.wellFormed.submit name request
  table := (Workspace.submit_ofHistory h.wellFormed h.table request).1
  passes _ := Request.passes_of_mem_append h.passes
  keeps k t r qs ho := by
    obtain ho | ho := List.mem_append.1 ho
    · exact h.keeps k t r qs ho
    · split_ifs at ho
      · exact hr k t r qs (List.mem_singleton.1 ho).symm
      · cases ho
  listed := h.listed

theorem file (h : d.Recorded name targets settings history) (k : Kind) (t : Target)
    (qs : List Qualifier) :
    let request := Request.filePrimaries k t d.lattice.resolver qs
    (d.note name (.primaries k t qs)).1.Recorded name targets settings
      (history ++ if request.passes targets settings then [request] else []) := by
  refine h.submit ?_
  rintro _ _ _ _ ⟨⟩
  exact d.lattice.keeps_resolver

theorem note (h : d.Recorded name targets settings history) (finding : Finding) :
    ∃ more, (d.note name finding).1.Recorded name targets settings (history ++ more) := by
  cases finding with
  | hierarchy r => exact ⟨[], by rw [List.append_nil]; exact h.register r⟩
  | targetRelation k t other hs => exact ⟨_, h.submit (by simp)⟩
  | typeRelation k t type hs => exact ⟨_, h.submit (by simp)⟩
  | primaries k t qs => exact ⟨_, h.file k t qs⟩

theorem noteAll (h : d.Recorded name targets settings history) (findings : List Finding) :
    ∃ more, (d.noteAll name findings).Recorded name targets settings (history ++ more) := by
  induction findings generalizing d history with
  | nil => exact ⟨[], by rwa [List.append_nil]⟩
  | cons finding findings ih =>
    obtain ⟨first, hfirst⟩ := h.note finding
    obtain ⟨rest, hrest⟩ := ih hfirst
    rw [List.append_assoc] at hrest
    exact ⟨_, hrest⟩

/-- A request for primaries that is accepted is in the history from then on. -/
theorem exists_history_of_accepted (h : d.Recorded name targets settings history) {k : Kind}
    {t : Target} {qs : List Qualifier}
    (hok : (d.note name (.primaries k t qs)).2.map Receipt.result = some (.ok ()))
    (after : List Finding) :
    ∃ history', ((d.note name (.primaries k t qs)).1.noteAll name after).Recorded name targets
        settings history' ∧ .filePrimaries k t d.lattice.resolver qs ∈ history' := by
  have hverdict : (Request.filePrimaries k t d.lattice.resolver qs).verdict targets settings =
      .ok () := by
    have hresult := (Workspace.submit_ofHistory h.wellFormed h.table
      (.filePrimaries k t d.lattice.resolver qs)).2
    exact Option.some.inj (hresult.symm.trans hok)
  have hpass : (Request.filePrimaries k t d.lattice.resolver qs).passes targets settings =
      true := by
    rw [Request.passes, hverdict]
    rfl
  have hnoted := h.file k t qs
  simp only [hpass, if_true] at hnoted
  obtain ⟨more, hmore⟩ := hnoted.noteAll after
  exact ⟨_, hmore, by simp⟩

variable {t : Target} {k : Kind} {top : Hierarchy} {qs : List Qualifier} {q : Qualifier}

theorem topOf_of_mem_bucket (h : d.Recorded name targets settings history)
    (hb : (ConstraintTable.ofHistory targets settings history).bucket t k top = some qs)
    (hq : q ∈ qs) : d.lattice.topOf q = some top := by
  obtain ⟨r, ps, hr, _, htop⟩ := ConstraintTable.exists_request_of_mem_bucket hb hq
  exact h.keeps k t r ps hr q top htop

theorem eq_of_name_eq (h : d.Recorded name targets settings history)
    (hb : (ConstraintTable.ofHistory targets settings history).bucket t k top = some qs)
    (hq : q ∈ qs) {t' : Target} {k' : Kind} {top' : Hierarchy} {qs' : List Qualifier}
    {q' : Qualifier}
    (hb' : (ConstraintTable.ofHistory targets settings history).bucket t' k' top' = some qs')
    (hq' : q' ∈ qs') (hname : q.name = q'.name) : top = top' := by
  have htop := h.topOf_of_mem_bucket hb hq
  have htop' := h.topOf_of_mem_bucket hb' hq'
  rw [Lattice.topOf, hname] at htop
  exact Option.some.inj (htop.symm.trans htop')

theorem topOf_top_of_bucket (h : d.Recorded name targets settings history)
    (hv : settings.validateHierarchies = true)
    (hb : (ConstraintTable.ofHistory targets settings history).bucket t k top = some qs) :
    d.lattice.topOf top.top = some top := by
  -- No bucket is empty, so some request was validated that filed a qualifier here.
  obtain ⟨q, hq⟩ := ConstraintTable.exists_mem_bucket hb
  obtain ⟨r, ps, hr, hmem, htop⟩ := ConstraintTable.exists_request_of_mem_bucket hb hq
  have hhome : r.topOf top.top = some top := by
    by_contra hne
    exact Request.not_refuses_of_passes (h.passes _ hr) q hmem (.inr ⟨hv, top, htop, hne⟩)
  exact h.keeps k t r ps hr top.top top hhome

theorem exists_bucket_of_mem (h : d.Recorded name targets settings history)
    (hk : k ≠ .equality) {r : Resolver} (hr : .filePrimaries k t r qs ∈ history) (hq : q ∈ qs) :
    ∃ found, (d.lattice.topOf q).bind ((ConstraintTable.ofHistory targets settings history).bucket
      t k) = some found ∧ q ∈ found := by
  have hpass := h.passes _ hr
  have hnot := Request.not_refuses_of_passes hpass q hq
  obtain ⟨top, htop, _⟩ := Resolver.resolve_of_not_refuses hnot
  rw [h.keeps k t r qs hr q top htop, Option.bind_some]
  exact ConstraintTable.exists_bucket_of_mem (Request.target_mem_of_passes hpass) hk hr hq htop

end Recorded

/-- Whatever is noted on a new table and an empty lattice, in any order, the lattice finds every
qualifier of the table in the hierarchy where it stands, lists that hierarchy, and with validation
finds its top there too. So qualifiers of one name stand in one hierarchy, the qualifiers of every
accepted request for bounds are found by the lattice of any later time, and with validation the
way over the top of a hierarchy leads back to the same bucket. -/
theorem primaries_findable (earlier : List Step) (name : String) (targets : List Target)
    (settings : Settings) (findings : List Finding) :
    let opening := start earlier name targets settings
    let d := opening.noteAll name findings
    ∃ m, d.workspace.table name = some m ∧
      (∀ t k h qs, m.bucket t k h = some qs →
        (∀ q ∈ qs, d.lattice.topOf q = some h ∧ h ∈ d.lattice.hierarchies) ∧
        (settings.validateHierarchies = true → d.lattice.topOf h.top = some h ∧
          (d.lattice.topOf h.top).bind (m.bucket t k) = some qs)) ∧
      (∀ t t' k k' h h' qs qs', m.bucket t k h = some qs → m.bucket t' k' h' = some qs' →
        ∀ q ∈ qs, ∀ q' ∈ qs', q.name = q'.name → h = h') ∧
      (∀ before after k t qs, findings = before ++ .primaries k t qs :: after → k ≠ .equality →
        ((opening.noteAll name before).note name (.primaries k t qs)).2.map Receipt.result =
          some (.ok ()) →
        ∀ q ∈ qs, ∃ found, (d.lattice.topOf q).bind (m.bucket t k) = some found ∧ q ∈ found) := by
  intro opening d
  have hopening := recorded_start earlier name targets settings
  obtain ⟨history, h⟩ := hopening.noteAll findings
  rw [List.nil_append] at h
  refine ⟨_, h.table, fun t k top qs hb => ⟨fun q hq => ?_, fun hv => ?_⟩, ?_, ?_⟩
  · have htop := h.topOf_of_mem_bucket hb hq
    exact ⟨htop, h.listed q top htop⟩
  · have hhome := h.topOf_top_of_bucket hv hb
    refine ⟨hhome, ?_⟩
    rw [hhome, Option.bind_some, hb]
  · intro t t' k k' top top' qs qs' hb hb' q hq q' hq' hname
    exact h.eq_of_name_eq hb hq hb' hq' hname
  · rintro before after k t qs rfl hk hok q hq
    obtain ⟨_, hbefore⟩ := hopening.noteAll before
    obtain ⟨history', h', hmem⟩ := hbefore.exists_history_of_accepted hok after
    have hsplit : opening.noteAll name (before ++ .primaries k t qs :: after) =
        ((opening.noteAll name before).note name (.primaries k t qs)).1.noteAll name after :=
      noteAll_append opening name before _
    rw [← hsplit] at h'
    -- Both histories are of the one table that is there in the end.
    have hsame := Option.some.inj (h.table.symm.trans h'.table)
    rw [hsame]
    exact h'.exists_bucket_of_mem hk hmem hq

/-- Without validation the top of a hierarchy may lead elsewhere: its name was taken before. -/
example :
    let d := (start [] "main" [⟨"T", "Box"⟩] .standard).noteAll "main"
      [.hierarchy ⟨.ofName "Nullable", [.ofName "NonNull"]⟩,
        .hierarchy ⟨.ofName "NonNull", [.ofName "Odd"]⟩,
        .primaries .subtype ⟨"T", "Box"⟩ [.ofName "Odd"]]
    (d.workspace.table "main").bind (·.bucket ⟨"T", "Box"⟩ .subtype ⟨.ofName "NonNull"⟩) =
        some [.ofName "Odd"] ∧
      d.lattice.topOf (.ofName "NonNull") = some ⟨.ofName "Nullable"⟩ := by
  decide

end Discovery
end QualifierConstraints
