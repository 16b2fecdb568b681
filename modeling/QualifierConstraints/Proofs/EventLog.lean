import QualifierConstraints.Proofs.Filing
import QualifierConstraints.Proofs.LegibleDetails

/-!
# The log of a table

What a log shows of a request, read against what the request records. Each qualifier of an accepted
request is told once, in order: as discarded if it is an equality for a hierarchy that has one by
then, and as added otherwise. So the log of all requests about one target, reduced to the added
equalities, is the list of the equalities in its record. A request appends to both alike, and a run
does so request by request.
-/

set_option autoImplicit false

namespace QualifierConstraints

/-- The record of `t` has an equality with some qualifier of the hierarchy. -/
def ConstraintTable.HasEquality (m : ConstraintTable) (t : Target) (h : Hierarchy) : Prop :=
  ∃ record q, m.get? t = some record ∧ record.equalities.primaries.get? h = some q

/-- An equality of `t` is discarded if the table, or a qualifier that comes before it in the same
request, has filled the hierarchy. -/
def ConstraintTable.Discards (m : ConstraintTable) (k : Kind) (t : Target) (r : Resolver)
    (before : List Qualifier) (h : Hierarchy) : Prop :=
  k = .equality ∧ (m.HasEquality t h ∨ ∃ p ∈ before, r.topOf p = some h)

namespace LogEntry

def text (e : LogEntry) (field : String) : Option String := e.fields.lookup field

/-- What a log shows of an event about `t`. -/
def about (t : Target) (level : Level) (message : String) (details : List (String × String)) :
    LogEntry where
  level := level
  origin := "ty_qualifier_inference::constraints"
  fields := [("message", message), ("inference_target", t.render)] ++ details

def kindWord : Kind → String
  | .equality => "equality"
  | .supertype => "supertype"
  | .subtype => "subtype"

/-- Every hierarchy with the name and the arguments of its top. -/
def hierarchiesText (hs : List Hierarchy) : String :=
  "\x7b" ++ ", ".intercalate (hs.map fun h =>
    "Hierarchy(Qualifier \x7b name: " ++ Text.quoted h.top.name ++ ", arguments: [" ++
      ", ".intercalate (h.top.arguments.map Text.quoted) ++ "] \x7d)") ++ "\x7d"

def added (k : Kind) (t : Target) (q : Qualifier) (h : Hierarchy) : LogEntry :=
  about t .trace ("add primary " ++ kindWord k ++ " constraint")
    [("qualifier", q.render), ("hierarchy", h.render)]

/-- A qualifier came too late to be an equality of `t`. -/
def discarded (t : Target) (q : Qualifier) (h : Hierarchy) : LogEntry :=
  about t .debug "discard primary equality constraint, hierarchy already has one"
    [("qualifier", q.render), ("hierarchy", h.render)]

def IsEqualityTrace (e : LogEntry) : Prop :=
  e.level = .trace ∧ e.text "message" = some "add primary equality constraint"

instance (e : LogEntry) : Decidable e.IsEqualityTrace :=
  inferInstanceAs (Decidable (_ ∧ _))

def ofEquality (t : Target) (entry : Hierarchy × Qualifier) : LogEntry :=
  added .equality t entry.2 entry.1

end LogEntry

/-- The added equalities that a log tells. -/
def equalityTraces (log : List LogEntry) : List LogEntry := log.filter (·.IsEqualityTrace)

/-- What a log shows of the requests about `t`, the other requests left out. -/
def logAbout (t : Target) (made : List (Request × Receipt)) : List LogEntry :=
  (made.filter (·.1.target = t)).flatMap (·.2.log)

open LogEntry

/-- Each qualifier is told once, in order, with its hierarchy and with what became of it. -/
structure TellsPrimaries (m : ConstraintTable) (k : Kind) (t : Target) (r : Resolver)
    (qs : List Qualifier) (log : List LogEntry) : Prop where
  length : log.length = qs.length
  each : ∀ before q after, qs = before ++ q :: after → ∃ h, r.topOf q = some h ∧
    (m.Discards k t r before h → log[before.length]? = some (discarded t q h)) ∧
    (¬ m.Discards k t r before h → log[before.length]? = some (added k t q h))

/-- What a log shows of a request to the table `m`, for each result that it may have. A relation to
a type is told even if it is rejected. -/
inductive Request.Tells (m : ConstraintTable) :
    Request → Except Rejection Unit → List LogEntry → Prop
  | targetRelated (k : Kind) (t other : Target) (hs : List Hierarchy) :
    Tells m (.relateTarget k t other hs) (.ok ())
      [about t .trace ("add " ++ kindWord k ++ " constraint to target")
        [("other", other.render), ("hierarchies", hierarchiesText hs.eraseDups)]]
  | targetRejected (k : Kind) (t other : Target) (hs : List Hierarchy) (e : Rejection) :
    Tells m (.relateTarget k t other hs) (.error e) []
  | typeRelated (k : Kind) (t : Target) (type : AnnotatedType) (hs : List Hierarchy)
      (result : Except Rejection Unit) :
    Tells m (.relateType k t type hs) result
      [about t .trace ("add " ++ kindWord k ++ " constraint to type")
        [("ty", type.render), ("hierarchies", hierarchiesText hs.eraseDups)]]
  | primariesFiled (k : Kind) (t : Target) (r : Resolver) (qs : List Qualifier)
      (log : List LogEntry) :
    TellsPrimaries m k t r qs log → Tells m (.filePrimaries k t r qs) (.ok ()) log
  | primariesRejected (k : Kind) (t : Target) (r : Resolver) (qs : List Qualifier)
      (e : Rejection) :
    Tells m (.filePrimaries k t r qs) (.error e) []

namespace LogEntry

theorem detail_eq (h : Hierarchy) : h.detail =
    "Hierarchy(Qualifier \x7b name: " ++ Text.quoted h.top.name ++ ", arguments: [" ++
      ", ".intercalate (h.top.arguments.map Text.quoted) ++ "] \x7d)" := by
  have hfront : "Hierarchy(Qualifier \x7b name: " = "Hierarchy(" ++ "Qualifier \x7b name: " := by
    decide
  have hmiddle : ", arguments: [" = ", arguments: " ++ "[" := by decide
  have hback : "] \x7d)" = "]" ++ (" \x7d" ++ ")") := by decide
  unfold Hierarchy.detail Qualifier.detail Text.listed
  rw [hfront, hmiddle, hback]
  simp only [String.append_assoc]

theorem setDetail_eq (hs : OrderedSet Hierarchy) :
    Event.setDetail hs = hierarchiesText hs.toList := by
  rw [hierarchiesText, ← List.map_congr_left fun h _ => detail_eq h]
  rfl

theorem hierarchiesText_inj {hs gs : List Hierarchy} :
    hierarchiesText hs = hierarchiesText gs ↔ hs = gs := by
  rw [hierarchiesText, hierarchiesText, ← List.map_congr_left fun h _ => detail_eq h,
    ← List.map_congr_left fun h _ => detail_eq h]
  exact Hierarchy.listed_detail_inj

theorem name_eq_kindWord (k : Kind) : k.name = kindWord k := by cases k <;> rfl

end LogEntry

namespace Event

theorem logEntry_eq (e : Event) : e.logEntry = match e with
    | .targetRelated k t other hs =>
      about t .trace ("add " ++ kindWord k ++ " constraint to target")
        [("other", other.render), ("hierarchies", hierarchiesText hs.toList)]
    | .typeRelated k t type hs =>
      about t .trace ("add " ++ kindWord k ++ " constraint to type")
        [("ty", type.render), ("hierarchies", hierarchiesText hs.toList)]
    | .primaryKept k t q h => added k t q h
    | .primaryDiscarded k t q h =>
      about t .debug ("discard primary " ++ kindWord k ++ " constraint, hierarchy already has one")
        [("qualifier", q.render), ("hierarchy", h.render)] := by
  cases e <;> simp only [added, ← setDetail_eq, ← name_eq_kindWord] <;> rfl

theorem isEqualityTrace_logEntry_iff {e : Event} :
    e.logEntry.IsEqualityTrace ↔ ∃ t q h, e = .primaryKept .equality t q h := by
  constructor
  · rintro ⟨hlevel, hmessage⟩
    have hmessage : e.message = "add primary equality constraint" := Option.some.inj hmessage
    -- The messages of the other events are other texts, whatever the kind is.
    cases e with
    | targetRelated k =>
      have hne : "add " ++ k.name ++ " constraint to target" ≠
          "add primary equality constraint" := by cases k <;> decide
      exact absurd hmessage hne
    | typeRelated k =>
      have hne : "add " ++ k.name ++ " constraint to type" ≠
          "add primary equality constraint" := by cases k <;> decide
      exact absurd hmessage hne
    | primaryKept k t q h =>
      have hkind : "add primary " ++ k.name ++ " constraint" = "add primary equality constraint" →
          k = .equality := by cases k <;> decide
      obtain rfl := hkind hmessage
      exact ⟨t, q, h, rfl⟩
    | primaryDiscarded => cases hlevel
  · rintro ⟨t, q, h, rfl⟩
    have hmessage : "add primary " ++ Kind.name .equality ++ " constraint" =
        "add primary equality constraint" := by decide
    exact ⟨rfl, congrArg some hmessage⟩

theorem isEqualityTrace_ofFiling (k : Kind) (t : Target) (f : Filing) :
    (ofFiling k t f).logEntry.IsEqualityTrace ↔ k = .equality ∧ f.kept = true := by
  rw [isEqualityTrace_logEntry_iff, ofFiling]
  split_ifs with hf <;> simp [hf]

end Event

namespace ConstraintTable

variable {m : ConstraintTable} {t : Target} {record : Record}

theorem hasEquality_iff (hfind : m.get? t = some record) (h : Hierarchy) :
    m.HasEquality t h ↔ ∃ q, record.equalities.primaries.get? h = some q := by
  constructor
  · rintro ⟨found, q, hfound, hq⟩
    obtain rfl : record = found := Option.some.inj (hfind.symm.trans hfound)
    exact ⟨q, hq⟩
  · rintro ⟨q, hq⟩
    exact ⟨record, q, hfind, hq⟩

theorem tellsPrimaries (hfind : m.get? t = some record) (k : Kind) {r : Resolver}
    {settings : Settings} {qs : List Qualifier} (hall : ∀ q ∈ qs, ¬ r.Refuses settings q) :
    TellsPrimaries m k t r qs
      ((PrimaryStore.mergeAll (record.relations k).primaries (r.placements qs)).2.map
        fun f => (Event.ofFiling k t f).logEntry) where
  length := by
    rw [List.length_map, PrimaryStore.length_snd_mergeAll, Resolver.length_placements hall]
  each before q after hqs := by
    subst hqs
    obtain ⟨h, hq, hplaced⟩ := Resolver.placements_append_cons hall
    have hlength := Resolver.length_placements fun p hp => hall p (List.mem_append_left _ hp)
    have hkept := record.kept_eq_false_iff k (r.placements before) h q
    rw [← hasEquality_iff hfind, Resolver.mem_map_fst_placements] at hkept
    have hfiling := PrimaryStore.getElem?_snd_mergeAll (record.relations k).primaries
      (r.placements before) h q (r.placements after)
    rw [← hplaced, hlength] at hfiling
    rw [List.getElem?_map, hfiling, Option.map_some, Event.ofFiling]
    refine ⟨h, hq, fun hfilled => ?_, fun hfree => ?_⟩
    · obtain ⟨rfl, _⟩ := id hfilled
      rw [hkept.2 hfilled]
      exact congrArg some (Event.logEntry_eq _)
    · rw [eq_true_of_ne_false fun hf => hfree (hkept.1 hf)]
      exact congrArg some (Event.logEntry_eq _)

theorem tells_submit (m : ConstraintTable) (request : Request) :
    request.Tells m (m.submit request).2.result (m.submit request).2.log := by
  cases ha : request.accept m.get? m.settings with
  | error e =>
    rw [submit_of_accept_error ha, Receipt.log]
    cases request with
    | relateTarget k t other hs => exact .targetRejected k t other hs e
    | relateType k t type hs =>
      rw [Request.events, List.map_singleton, Event.logEntry_eq]
      simp only [OrderedSet.toList_ofList]
      exact .typeRelated k t type hs _
    | filePrimaries k t r qs => exact .primariesRejected k t r qs e
  | ok found =>
    obtain ⟨record, e⟩ := found
    obtain ⟨hfind, hedit⟩ := Request.accept_eq_ok_iff.1 ha
    rw [submit_of_accept_ok ha, Receipt.log]
    cases request with
    | relateTarget k t other hs =>
      rw [Request.events, List.map_singleton, Event.logEntry_eq]
      simp only [OrderedSet.toList_ofList]
      exact .targetRelated k t other hs
    | relateType k t type hs =>
      rw [Request.events, List.map_singleton, Event.logEntry_eq]
      simp only [OrderedSet.toList_ofList]
      exact .typeRelated k t type hs _
    | filePrimaries k t r qs =>
      obtain ⟨hall, rfl⟩ := Request.edit_filePrimaries_eq_ok_iff.1 hedit
      rw [Request.events, List.map_map]
      exact .primariesFiled k t r qs _ (tellsPrimaries hfind k hall)

end ConstraintTable

theorem equalityTraces_append (log more : List LogEntry) :
    equalityTraces (log ++ more) = equalityTraces log ++ equalityTraces more :=
  List.filter_append ..

theorem equalityTraces_eq_nil {events : List Event}
    (h : ∀ e ∈ events, ∀ t q top, e ≠ .primaryKept .equality t q top) :
    equalityTraces (events.map Event.logEntry) = [] := by
  rw [equalityTraces, List.filter_eq_nil_iff]
  intro entry hentry htrace
  obtain ⟨e, he, rfl⟩ := List.mem_map.1 hentry
  obtain ⟨t, q, top, rfl⟩ := Event.isEqualityTrace_logEntry_iff.1 (of_decide_eq_true htrace)
  exact h _ he t q top rfl

theorem equalityTraces_singleton {e : Event} (h : ∀ t q top, e ≠ .primaryKept .equality t q top) :
    equalityTraces ([e].map Event.logEntry) = [] :=
  equalityTraces_eq_nil fun _ hd => List.mem_singleton.1 hd ▸ h

theorem equalityTraces_filings_of_ne {k : Kind} (hk : k ≠ .equality) (t : Target)
    (fs : List Filing) :
    equalityTraces ((fs.map (Event.ofFiling k t)).map Event.logEntry) = [] := by
  refine equalityTraces_eq_nil fun e he u q top hkept => ?_
  obtain ⟨f, _, rfl⟩ := List.mem_map.1 he
  have htrace := Event.isEqualityTrace_logEntry_iff.2 ⟨u, q, top, hkept⟩
  exact hk ((Event.isEqualityTrace_ofFiling k t f).1 htrace).1

theorem equalityTraces_filings (t : Target) (fs : List Filing) :
    equalityTraces ((fs.map (Event.ofFiling .equality t)).map Event.logEntry) =
      ((fs.filter (·.kept)).map fun f => (f.hierarchy, f.qualifier)).map (ofEquality t) := by
  have htrace : ∀ f ∈ fs.filter (·.kept), (Event.ofFiling .equality t f).logEntry =
      ofEquality t (f.hierarchy, f.qualifier) := by
    intro f hf
    rw [Event.ofFiling, if_pos (List.mem_filter.1 hf).2]
    exact Event.logEntry_eq _
  rw [equalityTraces, List.map_map, List.filter_map, List.map_map]
  simp only [Function.comp_def, Event.isEqualityTrace_ofFiling, true_and, Bool.decide_eq_true]
  exact List.map_congr_left htrace

/-- An edit that files nothing leaves the equalities of the record. -/
theorem Edit.equalities_apply_of_primaries_eq {k : Kind} {record : Record} {e : Edit}
    (h : ((record.relations k).edit e).1.primaries = (record.relations k).primaries) :
    (e.apply k record).1.equalities.primaries = record.equalities.primaries := by
  cases k with
  | equality => exact h
  | supertype | subtype => rfl

namespace Request

theorem equalityTraces_events_none (request : Request) :
    equalityTraces ((request.events none).map Event.logEntry) = [] := by
  cases request with
  | relateTarget | filePrimaries => rfl
  | relateType => exact equalityTraces_singleton (by simp)

/-- What an accepted request adds to the equalities of its target is what it tells as added. -/
theorem equalities_apply {request : Request} {declared : Target → Bool} {settings : Settings}
    {e : Edit} (h : request.edit declared settings = .ok e) (record : Record) :
    (e.apply request.kind record).1.equalities.primaries.byHierarchy.entries.map
        (ofEquality request.target) =
      record.equalities.primaries.byHierarchy.entries.map (ofEquality request.target) ++
        equalityTraces
          ((request.events (some (e.apply request.kind record).2)).map Event.logEntry) := by
  obtain rfl := eq_effect_of_edit_eq_ok h
  cases request with
  | relateTarget k t other hs =>
    rw [effect, kind, Edit.equalities_apply_of_primaries_eq rfl, events, List.self_eq_append_right]
    exact equalityTraces_singleton (by simp)
  | relateType k t type hs =>
    rw [effect, kind, Edit.equalities_apply_of_primaries_eq rfl, events, List.self_eq_append_right]
    exact equalityTraces_singleton (by simp)
  | filePrimaries k t r qs =>
    rw [effect, kind, target, events]
    cases k with
    | equality =>
      change (PrimaryStore.mergeAll record.equalities.primaries _).1.byHierarchy.entries.map _ =
        _ ++ equalityTraces (((PrimaryStore.mergeAll record.equalities.primaries _).2.map
          (.ofFiling .equality t)).map Event.logEntry)
      rw [PrimaryEqualities.entries_mergeAll, List.map_append, equalityTraces_filings]
    | supertype | subtype =>
      rw [equalityTraces_filings_of_ne Kind.noConfusion, List.append_nil]
      rfl

end Request

namespace ConstraintTable

def equalities (m : ConstraintTable) (t : Target) : List (Hierarchy × Qualifier) :=
  (m.get? t).elim [] (·.equalities.primaries.byHierarchy.entries)

theorem equalities_ofTargets (targets : List Target) (settings : Settings) (t : Target) :
    (ofTargets targets settings).equalities t = [] := by
  rw [equalities, ofTargets_eq_ofHistory, get?_ofHistory]
  split_ifs <;> rfl

theorem equalities_submit_of_ne (m : ConstraintTable) {request : Request} {t : Target}
    (ht : t ≠ request.target) : (m.submit request).1.equalities t = m.equalities t := by
  cases ha : request.accept m.get? m.settings with
  | error e => rw [submit_of_accept_error ha]
  | ok found =>
    rw [submit_of_accept_ok ha, equalities, get?, OrderedMap.get?_set, if_neg ht]
    rfl

theorem equalities_submit_self (m : ConstraintTable) (request : Request) :
    ((m.submit request).1.equalities request.target).map (ofEquality request.target) =
      (m.equalities request.target).map (ofEquality request.target) ++
        equalityTraces (m.submit request).2.log := by
  cases ha : request.accept m.get? m.settings with
  | error e =>
    rw [submit_of_accept_error ha, Receipt.log, Request.equalityTraces_events_none,
      List.append_nil]
  | ok found =>
    obtain ⟨record, e⟩ := found
    obtain ⟨hfind, hedit⟩ := Request.accept_eq_ok_iff.1 ha
    rw [submit_of_accept_ok ha, equalities, equalities, get?, OrderedMap.get?_set, if_pos rfl,
      hfind]
    exact Request.equalities_apply hedit record

theorem logAbout_cons (t : Target) (request : Request) (receipt : Receipt)
    (made : List (Request × Receipt)) : logAbout t ((request, receipt) :: made) =
      (if request.target = t then receipt.log else []) ++ logAbout t made := by
  rw [logAbout, List.filter_cons]
  by_cases ht : request.target = t <;> simp [ht, logAbout]

theorem equalities_submitAll (m : ConstraintTable) (requests : List Request) (t : Target) :
    ((m.submitAll requests).1.equalities t).map (ofEquality t) =
      (m.equalities t).map (ofEquality t) ++
        equalityTraces (logAbout t (requests.zip (m.submitAll requests).2)) := by
  induction requests generalizing m with
  | nil => exact (List.append_nil _).symm
  | cons request requests ih =>
    rw [submitAll, ih, List.zip_cons_cons, logAbout_cons, equalityTraces_append,
      ← List.append_assoc]
    congr 1
    by_cases ht : request.target = t
    · subst ht
      rw [if_pos rfl, equalities_submit_self]
    · rw [if_neg ht, equalities_submit_of_ne m (Ne.symm ht)]
      exact (List.append_nil _).symm

end ConstraintTable

/-- After any requests to a new table: the log tells of each of them what it should about the table
as it was then, and what it tells of the hierarchies of a relation names them all in order. Reduced
to the added equalities, what it tells of the requests about a target are the equalities in its
record, in order. -/
theorem Workspace.log_of_requests (earlier : List Step) (name : String) (targets : List Target)
    (settings : Settings) (requests : List Request) :
    let opening := (empty.run earlier).1.create name targets settings
    ∃ (receipts : List Receipt) (m : ConstraintTable),
      (opening.run (requests.map (.submit name))).2 = receipts.map some ∧
      (opening.run (requests.map (.submit name))).1.table name = some m ∧
      (∀ before request after, requests = before ++ request :: after →
        ∃ (n : ConstraintTable) (receipt : Receipt),
          (opening.run (before.map (.submit name))).1.table name = some n ∧
          receipts[before.length]? = some receipt ∧
          request.Tells n receipt.result receipt.log) ∧
      (∀ hs gs : List Hierarchy, hierarchiesText hs = hierarchiesText gs ↔ hs = gs) ∧
      ∀ t ∈ targets, ∃ record, m.get? t = some record ∧
        let entries := record.equalities.primaries.byHierarchy.entries
        let traces := equalityTraces (logAbout t (requests.zip receipts))
        traces = entries.map (fun e => added .equality t e.2 e.1) ∧
        traces.map (fun e => (e.text "hierarchy", e.text "qualifier")) =
          entries.map fun e => (some e.1.render, some e.2.render) := by
  intro opening
  have hwf := wellFormed_empty.run earlier
  have hrun := run_submits (hwf.create name targets settings)
    (table_create hwf name targets settings)
  refine ⟨_, _, (hrun requests).2, (hrun requests).1, ?_, fun _ _ => hierarchiesText_inj,
    fun t ht => ?_⟩
  · rintro before request after rfl
    exact ⟨_, _, (hrun before).1, ConstraintTable.getElem?_snd_submitAll _ _ _ _,
      ConstraintTable.tells_submit _ request⟩
  · have hlog := ConstraintTable.equalities_submitAll (.ofTargets targets settings) requests t
    rw [ConstraintTable.equalities_ofTargets, List.map_nil, List.nil_append,
      ConstraintTable.equalities] at hlog
    have hfind : ∃ record, ((ConstraintTable.ofTargets targets settings).submitAll
        requests).1.get? t = some record := by
      rw [ConstraintTable.ofTargets_eq_ofHistory, ConstraintTable.fst_submitAll_ofHistory,
        ConstraintTable.get?_ofHistory, if_pos ht]
      exact ⟨_, rfl⟩
    obtain ⟨record, hrecord⟩ := hfind
    rw [hrecord] at hlog
    refine ⟨record, hrecord, hlog.symm, ?_⟩
    refine (congrArg (List.map _) hlog.symm).trans ?_
    rw [Option.elim_some, List.map_map]
    rfl

end QualifierConstraints
