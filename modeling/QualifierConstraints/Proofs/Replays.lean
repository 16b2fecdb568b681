import QualifierConstraints.Proofs.Growth
import QualifierConstraints.Proofs.Origins
import QualifierConstraints.Proofs.TableRuns
import QualifierConstraints.Proofs.Unordered

set_option autoImplicit false

namespace QualifierConstraints

theorem unionAt_collect_hierarchies_of_mem {κ : Type} [DecidableEq κ]
    {xs : List (κ × List Hierarchy)} {key : κ} {hs : List Hierarchy} (h : (key, hs) ∈ xs) :
    (OrderedMap.collect allHierarchies xs).unionAt key (.ofList hs) =
      OrderedMap.collect allHierarchies xs := by
  refine OrderedMap.upsert_eq_self (OrderedMap.get?_collect_eq_some_iff.2 ⟨⟨hs, h⟩, rfl⟩) _ ?_
  rw [OrderedSet.union_ofList]
  refine OrderedSet.insertMany_eq_self fun top htop => ?_
  exact mem_allHierarchies.2 ⟨hs, OrderedMap.mem_valuesAt.2 h, htop⟩

theorem upsert_collect_qualifiers_of_mem {filed : List (Hierarchy × Qualifier)} {h : Hierarchy}
    {q : Qualifier} (hq : (h, q) ∈ filed) :
    (OrderedMap.collect OrderedSet.withoutRepeats filed).upsert h .empty (·.insert q) =
      OrderedMap.collect OrderedSet.withoutRepeats filed := by
  refine OrderedMap.upsert_eq_self (OrderedMap.get?_collect_eq_some_iff.2 ⟨⟨q, hq⟩, rfl⟩) _ ?_
  rw [OrderedSet.insert_of_mem]
  exact (OrderedSet.mem_withoutRepeats _ q).2 (OrderedMap.mem_valuesAt.2 hq)

namespace Kind

theorem merge_primariesOf_of_mem (k : Kind) {filed : List (Hierarchy × Qualifier)} {h : Hierarchy}
    {q : Qualifier} (hq : (h, q) ∈ filed) :
    (PrimaryStore.merge (k.primariesOf filed) h q).1 = k.primariesOf filed := by
  cases k with
  | equality =>
    have hkey : h ∈ (OrderedMap.firsts filed).keys := OrderedMap.mem_keys_firsts.2 ⟨q, hq⟩
    exact congrArg PrimaryEqualities.mk (OrderedMap.insertNew_of_mem hkey q)
  | supertype => exact congrArg PrimaryBounds.mk (upsert_collect_qualifiers_of_mem hq)
  | subtype => exact congrArg PrimaryBounds.mk (upsert_collect_qualifiers_of_mem hq)

theorem mergeAll_primariesOf_of_mem (k : Kind) {filed entries : List (Hierarchy × Qualifier)}
    (h : ∀ e ∈ entries, e ∈ filed) :
    (PrimaryStore.mergeAll (k.primariesOf filed) entries).1 = k.primariesOf filed := by
  induction entries with
  | nil => rfl
  | cons e entries ih =>
    rw [List.forall_mem_cons] at h
    rw [PrimaryStore.mergeAll, k.merge_primariesOf_of_mem h.1, ih h.2]

end Kind

theorem Relations.ofHistory_concat_of_mem {k : Kind} {t : Target} {request : Request}
    {history : List Request} (h : request ∈ history) :
    ofHistory k t (history ++ [request]) = ofHistory k t history := by
  by_cases hkt : request.kind = k ∧ request.target = t
  · rw [ofHistory_concat_of_eq hkt]
    obtain ⟨rfl, rfl⟩ := hkt
    cases request with
    | relateTarget k t other hs =>
      have hmem : (other, hs) ∈ history.filterMap (Request.targetRelation k t) :=
        List.mem_filterMap.2 ⟨_, h, Request.targetRelation_eq_some_iff.2 rfl⟩
      exact congrArg (Relations.mk · _ _) (unionAt_collect_hierarchies_of_mem hmem)
    | relateType k t type hs =>
      have hmem : (type, hs) ∈ history.filterMap (Request.typeRelation k t) :=
        List.mem_filterMap.2 ⟨_, h, if_pos ⟨rfl, rfl⟩⟩
      exact congrArg (Relations.mk _ · _) (unionAt_collect_hierarchies_of_mem hmem)
    | filePrimaries k t r qs =>
      have hmem : ∀ e ∈ r.placements qs, e ∈ history.flatMap (Request.filings k t) :=
        fun e he => List.mem_flatMap.2 ⟨_, h, Request.mem_filings.2 ⟨r, qs, rfl, he⟩⟩
      exact congrArg (Relations.mk _ _) (k.mergeAll_primariesOf_of_mem hmem)
  · exact ofHistory_concat_of_other hkt history

theorem Relations.ofHistory_append_of_mem (k : Kind) (t : Target)
    {history replayed : List Request} (h : ∀ request ∈ replayed, request ∈ history) :
    ofHistory k t (history ++ replayed) = ofHistory k t history := by
  induction replayed using List.reverseRecOn with
  | nil => rw [List.append_nil]
  | append_singleton replayed request ih =>
    rw [List.forall_mem_append] at h
    have hmem : request ∈ history ++ replayed := List.mem_append_left _ (h.2 request (by simp))
    rw [← List.append_assoc, ofHistory_concat_of_mem hmem, ih h.1]

def Step.requestsTo (name : String) : Step → List Request
  | .submit writer request => if writer = name then [request] else []
  | _ => []

theorem Step.mem_requestsTo {name : String} {step : Step} {request : Request} :
    request ∈ step.requestsTo name ↔ step = .submit name request := by
  cases step with
  | create | copy | drop => simp [requestsTo]
  | submit writer made =>
    rw [requestsTo, Step.submit.injEq]
    split_ifs with hw
    · rw [List.mem_singleton, and_iff_right hw, eq_comm]
    · exact iff_of_false List.not_mem_nil fun h => hw h.1

theorem Step.requestsTo_of_slot_ne {name : String} {step : Step} (h : step.slot ≠ name) :
    step.requestsTo name = [] := by
  cases step with
  | create | copy | drop => rfl
  | submit writer request => exact if_neg h

namespace TableStore

variable {s : TableStore} {name : String} {targets : List Target} {settings : Settings}
  {history : List Request}

/-- A step that leaves a table where it is adds to its history at most the request made to it. -/
theorem get?_perform_of_keeps (h : s.tables.get? name = some (.ofHistory targets settings history))
    {step : Step} (hk : step.Keeps name) :
    (s.perform step).1.tables.get? name = some (.ofHistory targets settings
      (history ++ (step.requestsTo name).filter (·.passes targets settings))) := by
  by_cases hslot : step.slot = name
  · cases step with
    | create | copy | drop => exact absurd hslot hk
    | submit writer request =>
      obtain rfl : writer = name := hslot
      have hone : Step.requestsTo writer (.submit writer request) = [request] := if_pos rfl
      rw [hone, ← ConstraintTable.fst_submitAll_ofHistory]
      exact (run_submits h [request]).1
  · rw [Step.requestsTo_of_slot_ne hslot, List.filter_nil, List.append_nil,
      get?_perform_of_ne hslot, h]

theorem result_perform_submit (h : s.tables.get? name = some (.ofHistory targets settings history))
    (request : Request) : (s.perform (.submit name request)).2.map Receipt.result =
      some (request.verdict targets settings) := by
  change (s.submit name request).2.map Receipt.result = _
  rw [submit_of_table h, Option.map_some, ConstraintTable.result_submit_ofHistory]

theorem get?_run_of_keeps (h : s.tables.get? name = some (.ofHistory targets settings history))
    {steps : List Step} (hk : ∀ step ∈ steps, step.Keeps name) :
    (s.run steps).1.tables.get? name = some (.ofHistory targets settings (history ++
      (steps.flatMap (·.requestsTo name)).filter (·.passes targets settings))) := by
  induction steps generalizing s history with
  | nil =>
    rw [List.flatMap_nil, List.filter_nil, List.append_nil]
    exact h
  | cons step steps ih =>
    rw [List.forall_mem_cons] at hk
    rw [List.flatMap_cons, List.filter_append, ← List.append_assoc]
    exact ih (get?_perform_of_keeps h hk.1) hk.2

theorem result_run_of_keeps (h : s.tables.get? name = some (.ofHistory targets settings history))
    {steps : List Step} (hk : ∀ step ∈ steps, step.Keeps name) {i : Nat} {request : Request}
    (hi : steps[i]? = some (.submit name request)) :
    ((s.run steps).2.map (·.map Receipt.result))[i]? =
      some (some (request.verdict targets settings)) := by
  induction steps generalizing s history i with
  | nil => cases hi
  | cons step steps ih =>
    rw [List.forall_mem_cons] at hk
    rw [run, List.map_cons]
    cases i with
    | zero =>
      obtain rfl : step = .submit name request := Option.some.inj hi
      exact congrArg some (result_perform_submit h request)
    | succ i => exact ih (get?_perform_of_keeps h hk.1) hk.2 hi

end TableStore

namespace Workspace

variable {w : Workspace} {name : String} {targets : List Target} {settings : Settings}
  {history : List Request}

theorem run_of_keeps (hwf : w.WellFormed)
    (h : w.table name = some (.ofHistory targets settings history)) {steps : List Step}
    (hk : ∀ step ∈ steps, step.Keeps name) :
    (w.run steps).1.table name = some (.ofHistory targets settings (history ++
        (steps.flatMap (·.requestsTo name)).filter (·.passes targets settings))) ∧
      ∀ (i : Nat) request, steps[i]? = some (.submit name request) →
        ((w.run steps).2.map (·.map Receipt.result))[i]? =
          some (some (request.verdict targets settings)) := by
  rw [table_eq_get?_tables] at h
  have htable := TableStore.get?_run_of_keeps h hk
  rw [tables_run hwf] at htable
  refine ⟨(table_eq_get?_tables _ _).trans htable, fun i request hi => ?_⟩
  have hresult := TableStore.result_run_of_keeps h hk hi
  rwa [tables_run hwf] at hresult

/-- Requests that were made to a table, among any other steps that leave it where it is, are made
again in any order. The table stays exactly as it was, and each request gets the result it got. -/
theorem run_replayed (earlier : List Step) (name : String) {m : ConstraintTable}
    (h : (empty.run earlier).1.table name = some m) {steps : List Step}
    (hk : ∀ step ∈ steps, step.Keeps name) {replayed : List Request}
    (hr : ∀ request ∈ replayed, .submit name request ∈ steps) :
    let made := (empty.run earlier).1.run steps
    let again := made.1.run (replayed.map (.submit name))
    (∃ n, made.1.table name = some n ∧ again.1.table name = some n) ∧
      ∀ (i j : Nat) request, steps[i]? = some (.submit name request) →
        replayed[j]? = some request → ∃ result,
          (made.2.map (·.map Receipt.result))[i]? = some (some result) ∧
          (again.2.map (·.map Receipt.result))[j]? = some (some result) := by
  intro made again
  have hwf := wellFormed_empty.run earlier
  obtain ⟨⟨targets, settings⟩, _, history, _, rfl⟩ := exists_origin_of_table h
  obtain ⟨htable, hresults⟩ := run_of_keeps hwf h hk
  have hsubmits : ∀ step ∈ replayed.map (Step.submit name), step.Keeps name := by
    intro step hstep
    obtain ⟨request, _, rfl⟩ := List.mem_map.1 hstep
    trivial
  obtain ⟨hagain, hresults'⟩ := run_of_keeps (hwf.run steps) htable hsubmits
  refine ⟨⟨_, htable, hagain.trans (congrArg some ?_)⟩, fun i j request hi hj => ?_⟩
  · refine ConstraintTable.ofHistory_congr targets settings fun k t =>
      Relations.ofHistory_append_of_mem k t fun request hmem => ?_
    obtain ⟨hmem, hpass⟩ := List.mem_filter.1 hmem
    obtain ⟨step, hstep, hto⟩ := List.mem_flatMap.1 hmem
    obtain ⟨made, hmade, rfl⟩ := List.mem_map.1 hstep
    have hsubmitted : .submit name request ∈ steps := by
      rw [← Step.mem_requestsTo.1 hto]
      exact hr made hmade
    refine List.mem_append_right _ (List.mem_filter.2 ⟨?_, hpass⟩)
    exact List.mem_flatMap.2 ⟨_, hsubmitted, Step.mem_requestsTo.2 rfl⟩
  · exact ⟨_, hresults i request hi, hresults' j request (by rw [List.getElem?_map, hj]; rfl)⟩

/-- An equality that lost and a rejected request are made again, in the other order, after the table
was copied and the copy and the table itself got more. -/
theorem run_replayed_at_lost_equality :
    let r : Resolver := ⟨fun q => if q.name = "Unknown" then none else some ⟨.ofName "Nullable"⟩,
      .empty⟩
    let file (names : List String) : Request :=
      .filePrimaries .equality ⟨"T", "Box"⟩ r (names.map .ofName)
    let steps : List Step := [.submit "main" (file ["NonNull"]), .submit "main" (file ["Nullable"]),
      .copy "main" "side", .submit "main" (file ["PolyNull", "Unknown"]),
      .submit "side" (.relateTarget .subtype ⟨"T", "Box"⟩ ⟨"T", "Box"⟩ []),
      .submit "main" (.relateType .equality ⟨"T", "Box"⟩ ⟨"String", [], []⟩ [⟨.ofName "Nullable"⟩])]
    let replayed := [file ["PolyNull", "Unknown"], file ["Nullable"]]
    let made := (empty.run [.create "main" [⟨"T", "Box"⟩] .standard]).1.run steps
    let again := made.1.run (replayed.map (.submit "main"))
    (∃ m, (empty.run [.create "main" [⟨"T", "Box"⟩] .standard]).1.table "main" = some m) ∧
      (∀ step ∈ steps, step.Keeps "main") ∧
      (∀ request ∈ replayed, .submit "main" request ∈ steps) ∧
      again.1.table "main" = made.1.table "main" ∧
      (again.2.map (·.map Receipt.result))[0]? =
        some (some (.error (.unknownQualifier (.ofName "Unknown")))) := by
  intro r file steps replayed made again
  obtain ⟨m, hm⟩ : ∃ m, (empty.run [.create "main" [⟨"T", "Box"⟩] .standard]).1.table "main" =
    some m := ⟨_, rfl⟩
  have hk : ∀ step ∈ steps, step.Keeps "main" := by simp [steps, Step.Keeps]
  have hr : ∀ request ∈ replayed, .submit "main" request ∈ steps := by simp [replayed, steps]
  obtain ⟨⟨n, hn, hn'⟩, hresults⟩ := run_replayed _ "main" hm hk hr
  obtain ⟨result, hfirst, hsecond⟩ := hresults 3 0 _ rfl rfl
  have hrejected : (made.2.map (·.map Receipt.result))[3]? =
      some (some (.error (.unknownQualifier (.ofName "Unknown")))) := by decide
  exact ⟨⟨m, hm⟩, hk, hr, hn'.trans hn.symm, hsecond.trans (hfirst.symm.trans hrejected)⟩

end Workspace
end QualifierConstraints
