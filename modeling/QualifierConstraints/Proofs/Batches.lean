import QualifierConstraints.Proofs.Filing
import QualifierConstraints.Proofs.Origins

set_option autoImplicit false

namespace QualifierConstraints

/-- One list in two requests: `first` asks for the front of what `whole` asks for and `second` for
the rest. -/
inductive Request.InParts : (whole first second : Request) → Prop where
  | relateTarget (k : Kind) (t other : Target) (hs gs : List Hierarchy) :
    InParts (.relateTarget k t other (hs ++ gs)) (.relateTarget k t other hs)
      (.relateTarget k t other gs)
  | relateType (k : Kind) (t : Target) (type : AnnotatedType) (hs gs : List Hierarchy) :
    InParts (.relateType k t type (hs ++ gs)) (.relateType k t type hs) (.relateType k t type gs)
  | filePrimaries (k : Kind) (t : Target) (r : Resolver) (qs ps : List Qualifier) :
    InParts (.filePrimaries k t r (qs ++ ps)) (.filePrimaries k t r qs) (.filePrimaries k t r ps)

namespace Request.InParts

variable {whole first second : Request}

theorem kind_and_target_eq (h : InParts whole first second) :
    (first.kind = whole.kind ∧ first.target = whole.target) ∧
      second.kind = whole.kind ∧ second.target = whole.target := by
  cases h <;> exact ⟨⟨rfl, rfl⟩, rfl, rfl⟩

theorem edit_effect {P : Type} [PrimaryStore P] (h : InParts whole first second)
    (r : Relations P) :
    (r.edit whole.effect).1 = ((r.edit first.effect).1.edit second.effect).1 := by
  cases h with
  | relateTarget k t other hs gs =>
    exact congrArg (Relations.mk · r.types r.primaries)
      (OrderedMap.unionAt_ofList_append r.targets other hs gs)
  | relateType k t type hs gs =>
    exact congrArg (Relations.mk r.targets · r.primaries)
      (OrderedMap.unionAt_ofList_append r.types type hs gs)
  | filePrimaries k t resolver qs ps =>
    have hsplit : resolver.placements (qs ++ ps) =
        resolver.placements qs ++ resolver.placements ps := List.filterMap_append
    have hmerged := PrimaryStore.mergeAll_append r.primaries (resolver.placements qs)
      (resolver.placements ps)
    rw [← hsplit] at hmerged
    exact congrArg (Relations.mk r.targets r.types ·.1) hmerged

/-- Where a request has its effect, it may come in parts; elsewhere it has none, and nor have its
parts. -/
theorem ofHistory_concat (h : InParts whole first second) (k : Kind) (t : Target)
    (history : List Request) :
    Relations.ofHistory k t (history ++ [whole]) =
      Relations.ofHistory k t (history ++ [first, second]) := by
  obtain ⟨hfirst, hsecond⟩ := h.kind_and_target_eq
  rw [List.append_cons _ first]
  by_cases hkt : whole.kind = k ∧ whole.target = t
  · rw [Relations.ofHistory_concat_of_eq hkt,
      Relations.ofHistory_concat_of_eq (hsecond.imp (·.trans hkt.1) (·.trans hkt.2)),
      Relations.ofHistory_concat_of_eq (hfirst.imp (·.trans hkt.1) (·.trans hkt.2)),
      h.edit_effect]
  · have hkt₁ : ¬ (first.kind = k ∧ first.target = t) := by rwa [hfirst.1, hfirst.2]
    have hkt₂ : ¬ (second.kind = k ∧ second.target = t) := by rwa [hsecond.1, hsecond.2]
    rw [Relations.ofHistory_concat_of_other hkt, Relations.ofHistory_concat_of_other hkt₂,
      Relations.ofHistory_concat_of_other hkt₁]

end Request.InParts

namespace Relations

variable (k : Kind) (t : Target) (history : List Request)

theorem ofHistory_filePrimaries_nil (k' : Kind) (t' : Target) (r : Resolver) :
    ofHistory k t (history ++ [.filePrimaries k' t' r []]) = ofHistory k t history := by
  by_cases hkt : (Request.filePrimaries k' t' r []).kind = k ∧
      (Request.filePrimaries k' t' r []).target = t
  · exact ofHistory_concat_of_eq hkt history
  · exact ofHistory_concat_of_other hkt history

theorem ofHistory_filePrimaries_each (k' : Kind) (t' : Target) (r : Resolver)
    (qs : List Qualifier) :
    ofHistory k t (history ++ qs.map fun q => .filePrimaries k' t' r [q]) =
      ofHistory k t (history ++ [.filePrimaries k' t' r qs]) := by
  induction qs generalizing history with
  | nil => rw [List.map_nil, List.append_nil, ofHistory_filePrimaries_nil]
  | cons q qs ih =>
    have hparts := Request.InParts.filePrimaries k' t' r [q] qs
    rw [List.map_cons, List.append_cons, ih, List.append_assoc, List.singleton_append,
      ← hparts.ofHistory_concat, List.singleton_append]

end Relations

namespace Request

variable {targets : List Target} {settings : Settings} {k : Kind} {t : Target} {r : Resolver}

theorem passes_relateTarget_iff {other : Target} {hs : List Hierarchy} :
    (relateTarget k t other hs).passes targets settings = true ↔ t ∈ targets ∧ other ∈ targets := by
  rw [passes_iff]
  simp only [edit_relateTarget_eq_ok_iff, decide_eq_true_eq]
  exact and_congr_right fun _ => ⟨fun ⟨_, h, _⟩ => h, fun h => ⟨_, h, rfl⟩⟩

theorem passes_relateType_iff {type : AnnotatedType} {hs : List Hierarchy} :
    (relateType k t type hs).passes targets settings = true ↔ t ∈ targets := by
  rw [passes_iff]
  exact and_iff_left ⟨_, rfl⟩

theorem passes_filePrimaries_append {qs ps : List Qualifier} :
    (filePrimaries k t r (qs ++ ps)).passes targets settings = true ↔
      (filePrimaries k t r qs).passes targets settings = true ∧
        (filePrimaries k t r ps).passes targets settings = true := by
  rw [passes_filePrimaries_iff, passes_filePrimaries_iff, passes_filePrimaries_iff,
    List.forall_mem_append, and_and_left]

theorem passes_of_mem_filePrimaries {qs : List Qualifier}
    (h : (filePrimaries k t r qs).passes targets settings = true) :
    ∀ request ∈ qs.map (filePrimaries k t r [·]), request.passes targets settings = true := by
  intro request hr
  obtain ⟨q, hq, rfl⟩ := List.mem_map.1 hr
  obtain ⟨ht, hall⟩ := passes_filePrimaries_iff.1 h
  exact passes_filePrimaries_iff.2 ⟨ht, fun p hp => List.mem_singleton.1 hp ▸ hall q hq⟩

/-- A list that is rejected has a first qualifier that is rejected by itself, for the same
reason. -/
theorem exists_first_rejected {qs : List Qualifier} {e : Rejection} (ht : t ∈ targets)
    (h : (filePrimaries k t r qs).verdict targets settings = .error e) :
    ∃ before q after, qs = before ++ q :: after ∧
      (filePrimaries k t r before).passes targets settings = true ∧
      (filePrimaries k t r [q]).verdict targets settings = .error e := by
  cases verdict_eq_error_iff.1 h with
  | target hn => exact absurd ht hn
  | qualifier _ hbefore hq =>
    have halone : RejectedFor (· ∈ targets) settings (filePrimaries k t r ([] ++ [_])) _ :=
      .qualifier ht (by simp) hq
    exact ⟨_, _, _, rfl, passes_filePrimaries_iff.2 ⟨ht, hbefore⟩, verdict_eq_error_iff.2 halone⟩
  | hierarchy _ hbefore hv hq hh =>
    have halone : RejectedFor (· ∈ targets) settings (filePrimaries k t r ([] ++ [_])) _ :=
      .hierarchy ht (by simp) hv hq hh
    exact ⟨_, _, _, rfl, passes_filePrimaries_iff.2 ⟨ht, hbefore⟩, verdict_eq_error_iff.2 halone⟩

end Request

namespace Workspace

/-- Submits requests one after the other and stops at the first one that is rejected. Gives back
what that one was rejected for. -/
def submitEach (w : Workspace) (name : String) : List Request → Workspace × Option Rejection
  | [] => (w, none)
  | request :: requests =>
    let submitted := w.submit name request
    match submitted.2.map Receipt.result with
    | some (.error e) => (submitted.1, some e)
    | _ => submitted.1.submitEach name requests

/-- Both lists of requests leave the same table under `name`. -/
def LeaveSame (w : Workspace) (name : String) (requests requests' : List Request) : Prop :=
  ∃ m, (w.run (requests.map (.submit name))).1.table name = some m ∧
    (w.run (requests'.map (.submit name))).1.table name = some m

variable {w : Workspace} {name : String} {targets : List Target} {settings : Settings}
  {history : List Request}

theorem submitEach_cons_of_error {request : Request} {e : Rejection}
    (h : (w.submit name request).2.map Receipt.result = some (.error e)) (after : List Request) :
    w.submitEach name (request :: after) = ((w.submit name request).1, some e) := by
  rw [submitEach, h]

theorem submitEach_cons_of_ok {request : Request}
    (h : (w.submit name request).2.map Receipt.result = some (.ok ())) (after : List Request) :
    w.submitEach name (request :: after) = (w.submit name request).1.submitEach name after := by
  rw [submitEach, h]

theorem submitEach_append (hwf : w.WellFormed)
    (h : w.table name = some (.ofHistory targets settings history)) {before : List Request}
    (hpass : ∀ request ∈ before, request.passes targets settings = true) (after : List Request) :
    w.submitEach name (before ++ after) =
      (w.run (before.map (.submit name))).1.submitEach name after := by
  induction before generalizing w history with
  | nil => rfl
  | cons request before ih =>
    rw [List.forall_mem_cons] at hpass
    obtain ⟨htable, hresult⟩ := submit_ofHistory hwf h request
    rw [Request.passes_iff_verdict.1 hpass.1] at hresult
    rw [List.cons_append, submitEach_cons_of_ok hresult]
    exact ih (hwf.submit name request) htable hpass.2

theorem leaveSame_of_ofHistory (hwf : w.WellFormed)
    (h : w.table name = some (.ofHistory targets settings history))
    {requests requests' : List Request}
    (hsame : ∀ k t, Relations.ofHistory k t
        (history ++ requests.filter (·.passes targets settings)) =
      Relations.ofHistory k t (history ++ requests'.filter (·.passes targets settings))) :
    w.LeaveSame name requests requests' := by
  refine ⟨_, (run_submits_ofHistory hwf h requests).1, ?_⟩
  rw [(run_submits_ofHistory hwf h requests').1,
    ConstraintTable.ofHistory_congr targets settings hsame]

theorem result_submit (hwf : w.WellFormed)
    (h : w.table name = some (.ofHistory targets settings history)) (request : Request) :
    (w.submit name request).2.map Receipt.result = some (request.verdict targets settings) :=
  (submit_ofHistory hwf h request).2

theorem result_submit_eq_ok_iff (hwf : w.WellFormed)
    (h : w.table name = some (.ofHistory targets settings history)) (request : Request) :
    (w.submit name request).2.map Receipt.result = some (.ok ()) ↔
      request.passes targets settings = true := by
  rw [result_submit hwf h, Option.some.injEq, Request.passes_iff_verdict]

theorem table_submit_of_rejected (hwf : w.WellFormed)
    (h : w.table name = some (.ofHistory targets settings history)) {request : Request}
    {e : Rejection} (he : request.verdict targets settings = .error e) :
    (w.submit name request).1.table name = some (.ofHistory targets settings history) := by
  have hnot : ¬ request.passes targets settings = true := by
    rw [Request.passes_iff_verdict, he]
    nofun
  rw [(submit_ofHistory hwf h request).1, if_neg hnot, List.append_nil]

variable {k : Kind} {t : Target} {r : Resolver}

theorem leaveSame_in_parts (hwf : w.WellFormed)
    (h : w.table name = some (.ofHistory targets settings history))
    {whole first second : Request} (hparts : whole.InParts first second)
    (hfirst : first.passes targets settings ↔ whole.passes targets settings)
    (hsecond : second.passes targets settings ↔ whole.passes targets settings) :
    w.LeaveSame name [whole] [first, second] := by
  refine leaveSame_of_ofHistory hwf h fun k' t' => ?_
  simp only [List.filter_cons, List.filter_nil, hfirst, hsecond]
  split_ifs
  · exact hparts.ofHistory_concat k' t' history
  · rfl

theorem table_run_each (hwf : w.WellFormed)
    (h : w.table name = some (.ofHistory targets settings history)) {qs : List Qualifier}
    (hpass : (Request.filePrimaries k t r qs).passes targets settings = true) :
    (w.run ((qs.map (Request.filePrimaries k t r [·])).map (.submit name))).1.table name =
      (w.submit name (.filePrimaries k t r qs)).1.table name := by
  rw [(run_submits_ofHistory hwf h _).1, (submit_ofHistory hwf h _).1, if_pos hpass,
    List.filter_eq_self.2 (Request.passes_of_mem_filePrimaries hpass)]
  exact congrArg some (ConstraintTable.ofHistory_congr targets settings fun k' t' =>
    Relations.ofHistory_filePrimaries_each k' t' history k t r qs)

theorem submitEach_of_passes (hwf : w.WellFormed)
    (h : w.table name = some (.ofHistory targets settings history)) {qs : List Qualifier}
    (hpass : (Request.filePrimaries k t r qs).passes targets settings = true) :
    (w.submitEach name (qs.map (Request.filePrimaries k t r [·]))).2 = none ∧
      (w.submitEach name (qs.map (Request.filePrimaries k t r [·]))).1.table name =
        (w.submit name (.filePrimaries k t r qs)).1.table name := by
  have happend := submitEach_append hwf h (Request.passes_of_mem_filePrimaries hpass) []
  rw [List.append_nil] at happend
  rw [happend]
  exact ⟨rfl, table_run_each hwf h hpass⟩

theorem submitEach_of_rejected (hwf : w.WellFormed)
    (h : w.table name = some (.ofHistory targets settings history)) {before : List Qualifier}
    (hpass : (Request.filePrimaries k t r before).passes targets settings = true) {q : Qualifier}
    {e : Rejection} (he : (Request.filePrimaries k t r [q]).verdict targets settings = .error e)
    (after : List Qualifier) :
    (w.submitEach name ((before ++ q :: after).map (Request.filePrimaries k t r [·]))).2 = some e ∧
      (w.submitEach name ((before ++ q :: after).map (Request.filePrimaries k t r [·]))).1.table
        name = (w.submit name (.filePrimaries k t r before)).1.table name := by
  have hall := Request.passes_of_mem_filePrimaries hpass
  have htable := (run_submits_ofHistory hwf h (before.map (Request.filePrimaries k t r [·]))).1
  have hresult := result_submit (hwf.run _) htable (.filePrimaries k t r [q])
  rw [he] at hresult
  rw [List.map_append, List.map_cons, submitEach_append hwf h hall,
    submitEach_cons_of_error hresult, ← table_run_each hwf h hpass]
  exact ⟨rfl, (table_submit_of_rejected (hwf.run _) htable he).trans htable.symm⟩

theorem table_submit_filePrimaries_nil (hwf : w.WellFormed)
    (h : w.table name = some (.ofHistory targets settings history)) (k : Kind) (t : Target)
    (r : Resolver) : (w.submit name (.filePrimaries k t r [])).1.table name =
      some (.ofHistory targets settings history) := by
  rw [(submit_ofHistory hwf h _).1]
  split_ifs
  · exact congrArg some (ConstraintTable.ofHistory_congr targets settings fun k' t' =>
      Relations.ofHistory_filePrimaries_nil k' t' history k t r)
  · rw [List.append_nil]

/-- A list of qualifiers passes exactly if both of its parts do, and then it leaves what they leave
one after the other; a list that passes leaves what its qualifiers leave one by one, and an empty
one leaves all as it was. The hierarchies of a relation may come in parts too. Of a list that does
not pass nothing is filed, while its qualifiers one by one, up to the first rejection, leave what
the list before that one leaves. -/
theorem submit_in_parts (steps : List Step) (name : String) {m : ConstraintTable}
    (h : (empty.run steps).1.table name = some m) (k : Kind) (t : Target) (r : Resolver) :
    let w := (empty.run steps).1
    let file := Request.filePrimaries k t r
    let result := fun request => (w.submit name request).2.map Receipt.result
    let left := fun request => (w.submit name request).1.table name
    let each := fun qs => w.submitEach name (qs.map (file [·]))
    (∀ qs ps, (result (file (qs ++ ps)) = some (.ok ()) ↔
        result (file qs) = some (.ok ()) ∧ result (file ps) = some (.ok ())) ∧
      (result (file (qs ++ ps)) = some (.ok ()) →
        w.LeaveSame name [file (qs ++ ps)] [file qs, file ps])) ∧
    (∀ qs, result (file qs) = some (.ok ()) →
      (each qs).2 = none ∧ (each qs).1.table name = left (file qs)) ∧
    left (file []) = some m ∧
    (∀ other hs gs, w.LeaveSame name [.relateTarget k t other (hs ++ gs)]
      [.relateTarget k t other hs, .relateTarget k t other gs]) ∧
    (∀ type hs gs, w.LeaveSame name [.relateType k t type (hs ++ gs)]
      [.relateType k t type hs, .relateType k t type gs]) ∧
    ∀ qs e, t ∈ m.targets → result (file qs) = some (.error e) → left (file qs) = some m ∧
      ∃ before q after, qs = before ++ q :: after ∧
        (∀ p ∈ before, result (file [p]) = some (.ok ())) ∧ result (file [q]) = some (.error e) ∧
        result (file before) = some (.ok ()) ∧
        (each qs).2 = some e ∧ (each qs).1.table name = left (file before) := by
  intro w file result left each
  have hwf : w.WellFormed := wellFormed_empty.run steps
  obtain ⟨⟨targets, settings⟩, _, history, _, rfl⟩ := exists_origin_of_table h
  have hok := result_submit_eq_ok_iff hwf h
  have hresult := result_submit hwf h
  refine ⟨fun qs ps => ⟨?_, fun hpass => ?_⟩, fun qs hpass => ?_,
    table_submit_filePrimaries_nil hwf h k t r, fun other hs gs => ?_, fun type hs gs => ?_,
    fun qs e ht he => ?_⟩
  · rw [hok, hok, hok]
    exact Request.passes_filePrimaries_append
  · rw [hok] at hpass
    obtain ⟨hqs, hps⟩ := Request.passes_filePrimaries_append.1 hpass
    exact leaveSame_in_parts hwf h (.filePrimaries k t r qs ps) (iff_of_true hqs hpass)
      (iff_of_true hps hpass)
  · exact submitEach_of_passes hwf h ((hok _).1 hpass)
  · exact leaveSame_in_parts hwf h (.relateTarget k t other hs gs)
      (Request.passes_relateTarget_iff.trans Request.passes_relateTarget_iff.symm)
      (Request.passes_relateTarget_iff.trans Request.passes_relateTarget_iff.symm)
  · exact leaveSame_in_parts hwf h (.relateType k t type hs gs)
      (Request.passes_relateType_iff.trans Request.passes_relateType_iff.symm)
      (Request.passes_relateType_iff.trans Request.passes_relateType_iff.symm)
  · rw [ConstraintTable.targets_ofHistory, List.mem_eraseDups] at ht
    have hverdict := Option.some.inj ((hresult (file qs)).symm.trans he)
    obtain ⟨before, q, after, rfl, hpass, hq⟩ := Request.exists_first_rejected ht hverdict
    obtain ⟨herror, htable⟩ := submitEach_of_rejected hwf h hpass hq after
    refine ⟨table_submit_of_rejected hwf h hverdict, before, q, after, rfl, fun p hp => ?_,
      (hresult _).trans (congrArg some hq), (hok _).2 hpass, herror, htable⟩
    exact (hok _).2 (Request.passes_of_mem_filePrimaries hpass _ (List.mem_map_of_mem hp))

/-- Of three bounds the second is refused. The list leaves nothing; one by one, the first bound is
there when the second is refused, and the third is not asked for. -/
theorem submit_in_parts_at_refused :
    let r : Resolver := ⟨fun q => if q.name = "Unknown" then none else some ⟨.ofName "Nullable"⟩,
      .empty⟩
    let w := (empty.run [.create "main" [⟨"T", "Box"⟩] .standard]).1
    let file := Request.filePrimaries .supertype ⟨"T", "Box"⟩ r
    let qs : List Qualifier := [.ofName "NonNull", .ofName "Unknown", .ofName "Nullable"]
    let each := w.submitEach "main" (qs.map (file [·]))
    w.table "main" = some (.ofTargets [⟨"T", "Box"⟩] .standard) ∧
      (w.submit "main" (file qs)).1.table "main" = w.table "main" ∧
      each.1.table "main" ≠ w.table "main" ∧
      each.2 = some (.unknownQualifier (.ofName "Unknown")) ∧
      ∃ before q after, qs = before ++ q :: after ∧
        each.1.table "main" = (w.submit "main" (file before)).1.table "main" := by
  intro r w file qs each
  have htable : w.table "main" = some (.ofTargets [⟨"T", "Box"⟩] .standard) := by decide
  have herror : (w.submit "main" (file qs)).2.map Receipt.result =
      some (.error (.unknownQualifier (.ofName "Unknown"))) := by decide
  obtain ⟨_, _, _, _, _, hrejected⟩ :=
    submit_in_parts _ "main" htable .supertype ⟨"T", "Box"⟩ r
  obtain ⟨hnothing, before, q, after, hqs, _, _, _, hstopped, hleft⟩ :=
    hrejected qs _ (by decide) herror
  exact ⟨htable, hnothing.trans htable.symm, by decide, hstopped, before, q, after, hqs, hleft⟩

end Workspace
end QualifierConstraints
