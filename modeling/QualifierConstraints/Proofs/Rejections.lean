import QualifierConstraints.Proofs.Cells

set_option autoImplicit false

namespace QualifierConstraints

/-- What a request is rejected for, if it is, where `declared` says which targets there are. -/
inductive Request.RejectedFor (declared : Target → Prop) (settings : Settings) :
    Request → Rejection → Prop
  | target {request : Request} (ht : ¬ declared request.target) :
    RejectedFor declared settings request (.unknownTarget request.target)
  | other {k : Kind} {t other : Target} {hs : List Hierarchy} (ht : declared t)
      (ho : ¬ declared other) :
    RejectedFor declared settings (.relateTarget k t other hs) (.unknownTarget other)
  | qualifier {k : Kind} {t : Target} {r : Resolver} {before after : List Qualifier}
      {q : Qualifier} (ht : declared t) (hbefore : ∀ p ∈ before, ¬ r.Refuses settings p)
      (hq : r.topOf q = none) :
    RejectedFor declared settings (.filePrimaries k t r (before ++ q :: after))
      (.unknownQualifier q)
  | hierarchy {k : Kind} {t : Target} {r : Resolver} {before after : List Qualifier}
      {q : Qualifier} {h : Hierarchy} (ht : declared t)
      (hbefore : ∀ p ∈ before, ¬ r.Refuses settings p)
      (hv : settings.validateHierarchies = true) (hq : r.topOf q = some h)
      (hh : r.topOf h.top ≠ some h) :
    RejectedFor declared settings (.filePrimaries k t r (before ++ q :: after))
      (.hierarchyMismatch q h)

namespace Request

variable {α : Type} {find : Target → Option α} {settings : Settings} {request : Request}
  {e : Rejection}

theorem rejectedFor_of_edit_eq_error (ht : (find request.target).isSome)
    (h : request.edit (fun t => (find t).isSome) settings = .error e) :
    request.RejectedFor (fun t => (find t).isSome) settings e := by
  cases request with
  | relateTarget k t other hs =>
    rw [edit] at h
    split_ifs at h with ho
    cases h
    exact .other ht ho
  | relateType k t type hs => cases h
  | filePrimaries k t r qs =>
    by_cases hall : ∀ q ∈ qs, ¬ r.Refuses settings q
    · rw [edit, Resolver.resolveAll_of_not_refuses hall] at h
      cases h
    · obtain ⟨before, q, after, rfl, hbefore, hq⟩ := Resolver.exists_first_refused hall
      obtain hq | ⟨hv, top, hq, hh⟩ := hq
      · rw [edit, Resolver.resolveAll_of_first_refused (Resolver.resolve_of_unknown hq _)
          hbefore] at h
        cases h
        exact .qualifier ht hbefore hq
      · rw [edit, Resolver.resolveAll_of_first_refused (Resolver.resolve_of_mismatch hq hv hh)
          hbefore] at h
        cases h
        exact .hierarchy ht hbefore hv hq hh

theorem accept_of_rejectedFor
    (h : request.RejectedFor (fun t => (find t).isSome) settings e) :
    request.accept find settings = .error e := by
  have found : ∀ {t : Target}, (find t).isSome → ∃ a, find t = some a := Option.isSome_iff_exists.1
  cases h with
  | target ht => exact accept_of_find_none (Option.not_isSome_iff_eq_none.1 ht)
  | other ht ho =>
    obtain ⟨a, ha⟩ := found ht
    rw [accept_of_find_some ha, edit, if_neg ho]
    rfl
  | qualifier ht hbefore hq =>
    obtain ⟨a, ha⟩ := found ht
    rw [accept_of_find_some ha, edit,
      Resolver.resolveAll_of_first_refused (Resolver.resolve_of_unknown hq settings) hbefore]
    rfl
  | hierarchy ht hbefore hv hq hh =>
    obtain ⟨a, ha⟩ := found ht
    rw [accept_of_find_some ha, edit,
      Resolver.resolveAll_of_first_refused (Resolver.resolve_of_mismatch hq hv hh) hbefore]
    rfl

theorem accept_eq_error_iff : request.accept find settings = .error e ↔
    request.RejectedFor (fun t => (find t).isSome) settings e := by
  refine ⟨fun h => ?_, accept_of_rejectedFor⟩
  cases hf : find request.target with
  | none =>
    rw [accept_of_find_none hf] at h
    cases h
    exact .target (by simp [hf])
  | some a =>
    rw [accept_of_find_some hf] at h
    have hs : (find request.target).isSome := by rw [hf, Option.isSome_some]
    cases hedit : request.edit (fun t => (find t).isSome) settings with
    | error e' =>
      rw [hedit] at h
      cases h
      exact rejectedFor_of_edit_eq_error hs hedit
    | ok made =>
      rw [hedit] at h
      cases h

end Request

namespace Workspace

variable {w : Workspace} {name : String}

theorem accept_eq_error_iff_targets (w : Workspace) (b : Branch) (request : Request)
    (e : Rejection) : request.accept b.cells.get? b.settings = .error e ↔
      request.RejectedFor (· ∈ (w.tableOf b).targets) (w.tableOf b).settings e := by
  have hdeclared : (fun t => ((b.cells.get? t).isSome : Prop)) =
      (· ∈ (w.tableOf b).targets) := by
    funext t
    rw [OrderedMap.isSome_get?_iff, targets_tableOf]
  rw [Request.accept_eq_error_iff, hdeclared]
  rfl

/-- A request to a table is rejected exactly for the first check that fails, it is accepted if none
does, and a rejection leaves the workspace as it was: every table, and which records they share. -/
theorem submit_result_iff {m : ConstraintTable} (h : w.table name = some m) (request : Request) :
    (∀ e, (w.submit name request).2.map Receipt.result = some (.error e) ↔
      request.RejectedFor (· ∈ m.targets) m.settings e) ∧
    ((w.submit name request).2.map Receipt.result = some (.ok ()) ↔
      ∀ e, ¬ request.RejectedFor (· ∈ m.targets) m.settings e) ∧
    ∀ e, request.RejectedFor (· ∈ m.targets) m.settings e → (w.submit name request).1 = w := by
  obtain ⟨b, hb, rfl⟩ := Option.map_eq_some_iff.1 h
  simp only [← accept_eq_error_iff_targets]
  cases ha : request.accept b.cells.get? b.settings with
  | error e =>
    rw [submit_of_accept_error hb ha]
    simp
  | ok found =>
    obtain ⟨cell, edit⟩ := found
    rw [submit_of_accept_ok hb ha]
    simp

/-- A copy that still shares its record is asked to file two qualifiers, of which the second is
refused. The first one is not filed either, and the record stays shared. -/
theorem submit_result_iff_at_copy :
    (empty.run [.create "main" [⟨"T", "Box"⟩] ⟨true⟩, .copy "main" "side"]).1.table "side" =
        some (.ofTargets [⟨"T", "Box"⟩] ⟨true⟩) ∧
      ((empty.run [.create "main" [⟨"T", "Box"⟩] ⟨true⟩, .copy "main" "side"]).1.submit "side"
        (.filePrimaries .subtype ⟨"T", "Box"⟩ ⟨fun q => some ⟨⟨q.name, q.arguments.drop 1⟩⟩, .empty⟩
          [⟨"KeyFor", []⟩, ⟨"KeyFor", ["m", "n"]⟩])).2.map Receipt.result =
        some (.error (.hierarchyMismatch ⟨"KeyFor", ["m", "n"]⟩ ⟨⟨"KeyFor", ["n"]⟩⟩)) ∧
      ((empty.run [.create "main" [⟨"T", "Box"⟩] ⟨true⟩, .copy "main" "side"]).1.submit "side"
        (.filePrimaries .subtype ⟨"T", "Box"⟩ ⟨fun q => some ⟨⟨q.name, q.arguments.drop 1⟩⟩, .empty⟩
          [⟨"KeyFor", []⟩, ⟨"KeyFor", ["m", "n"]⟩])).1 =
        (empty.run [.create "main" [⟨"T", "Box"⟩] ⟨true⟩, .copy "main" "side"]).1 := by
  have htable : (empty.run [.create "main" [⟨"T", "Box"⟩] ⟨true⟩, .copy "main" "side"]).1.table
      "side" = some (.ofTargets [⟨"T", "Box"⟩] ⟨true⟩) := by decide
  have hrejected : Request.RejectedFor
      (· ∈ (ConstraintTable.ofTargets [⟨"T", "Box"⟩] ⟨true⟩).targets) ⟨true⟩
      (.filePrimaries .subtype ⟨"T", "Box"⟩ ⟨fun q => some ⟨⟨q.name, q.arguments.drop 1⟩⟩, .empty⟩
        ([⟨"KeyFor", []⟩] ++ [⟨"KeyFor", ["m", "n"]⟩]))
      (.hierarchyMismatch ⟨"KeyFor", ["m", "n"]⟩ ⟨⟨"KeyFor", ["n"]⟩⟩) :=
    .hierarchy (by decide) (by simp [Resolver.Refuses]) rfl rfl (by decide)
  obtain ⟨hiff, _, hsame⟩ := submit_result_iff htable (.filePrimaries .subtype ⟨"T", "Box"⟩
    ⟨fun q => some ⟨⟨q.name, q.arguments.drop 1⟩⟩, .empty⟩
    [⟨"KeyFor", []⟩, ⟨"KeyFor", ["m", "n"]⟩])
  exact ⟨htable, (hiff _).2 hrejected, hsame _ hrejected⟩

end Workspace
end QualifierConstraints
