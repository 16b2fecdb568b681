import Mathlib.Data.List.Basic
import QualifierConstraints.Request

set_option autoImplicit false

namespace QualifierConstraints

namespace Resolver

/-- There is no hierarchy to file the qualifier under, or none that the settings admit. -/
def Refuses (r : Resolver) (settings : Settings) (q : Qualifier) : Prop :=
  r.topOf q = none ∨
    settings.validateHierarchies = true ∧ ∃ h, r.topOf q = some h ∧ r.topOf h.top ≠ some h

def placements (r : Resolver) (qs : List Qualifier) : List (Hierarchy × Qualifier) :=
  qs.filterMap fun q => (r.topOf q).map (·, q)

theorem mem_placements {r : Resolver} {qs : List Qualifier} {h : Hierarchy} {q : Qualifier} :
    (h, q) ∈ r.placements qs ↔ q ∈ qs ∧ r.topOf q = some h := by
  simp [placements]

theorem isHome_iff (r : Resolver) (h : Hierarchy) : r.isHome h = true ↔ r.topOf h.top = some h :=
  beq_iff_eq

theorem resolve_of_unknown {r : Resolver} {q : Qualifier} (h : r.topOf q = none)
    (settings : Settings) : r.resolve settings q = .error (.unknownQualifier q) := by
  rw [resolve, h]

theorem resolve_of_mismatch {r : Resolver} {settings : Settings} {q : Qualifier} {h : Hierarchy}
    (hq : r.topOf q = some h) (hv : settings.validateHierarchies = true)
    (hh : r.topOf h.top ≠ some h) : r.resolve settings q = .error (.hierarchyMismatch q h) := by
  have hn : r.isHome h = false := Bool.eq_false_iff.2 fun hi => hh ((r.isHome_iff h).1 hi)
  rw [resolve, hq]
  simp [hv, hn]

theorem resolve_of_not_refuses {r : Resolver} {settings : Settings} {q : Qualifier}
    (h : ¬ r.Refuses settings q) : ∃ t, r.topOf q = some t ∧ r.resolve settings q = .ok t := by
  rw [Refuses, not_or, not_and] at h
  obtain ⟨t, ht⟩ := Option.ne_none_iff_exists'.1 h.1
  refine ⟨t, ht, ?_⟩
  rw [resolve, ht]
  by_cases hv : settings.validateHierarchies = true
  · have hi : r.isHome t = true := (r.isHome_iff t).2 (not_not.1 fun hn => h.2 hv ⟨t, ht, hn⟩)
    simp [hi]
  · simp [hv]

theorem resolve_of_refuses {r : Resolver} {settings : Settings} {q : Qualifier}
    (h : r.Refuses settings q) : ∃ e, r.resolve settings q = .error e := by
  obtain hn | ⟨hv, t, ht, hh⟩ := h
  · exact ⟨_, resolve_of_unknown hn settings⟩
  · exact ⟨_, resolve_of_mismatch ht hv hh⟩

theorem resolveAll_of_not_refuses {r : Resolver} {settings : Settings} {qs : List Qualifier}
    (h : ∀ q ∈ qs, ¬ r.Refuses settings q) :
    r.resolveAll settings qs = .ok (r.placements qs) := by
  induction qs with
  | nil => rfl
  | cons q qs ih =>
    rw [List.forall_mem_cons] at h
    obtain ⟨t, ht, hr⟩ := resolve_of_not_refuses h.1
    rw [resolveAll, hr, ih h.2, placements, placements, List.filterMap_cons, ht]
    rfl

theorem resolveAll_of_first_refused {r : Resolver} {settings : Settings} {q : Qualifier}
    {e : Rejection} (hq : r.resolve settings q = .error e) {before : List Qualifier}
    (h : ∀ p ∈ before, ¬ r.Refuses settings p) (after : List Qualifier) :
    r.resolveAll settings (before ++ q :: after) = .error e := by
  induction before with
  | nil => rw [List.nil_append, resolveAll, hq]
  | cons p before ih =>
    rw [List.forall_mem_cons] at h
    obtain ⟨t, _, hr⟩ := resolve_of_not_refuses h.1
    rw [List.cons_append, resolveAll, hr, ih h.2]
    rfl

/-- The first refused qualifier of a list, if any is refused. -/
theorem exists_first_refused {r : Resolver} {settings : Settings} {qs : List Qualifier}
    (h : ¬ ∀ q ∈ qs, ¬ r.Refuses settings q) : ∃ before q after, qs = before ++ q :: after ∧
      (∀ p ∈ before, ¬ r.Refuses settings p) ∧ r.Refuses settings q := by
  induction qs with
  | nil => exact absurd (by simp) h
  | cons q qs ih =>
    by_cases hq : r.Refuses settings q
    · exact ⟨[], q, qs, rfl, by simp, hq⟩
    · have hqs : ¬ ∀ p ∈ qs, ¬ r.Refuses settings p :=
        fun hall => h (List.forall_mem_cons.2 ⟨hq, hall⟩)
      obtain ⟨before, p, after, rfl, hb, hp⟩ := ih hqs
      exact ⟨q :: before, p, after, rfl, List.forall_mem_cons.2 ⟨hq, hb⟩, hp⟩

theorem resolveAll_eq_error_of_refuses {r : Resolver} {settings : Settings} {qs : List Qualifier}
    (h : ¬ ∀ q ∈ qs, ¬ r.Refuses settings q) : ∃ e, r.resolveAll settings qs = .error e := by
  obtain ⟨before, q, after, rfl, hb, hq⟩ := exists_first_refused h
  obtain ⟨e, he⟩ := resolve_of_refuses hq
  exact ⟨e, resolveAll_of_first_refused he hb after⟩

end Resolver

namespace Request

theorem edit_relateTarget_eq_ok_iff {declared : Target → Bool} {settings : Settings} {k : Kind}
    {t other : Target} {hs : List Hierarchy} {e : Edit} :
    (relateTarget k t other hs).edit declared settings = .ok e ↔
      declared other = true ∧ e = .relateTarget other (.ofList hs) := by
  rw [edit]
  split_ifs with h
  · rw [Except.ok.injEq, eq_comm]
    exact ⟨fun he => ⟨h, he⟩, And.right⟩
  · exact ⟨(nomatch ·), fun he => absurd he.1 h⟩

theorem edit_filePrimaries_eq_ok_iff {declared : Target → Bool} {settings : Settings} {k : Kind}
    {t : Target} {r : Resolver} {qs : List Qualifier} {e : Edit} :
    (filePrimaries k t r qs).edit declared settings = .ok e ↔
      (∀ q ∈ qs, ¬ r.Refuses settings q) ∧ e = .filePrimaries (r.placements qs) := by
  rw [edit]
  by_cases hall : ∀ q ∈ qs, ¬ r.Refuses settings q
  · rw [Resolver.resolveAll_of_not_refuses hall]
    change Except.ok (Edit.filePrimaries (r.placements qs)) = .ok e ↔ _
    rw [Except.ok.injEq, eq_comm]
    exact ⟨fun he => ⟨hall, he⟩, And.right⟩
  · obtain ⟨rejection, hr⟩ := Resolver.resolveAll_eq_error_of_refuses hall
    rw [hr]
    exact ⟨(nomatch ·), fun he => absurd he.1 hall⟩

def effect : Request → Edit
  | .relateTarget _ _ other hs => .relateTarget other (.ofList hs)
  | .relateType _ _ type hs => .relateType type (.ofList hs)
  | .filePrimaries _ _ r qs => .filePrimaries (r.placements qs)

theorem eq_effect_of_edit_eq_ok {request : Request} {declared : Target → Bool}
    {settings : Settings} {e : Edit} (h : request.edit declared settings = .ok e) :
    e = request.effect := by
  cases request with
  | relateTarget k t other hs => exact (edit_relateTarget_eq_ok_iff.1 h).2
  | relateType k t type hs => exact (Except.ok.inj h).symm
  | filePrimaries k t r qs => exact (edit_filePrimaries_eq_ok_iff.1 h).2

variable {α β : Type} {find : Target → Option α} {settings : Settings} {request : Request}

theorem accept_of_find_none (h : find request.target = none) :
    request.accept find settings = .error (.unknownTarget request.target) := by
  rw [accept, h]

theorem accept_of_find_some {found : α} (h : find request.target = some found) :
    request.accept find settings =
      (request.edit (fun t => (find t).isSome) settings).map (found, ·) := by
  rw [accept, h]

theorem accept_eq_ok_iff {found : α} {e : Edit} :
    request.accept find settings = .ok (found, e) ↔ find request.target = some found ∧
      request.edit (fun t => (find t).isSome) settings = .ok e := by
  cases hf : find request.target with
  | none => simp [accept_of_find_none hf]
  | some a =>
    rw [accept_of_find_some hf]
    cases request.edit (fun t => (find t).isSome) settings <;> simp [Except.map]

/-- Acceptance sees of what it finds only that it is there. -/
theorem accept_map (g : Target → α → β) :
    request.accept (fun t => (find t).map (g t)) settings =
      (request.accept find settings).map fun p => (g request.target p.1, p.2) := by
  have hs : (fun t => ((find t).map (g t)).isSome) = fun t => (find t).isSome := by
    funext t
    exact Option.isSome_map
  cases hf : find request.target with
  | none =>
    rw [accept_of_find_none hf, accept_of_find_none (by rw [hf]; rfl)]
    rfl
  | some a =>
    have hg : (find request.target).map (g request.target) = some (g request.target a) := by
      rw [hf, Option.map_some]
    rw [accept_of_find_some hf, accept_of_find_some hg, hs]
    cases request.edit (fun t => (find t).isSome) settings <;> rfl

end Request
end QualifierConstraints
