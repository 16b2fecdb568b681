import QualifierConstraints.Lattice
import QualifierConstraints.Proofs.InsertionOrder

set_option autoImplicit false

namespace QualifierConstraints

/-- A top with the other members of its hierarchy. -/
structure Registration where
  top : Qualifier
  members : List Qualifier

namespace Registration

def names (r : Registration) : List String := (r.top :: r.members).map Qualifier.name

theorem name_top_mem (r : Registration) : r.top.name ∈ r.names := by simp [names]

/-- No top has a name that an earlier registration entered for another top. -/
def KeepApart (rs : List Registration) : Prop :=
  rs.Pairwise fun earlier later => later.top.name ∈ earlier.names → earlier.top = later.top

end Registration

namespace Lattice

def ofRegistrations (rs : List Registration) : Lattice :=
  rs.foldl (fun l r => l.register r.top r.members) empty

theorem get?_enterNames (names : OrderedMap String Hierarchy) (h : Hierarchy)
    (members : List Qualifier) (name : String) : (enterNames names h members).get? name =
      (names.get? name).or (if name ∈ members.map Qualifier.name then some h else none) := by
  induction members generalizing names with
  | nil => simp [enterNames]
  | cons q members ih =>
    change (enterNames (names.insertNew q.name h) h members).get? name = _
    rw [ih, OrderedMap.get?_insertNew, Option.or_assoc, List.map_cons]
    simp only [List.mem_cons]
    by_cases hq : name = q.name <;> simp [hq]

theorem topOf_register (l : Lattice) (r : Registration) (q : Qualifier) :
    (l.register r.top r.members).topOf q =
      (l.topOf q).or (if q.name ∈ r.names then some ⟨r.top⟩ else none) :=
  get?_enterNames l.byName ⟨r.top⟩ (r.top :: r.members) q.name

theorem mem_hierarchies_register (l : Lattice) (r : Registration) (h : Hierarchy) :
    h ∈ (l.register r.top r.members).hierarchies ↔ h ∈ l.hierarchies ∨ h = ⟨r.top⟩ :=
  OrderedSet.mem_insert l.hierarchies ⟨r.top⟩ h

/-- The lattice gives every answer that the resolver gave. -/
def Keeps (l : Lattice) (r : Resolver) : Prop := ∀ q h, r.topOf q = some h → l.topOf q = some h

theorem keeps_resolver (l : Lattice) : l.Keeps l.resolver := fun _ _ => id

theorem Keeps.register {l : Lattice} {earlier : Resolver} (hl : l.Keeps earlier)
    (r : Registration) : (l.register r.top r.members).Keeps earlier := by
  intro q h hq
  rw [topOf_register, hl q h hq, Option.some_or]

def AnswersListed (l : Lattice) : Prop := ∀ q h, l.topOf q = some h → h ∈ l.hierarchies

theorem answersListed_empty : empty.AnswersListed := fun _ _ h => by cases h

theorem AnswersListed.register {l : Lattice} (hl : l.AnswersListed) (r : Registration) :
    (l.register r.top r.members).AnswersListed := by
  intro q h hq
  rw [mem_hierarchies_register]
  rw [topOf_register] at hq
  obtain hold | ⟨_, hnew⟩ := Option.or_eq_some_iff.1 hq
  · exact .inl (hl q h hold)
  · split_ifs at hnew
    exact .inr (Option.some.inj hnew).symm

theorem topOf_foldl_register (l : Lattice) (rs : List Registration) (q : Qualifier) :
    (rs.foldl (fun l r => l.register r.top r.members) l).topOf q =
      (l.topOf q).or ((rs.find? (q.name ∈ ·.names)).map fun r => ⟨r.top⟩) := by
  induction rs generalizing l with
  | nil => simp
  | cons r rs ih =>
    rw [List.foldl_cons, ih, topOf_register, Option.or_assoc, List.find?_cons]
    by_cases hr : q.name ∈ r.names <;> simp [hr]

/-- The first registration that enters a name answers for it. -/
theorem topOf_ofRegistrations (rs : List Registration) (q : Qualifier) :
    (ofRegistrations rs).topOf q = (rs.find? (q.name ∈ ·.names)).map fun r => ⟨r.top⟩ :=
  (topOf_foldl_register empty rs q).trans (Option.none_or)

theorem exists_registration_of_topOf {rs : List Registration} {q : Qualifier} {h : Hierarchy}
    (hq : (ofRegistrations rs).topOf q = some h) : ∃ r ∈ rs, h = ⟨r.top⟩ := by
  rw [topOf_ofRegistrations] at hq
  obtain ⟨r, hr, rfl⟩ := Option.map_eq_some_iff.1 hq
  exact ⟨r, List.mem_of_find?_eq_some hr, rfl⟩

theorem topOf_top_of_keepApart {rs : List Registration} (h : Registration.KeepApart rs)
    {r : Registration} (hr : r ∈ rs) : (ofRegistrations rs).topOf r.top = some ⟨r.top⟩ := by
  rw [topOf_ofRegistrations]
  cases hfind : rs.find? (r.top.name ∈ ·.names) with
  | none =>
    have hno := List.find?_eq_none.1 hfind r hr
    simp [r.name_top_mem] at hno
  | some first =>
    obtain ⟨hfirst, before, after, rfl, hbefore⟩ := List.find?_eq_some_iff_append.1 hfind
    have hname : r.top.name ∈ first.names := of_decide_eq_true hfirst
    have htop : first.top = r.top := by
      -- `r` does not come before `first`, so it is `first` or later, and then kept apart from it.
      obtain hmem | hmem := List.mem_append.1 hr
      · have hno := hbefore r hmem
        simp [r.name_top_mem] at hno
      · obtain rfl | hmem := List.mem_cons.1 hmem
        · rfl
        · have hlater := (List.pairwise_append.1 h).2.1
          exact (List.pairwise_cons.1 hlater).1 r hmem hname
    rw [Option.map_some, htop]

theorem topOf_top_of_answer {rs : List Registration} (h : Registration.KeepApart rs)
    {q : Qualifier} {top : Hierarchy} (hq : (ofRegistrations rs).topOf q = some top) :
    (ofRegistrations rs).topOf top.top = some top := by
  obtain ⟨r, hr, rfl⟩ := exists_registration_of_topOf hq
  exact topOf_top_of_keepApart h hr

end Lattice
end QualifierConstraints
