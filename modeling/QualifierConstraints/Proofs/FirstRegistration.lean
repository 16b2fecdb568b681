import QualifierConstraints.Proofs.Registration

set_option autoImplicit false

namespace QualifierConstraints

namespace Registration

def hierarchy (r : Registration) : Hierarchy := ⟨r.top⟩

/-- Registration number `j` is the first one that enters the name. -/
structure Decides (rs : List Registration) (name : String) (j : Nat) (r : Registration) : Prop where
  get : rs[j]? = some r
  enters : name ∈ r.names
  first : ∀ i < j, ∀ earlier, rs[i]? = some earlier → name ∉ earlier.names

theorem find?_eq_some_iff_decides {rs : List Registration} {name : String} {r : Registration} :
    rs.find? (name ∈ ·.names) = some r ↔ ∃ j, Decides rs name j r := by
  rw [List.find?_eq_some_iff_getElem]
  constructor
  · rintro ⟨hname, j, hj, hget, hfirst⟩
    refine ⟨j, List.getElem?_eq_some_iff.2 ⟨hj, hget⟩, of_decide_eq_true hname, ?_⟩
    intro i hi earlier he
    obtain ⟨_, rfl⟩ := List.getElem?_eq_some_iff.1 he
    simpa using hfirst i hi
  · rintro ⟨j, hget, hname, hfirst⟩
    obtain ⟨hj, hr⟩ := List.getElem?_eq_some_iff.1 hget
    refine ⟨decide_eq_true hname, j, hj, hr, fun i hi => ?_⟩
    simpa using hfirst i hi _ (List.getElem?_eq_getElem (Nat.lt_trans hi hj))

theorem decides_take_iff {rs : List Registration} {r first : Registration} {name : String}
    {i j n : Nat} (hr : rs[i]? = some r) (hname : name ∈ r.names) (hi : i < n) :
    Decides (rs.take n) name j first ↔ Decides rs name j first := by
  have htake : ∀ k < n, (rs.take n)[k]? = rs[k]? := fun k hk => List.getElem?_take_of_lt hk
  constructor
  · rintro ⟨hget, henters, hfirst⟩
    have hj : j < n := by
      obtain ⟨hlt, _⟩ := List.getElem?_eq_some_iff.1 hget
      rw [List.length_take] at hlt
      omega
    refine ⟨htake j hj ▸ hget, henters, fun k hk earlier he => hfirst k hk earlier ?_⟩
    rwa [htake k (Nat.lt_trans hk hj)]
  · rintro ⟨hget, henters, hfirst⟩
    have hj : j < n := by
      by_contra hle
      exact hfirst i (by omega) r hr hname
    refine ⟨(htake j hj).trans hget, henters, fun k hk earlier he => hfirst k hk earlier ?_⟩
    rwa [← htake k (Nat.lt_trans hk hj)]

end Registration

namespace Lattice

def addAll (l : Lattice) : List Registration → Lattice × List Hierarchy
  | [] => (l, [])
  | r :: rs =>
    let added := l.add r.top r.members
    let rest := added.1.addAll rs
    (rest.1, added.2 :: rest.2)

theorem fst_addAll (l : Lattice) (rs : List Registration) :
    (l.addAll rs).1 = rs.foldl (fun l r => l.register r.top r.members) l := by
  induction rs generalizing l with
  | nil => rfl
  | cons r rs ih => exact ih (l.register r.top r.members)

theorem fst_addAll_empty (rs : List Registration) : (empty.addAll rs).1 = ofRegistrations rs :=
  fst_addAll empty rs

theorem snd_addAll (l : Lattice) (rs : List Registration) :
    (l.addAll rs).2 = rs.map Registration.hierarchy := by
  induction rs generalizing l with
  | nil => rfl
  | cons r rs ih => exact congrArg (r.hierarchy :: ·) (ih (l.register r.top r.members))

theorem topOf_eq_some_iff_decides (rs : List Registration) (q : Qualifier) (h : Hierarchy) :
    (ofRegistrations rs).topOf q = some h ↔
      ∃ j r, Registration.Decides rs q.name j r ∧ h = r.hierarchy := by
  rw [topOf_ofRegistrations, Option.map_eq_some_iff]
  simp only [Registration.find?_eq_some_iff_decides]
  constructor
  · rintro ⟨r, ⟨j, hr⟩, rfl⟩
    exact ⟨j, r, hr, rfl⟩
  · rintro ⟨j, r, hr, rfl⟩
    exact ⟨r, ⟨j, hr⟩, rfl⟩

theorem topOf_eq_none_iff (rs : List Registration) (q : Qualifier) :
    (ofRegistrations rs).topOf q = none ↔ ∀ r ∈ rs, q.name ∉ r.names := by
  rw [topOf_ofRegistrations, Option.map_eq_none_iff, List.find?_eq_none]
  simp only [decide_eq_true_eq]

theorem hierarchies_foldl_register (l : Lattice) (rs : List Registration) :
    (rs.foldl (fun l r => l.register r.top r.members) l).hierarchies =
      l.hierarchies.insertMany (rs.map Registration.hierarchy) := by
  induction rs generalizing l with
  | nil => rfl
  | cons r rs ih => exact ih (l.register r.top r.members)

theorem toList_hierarchies_ofRegistrations (rs : List Registration) :
    (ofRegistrations rs).hierarchies.toList = (rs.map Registration.hierarchy).eraseDups := by
  rw [ofRegistrations, hierarchies_foldl_register]
  exact OrderedSet.toList_ofList _

theorem topOf_ofRegistrations_append {rs : List Registration} {q : Qualifier} {h : Hierarchy}
    (hq : (ofRegistrations rs).topOf q = some h) (more : List Registration) :
    (ofRegistrations (rs ++ more)).topOf q = some h := by
  rw [ofRegistrations, List.foldl_append, topOf_foldl_register]
  exact Option.or_eq_some_iff.2 (.inl hq)

/-- A registered hierarchy is at home if the first registration of the name of its top says so. -/
theorem topOf_take_eq_hierarchy_iff {rs : List Registration} {i n : Nat} {r : Registration}
    (hr : rs[i]? = some r) (hi : i < n) :
    (ofRegistrations (rs.take n)).topOf r.top = some r.hierarchy ↔
      ∃ j first, Registration.Decides rs r.top.name j first ∧ first.top = r.top := by
  rw [topOf_eq_some_iff_decides]
  refine exists_congr fun j => exists_congr fun first => ?_
  rw [Registration.decides_take_iff hr r.name_top_mem hi]
  refine and_congr_right fun _ => ?_
  rw [Registration.hierarchy, Registration.hierarchy, Hierarchy.mk.injEq, eq_comm]

/-- After any registrations, the first one that enters a name answers for all qualifiers of that
name, whatever their arguments, and a name that none enters has no answer. The tops are listed
without later repeats, with every answer among them; answers stay; and from its registration on, a
hierarchy is found by its own top exactly if the first registration of that name has the same
top. -/
theorem addAll_answers (rs : List Registration) :
    (∀ q h, (empty.addAll rs).1.topOf q = some h ↔
      ∃ j r, Registration.Decides rs q.name j r ∧ h = r.hierarchy) ∧
    (∀ q, (empty.addAll rs).1.topOf q = none ↔ ∀ r ∈ rs, q.name ∉ r.names) ∧
    (empty.addAll rs).1.hierarchies.toList = (rs.map Registration.hierarchy).eraseDups ∧
    (∀ q h, (empty.addAll rs).1.topOf q = some h → h ∈ (empty.addAll rs).1.hierarchies) ∧
    (∀ q h, (empty.addAll rs).1.topOf q = some h →
      ∀ more, (empty.addAll (rs ++ more)).1.topOf q = some h) ∧
    ∀ i r, rs[i]? = some r → (empty.addAll rs).2[i]? = some r.hierarchy ∧ ∀ n, i < n →
      ((empty.addAll (rs.take n)).1.topOf r.top = some r.hierarchy ↔
        ∃ j first, Registration.Decides rs r.top.name j first ∧ first.top = r.top) := by
  simp only [fst_addAll_empty, snd_addAll]
  refine ⟨topOf_eq_some_iff_decides rs, topOf_eq_none_iff rs,
    toList_hierarchies_ofRegistrations rs, fun q h hq => ?_,
    fun q h hq => topOf_ofRegistrations_append hq, fun i r hr => ⟨?_, fun n hi => ?_⟩⟩
  · obtain ⟨r, hr, rfl⟩ := exists_registration_of_topOf hq
    rw [OrderedSet.mem_iff_mem_toList, toList_hierarchies_ofRegistrations, List.mem_eraseDups]
    exact List.mem_map_of_mem hr
  · rw [List.getElem?_map, hr, Option.map_some]
  · exact topOf_take_eq_hierarchy_iff hr hi

/-- Tops that differ in their arguments are two hierarchies, of which the second is not at home. -/
example :
    let l := ofRegistrations [⟨⟨"KeyFor", ["a"]⟩, []⟩, ⟨⟨"KeyFor", ["b"]⟩, []⟩]
    l.hierarchies.toList = [⟨⟨"KeyFor", ["a"]⟩⟩, ⟨⟨"KeyFor", ["b"]⟩⟩] ∧
      l.topOf ⟨"KeyFor", ["b"]⟩ = some ⟨⟨"KeyFor", ["a"]⟩⟩ := by
  decide

end Lattice
end QualifierConstraints
