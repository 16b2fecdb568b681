import QualifierConstraints.Types

set_option autoImplicit false

namespace QualifierConstraints

instance : Ord Qualifier where
  compare a b := (compare a.name b.name).then (compare a.arguments b.arguments)

instance : Ord Hierarchy where
  compare a b := compare a.top b.top

instance : Ord Target where
  compare a b := (compare a.name b.name).then (compare a.binding b.binding)

instance : Std.TransOrd Qualifier :=
  inferInstanceAs (Std.TransCmp
    (compareLex (compareOn Qualifier.name) (compareOn Qualifier.arguments)))

instance : Std.TransOrd Hierarchy :=
  inferInstanceAs (Std.TransCmp (compareOn Hierarchy.top))

instance : Std.TransOrd Target :=
  inferInstanceAs (Std.TransCmp (compareLex (compareOn Target.name) (compareOn Target.binding)))

instance : Std.LawfulEqOrd Qualifier where
  eq_of_compare {a b} h := by
    obtain ⟨hname, harguments⟩ := Ordering.then_eq_eq.1 h
    cases a
    cases b
    exact (Qualifier.mk.injEq ..).mpr
      ⟨Std.LawfulEqOrd.eq_of_compare hname, Std.LawfulEqOrd.eq_of_compare harguments⟩

instance : Std.LawfulEqOrd Hierarchy where
  eq_of_compare h := congrArg Hierarchy.mk (Std.LawfulEqOrd.eq_of_compare h)

instance : Std.LawfulEqOrd Target where
  eq_of_compare {a b} h := by
    obtain ⟨hname, hbinding⟩ := Ordering.then_eq_eq.1 h
    cases a
    cases b
    exact (Target.mk.injEq ..).mpr
      ⟨Std.LawfulEqOrd.eq_of_compare hname, Std.LawfulEqOrd.eq_of_compare hbinding⟩

variable {α : Type} [Ord α]

/-- The list in ascending order, with its repeats. -/
def ascending (xs : List α) : List α := xs.mergeSort fun a b => (compare a b).isLE

theorem ascending_perm (xs : List α) : (ascending xs).Perm xs := List.mergeSort_perm xs _

theorem ascending_pairwise [Std.TransOrd α] (xs : List α) :
    (ascending xs).Pairwise fun a b => (compare a b).isLE := by
  refine List.pairwise_mergeSort (fun _ _ _ => Std.TransCmp.isLE_trans) (fun a b => ?_) xs
  have hswap : compare b a = (compare a b).swap := Std.OrientedCmp.eq_swap
  rw [hswap]
  cases compare a b <;> rfl

/-- The order in which elements came does not show. -/
theorem ascending_eq_iff [Std.TransOrd α] [Std.LawfulEqOrd α] {xs ys : List α} :
    ascending xs = ascending ys ↔ xs.Perm ys := by
  constructor
  · intro h
    exact (ascending_perm xs).symm.trans (h ▸ ascending_perm ys)
  · intro h
    refine List.Perm.eq_of_pairwise (fun a b _ _ hab hba => ?_) (ascending_pairwise xs)
      (ascending_pairwise ys) ((ascending_perm xs).trans (h.trans (ascending_perm ys).symm))
    exact Std.LawfulEqOrd.eq_of_compare (Std.OrientedCmp.isLE_antisymm hab hba)

end QualifierConstraints
