import Mathlib.Data.List.Forall2
import QualifierConstraints.Json.Reading
import QualifierConstraints.Proofs.InsertionOrder

set_option autoImplicit false

namespace QualifierConstraints

namespace Json

variable {α β : Type}

@[simp]
theorem bind_eq_ok_iff {x : Except Misfit α} {f : α → Except Misfit β} {b : β} :
    x >>= f = .ok b ↔ ∃ a, x = .ok a ∧ f a = .ok b := by
  cases x <;> simp [bind, Except.bind]

@[simp]
theorem map_eq_ok_iff {x : Except Misfit α} {f : α → β} {b : β} :
    f <$> x = .ok b ↔ ∃ a, x = .ok a ∧ f a = b := by
  cases x <;> simp [Functor.map, Except.map]

@[simp]
theorem readText_eq_ok_iff {j : Json} {s : String} : readText j = .ok s ↔ j = .text s := by
  cases j <;> simp [readText]

@[simp]
theorem readBool_eq_ok_iff {j : Json} {b : Bool} : readBool j = .ok b ↔ j = .bool b := by
  cases j <;> simp [readBool]

variable {read : Json → Except Misfit α}

theorem mapM_eq_ok_iff {items : List Json} {xs : List α} :
    items.mapM read = .ok xs ↔ List.Forall₂ (fun x item => read item = .ok x) xs items := by
  induction items generalizing xs with
  | nil => simp [pure, Except.pure, eq_comm]
  | cons item items ih =>
    rw [List.mapM_cons, List.forall₂_cons_right_iff, bind_eq_ok_iff]
    refine exists_congr fun x => ?_
    simp only [bind_pure_comp, map_eq_ok_iff, ih]
    constructor
    · rintro ⟨hx, rest, hrest, rfl⟩
      exact ⟨rest, hx, hrest, rfl⟩
    · rintro ⟨rest, hx, hrest, rfl⟩
      exact ⟨hx, rest, hrest, rfl⟩

theorem readList_eq_ok_iff {j : Json} {xs : List α} : readList read j = .ok xs ↔
    ∃ items, j = .array items ∧ List.Forall₂ (fun x item => read item = .ok x) xs items := by
  cases j <;> simp [readList, mapM_eq_ok_iff]

@[simp]
theorem readList_readText_eq_ok_iff {j : Json} {ss : List String} :
    readList readText j = .ok ss ↔ j = .array (ss.map .text) := by
  have hitems : ∀ items : List Json,
      List.Forall₂ (fun s item => item = Json.text s) ss items ↔ items = ss.map .text := by
    intro items
    rw [eq_comm, ← List.forall₂_eq_eq_eq, List.forall₂_map_left_iff]
    simp only [eq_comm]
  simp [readList_eq_ok_iff, hitems]

@[simp]
theorem readMember_eq_ok_some_iff {key : String} {members : List (String × Json)} {a : α} :
    readMember read key members = .ok (some a) ↔
      ∃ j, members.lookup key = some j ∧ read j = .ok a := by
  rw [readMember]
  cases members.lookup key with
  | none => simp
  | some j =>
    change some <$> read j = .ok (some a) ↔ _
    simp

@[simp]
theorem required_eq_ok_iff {key : String} {found : Option α} {a : α} :
    required key found = .ok a ↔ found = some a := by
  cases found <;> simp [required]

@[simp]
theorem expectEnd_eq_ok_iff {count : Nat} {rest : List Json} {u : Unit} :
    expectEnd count rest = .ok u ↔ rest = [] := by
  cases rest <;> simp [expectEnd]

theorem lookup_eq_of_perm {members members' : List (String × Json)}
    (hdistinct : (members.map Prod.fst).Nodup) (hperm : members.Perm members') (key : String) :
    members.lookup key = members'.lookup key := by
  have hdistinct' : (members'.map Prod.fst).Nodup := (hperm.map Prod.fst).nodup_iff.1 hdistinct
  have hsame : ∀ j, (OrderedMap.mk members hdistinct).get? key = some j ↔
      (OrderedMap.mk members' hdistinct').get? key = some j := fun j => by
    rw [OrderedMap.get?_eq_some_iff, OrderedMap.get?_eq_some_iff]
    exact hperm.mem_iff
  exact Option.ext hsame

theorem readMember_eq_of_perm {members members' : List (String × Json)}
    (hdistinct : (members.map Prod.fst).Nodup) (hperm : members.Perm members') (key : String) :
    readMember read key members = readMember read key members' := by
  rw [readMember, readMember, lookup_eq_of_perm hdistinct hperm]

end Json
end QualifierConstraints
