set_option autoImplicit false

namespace QualifierConstraints

theorem nodup_concat {α : Type} {xs : List α} (h : xs.Nodup) {a : α} (ha : a ∉ xs) :
    (xs ++ [a]).Nodup := by
  rw [List.nodup_append]
  refine ⟨h, by simp, fun x hx y hy => ?_⟩
  rw [List.mem_singleton.1 hy]
  exact fun e => ha (e ▸ hx)

/-- A set in insertion order: its elements are listed in the order in which they first came in. Two
sets are equal as values only if their orders agree, and `equiv` forgets the order. -/
@[ext] structure OrderedSet (α : Type) where
  toList : List α
  nodup : toList.Nodup
deriving DecidableEq

namespace OrderedSet

variable {α : Type}

def empty : OrderedSet α := ⟨[], List.nodup_nil⟩

def size (s : OrderedSet α) : Nat := s.toList.length

def isEmpty (s : OrderedSet α) : Bool := s.toList.isEmpty

instance : Membership α (OrderedSet α) := ⟨fun s a => a ∈ s.toList⟩

theorem mem_iff_mem_toList (s : OrderedSet α) (a : α) : a ∈ s ↔ a ∈ s.toList := Iff.rfl

variable [DecidableEq α]

instance (a : α) (s : OrderedSet α) : Decidable (a ∈ s) :=
  inferInstanceAs (Decidable (a ∈ s.toList))

/-- A new element goes last. -/
def insert (s : OrderedSet α) (a : α) : OrderedSet α :=
  if h : a ∈ s then s else ⟨s.toList ++ [a], nodup_concat s.nodup h⟩

def insertMany (s : OrderedSet α) (xs : List α) : OrderedSet α := xs.foldl insert s

def ofList (xs : List α) : OrderedSet α := empty.insertMany xs

def union (s t : OrderedSet α) : OrderedSet α := s.insertMany t.toList

/-- Same elements in any order: equal sizes, and every element of the left occurs in the right. -/
def equiv (s t : OrderedSet α) : Bool := s.size == t.size && s.toList.all (· ∈ t)

theorem insert_of_mem {s : OrderedSet α} {a : α} (h : a ∈ s) : s.insert a = s := dif_pos h

theorem toList_insert_of_not_mem {s : OrderedSet α} {a : α} (h : a ∉ s) :
    (s.insert a).toList = s.toList ++ [a] := by
  rw [insert, dif_neg h]

theorem mem_insert (s : OrderedSet α) (a b : α) : b ∈ s.insert a ↔ b ∈ s ∨ b = a := by
  by_cases h : a ∈ s
  · rw [insert_of_mem h]
    exact ⟨Or.inl, fun hb => hb.elim id fun e => e ▸ h⟩
  · simp [mem_iff_mem_toList, toList_insert_of_not_mem h]

theorem mem_insertMany (s : OrderedSet α) (xs : List α) (b : α) :
    b ∈ s.insertMany xs ↔ b ∈ s ∨ b ∈ xs := by
  induction xs generalizing s with
  | nil => simp [insertMany]
  | cons x xs ih =>
    change b ∈ (s.insert x).insertMany xs ↔ _
    rw [ih, mem_insert, List.mem_cons, or_assoc]

theorem insertMany_append (s : OrderedSet α) (xs ys : List α) :
    s.insertMany (xs ++ ys) = (s.insertMany xs).insertMany ys := List.foldl_append

end OrderedSet
end QualifierConstraints
