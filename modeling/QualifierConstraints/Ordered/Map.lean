import QualifierConstraints.Ordered.Set

set_option autoImplicit false

namespace QualifierConstraints

/-- A map in insertion order: its entries are listed in the order in which their keys first came in,
and a later write to a key changes the value and not the place. -/
@[ext] structure OrderedMap (κ β : Type) where
  entries : List (κ × β)
  nodup : (entries.map Prod.fst).Nodup
deriving DecidableEq

namespace OrderedMap

variable {κ α β : Type}

def empty : OrderedMap κ β := ⟨[], List.nodup_nil⟩

def keys (m : OrderedMap κ β) : List κ := m.entries.map Prod.fst

def values (m : OrderedMap κ β) : List β := m.entries.map Prod.snd

def size (m : OrderedMap κ β) : Nat := m.entries.length

def isEmpty (m : OrderedMap κ β) : Bool := m.entries.isEmpty

theorem map_fst_mapValues (f : κ → α → β) (es : List (κ × α)) :
    (es.map fun e => (e.1, f e.1 e.2)).map Prod.fst = es.map Prod.fst := by
  rw [List.map_map]
  rfl

def mapValues (f : κ → α → β) (m : OrderedMap κ α) : OrderedMap κ β :=
  ⟨m.entries.map fun e => (e.1, f e.1 e.2), by rw [map_fst_mapValues]; exact m.nodup⟩

theorem keys_mapValues (f : κ → α → β) (m : OrderedMap κ α) : (m.mapValues f).keys = m.keys :=
  map_fst_mapValues f m.entries

/-- The elements of a set with consecutive numbers from `start` on. -/
def numbered (s : OrderedSet κ) (start : Nat) : OrderedMap κ Nat :=
  ⟨s.toList.zipIdx start, by rw [List.zipIdx_map_fst]; exact s.nodup⟩

variable [DecidableEq κ]

def get? (m : OrderedMap κ β) (k : κ) : Option β := m.entries.lookup k

def contains (m : OrderedMap κ β) (k : κ) : Bool := decide (k ∈ m.keys)

/-- Among entries, the value of `k` becomes `f` of itself; a missing key starts from `initial` and
goes last. -/
def upsertEntries (k : κ) (initial : β) (f : β → β) : List (κ × β) → List (κ × β)
  | [] => [(k, f initial)]
  | (k', v) :: es => if k' = k then (k', f v) :: es else (k', v) :: upsertEntries k initial f es

theorem map_fst_upsertEntries (k : κ) (initial : β) (f : β → β) (es : List (κ × β)) :
    (upsertEntries k initial f es).map Prod.fst =
      if k ∈ es.map Prod.fst then es.map Prod.fst else es.map Prod.fst ++ [k] := by
  induction es with
  | nil => rfl
  | cons e es ih =>
    obtain ⟨k', v⟩ := e
    by_cases hk : k' = k
    · simp [upsertEntries, hk]
    · have hm : k ∈ k' :: es.map Prod.fst ↔ k ∈ es.map Prod.fst := by simp [Ne.symm hk]
      rw [upsertEntries, if_neg hk, List.map_cons, ih, List.map_cons]
      simp only [hm]
      split <;> rfl

def upsert (m : OrderedMap κ β) (k : κ) (initial : β) (f : β → β) : OrderedMap κ β where
  entries := upsertEntries k initial f m.entries
  nodup := by
    rw [map_fst_upsertEntries]
    split
    · exact m.nodup
    · exact nodup_concat m.nodup ‹_›

def set (m : OrderedMap κ β) (k : κ) (v : β) : OrderedMap κ β := m.upsert k v fun _ => v

/-- The set under `k` gets the elements of `s` too; a missing one starts empty. -/
def unionAt [DecidableEq α] (m : OrderedMap κ (OrderedSet α)) (k : κ) (s : OrderedSet α) :
    OrderedMap κ (OrderedSet α) :=
  m.upsert k .empty (·.union s)

/-- The first value given to a key stays. -/
def insertNew (m : OrderedMap κ β) (k : κ) (v : β) : OrderedMap κ β :=
  if h : k ∈ m.keys then m
  else ⟨m.entries ++ [(k, v)], by rw [List.map_append]; exact nodup_concat m.nodup h⟩

def erase (m : OrderedMap κ β) (k : κ) : OrderedMap κ β :=
  ⟨m.entries.filter (·.1 ≠ k), m.nodup.sublist (List.filter_sublist.map Prod.fst)⟩

def ofKeys (ks : List κ) (f : κ → β) : OrderedMap κ β :=
  ks.foldl (fun m k => m.insertNew k (f k)) empty

/-- Same keys with values alike under `alike`, in any order: equal sizes, and every entry of the
left has its counterpart in the right. -/
def equiv (alike : β → β → Bool) (m n : OrderedMap κ β) : Bool :=
  m.size == n.size && m.entries.all fun e => (n.get? e.1).any (alike e.2)

theorem lookup_eq_none_iff_not_mem (es : List (κ × β)) (k : κ) :
    es.lookup k = none ↔ k ∉ es.map Prod.fst := by
  rw [List.lookup_eq_none_iff, List.mem_map]
  constructor
  · rintro h ⟨e, he, rfl⟩
    simpa using h e he
  · intro h e he
    simpa using fun hk : k = e.1 => h ⟨e, he, hk.symm⟩

theorem get?_eq_none_iff (m : OrderedMap κ β) (k : κ) : m.get? k = none ↔ k ∉ m.keys :=
  lookup_eq_none_iff_not_mem m.entries k

theorem contains_eq_isSome (m : OrderedMap κ β) (k : κ) : m.contains k = (m.get? k).isSome := by
  by_cases h : k ∈ m.keys
  · have hs : (m.get? k).isSome := by
      rw [Option.isSome_iff_ne_none, ne_eq, get?_eq_none_iff]
      exact fun hn => hn h
    rw [hs, contains, decide_eq_true h]
  · rw [(get?_eq_none_iff m k).2 h, contains, decide_eq_false h, Option.isSome_none]

theorem lookup_upsertEntries_self (k : κ) (initial : β) (f : β → β) (es : List (κ × β)) :
    (upsertEntries k initial f es).lookup k = some (f ((es.lookup k).getD initial)) := by
  induction es with
  | nil => simp [upsertEntries]
  | cons e es ih =>
    obtain ⟨k', v⟩ := e
    by_cases h : k' = k
    · simp [upsertEntries, h]
    · have hb : (k == k') = false := by simpa using fun e : k = k' => h e.symm
      simp [upsertEntries, h, List.lookup_cons, hb, ih]

theorem lookup_upsertEntries_of_ne {k j : κ} (h : j ≠ k) (initial : β) (f : β → β)
    (es : List (κ × β)) : (upsertEntries k initial f es).lookup j = es.lookup j := by
  have hb : (j == k) = false := by simpa using h
  induction es with
  | nil => simp [upsertEntries, List.lookup_cons, hb]
  | cons e es ih =>
    obtain ⟨k', v⟩ := e
    by_cases hk : k' = k
    · simp [upsertEntries, hk, List.lookup_cons, hb]
    · simp [upsertEntries, hk, List.lookup_cons, ih]

theorem get?_upsert_self (m : OrderedMap κ β) (k : κ) (initial : β) (f : β → β) :
    (m.upsert k initial f).get? k = some (f ((m.get? k).getD initial)) :=
  lookup_upsertEntries_self k initial f m.entries

theorem get?_upsert_of_ne (m : OrderedMap κ β) {k j : κ} (h : j ≠ k) (initial : β) (f : β → β) :
    (m.upsert k initial f).get? j = m.get? j :=
  lookup_upsertEntries_of_ne h initial f m.entries

end OrderedMap
end QualifierConstraints
