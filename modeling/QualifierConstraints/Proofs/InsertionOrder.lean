import Mathlib.Data.List.Basic
import Mathlib.Data.List.Induction
import QualifierConstraints.Ordered.Map

set_option autoImplicit false

namespace QualifierConstraints

theorem eraseDups_concat {α : Type} [DecidableEq α] (xs : List α) (x : α) :
    (xs ++ [x]).eraseDups = if x ∈ xs then xs.eraseDups else xs.eraseDups ++ [x] := by
  rw [List.eraseDups_append]
  by_cases h : x ∈ xs
  · simp [List.removeAll, h]
  · simp [List.removeAll, h, List.eraseDups_cons]

namespace OrderedSet

variable {α : Type} [DecidableEq α]

theorem ofList_concat (xs : List α) (x : α) : ofList (xs ++ [x]) = (ofList xs).insert x := by
  rw [ofList, insertMany_append]
  rfl

theorem mem_ofList (xs : List α) (x : α) : x ∈ ofList xs ↔ x ∈ xs := by
  rw [ofList, mem_insertMany, mem_iff_mem_toList]
  simp [empty]

theorem toList_ofList (xs : List α) : (ofList xs).toList = xs.eraseDups := by
  induction xs using List.reverseRecOn with
  | nil => rfl
  | append_singleton xs x ih =>
    rw [ofList_concat, eraseDups_concat]
    by_cases h : x ∈ xs
    · rw [insert_of_mem ((mem_ofList xs x).2 h), if_pos h, ih]
    · rw [toList_insert_of_not_mem (fun hx => h ((mem_ofList xs x).1 hx)), if_neg h, ih]

theorem union_insert (s t : OrderedSet α) (x : α) :
    s.union (t.insert x) = (s.union t).insert x := by
  by_cases h : x ∈ t
  · have hu : x ∈ s.union t := (mem_insertMany s t.toList x).2 (.inr h)
    rw [insert_of_mem h, insert_of_mem hu]
  · rw [union, toList_insert_of_not_mem h, insertMany_append]
    rfl

theorem insertMany_eq_self {s : OrderedSet α} {xs : List α} (h : ∀ x ∈ xs, x ∈ s) :
    s.insertMany xs = s := by
  induction xs with
  | nil => rfl
  | cons x xs ih =>
    rw [List.forall_mem_cons] at h
    change (s.insert x).insertMany xs = s
    rw [insert_of_mem h.1, ih h.2]

theorem union_ofList (s : OrderedSet α) (xs : List α) : s.union (ofList xs) = s.insertMany xs := by
  induction xs using List.reverseRecOn with
  | nil => rfl
  | append_singleton xs x ih =>
    rw [ofList_concat, union_insert, ih, insertMany_append]
    rfl

theorem union_ofList_append (s : OrderedSet α) (xs ys : List α) :
    s.union (ofList (xs ++ ys)) = (s.union (ofList xs)).union (ofList ys) := by
  rw [union_ofList, union_ofList, union_ofList, insertMany_append]

theorem ofList_append (xs ys : List α) : ofList (xs ++ ys) = (ofList xs).union (ofList ys) := by
  rw [union_ofList, ofList, insertMany_append]
  rfl

end OrderedSet

namespace OrderedMap

variable {κ α β : Type}

theorem mapValues_congr {f g : κ → α → β} {m : OrderedMap κ α}
    (h : ∀ e ∈ m.entries, f e.1 e.2 = g e.1 e.2) : m.mapValues f = m.mapValues g :=
  OrderedMap.ext (List.map_congr_left fun e he => by rw [h e he])

variable [DecidableEq κ]

theorem isSome_get?_iff (m : OrderedMap κ β) (k : κ) : (m.get? k).isSome ↔ k ∈ m.keys := by
  rw [Option.isSome_iff_ne_none, ne_eq, get?_eq_none_iff, not_not]

theorem mem_keys_of_get? {m : OrderedMap κ β} {k : κ} {v : β} (h : m.get? k = some v) :
    k ∈ m.keys :=
  (isSome_get?_iff m k).1 (Option.isSome_iff_exists.2 ⟨v, h⟩)

theorem mem_entries_of_get? {m : OrderedMap κ β} {k : κ} {v : β} (h : m.get? k = some v) :
    (k, v) ∈ m.entries := by
  obtain ⟨before, after, he, _⟩ := List.lookup_eq_some_iff.1 h
  rw [he]
  simp

theorem get?_of_mem_entries {m : OrderedMap κ β} {k : κ} {v : β} (h : (k, v) ∈ m.entries) :
    m.get? k = some v := by
  obtain ⟨before, after, he⟩ := List.append_of_mem h
  have hd := m.nodup
  rw [he, List.map_append, List.nodup_append] at hd
  refine List.lookup_eq_some_iff.2 ⟨before, after, he, fun e hb => ?_⟩
  exact bne_iff_ne.2 (hd.2.2 e.1 (List.mem_map_of_mem hb) k (by simp)).symm

theorem get?_eq_some_iff {m : OrderedMap κ β} {k : κ} {v : β} :
    m.get? k = some v ↔ (k, v) ∈ m.entries :=
  ⟨mem_entries_of_get?, get?_of_mem_entries⟩

theorem upsertEntries_of_not_mem {k : κ} {es : List (κ × β)} (h : k ∉ es.map Prod.fst)
    (initial : β) (f : β → β) : upsertEntries k initial f es = es ++ [(k, f initial)] := by
  induction es with
  | nil => rfl
  | cons e es ih =>
    obtain ⟨k', v⟩ := e
    rw [List.map_cons, List.mem_cons, not_or] at h
    rw [upsertEntries, if_neg (Ne.symm h.1), ih h.2]
    rfl

theorem upsertEntries_of_mem {k : κ} {es : List (κ × β)} (hd : (es.map Prod.fst).Nodup)
    (h : k ∈ es.map Prod.fst) (initial : β) (f : β → β) :
    upsertEntries k initial f es = es.map fun e => if e.1 = k then (e.1, f e.2) else e := by
  induction es with
  | nil => cases h
  | cons e es ih =>
    obtain ⟨k', v⟩ := e
    rw [List.map_cons, List.nodup_cons] at hd
    by_cases hk : k' = k
    · have hs : es.map (fun e => if e.1 = k then (e.1, f e.2) else e) = es := by
        refine (List.map_congr_left fun e he => ?_).trans (List.map_id es)
        exact if_neg fun heq => hd.1 (List.mem_map.2 ⟨e, he, heq.trans hk.symm⟩)
      rw [upsertEntries, if_pos hk, List.map_cons, if_pos hk, hs]
    · have hm : k ∈ es.map Prod.fst := (List.mem_cons.1 h).resolve_left fun e => hk e.symm
      rw [upsertEntries, if_neg hk, List.map_cons, if_neg hk, ih hd.2 hm]

theorem entries_upsert_of_not_mem {m : OrderedMap κ β} {k : κ} (h : k ∉ m.keys) (initial : β)
    (f : β → β) : (m.upsert k initial f).entries = m.entries ++ [(k, f initial)] :=
  upsertEntries_of_not_mem h initial f

theorem entries_upsert_of_mem {m : OrderedMap κ β} {k : κ} (h : k ∈ m.keys) (initial : β)
    (f : β → β) : (m.upsert k initial f).entries =
      m.entries.map fun e => if e.1 = k then (e.1, f e.2) else e :=
  upsertEntries_of_mem m.nodup h initial f

theorem keys_upsert (m : OrderedMap κ β) (k : κ) (initial : β) (f : β → β) :
    (m.upsert k initial f).keys = if k ∈ m.keys then m.keys else m.keys ++ [k] :=
  map_fst_upsertEntries k initial f m.entries

theorem get?_upsert (m : OrderedMap κ β) (k j : κ) (initial : β) (f : β → β) :
    (m.upsert k initial f).get? j =
      if j = k then some (f ((m.get? k).getD initial)) else m.get? j := by
  by_cases h : j = k
  · rw [if_pos h, h, get?_upsert_self]
  · rw [if_neg h, get?_upsert_of_ne m h]

theorem get?_set (m : OrderedMap κ β) (k j : κ) (v : β) :
    (m.set k v).get? j = if j = k then some v else m.get? j :=
  get?_upsert m k j v fun _ => v

/-- Two updates of one key are one update; a missing key starts from the first one's value. -/
theorem upsert_upsert (m : OrderedMap κ β) (k : κ) (initial initial' : β) (f g : β → β) :
    (m.upsert k initial f).upsert k initial' g = m.upsert k initial fun v => g (f v) := by
  refine OrderedMap.ext ?_
  change upsertEntries k initial' g (upsertEntries k initial f m.entries) =
    upsertEntries k initial _ m.entries
  induction m.entries with
  | nil => simp [upsertEntries]
  | cons e es ih =>
    obtain ⟨k', v⟩ := e
    by_cases hk : k' = k
    · rw [upsertEntries, if_pos hk, upsertEntries, if_pos hk, upsertEntries, if_pos hk]
    · rw [upsertEntries, if_neg hk, upsertEntries, if_neg hk, ih, upsertEntries, if_neg hk]

theorem unionAt_ofList_append [DecidableEq α] (m : OrderedMap κ (OrderedSet α)) (k : κ)
    (xs ys : List α) :
    m.unionAt k (.ofList (xs ++ ys)) = (m.unionAt k (.ofList xs)).unionAt k (.ofList ys) := by
  rw [unionAt, unionAt, unionAt, upsert_upsert]
  simp only [OrderedSet.union_ofList_append]

theorem upsert_eq_self {m : OrderedMap κ β} {k : κ} {v : β} (h : m.get? k = some v) (initial : β)
    {f : β → β} (hf : f v = v) : m.upsert k initial f = m := by
  change m.entries.lookup k = some v at h
  refine OrderedMap.ext ?_
  change upsertEntries k initial f m.entries = m.entries
  generalize m.entries = es at h ⊢
  induction es with
  | nil => cases h
  | cons e es ih =>
    obtain ⟨k', u⟩ := e
    by_cases hk : k' = k
    · subst hk
      rw [List.lookup_cons_self] at h
      rw [upsertEntries, if_pos rfl, Option.some.inj h, hf]
    · have hb : (k == k') = false := by simpa using Ne.symm hk
      rw [List.lookup_cons, hb] at h
      rw [upsertEntries, if_neg hk, ih h]

theorem set_eq_self {m : OrderedMap κ β} {k : κ} {v : β} (h : m.get? k = some v) :
    m.set k v = m :=
  upsert_eq_self h v rfl

theorem insertNew_of_mem {m : OrderedMap κ β} {k : κ} (h : k ∈ m.keys) (v : β) :
    m.insertNew k v = m :=
  dif_pos h

theorem entries_insertNew_of_not_mem {m : OrderedMap κ β} {k : κ} (h : k ∉ m.keys) (v : β) :
    (m.insertNew k v).entries = m.entries ++ [(k, v)] := by
  rw [insertNew, dif_neg h]

theorem keys_insertNew (m : OrderedMap κ β) (k : κ) (v : β) :
    (m.insertNew k v).keys = if k ∈ m.keys then m.keys else m.keys ++ [k] := by
  split_ifs with h
  · rw [insertNew_of_mem h]
  · rw [keys, entries_insertNew_of_not_mem h, List.map_append]
    rfl

theorem get?_insertNew (m : OrderedMap κ β) (k j : κ) (v : β) :
    (m.insertNew k v).get? j = (m.get? j).or (if j = k then some v else none) := by
  by_cases hk : k ∈ m.keys
  · rw [insertNew_of_mem hk]
    split_ifs with hj
    · obtain ⟨u, hu⟩ := Option.isSome_iff_exists.1 ((isSome_get?_iff m k).2 hk)
      rw [hj, hu, Option.some_or]
    · rw [Option.or_none]
  · rw [get?, entries_insertNew_of_not_mem hk, List.lookup_append, get?]
    split_ifs with hj
    · simp [hj]
    · have hb : (j == k) = false := by simpa using hj
      simp [List.lookup_cons, hb]

theorem get?_mapValues (f : κ → α → β) (m : OrderedMap κ α) (k : κ) :
    (m.mapValues f).get? k = (m.get? k).map (f k) := by
  change (m.entries.map fun e => (e.1, f e.1 e.2)).lookup k = (m.entries.lookup k).map (f k)
  induction m.entries with
  | nil => rfl
  | cons e es ih =>
    obtain ⟨k', v⟩ := e
    by_cases hk : k = k'
    · simp [hk]
    · have hb : (k == k') = false := by simpa using hk
      rw [List.map_cons, List.lookup_cons, List.lookup_cons, hb, ih]

theorem set_mapValues (f : κ → α → β) (m : OrderedMap κ α) (k : κ) (v : α) :
    (m.set k v).mapValues f = (m.mapValues f).set k (f k v) := by
  refine OrderedMap.ext ?_
  change (upsertEntries k v (fun _ => v) m.entries).map _ =
    upsertEntries k (f k v) (fun _ => f k v) (m.entries.map fun e => (e.1, f e.1 e.2))
  induction m.entries with
  | nil => rfl
  | cons e es ih =>
    obtain ⟨k', u⟩ := e
    by_cases hk : k' = k
    · subst hk
      simp [upsertEntries]
    · rw [upsertEntries, if_neg hk, List.map_cons, List.map_cons, upsertEntries, if_neg hk, ih]

theorem erase_mapValues (f : κ → α → β) (m : OrderedMap κ α) (k : κ) :
    (m.erase k).mapValues f = (m.mapValues f).erase k := by
  refine OrderedMap.ext ?_
  change (m.entries.filter _).map _ = (m.entries.map _).filter _
  rw [List.filter_map]
  rfl

/-- Two views of one map that differ at the key `k` only. -/
theorem mapValues_eq_set {f g : κ → α → β} {m : OrderedMap κ α} {k : κ} {v : α}
    (hk : m.get? k = some v) (h : ∀ e ∈ m.entries, e.1 ≠ k → g e.1 e.2 = f e.1 e.2) :
    m.mapValues g = (m.mapValues f).set k (g k v) := by
  have hkeys : k ∈ (m.mapValues f).keys := by
    rw [keys_mapValues]
    exact mem_keys_of_get? hk
  refine OrderedMap.ext ?_
  rw [set, entries_upsert_of_mem hkeys, mapValues, mapValues, List.map_map]
  refine List.map_congr_left fun e he => ?_
  by_cases hek : e.1 = k
  · have hv : m.get? e.1 = some e.2 := get?_of_mem_entries he
    rw [hek, hk] at hv
    simp [hek, Option.some.inj hv]
  · simp [hek, h e he hek]

theorem eq_or_mem_of_mem_set {m : OrderedMap κ β} {k : κ} {v : β} {e : κ × β}
    (h : e ∈ (m.set k v).entries) : e = (k, v) ∨ e ∈ m.entries := by
  by_cases hk : k ∈ m.keys
  · rw [set, entries_upsert_of_mem hk] at h
    obtain ⟨d, hd, rfl⟩ := List.mem_map.1 h
    split_ifs with hdk
    · exact .inl (by rw [hdk])
    · exact .inr hd
  · rw [set, entries_upsert_of_not_mem hk] at h
    exact (List.mem_append.1 h).symm.imp_left List.mem_singleton.1

theorem get?_erase (m : OrderedMap κ β) (k j : κ) :
    (m.erase k).get? j = if j = k then none else m.get? j := by
  change (m.entries.filter (·.1 ≠ k)).lookup j = if j = k then none else m.entries.lookup j
  induction m.entries with
  | nil => simp
  | cons e es ih =>
    obtain ⟨k', v⟩ := e
    by_cases hk : k' = k
    · subst hk
      rw [List.filter_cons_of_neg (by simp), ih]
      split_ifs with hj
      · rfl
      · have hb : (j == k') = false := by simpa using hj
        rw [List.lookup_cons, hb]
    · rw [List.filter_cons_of_pos (by simpa using hk), List.lookup_cons, List.lookup_cons]
      by_cases hj : j = k'
      · subst hj
        simp [hk]
      · have hb : (j == k') = false := by simpa using hj
        rw [hb, ih]

end OrderedMap
end QualifierConstraints
