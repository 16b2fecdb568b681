import QualifierConstraints.Proofs.InsertionOrder

set_option autoImplicit false

namespace QualifierConstraints

theorem nodup_eraseDups {α : Type} [DecidableEq α] (xs : List α) : xs.eraseDups.Nodup := by
  rw [← OrderedSet.toList_ofList]
  exact (OrderedSet.ofList xs).nodup

namespace OrderedSet

variable {α : Type} [DecidableEq α]

def withoutRepeats (xs : List α) : OrderedSet α := ⟨xs.eraseDups, nodup_eraseDups xs⟩

theorem withoutRepeats_eq_ofList (xs : List α) : withoutRepeats xs = ofList xs :=
  OrderedSet.ext (toList_ofList xs).symm

theorem mem_withoutRepeats (xs : List α) (a : α) : a ∈ withoutRepeats xs ↔ a ∈ xs :=
  List.mem_eraseDups

theorem withoutRepeats_concat (xs : List α) (x : α) :
    withoutRepeats (xs ++ [x]) = (withoutRepeats xs).insert x := by
  rw [withoutRepeats_eq_ofList, withoutRepeats_eq_ofList, ofList_concat]

end OrderedSet

namespace OrderedMap

variable {κ α β : Type}

def tabulate (ks : OrderedSet κ) (f : κ → β) : OrderedMap κ β where
  entries := ks.toList.map fun k => (k, f k)
  nodup := by
    rw [List.map_map]
    exact (List.map_id ks.toList).symm ▸ ks.nodup

theorem entries_tabulate (ks : OrderedSet κ) (f : κ → β) :
    (tabulate ks f).entries = ks.toList.map fun k => (k, f k) := rfl

theorem keys_tabulate (ks : OrderedSet κ) (f : κ → β) : (tabulate ks f).keys = ks.toList := by
  rw [keys, tabulate, List.map_map]
  exact List.map_id ks.toList

theorem values_tabulate (ks : OrderedSet κ) (f : κ → β) :
    (tabulate ks f).values = ks.toList.map f := by
  rw [values, tabulate, List.map_map]
  rfl

theorem tabulate_congr {ks : OrderedSet κ} {f g : κ → β} (h : ∀ k ∈ ks, f k = g k) :
    tabulate ks f = tabulate ks g :=
  OrderedMap.ext (List.map_congr_left fun k hk => by rw [h k hk])

variable [DecidableEq κ]

theorem get?_tabulate (ks : OrderedSet κ) (f : κ → β) (k : κ) :
    (tabulate ks f).get? k = if k ∈ ks then some (f k) else none := by
  split_ifs with h
  · exact get?_of_mem_entries (List.mem_map.2 ⟨k, h, rfl⟩)
  · rw [get?_eq_none_iff, keys_tabulate]
    exact h

theorem entries_tabulate_insert {ks : OrderedSet κ} {k : κ} (h : k ∉ ks) (f : κ → β) :
    (tabulate (ks.insert k) f).entries = (tabulate ks f).entries ++ [(k, f k)] := by
  rw [entries_tabulate, OrderedSet.toList_insert_of_not_mem h, List.map_append]
  rfl

theorem upsert_tabulate (ks : OrderedSet κ) (f : κ → β) (k : κ) (initial : β) (g : β → β) :
    (tabulate ks f).upsert k initial g = tabulate (ks.insert k)
      fun j => if j = k then g (if k ∈ ks then f k else initial) else f j := by
  refine OrderedMap.ext ?_
  by_cases h : k ∈ ks
  · have hk : k ∈ (tabulate ks f).keys := by rwa [keys_tabulate]
    rw [entries_upsert_of_mem hk, OrderedSet.insert_of_mem h, if_pos h, entries_tabulate,
      entries_tabulate, List.map_map]
    refine List.map_congr_left fun j _ => ?_
    by_cases hj : j = k <;> simp [hj]
  · have hk : k ∉ (tabulate ks f).keys := by rwa [keys_tabulate]
    have hold : tabulate ks (fun j => if j = k then g initial else f j) = tabulate ks f :=
      tabulate_congr fun j hj => if_neg fun e : j = k => h (e ▸ hj)
    rw [entries_upsert_of_not_mem hk, if_neg h, entries_tabulate_insert h, hold, if_pos rfl]

theorem set_tabulate {ks : OrderedSet κ} {k : κ} (h : k ∈ ks) (f : κ → β) (v : β) :
    (tabulate ks f).set k v = tabulate ks fun j => if j = k then v else f j := by
  rw [set, upsert_tabulate, OrderedSet.insert_of_mem h]

theorem insertNew_tabulate (ks : OrderedSet κ) (f : κ → β) (k : κ) :
    (tabulate ks f).insertNew k (f k) = tabulate (ks.insert k) f := by
  by_cases h : k ∈ ks
  · have hk : k ∈ (tabulate ks f).keys := by rwa [keys_tabulate]
    rw [insertNew_of_mem hk, OrderedSet.insert_of_mem h]
  · have hk : k ∉ (tabulate ks f).keys := by rwa [keys_tabulate]
    exact OrderedMap.ext ((entries_insertNew_of_not_mem hk _).trans
      (entries_tabulate_insert h f).symm)

theorem ofKeys_eq_tabulate (ks : List κ) (f : κ → β) :
    ofKeys ks f = tabulate (.withoutRepeats ks) f := by
  induction ks using List.reverseRecOn with
  | nil => rfl
  | append_singleton ks k ih =>
    rw [OrderedSet.withoutRepeats_concat, ← insertNew_tabulate, ← ih]
    exact List.foldl_append

/-- The values that stand with the key `k` in a list of pairs, in order. -/
def valuesAt (k : κ) (xs : List (κ × α)) : List α := (xs.filter (·.1 = k)).map Prod.snd

theorem mem_valuesAt {k : κ} {a : α} {xs : List (κ × α)} : a ∈ valuesAt k xs ↔ (k, a) ∈ xs := by
  simp [valuesAt]

theorem valuesAt_concat (k j : κ) (a : α) (xs : List (κ × α)) :
    valuesAt j (xs ++ [(k, a)]) = if k = j then valuesAt j xs ++ [a] else valuesAt j xs := by
  unfold valuesAt
  by_cases h : k = j <;> simp [h]

theorem valuesAt_of_not_mem {k : κ} {xs : List (κ × α)} (h : k ∉ xs.map Prod.fst) :
    valuesAt k xs = [] := by
  unfold valuesAt
  rw [List.map_eq_nil_iff, List.filter_eq_nil_iff]
  intro e he
  simpa using fun hk : e.1 = k => h (List.mem_map.2 ⟨e, he, hk⟩)

/-- Each key once, in the order of first occurrence, with what `f` makes of all its values. -/
def collect (f : List α → β) (xs : List (κ × α)) : OrderedMap κ β :=
  tabulate (.withoutRepeats (xs.map Prod.fst)) fun k => f (valuesAt k xs)

/-- If `f` takes in a list value by value, then the last pair updates the entry of its key. -/
theorem collect_concat (f : List α → β) (step : α → β → β)
    (hf : ∀ as a, f (as ++ [a]) = step a (f as)) (xs : List (κ × α)) (k : κ) (a : α) :
    collect f (xs ++ [(k, a)]) = (collect f xs).upsert k (f []) (step a) := by
  have hold : (if k ∈ OrderedSet.withoutRepeats (xs.map Prod.fst) then f (valuesAt k xs)
      else f []) = f (valuesAt k xs) := by
    split_ifs with h
    · rfl
    · rw [valuesAt_of_not_mem fun hk => h ((OrderedSet.mem_withoutRepeats _ k).2 hk)]
  rw [collect, collect, upsert_tabulate, hold, List.map_append, List.map_singleton,
    OrderedSet.withoutRepeats_concat]
  refine tabulate_congr fun j _ => ?_
  rw [valuesAt_concat]
  by_cases h : k = j
  · rw [if_pos h, if_pos h.symm, hf, h]
  · rw [if_neg h, if_neg (Ne.symm h)]

theorem mem_keys_collect {f : List α → β} {xs : List (κ × α)} {k : κ} :
    k ∈ (collect f xs).keys ↔ ∃ a, (k, a) ∈ xs := by
  rw [collect, keys_tabulate, ← OrderedSet.mem_iff_mem_toList, OrderedSet.mem_withoutRepeats]
  simp

theorem get?_collect_eq_some_iff {f : List α → β} {xs : List (κ × α)} {k : κ} {b : β} :
    (collect f xs).get? k = some b ↔ (∃ a, (k, a) ∈ xs) ∧ f (valuesAt k xs) = b := by
  rw [← mem_keys_collect (f := f), collect, get?_tabulate, keys_tabulate,
    ← OrderedSet.mem_iff_mem_toList]
  split_ifs with h
  · rw [Option.some.injEq, and_iff_right h]
  · exact ⟨(nomatch ·), fun hb => absurd hb.1 h⟩

theorem mem_values_collect {f : List α → β} {xs : List (κ × α)} {b : β} :
    b ∈ (collect f xs).values ↔ ∃ k, (∃ a, (k, a) ∈ xs) ∧ f (valuesAt k xs) = b := by
  rw [collect, values_tabulate, List.mem_map]
  refine exists_congr fun k => and_congr_left fun _ => ?_
  rw [← OrderedSet.mem_iff_mem_toList, OrderedSet.mem_withoutRepeats]
  simp

theorem exists_lookup_of_mem {k : κ} {xs : List (κ × β)} (h : k ∈ xs.map Prod.fst) :
    ∃ v, xs.lookup k = some v := by
  refine Option.ne_none_iff_exists'.1 fun hn => ?_
  exact (lookup_eq_none_iff_not_mem xs k).1 hn h

theorem map_fst_firsts (xs : List (κ × β)) :
    ((xs.map Prod.fst).eraseDups.filterMap fun k => (xs.lookup k).map (k, ·)).map Prod.fst =
      (xs.map Prod.fst).eraseDups := by
  calc
    _ = (xs.map Prod.fst).eraseDups.filterMap
        fun k => ((xs.lookup k).map (k, ·)).map Prod.fst := List.map_filterMap
    _ = (xs.map Prod.fst).eraseDups.filterMap some := by
      refine List.filterMap_congr fun k hk => ?_
      obtain ⟨v, hv⟩ := exists_lookup_of_mem (List.mem_eraseDups.1 hk)
      rw [hv]
      rfl
    _ = (xs.map Prod.fst).eraseDups := List.filterMap_some

/-- Each key once, in the order of first occurrence, with its first value. -/
def firsts (xs : List (κ × β)) : OrderedMap κ β where
  entries := (xs.map Prod.fst).eraseDups.filterMap fun k => (xs.lookup k).map (k, ·)
  nodup := by
    rw [map_fst_firsts]
    exact nodup_eraseDups _

theorem keys_firsts (xs : List (κ × β)) : (firsts xs).keys = (xs.map Prod.fst).eraseDups :=
  map_fst_firsts xs

theorem firsts_concat (xs : List (κ × β)) (k : κ) (v : β) :
    firsts (xs ++ [(k, v)]) = (firsts xs).insertNew k v := by
  have hkeys : k ∈ (firsts xs).keys ↔ k ∈ xs.map Prod.fst := by
    rw [keys_firsts, List.mem_eraseDups]
  have hold : (xs.map Prod.fst).eraseDups.filterMap
      (fun j => ((xs ++ [(k, v)]).lookup j).map (j, ·)) = (firsts xs).entries := by
    refine List.filterMap_congr fun j hj => ?_
    obtain ⟨u, hu⟩ := exists_lookup_of_mem (List.mem_eraseDups.1 hj)
    rw [List.lookup_append, hu, Option.some_or]
  refine OrderedMap.ext ?_
  change ((xs ++ [(k, v)]).map Prod.fst).eraseDups.filterMap _ = _
  rw [List.map_append, List.map_singleton, eraseDups_concat]
  by_cases h : k ∈ xs.map Prod.fst
  · rw [if_pos h, insertNew_of_mem (hkeys.2 h), hold]
  · have hnone : xs.lookup k = none := (lookup_eq_none_iff_not_mem xs k).2 h
    have hlast : (xs ++ [(k, v)]).lookup k = some v := by simp [List.lookup_append, hnone]
    rw [if_neg h, entries_insertNew_of_not_mem fun hk => h (hkeys.1 hk), List.filterMap_append,
      hold, List.filterMap_cons, hlast]
    rfl

theorem mem_keys_firsts {xs : List (κ × β)} {k : κ} :
    k ∈ (firsts xs).keys ↔ ∃ v, (k, v) ∈ xs := by
  rw [keys_firsts, List.mem_eraseDups]
  simp

theorem mem_of_get?_firsts {xs : List (κ × β)} {k : κ} {v : β} (h : (firsts xs).get? k = some v) :
    (k, v) ∈ xs := by
  obtain ⟨j, _, hj⟩ := List.mem_filterMap.1 (mem_entries_of_get? h)
  obtain ⟨u, hu, he⟩ := Option.map_eq_some_iff.1 hj
  cases he
  obtain ⟨before, after, hxs, _⟩ := List.lookup_eq_some_iff.1 hu
  rw [hxs]
  simp

end OrderedMap
end QualifierConstraints
