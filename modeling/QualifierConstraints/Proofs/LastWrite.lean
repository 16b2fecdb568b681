import QualifierConstraints.Proofs.Cells

/-!
# Sharing and the last write

Two tables share the record of a target as long as the same step wrote it last for both. Which step
that was is read off the run alone: a step is known by its number, a copy takes over what was last
written to its source, and before any accepted request it is the step that made the table. The
invariant behind this says that two branches hold one cell exactly when they agree on target and
last write; `Workspace.Follows` is kept by every step.
-/

set_option autoImplicit false

namespace QualifierConstraints

/-- The step that wrote the record of `t` last for the table under `name`, by its number; a rejected
request writes nothing, an accepted one does even if it records nothing new. The steps of the run
come latest first, each with what it gave back. There is none where there is no table. -/
def lastWrite : List (Step × Option Receipt) → String → Target → Option Nat
  | [], _, _ => none
  | (step, receipt) :: earlier, name, t =>
    match step with
    | .create made _ _ => if name = made then some earlier.length else lastWrite earlier name t
    | .copy source copyName =>
      if name = copyName then (lastWrite earlier source t).or (lastWrite earlier name t)
      else lastWrite earlier name t
    | .drop dropped => if name = dropped then none else lastWrite earlier name t
    | .submit writer request =>
      if name = writer ∧ t = request.target ∧ receipt.any (·.result.isOk) then some earlier.length
      else lastWrite earlier name t

/-- The step puts another table under `name`, or may write the record of `t` there. -/
def Step.Touches (name : String) (t : Target) : Step → Prop
  | .create made _ _ => name = made
  | .copy _ copyName => name = copyName
  | .drop dropped => name = dropped
  | .submit writer request => name = writer ∧ t = request.target

theorem lt_length_of_lastWrite {journal : List (Step × Option Receipt)} {name : String}
    {t : Target} {number : Nat} (h : lastWrite journal name t = some number) :
    number < journal.length := by
  induction journal generalizing name with
  | nil => cases h
  | cons entry earlier ih =>
    obtain ⟨step, receipt⟩ := entry
    have hstep : number = earlier.length ∨ number < earlier.length := by
      cases step with
      | create made targets settings =>
        rw [lastWrite] at h
        split_ifs at h
        · exact .inl (Option.some.inj h).symm
        · exact .inr (ih h)
      | copy source copyName =>
        rw [lastWrite] at h
        split_ifs at h
        · obtain h | ⟨_, h⟩ := Option.or_eq_some_iff.1 h
          · exact .inr (ih h)
          · exact .inr (ih h)
        · exact .inr (ih h)
      | drop dropped =>
        rw [lastWrite] at h
        split_ifs at h
        exact .inr (ih h)
      | submit writer request =>
        rw [lastWrite] at h
        split_ifs at h
        · exact .inl (Option.some.inj h).symm
        · exact .inr (ih h)
    rw [List.length_cons]
    omega

theorem lastWrite_ne_length (journal : List (Step × Option Receipt)) (name : String) (t : Target) :
    lastWrite journal name t ≠ some journal.length :=
  fun h => Nat.lt_irrefl _ (lt_length_of_lastWrite h)

/-- Who holds which cell agrees with who wrote when: one cell for one target and one last write. -/
def CellsFollowWrites (cells writes : String → Target → Option Nat) : Prop :=
  ∀ a b t u i j, cells a t = some i → cells b u = some j →
    (i = j ↔ t = u ∧ writes a t = writes b u)

/-- Some holders get new cells by one new write, all others stay with what they had. -/
theorem CellsFollowWrites.renew {cells cells' writes writes' : String → Target → Option Nat}
    (h : CellsFollowWrites cells writes) (now : Nat) (new : String → Target → Prop)
    (hwrite : ∀ name t, new name t → writes' name t = some now)
    (hcell : ∀ a b t u i j, new a t → cells' a t = some i → cells' b u = some j →
      (i = j ↔ t = u ∧ new b u))
    (hold : ∀ name t, ¬ new name t → cells' name t = cells name t ∧
      writes' name t = writes name t ∧ writes name t ≠ some now) :
    CellsFollowWrites cells' writes' := by
  intro a b t u i j hi hj
  by_cases ha : new a t
  · rw [hcell a b t u i j ha hi hj, hwrite a t ha]
    by_cases hb : new b u
    · simp [hb, hwrite b u hb]
    · obtain ⟨_, hw, hne⟩ := hold b u hb
      simp [hb, hw, Ne.symm hne]
  · obtain ⟨hca, hwa, hna⟩ := hold a t ha
    by_cases hb : new b u
    · have hcell' := hcell b a u t j i hb hj hi
      rw [eq_comm, hcell', hwa, hwrite b u hb]
      simp [ha, hna]
    · obtain ⟨hcb, hwb, _⟩ := hold b u hb
      rw [hwa, hwb]
      exact h a b t u i j (hca ▸ hi) (hcb ▸ hj)

/-- Each holder has its cell and its last write from one that was there before. -/
theorem CellsFollowWrites.inherit {cells cells' writes writes' : String → Target → Option Nat}
    (h : CellsFollowWrites cells writes)
    (hfrom : ∀ name t cell, cells' name t = some cell →
      ∃ source, cells source t = some cell ∧ writes' name t = writes source t) :
    CellsFollowWrites cells' writes' := by
  intro a b t u i j hi hj
  obtain ⟨sa, hca, hwa⟩ := hfrom a t i hi
  obtain ⟨sb, hcb, hwb⟩ := hfrom b u j hj
  rw [hwa, hwb]
  exact h sa sb t u i j hca hcb

theorem eq_iff_of_mem_zipIdx {ts : List Target} (hd : ts.Nodup) {size : Nat}
    {x y : Target × Nat} (hx : x ∈ ts.zipIdx size) (hy : y ∈ ts.zipIdx size) :
    x.2 = y.2 ↔ x.1 = y.1 := by
  obtain ⟨hxle, hxget⟩ := List.mk_mem_zipIdx_iff_le_and_getElem?_sub.1 hx
  obtain ⟨hyle, hyget⟩ := List.mk_mem_zipIdx_iff_le_and_getElem?_sub.1 hy
  constructor
  · intro heq
    rw [heq, hyget] at hxget
    exact (Option.some.inj hxget).symm
  · intro heq
    have hlt : x.2 - size < ts.length := (List.getElem?_eq_some_iff.1 hxget).1
    have hsub := (List.getElem?_inj hlt hd).1 (show ts[x.2 - size]? = ts[y.2 - size]? by
      rw [hxget, hyget, heq])
    omega

namespace Workspace

/-- The steps of a run with what they gave back, latest first. -/
def journal (w : Workspace) (steps : List Step) : List (Step × Option Receipt) :=
  (steps.zip (w.run steps).2).reverse

theorem journal_cons (w : Workspace) (s : Step) (steps : List Step) :
    w.journal (s :: steps) = (w.perform s).1.journal steps ++ [(s, (w.perform s).2)] := by
  rw [journal, run, List.zip_cons_cons, List.reverse_cons]
  rfl

/-- The workspace is one that the steps of the journal lead to. -/
structure Follows (w : Workspace) (journal : List (Step × Option Receipt)) : Prop where
  wellFormed : w.WellFormed
  live : ∀ name t, (lastWrite journal name t).isSome = (w.branches.get? name).isSome
  cells : CellsFollowWrites w.cellOf (lastWrite journal)

variable {w : Workspace} {journal : List (Step × Option Receipt)} {name : String}

theorem follows_empty : empty.Follows [] where
  wellFormed := wellFormed_empty
  live _ _ := rfl
  cells _ _ _ _ _ _ h := by cases h

/-- A step that does nothing and writes nothing. -/
theorem Follows.idle (h : w.Follows journal) {entry : Step × Option Receipt}
    (hw : ∀ name t, lastWrite (entry :: journal) name t = lastWrite journal name t) :
    w.Follows (entry :: journal) := by
  have hsame : lastWrite (entry :: journal) = lastWrite journal :=
    funext fun name => funext (hw name)
  refine ⟨h.wellFormed, ?_, ?_⟩
  · rw [hsame]
    exact h.live
  · rw [hsame]
    exact h.cells

theorem Follows.create (h : w.Follows journal) (made : String) (targets : List Target)
    (settings : Settings) :
    (w.create made targets settings).Follows
      ((.create made targets settings, none) :: journal) := by
  have hwrite : ∀ name t, lastWrite ((.create made targets settings, none) :: journal) name t =
      if name = made then some journal.length else lastWrite journal name t := fun _ _ => rfl
  refine ⟨h.wellFormed.create made targets settings, ?_, ?_⟩
  · intro name t
    rw [hwrite, Workspace.create, OrderedMap.get?_set]
    split_ifs
    · rfl
    · exact h.live name t
  · refine h.cells.renew journal.length (fun name _ => name = made) ?_ ?_ ?_
    · intro name t hn
      rw [hwrite, if_pos hn]
    · intro a b t u i j ha hi hj
      rw [cellOf_create, if_pos ha] at hi
      have hi' := OrderedMap.mem_entries_of_get? hi
      rw [cellOf_create] at hj
      split_ifs at hj with hb
      · have hij := eq_iff_of_mem_zipIdx (OrderedSet.ofList targets).nodup hi'
          (OrderedMap.mem_entries_of_get? hj)
        exact hij.trans (and_iff_left hb).symm
      · have hle := (List.mk_mem_zipIdx_iff_le_and_getElem?_sub.1 hi').1
        have hlt := h.wellFormed.lt_of_cellOf hj
        exact iff_of_false (by omega) fun hc => hb hc.2
    · intro name t hn
      rw [hwrite, cellOf_create, if_neg hn, if_neg hn]
      exact ⟨rfl, rfl, lastWrite_ne_length journal name t⟩

theorem Follows.copy (h : w.Follows journal) (source copyName : String) :
    (w.copy source copyName).Follows ((.copy source copyName, none) :: journal) := by
  have hlast : ∀ name t, lastWrite ((.copy source copyName, none) :: journal) name t =
      if name = copyName then (lastWrite journal source t).or (lastWrite journal name t)
      else lastWrite journal name t := fun _ _ => rfl
  cases hb : w.branches.get? source with
  | none =>
    have hcopy : w.copy source copyName = w := by rw [Workspace.copy, hb]
    rw [hcopy]
    refine h.idle fun name t => ?_
    have hnone : lastWrite journal source t = none := by
      rw [← Option.not_isSome_iff_eq_none, h.live, hb]
      exact Bool.false_ne_true
    rw [hlast, hnone, Option.none_or, ite_self]
  | some b =>
    -- What was last written for the source is taken over, whatever the name stood for.
    have hwrite : ∀ name t, lastWrite ((.copy source copyName, none) :: journal) name t =
        if name = copyName then lastWrite journal source t else lastWrite journal name t := by
      intro name t
      have hsome : (lastWrite journal source t).isSome := by rw [h.live, hb, Option.isSome_some]
      rw [hlast, Option.or_of_isSome hsome]
    refine ⟨h.wellFormed.copy source copyName, ?_, ?_⟩
    · intro name t
      rw [hwrite, Workspace.copy, hb, OrderedMap.get?_set]
      split_ifs
      · rw [h.live, hb]
      · exact h.live name t
    · refine h.cells.inherit fun name t cell hc => ?_
      rw [cellOf_copy hb] at hc
      rw [hwrite]
      split_ifs at hc ⊢
      · exact ⟨source, hc, rfl⟩
      · exact ⟨name, hc, rfl⟩

theorem Follows.drop (h : w.Follows journal) (dropped : String) :
    (w.drop dropped).Follows ((.drop dropped, none) :: journal) := by
  have hwrite : ∀ name t, lastWrite ((.drop dropped, none) :: journal) name t =
      if name = dropped then none else lastWrite journal name t := fun _ _ => rfl
  refine ⟨h.wellFormed.drop dropped, ?_, ?_⟩
  · intro name t
    rw [hwrite, Workspace.drop, OrderedMap.get?_erase]
    split_ifs
    · rfl
    · exact h.live name t
  · refine h.cells.inherit fun name t cell hc => ?_
    rw [cellOf_drop] at hc
    split_ifs at hc with hn
    exact ⟨name, hc, by rw [hwrite, if_neg hn]⟩

/-- The writer gets a cell that nobody else holds, in place or by a copy. -/
theorem Follows.write (h : w.Follows journal) {writer : String} {b : Branch}
    (hb : w.branches.get? writer = some b) {t : Target} {cell : Nat}
    (hc : b.cells.get? t = some cell) (record : Record) {entry : Step × Option Receipt}
    (hwrite : ∀ name u, lastWrite (entry :: journal) name u =
      if name = writer ∧ u = t then some journal.length else lastWrite journal name u) :
    (w.write writer b t cell record).Follows (entry :: journal) := by
  refine ⟨h.wellFormed.write hb t cell record, ?_, ?_⟩
  · intro name u
    rw [hwrite, isSome_branch_write hb]
    split_ifs with hn
    · rw [hn.1, hb]
      rfl
    · exact h.live name u
  · refine h.cells.renew journal.length (fun name u => name = writer ∧ u = t) ?_ ?_ ?_
    · intro name u hn
      rw [hwrite, if_pos hn]
    · rintro _ n _ u i j ⟨rfl, rfl⟩ hi hj
      rw [h.wellFormed.eq_iff_of_cellOf_write hb hc hi hj]
      exact (and_iff_right_of_imp fun hn => hn.2.symm).symm
    · intro name u hn
      rw [hwrite, if_neg hn]
      exact ⟨cellOf_write_of_other hb t cell record hn, rfl, lastWrite_ne_length journal name u⟩

theorem Follows.submit (h : w.Follows journal) (writer : String) (request : Request) :
    (w.submit writer request).1.Follows
      ((.submit writer request, (w.submit writer request).2) :: journal) := by
  cases hb : w.branches.get? writer with
  | none =>
    rw [submit_of_no_branch hb]
    refine h.idle fun name t => if_neg ?_
    simp
  | some b =>
    cases ha : request.accept b.cells.get? b.settings with
    | error e =>
      rw [submit_of_accept_error hb ha]
      refine h.idle fun name t => if_neg ?_
      simp [Except.isOk, Except.toBool]
    | ok found =>
      obtain ⟨cell, edit⟩ := found
      rw [submit_of_accept_ok hb ha]
      refine h.write hb (Request.accept_eq_ok_iff.1 ha).1 _ fun name u => ?_
      simp [lastWrite, Except.isOk, Except.toBool]

theorem Follows.perform (h : w.Follows journal) (s : Step) :
    (w.perform s).1.Follows ((s, (w.perform s).2) :: journal) := by
  cases s with
  | create made targets settings => exact h.create made targets settings
  | copy source copyName => exact h.copy source copyName
  | drop dropped => exact h.drop dropped
  | submit writer request => exact h.submit writer request

theorem Follows.run (h : w.Follows journal) (steps : List Step) :
    (w.run steps).1.Follows (w.journal steps ++ journal) := by
  induction steps generalizing w journal with
  | nil => exact h
  | cons s steps ih =>
    rw [journal_cons, List.append_assoc]
    exact ih (h.perform s)

theorem Follows.shares_iff (h : w.Follows journal) (a b : String) (t : Target) :
    w.shares a b t = true ↔
      w.Declares a t ∧ w.Declares b t ∧ lastWrite journal a t = lastWrite journal b t := by
  rw [Workspace.shares_iff, declares_iff, declares_iff]
  constructor
  · rintro ⟨cell, ha, hb⟩
    exact ⟨⟨cell, ha⟩, ⟨cell, hb⟩, ((h.cells a b t t cell cell ha hb).1 rfl).2⟩
  · rintro ⟨⟨i, hi⟩, ⟨j, hj⟩, hw⟩
    have hij : i = j := (h.cells a b t t i j hi hj).2 ⟨rfl, hw⟩
    exact ⟨i, hi, hij ▸ hj⟩

theorem cellOf_perform_of_not_touches {s : Step} {t : Target} (h : ¬ s.Touches name t) :
    (w.perform s).1.cellOf name t = w.cellOf name t := by
  cases s with
  | create made targets settings => exact (w.cellOf_create _ _ _ _ _).trans (if_neg h)
  | copy source copyName =>
    cases hb : w.branches.get? source with
    | none => rw [perform, copy, hb]
    | some b => exact (cellOf_copy hb copyName name t).trans (if_neg h)
  | drop dropped => exact (w.cellOf_drop dropped name t).trans (if_neg h)
  | submit writer request =>
    change (w.submit writer request).1.cellOf name t = _
    obtain he | ⟨b, cell, record, hb, _, he⟩ := w.fst_submit_eq_self_or_write writer request
    · rw [he]
    · rw [he, cellOf_write_of_other hb _ _ _ h]

theorem cellOf_run_of_not_touches {steps : List Step} {t : Target}
    (h : ∀ s ∈ steps, ¬ s.Touches name t) : (w.run steps).1.cellOf name t = w.cellOf name t := by
  induction steps generalizing w with
  | nil => rfl
  | cons s steps ih =>
    rw [List.forall_mem_cons] at h
    exact (ih h.2).trans (cellOf_perform_of_not_touches h.1)

theorem cellOf_copy_of_cellOf {source : String} {t : Target} {cell : Nat}
    (h : w.cellOf source t = some cell) (copyName : String) :
    (w.copy source copyName).cellOf copyName t = some cell ∧
      ∀ n, w.cellOf n t = some cell → (w.copy source copyName).cellOf n t = some cell := by
  obtain ⟨b, hb, _⟩ := Option.bind_eq_some_iff.1 h
  refine ⟨?_, fun n hn => ?_⟩
  · rw [cellOf_copy hb, if_pos rfl, h]
  · rw [cellOf_copy hb, h, hn, ite_self]

/-- Two copies of one table hold the same cell as long as nothing is written for one of them, or
for the table itself before the second copy is taken. -/
theorem shares_of_copies {source a b : String} {t : Target} {between after : List Step}
    (h : w.Declares source t)
    (hbetween : ∀ s ∈ between, ¬ s.Touches source t ∧ ¬ s.Touches a t)
    (hafter : ∀ s ∈ after, ¬ s.Touches a t ∧ ¬ s.Touches b t) :
    (((((w.copy source a).run between).1.copy source b).run after).1).shares a b t = true := by
  obtain ⟨cell, hc⟩ := (w.declares_iff source t).1 h
  obtain ⟨ha, hsource⟩ := cellOf_copy_of_cellOf hc a
  have ha' := (cellOf_run_of_not_touches fun s hs => (hbetween s hs).2).trans ha
  have hsource' := (cellOf_run_of_not_touches fun s hs => (hbetween s hs).1).trans
    (hsource source hc)
  obtain ⟨hb, hother⟩ := cellOf_copy_of_cellOf hsource' b
  refine (Workspace.shares_iff _ _ _ _).2 ⟨cell, ?_, ?_⟩
  · exact (cellOf_run_of_not_touches fun s hs => (hafter s hs).1).trans (hother a ha')
  · exact (cellOf_run_of_not_touches fun s hs => (hafter s hs).2).trans hb

/-- Two tables share the record of a target exactly if both declare it and the same step wrote it
last for both; every table has such a step. So sharing is an equivalence among the tables that
declare the target, and copies of one table share its record until it is written for one of them,
whatever becomes of the table that they were copied from. -/
theorem shares_iff_lastWrite_eq (steps : List Step) :
    (∀ name t, (lastWrite (empty.journal steps) name t).isSome =
      ((empty.run steps).1.table name).isSome) ∧
    (∀ a b t, (empty.run steps).1.shares a b t = true ↔
      (empty.run steps).1.Declares a t ∧ (empty.run steps).1.Declares b t ∧
        lastWrite (empty.journal steps) a t = lastWrite (empty.journal steps) b t) ∧
    (∀ t, Equivalence fun a b : { name // (empty.run steps).1.Declares name t } =>
      (empty.run steps).1.shares a b t = true) ∧
    ∀ (source a b : String) (t : Target) (between after : List Step),
      (empty.run steps).1.Declares source t →
      (∀ s ∈ between, ¬ s.Touches source t ∧ ¬ s.Touches a t) →
      (∀ s ∈ after, ¬ s.Touches a t ∧ ¬ s.Touches b t) →
      ((((((empty.run steps).1.copy source a).run between).1.copy source b).run after).1).shares
        a b t = true := by
  have h := follows_empty.run steps
  rw [List.append_nil] at h
  refine ⟨fun name t => ?_, h.shares_iff, fun t => ⟨?_, ?_, ?_⟩,
    fun source a b t between after => shares_of_copies⟩
  · rw [h.live, table, Option.isSome_map]
  · rintro ⟨a, ha⟩
    exact (h.shares_iff a a t).2 ⟨ha, ha, rfl⟩
  · rintro ⟨a, ha⟩ ⟨b, hb⟩ hab
    exact (h.shares_iff b a t).2 ⟨hb, ha, ((h.shares_iff a b t).1 hab).2.2.symm⟩
  · rintro ⟨a, ha⟩ ⟨b, hb⟩ ⟨c, hc⟩ hab hbc
    have hw := ((h.shares_iff a b t).1 hab).2.2.trans ((h.shares_iff b c t).1 hbc).2.2
    exact (h.shares_iff a c t).2 ⟨ha, hc, hw⟩

/-- Filing no qualifier at all is a write too, and a rejected request is none. -/
example :
    let w := (empty.run [.create "main" [⟨"T", "Box"⟩] .standard, .copy "main" "side"]).1
    (w.submit "side" (.filePrimaries .equality ⟨"T", "Box"⟩ ⟨fun _ => none, .empty⟩ [])).1.shares
      "main" "side" ⟨"T", "Box"⟩ = false ∧
    (w.submit "side" (.filePrimaries .equality ⟨"T", "Box"⟩ ⟨fun _ => none, .empty⟩
      [.ofName "Odd"])).1.shares "main" "side" ⟨"T", "Box"⟩ = true := by
  decide

end Workspace
end QualifierConstraints
