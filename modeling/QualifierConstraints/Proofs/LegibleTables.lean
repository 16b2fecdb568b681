import Mathlib.Data.Set.Operations
import QualifierConstraints.Proofs.LegibleEntries
import QualifierConstraints.Proofs.WellFormedTables

set_option autoImplicit false

namespace QualifierConstraints

open Text

def Kind.PlainPrimaries : (k : Kind) → k.Primaries → Prop
  | .equality, p => ∀ e ∈ p.byHierarchy.entries, e.1.Plain ∧ e.2.Plain
  | .supertype, p => ∀ e ∈ p.byHierarchy.entries, e.1.Plain ∧ ∀ q ∈ e.2, q.Plain
  | .subtype, p => ∀ e ∈ p.byHierarchy.entries, e.1.Plain ∧ ∀ q ∈ e.2, q.Plain

structure Relations.Plain (k : Kind) (r : Relations k.Primaries) : Prop where
  targets : ∀ e ∈ r.targets.entries, e.1.Plain ∧ ∀ h ∈ e.2, h.Plain
  types : ∀ e ∈ r.types.entries, e.1.Plain ∧ ∀ h ∈ e.2, h.Plain
  primaries : k.PlainPrimaries r.primaries

structure Record.Plain (r : Record) : Prop where
  target : r.target.Plain
  relations : ∀ k, (r.relations k).Plain k

theorem Record.plain_empty {t : Target} (ht : t.Plain) : (empty t).Plain where
  target := ht
  relations k := by
    cases k <;> exact ⟨List.forall_mem_nil _, List.forall_mem_nil _, List.forall_mem_nil _⟩

def ConstraintTable.Plain (m : ConstraintTable) : Prop := ∀ record ∈ m.records.values, record.Plain

theorem Relations.Plain.entries {k : Kind} {r : Relations k.Primaries} (h : r.Plain k) :
    ∀ e ∈ r.entries, e.Plain := by
  have hprimaries : ∀ e ∈ k.primaryEntries r.primaries, e.Plain := by
    cases k <;> exact List.forall_mem_map.2 h.primaries
  rw [Relations.entries, List.forall_mem_append, List.forall_mem_append]
  exact ⟨List.forall_mem_map.2 h.targets, List.forall_mem_map.2 h.types, hprimaries⟩

structure Line where
  kind : Kind
  entry : Entry

def Line.render (line : Line) : String := "\n  " ++ line.kind.operator ++ " " ++ line.entry.phrase

namespace Record

def lines (r : Record) : List Line := Kind.all.flatMap fun k => (r.relations k).entries.map (.mk k)

/-- The lines, or a note that there are none. -/
def linesText (lines : List Line) : String :=
  if lines.isEmpty then "\n  (unconstrained)" else String.join (lines.map Line.render)

theorem isEmpty_lines (r : Record) : r.lines.isEmpty = r.isEmpty := by
  have h : r.isEmpty = ((r.relations .equality).isEmpty && (r.relations .supertype).isEmpty &&
      (r.relations .subtype).isEmpty) := rfl
  rw [h, ← Relations.isEmpty_entries, ← Relations.isEmpty_entries, ← Relations.isEmpty_entries,
    Bool.eq_iff_iff]
  simp [lines, Kind.all, List.isEmpty_iff, and_assoc]

theorem render_eq (r : Record) : r.render = r.target.render ++ linesText r.lines := by
  have hlines : r.lines.map Line.render = Kind.all.flatMap fun k =>
      (r.relations k).phrases.map fun phrase => "\n  " ++ k.operator ++ " " ++ phrase := by
    simp only [lines, List.map_flatMap, List.map_map, ← Relations.map_phrase_entries]
    rfl
  rw [render, linesText, isEmpty_lines, hlines]

theorem entries_of_lines (r : Record) (k : Kind) :
    (r.lines.filter (·.kind = k)).map Line.entry = (r.relations k).entries := by
  cases k <;> simp [lines, Kind.all, List.filter_map, Function.comp_def]

theorem eq_of_lines_eq {r s : Record} (ht : r.target = s.target) (h : r.lines = s.lines) :
    r = s := by
  refine ext_relations ht fun k => Relations.eq_of_entries_eq ?_
  rw [← entries_of_lines, h, entries_of_lines]

end Record

/-- What may come next after a record: the end of the text, or another record on a new line. It is
the first character of that line that tells it from one more line of the same record. -/
def RecordEnd : List Char → Prop
  | [] => True
  | c :: s => c = '\n' ∧ s.head? ≠ some ' '

theorem RecordEnd.lineEnd {s : List Char} (h : RecordEnd s) : LineEnd s := by
  cases s with
  | nil => exact stopsAt_nil _
  | cons c s => exact stopsAt_cons (List.mem_singleton.2 h.1) s

theorem Kind.eq_of_operator_eq {k j : Kind} (h : k.operator = j.operator) : k = j := by
  cases k <;> cases j <;> first
    | rfl
    | exact absurd h (by decide)

/-- Operators are told apart wherever a text goes on, for all of them have two characters. -/
theorem Kind.readsAs_operator (k : Kind) :
    ReadsAs operator (fun _ => True) (fun _ => True) k := by
  intro j s s' _ _ _ h
  have hlength : ∀ k : Kind, k.operator.toList.length = 2 := by
    intro k
    cases k <;> rfl
  obtain ⟨hoperator, hrest⟩ := List.append_inj h ((hlength k).trans (hlength j).symm)
  exact ⟨eq_of_operator_eq (String.toList_inj.1 hoperator), hrest⟩

namespace Line

def Plain (line : Line) : Prop := line.entry.Plain

theorem Plain.readsAs {line : Line} (h : line.Plain) : ReadsAs render Plain LineEnd line := by
  intro other s s' ho hs hs' htext
  simp only [render, String.toList_append, List.append_assoc] at htext
  obtain ⟨hkind, hphrase⟩ := line.kind.readsAs_operator trivial trivial trivial
    (List.append_cancel_left htext)
  obtain ⟨hentry, hrest⟩ := Entry.Plain.readsAs h ho hs hs' (List.append_cancel_left hphrase)
  exact ⟨congrArg₂ Line.mk hkind hentry, hrest⟩

theorem toList_render (line : Line) : ∃ s, line.render.toList = '\n' :: ' ' :: s :=
  ⟨_, by simp only [render, String.toList_append, List.append_assoc]; rfl⟩

theorem row : Row render Plain LineEnd RecordEnd where
  next line s _ := by
    obtain ⟨_, htext⟩ := line.toList_render
    exact stopsAt_text htext (List.mem_singleton.2 rfl) s
  last _ := RecordEnd.lineEnd
  stop line s _ hs := by
    obtain ⟨_, htext⟩ := line.toList_render
    rw [htext] at hs
    exact hs.2 rfl

end Line

namespace Record

theorem Plain.lines {r : Record} (hr : r.Plain) : ∀ line ∈ r.lines, line.Plain := by
  intro line hline
  obtain ⟨k, _, hk⟩ := List.mem_flatMap.1 hline
  obtain ⟨e, he, rfl⟩ := List.mem_map.1 hk
  exact (hr.relations k).entries e he

theorem toList_linesText (lines : List Line) : ∃ s, (linesText lines).toList = '\n' :: s := by
  cases lines with
  | nil => exact ⟨_, rfl⟩
  | cons line lines =>
    obtain ⟨_, htext⟩ := line.toList_render
    exact ⟨_, by rw [linesText, List.isEmpty_cons, if_neg Bool.false_ne_true, List.map_cons,
      String.join_cons, String.toList_append, htext, List.cons_append]⟩

/-- No operator begins with the bracket of the note. -/
theorem linesText_cons_ne (line : Line) (lines : List Line) (s s' : List Char) :
    (linesText (line :: lines)).toList ++ s ≠ (linesText []).toList ++ s' := by
  intro h
  have htext : line.kind.operator.toList ++ (" ".toList ++ (line.entry.phrase.toList ++
      ((String.join (lines.map Line.render)).toList ++ s))) = "(unconstrained)".toList ++ s' := by
    simp only [linesText, List.isEmpty_cons, if_neg Bool.false_ne_true, List.map_cons,
      String.join_cons, Line.render, String.toList_append, List.append_assoc] at h
    exact List.append_cancel_left h
  revert htext
  cases line.kind <;> exact nofun

theorem readsAs_linesText {lines : List Line} (h : ∀ line ∈ lines, line.Plain) :
    ReadsAs linesText (fun lines => ∀ line ∈ lines, line.Plain) RecordEnd lines := by
  intro others s s' ho hs hs' htext
  cases lines with
  | nil =>
    cases others with
    | nil => exact ⟨rfl, List.append_cancel_left htext⟩
    | cons other others => exact absurd htext.symm (linesText_cons_ne _ _ _ _)
  | cons line lines =>
    cases others with
    | nil => exact absurd htext (linesText_cons_ne _ _ _ _)
    | cons other others =>
      exact Line.row.readsAs_join h (fun line hl => Line.Plain.readsAs (h line hl)) ho hs hs' htext

theorem stopsAt_linesText (lines : List Line) (s : List Char) :
    StopsAt nameMarks ((linesText lines).toList ++ s) := by
  obtain ⟨_, htext⟩ := toList_linesText lines
  exact stopsAt_text htext (by decide) s

theorem Plain.readsAs {r : Record} (hr : r.Plain) : ReadsAs render Plain RecordEnd r := by
  intro r' s s' hr' hs hs' h
  simp only [render_eq, String.toList_append, List.append_assoc] at h
  obtain ⟨htarget, h⟩ := hr.target.readsAs hr'.target (stopsAt_linesText _ _)
    (stopsAt_linesText _ _) h
  obtain ⟨hlines, hrest⟩ := readsAs_linesText hr.lines hr'.lines hs hs' h
  exact ⟨eq_of_lines_eq htarget hlines, hrest⟩

/-- A record begins with the name of its target, which is neither empty nor blank. -/
theorem Plain.head?_render_ne {r : Record} (hr : r.Plain) (s : List Char) :
    (r.render.toList ++ s).head? ≠ some ' ' := by
  simp only [render_eq, Target.render, String.toList_append, List.append_assoc]
  exact hr.target.name.head?_ne (by decide) _

theorem render_ne_empty (r : Record) (s : List Char) : r.render.toList ++ s ≠ [] := by
  simp [render_eq, Target.render]

theorem row : Row (fun r => "\n" ++ render r) Plain RecordEnd (· = []) where
  next r s hr := by
    rw [String.toList_append, List.append_assoc]
    exact ⟨rfl, hr.head?_render_ne s⟩
  last s hs := by
    rw [hs]
    trivial
  stop r s _ := by simp

end Record

namespace ConstraintTable

theorem values_eq_of_render_eq {m n : ConstraintTable} (hm : m.Plain) (hn : n.Plain)
    (h : m.render = n.render) : m.records.values = n.records.values :=
  (Record.row.readsAs_intercalate (fun r s _ => r.render_ne_empty s) hm
    (fun r hr => (hm r hr).readsAs)).eq_of_text_eq hn rfl h

/-- The targets need no text of their own in a well-formed table, since every record names its
own. -/
theorem WellFormed.records_eq {m n : ConstraintTable} (hm : m.WellFormed) (hn : n.WellFormed)
    (h : m.records.values = n.records.values) : m.records = n.records := by
  have hkeys : m.records.keys = n.records.keys := by
    rw [← targets, ← targets, ← hm.ordered, ← hn.ordered, h]
  have hentries : m.records.entries = n.records.entries := by
    rw [List.zip_of_prod hkeys h]
    exact (List.zip_of_prod rfl rfl).symm
  exact OrderedMap.ext hentries

end ConstraintTable

namespace Workspace

/-- If two tables of plain values have the same text, whatever steps led to them, they have the same
targets in the same order and the same records, with every relation and every set in the same order.
Likewise no two plain qualifiers, hierarchies, targets or annotated types have the same text. -/
theorem records_eq_of_render_eq :
    (∀ (steps steps' : List Step) (name name' : String) (m n : ConstraintTable),
      (empty.run steps).1.table name = some m → (empty.run steps').1.table name' = some n →
      m.Plain → n.Plain → m.render = n.render → m.targets = n.targets ∧ m.records = n.records) ∧
    Set.InjOn Qualifier.render {q | q.Plain} ∧ Set.InjOn Hierarchy.render {h | h.Plain} ∧
    Set.InjOn Target.render {t | t.Plain} ∧ Set.InjOn AnnotatedType.render {t | t.Plain} := by
  refine ⟨fun steps steps' name name' m n hm hn hplain hplain' h => ?_, ?_, ?_, ?_, ?_⟩
  · obtain ⟨_, _, hback⟩ := exists_origin_of_table hm
    obtain ⟨_, _, hback'⟩ := exists_origin_of_table hn
    have hrecords : m.records = n.records := hback.wellFormed.records_eq hback'.wellFormed
      (ConstraintTable.values_eq_of_render_eq hplain hplain' h)
    exact ⟨congrArg OrderedMap.keys hrecords, hrecords⟩
  · intro q hq r hr
    exact (Qualifier.Plain.readsAs hq).eq_of_text_eq hr (stopsAt_nil _)
  · intro h hh g hg
    exact (Hierarchy.Plain.readsAs hh).eq_of_text_eq hg (stopsAt_nil _)
  · intro t ht u hu
    exact (Target.Plain.readsAs ht).eq_of_text_eq hu (stopsAt_nil _)
  · intro t ht u hu
    exact (AnnotatedType.Plain.readsAs ht).eq_of_text_eq hu (stopsAt_nil _)

/-- Two tables of a target that is named like the word for primaries, filled by different steps: one
of them validates and holds what a copy of an older table was told. -/
theorem records_eq_of_render_eq_at_primary :
    let r : Resolver := ⟨fun _ => some ⟨.ofName "Nullable"⟩, .empty⟩
    let targets : List Target := [⟨"T", "Box"⟩, ⟨"primary", "Box"⟩]
    let list : AnnotatedType := ⟨"List", [⟨"primary", [], []⟩], [.ofName "NonNull"]⟩
    let toTarget := Request.relateTarget .equality ⟨"T", "Box"⟩ ⟨"primary", "Box"⟩
      [⟨.ofName "Nullable"⟩]
    let toType := Request.relateType .equality ⟨"T", "Box"⟩ list []
    let file (names : List String) := Request.filePrimaries .equality ⟨"T", "Box"⟩ r
      (names.map .ofName)
    let steps : List Step := [.create "main" targets .standard, .submit "main" toTarget,
      .submit "main" toType, .submit "main" (file ["NonNull"])]
    let steps' : List Step := [.create "old" targets ⟨true⟩,
      .submit "old" (file ["NonNull", "Nullable"]), .submit "old" toType, .copy "old" "new",
      .submit "new" toTarget, .submit "new" toType]
    let record : Record := ⟨⟨"T", "Box"⟩,
      ⟨.ofKeys [⟨"primary", "Box"⟩] fun _ => .ofList [⟨.ofName "Nullable"⟩],
        .ofKeys [list] fun _ => .empty,
        ⟨.ofKeys [⟨.ofName "Nullable"⟩] fun _ => .ofName "NonNull"⟩⟩, .empty, .empty⟩
    let m : ConstraintTable :=
      ⟨.ofKeys targets fun t => if t.name = "T" then record else .empty t, .standard⟩
    let n : ConstraintTable := ⟨m.records, ⟨true⟩⟩
    (empty.run steps).1.table "main" = some m ∧ (empty.run steps').1.table "new" = some n ∧
      m.Plain ∧ n.Plain ∧ m.render = n.render ∧ m.records = n.records := by
  intro r targets list toTarget toType file steps steps' record m n
  have hm : (empty.run steps).1.table "main" = some m := by decide
  have hn : (empty.run steps').1.table "new" = some n := by decide
  have hT : Target.Plain ⟨"T", "Box"⟩ := ⟨by decide, by decide⟩
  have hprimary : Target.Plain ⟨"primary", "Box"⟩ := ⟨by decide, by decide⟩
  have hnullable : Hierarchy.Plain ⟨.ofName "Nullable"⟩ := ⟨by decide, List.forall_mem_nil _⟩
  have hnonNull : (Qualifier.ofName "NonNull").Plain := ⟨by decide, List.forall_mem_nil _⟩
  have hargument : AnnotatedType.Plain ⟨"primary", [], []⟩ :=
    .mk (by decide) (List.forall_mem_nil _) (List.forall_mem_nil _)
  have hlist : list.Plain :=
    .mk (by decide) (List.forall_mem_singleton.2 hargument) (List.forall_mem_singleton.2 hnonNull)
  have hrecord : record.Plain := by
    refine ⟨hT, fun k => ?_⟩
    cases k with
    | equality =>
      exact ⟨List.forall_mem_singleton.2 ⟨hprimary, List.forall_mem_singleton.2 hnullable⟩,
        List.forall_mem_singleton.2 ⟨hlist, List.forall_mem_nil _⟩,
        List.forall_mem_singleton.2 ⟨hnullable, hnonNull⟩⟩
    | supertype => exact (Record.plain_empty hT).relations .supertype
    | subtype => exact (Record.plain_empty hT).relations .subtype
  have hplain : m.Plain :=
    List.forall_mem_cons.2 ⟨hrecord, List.forall_mem_singleton.2 (Record.plain_empty hprimary)⟩
  exact ⟨hm, hn, hplain, hplain, rfl,
    (records_eq_of_render_eq.1 steps steps' "main" "new" m n hm hn hplain hplain rfl).2⟩

end Workspace
end QualifierConstraints
