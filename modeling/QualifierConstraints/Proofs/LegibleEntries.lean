import QualifierConstraints.Proofs.History
import QualifierConstraints.Proofs.LegibleValues

set_option autoImplicit false

namespace QualifierConstraints

open Text

/-- One thing that a record says about its target, apart from the kind of relation. -/
inductive Entry where
  | target (related : Target × OrderedSet Hierarchy)
  | type (related : AnnotatedType × OrderedSet Hierarchy)
  | equality (filed : Hierarchy × Qualifier)
  | bound (filed : Hierarchy × OrderedSet Qualifier)

inductive Shape where
  | target
  | type
  | equality
  | bound

namespace Shape

def afterName : List Char → Shape
  | '@' :: _ => target
  | ' ' :: '@' :: _ => equality
  | ' ' :: '\x7b' :: _ => bound
  | _ => type

/-- What a phrase is about, by its first characters: only a type with qualifiers begins with an at
sign, and everything else begins with a name. -/
def ofText (s : List Char) : Shape :=
  if s.head? = some '@' then type else afterName (s.dropWhile (· ∉ nameMarks))

theorem ofText_name {word : String} (hw : IsName word) {s : List Char} (hs : StopsAt nameMarks s) :
    ofText (word.toList ++ s) = afterName s := by
  rw [ofText, if_neg (hw.head?_ne (by decide) s), dropWhile_word hw.2 hs]

end Shape

namespace Entry

def phrase : Entry → String
  | .target e => e.1.render ++ " in " ++ Relations.hierarchiesPhrase e.2
  | .type e => e.1.render ++ " in " ++ Relations.hierarchiesPhrase e.2
  | .equality e => "primary " ++ e.2.render ++ " in " ++ e.1.render
  | .bound e =>
    "primary " ++ listed "\x7b" "\x7d" (e.2.toList.map Qualifier.render) ++ " in " ++ e.1.render

def Plain : Entry → Prop
  | .target e => e.1.Plain ∧ ∀ h ∈ e.2, h.Plain
  | .type e => e.1.Plain ∧ ∀ h ∈ e.2, h.Plain
  | .equality e => e.1.Plain ∧ e.2.Plain
  | .bound e => e.1.Plain ∧ ∀ q ∈ e.2, q.Plain

def shape : Entry → Shape
  | .target _ => .target
  | .type _ => .type
  | .equality _ => .equality
  | .bound _ => .bound

theorem ofText_primary (s : List Char) :
    Shape.ofText ("primary ".toList ++ s) = Shape.afterName (' ' :: s) :=
  Shape.ofText_name (by decide : IsName "primary") (stopsAt_cons (by decide) s)

theorem ofText_type {t : AnnotatedType} (ht : t.Plain) (s : List Char) :
    Shape.ofText (t.render.toList ++ (" in ".toList ++ s)) = .type := by
  obtain ⟨hname, -, -⟩ := ht
  rename_i name arguments qualifiers
  rw [AnnotatedType.render_eq]
  cases qualifiers with
  | nil =>
    simp only [List.map_nil, String.join_nil, String.empty_append, String.toList_append,
      List.append_assoc]
    rw [Shape.ofText_name hname (stopsAt_bracketed rfl (by decide)
      (stopsAt_text rfl (by decide) _) _)]
    cases arguments with
    | nil => rfl
    | cons a as => simp [bracketed, listed, Shape.afterName]
  | cons q qs => simp [Qualifier.render, Shape.ofText]

theorem ofText_phrase {e : Entry} (he : e.Plain) (s : List Char) :
    Shape.ofText (e.phrase.toList ++ s) = e.shape := by
  cases e with
  | target e =>
    simp only [phrase, Target.render, String.toList_append, List.append_assoc]
    exact Shape.ofText_name he.1.name (stopsAt_text rfl (by decide) _)
  | type e =>
    simp only [phrase, String.toList_append, List.append_assoc]
    exact ofText_type he.1 _
  | equality e =>
    simp only [phrase, Qualifier.render, String.toList_append, List.append_assoc]
    exact ofText_primary _
  | bound e =>
    simp only [phrase, listed, String.toList_append, List.append_assoc]
    exact ofText_primary _

/-- The same word begins phrases of all four shapes. -/
example : ["primary@Box in \x7b\x7d", "primary in \x7b\x7d", "primary @NonNull in @Nullable",
    "primary \x7b@NonNull\x7d in @Nullable"].map (fun phrase => Shape.ofText phrase.toList) =
      [.target, .type, .equality, .bound] := rfl

end Entry

theorem OrderedSet.readsAs_listed {α : Type} {text : α → String} {admits : α → Prop}
    {follows : List Char → Prop} (h : Listable text admits follows '\x7d')
    (hread : ∀ a, admits a → ReadsAs text admits follows a) {set : OrderedSet α}
    (hset : ∀ a ∈ set, admits a) :
    ReadsAs (fun set : OrderedSet α => listed "\x7b" "\x7d" (set.toList.map text))
      (fun set => ∀ a ∈ set, admits a) (fun _ => True) set := by
  intro other s s' hother _ _ htext
  obtain ⟨hitems, hrest⟩ := h.readsAs_listed rfl hset (fun a ha => hread a (hset a ha)) hother
    trivial trivial htext
  exact ⟨OrderedSet.ext hitems, hrest⟩

theorem Relations.readsAs_hierarchiesPhrase {hs : OrderedSet Hierarchy} (h : ∀ h ∈ hs, h.Plain) :
    ReadsAs hierarchiesPhrase (fun hs => ∀ h ∈ hs, h.Plain) (fun _ => True) hs :=
  OrderedSet.readsAs_listed Hierarchy.listable_render (fun _ => Hierarchy.Plain.readsAs) h

def LineEnd (s : List Char) : Prop := StopsAt ['\n'] s

namespace Entry

section Phrases

variable {α : Type} {text : α → String} {admits : α → Prop} {follows : List Char → Prop}

theorem readsAs_related (hin : ∀ s, follows (" in ".toList ++ s)) {e : α × OrderedSet Hierarchy}
    (hread : ReadsAs text admits follows e.1) (hset : ∀ h ∈ e.2, h.Plain) :
    ReadsAs (fun e => text e.1 ++ " in " ++ Relations.hierarchiesPhrase e.2)
      (fun e => admits e.1 ∧ ∀ h ∈ e.2, h.Plain) LineEnd e := by
  intro f s s' hf _ _ h
  simp only [String.toList_append, List.append_assoc] at h
  obtain ⟨hother, h⟩ := hread hf.1 (hin _) (hin _) h
  obtain ⟨hhierarchies, hrest⟩ := Relations.readsAs_hierarchiesPhrase hset hf.2 trivial trivial
    (List.append_cancel_left h)
  exact ⟨Prod.ext hother hhierarchies, hrest⟩

theorem readsAs_filed (hin : ∀ s, follows (" in ".toList ++ s)) {e : Hierarchy × α}
    (hread : ReadsAs text admits follows e.2) (hplain : e.1.Plain) :
    ReadsAs (fun e => "primary " ++ text e.2 ++ " in " ++ e.1.render)
      (fun e => e.1.Plain ∧ admits e.2) LineEnd e := by
  intro f s s' hf hs hs' h
  simp only [String.toList_append, List.append_assoc] at h
  obtain ⟨hfiled, h⟩ := hread hf.2 (hin _) (hin _) (List.append_cancel_left h)
  obtain ⟨hhierarchy, hrest⟩ := hplain.readsAs hf.1 (hs.mono (by decide)) (hs'.mono (by decide))
    (List.append_cancel_left h)
  exact ⟨Prod.ext hhierarchy hfiled, hrest⟩

end Phrases

theorem Plain.readsAs {e : Entry} (he : e.Plain) : ReadsAs phrase Plain LineEnd e := by
  intro f s s' hf hs hs' h
  have hshape : e.shape = f.shape := by
    rw [← ofText_phrase he s, h, ofText_phrase hf]
  -- Only phrases of the same shape are left to compare.
  cases e <;> cases f <;> cases hshape
  case target.target e f =>
    obtain ⟨rfl, hrest⟩ := readsAs_related (stopsAt_text rfl (by decide)) he.1.readsAs he.2
      hf hs hs' h
    exact ⟨rfl, hrest⟩
  case type.type e f =>
    obtain ⟨rfl, hrest⟩ := readsAs_related (stopsAt_text rfl (by decide)) he.1.readsAs he.2
      hf hs hs' h
    exact ⟨rfl, hrest⟩
  case equality.equality e f =>
    obtain ⟨rfl, hrest⟩ := readsAs_filed (stopsAt_text rfl (by decide)) he.2.readsAs he.1
      hf hs hs' h
    exact ⟨rfl, hrest⟩
  case bound.bound e f =>
    have hset := OrderedSet.readsAs_listed Qualifier.listable_render
      (fun _ => Qualifier.Plain.readsAs) he.2
    obtain ⟨rfl, hrest⟩ := readsAs_filed (fun _ => trivial) hset he.1 hf hs hs' h
    exact ⟨rfl, hrest⟩

end Entry

theorem Entry.eq_of_map_append_eq {α : Type} {make : α → Entry} (hmake : Function.Injective make)
    {shape : Shape} (hshape : ∀ a, (make a).shape = shape) {xs ys : List α} {es fs : List Entry}
    (hes : ∀ e ∈ es, e.shape ≠ shape) (hfs : ∀ e ∈ fs, e.shape ≠ shape)
    (h : xs.map make ++ es = ys.map make ++ fs) : xs = ys ∧ es = fs := by
  induction xs generalizing ys with
  | nil =>
    cases ys with
    | nil => exact ⟨rfl, h⟩
    | cons y ys =>
      obtain rfl : es = make y :: (ys.map make ++ fs) := h
      exact absurd (hshape y) (hes _ List.mem_cons_self)
  | cons x xs ih =>
    cases ys with
    | nil =>
      obtain rfl : make x :: (xs.map make ++ es) = fs := h
      exact absurd (hshape x) (hfs _ List.mem_cons_self)
    | cons y ys =>
      obtain ⟨hhead, htail⟩ := List.cons.inj h
      obtain ⟨rfl, rfl⟩ := ih htail
      exact ⟨congrArg (· :: xs) (hmake hhead), rfl⟩

namespace Kind

def primaryEntries : (k : Kind) → k.Primaries → List Entry
  | .equality, p => p.byHierarchy.entries.map .equality
  | .supertype, p => p.byHierarchy.entries.map .bound
  | .subtype, p => p.byHierarchy.entries.map .bound

theorem map_phrase_primaryEntries (k : Kind) (p : k.Primaries) :
    (k.primaryEntries p).map Entry.phrase = PrimaryStore.phrases p := by
  cases k <;> exact List.map_map

theorem isEmpty_primaryEntries (k : Kind) (p : k.Primaries) :
    (k.primaryEntries p).isEmpty = PrimaryStore.isEmpty p := by
  cases k <;> exact List.isEmpty_map

theorem shape_of_mem_primaryEntries (k : Kind) {p : k.Primaries} {e : Entry}
    (h : e ∈ k.primaryEntries p) : e.shape ≠ .target ∧ e.shape ≠ .type := by
  cases k <;>
  · obtain ⟨_, _, rfl⟩ := List.mem_map.1 h
    exact ⟨nofun, nofun⟩

theorem eq_of_primaryEntries_eq (k : Kind) {p r : k.Primaries}
    (h : k.primaryEntries p = k.primaryEntries r) : p = r := by
  have hequality : Function.Injective Entry.equality := fun _ _ => Entry.equality.inj
  have hbound : Function.Injective Entry.bound := fun _ _ => Entry.bound.inj
  cases k with
  | equality => exact congrArg PrimaryEqualities.mk (OrderedMap.ext (hequality.list_map h))
  | supertype => exact congrArg PrimaryBounds.mk (OrderedMap.ext (hbound.list_map h))
  | subtype => exact congrArg PrimaryBounds.mk (OrderedMap.ext (hbound.list_map h))

end Kind

namespace Relations

variable {k : Kind}

def entries (r : Relations k.Primaries) : List Entry :=
  r.targets.entries.map .target ++ (r.types.entries.map .type ++ k.primaryEntries r.primaries)

theorem map_phrase_entries (r : Relations k.Primaries) :
    r.entries.map Entry.phrase = r.phrases := by
  rw [entries, List.map_append, List.map_append, List.map_map, List.map_map,
    Kind.map_phrase_primaryEntries, ← List.append_assoc]
  rfl

theorem isEmpty_entries (r : Relations k.Primaries) : r.entries.isEmpty = r.isEmpty := by
  rw [isEmpty, ← Kind.isEmpty_primaryEntries, OrderedMap.isEmpty, OrderedMap.isEmpty,
    Bool.eq_iff_iff]
  simp [entries, List.isEmpty_iff, and_assoc]

theorem shape_of_mem_laterEntries {r : Relations k.Primaries} {e : Entry}
    (h : e ∈ r.types.entries.map .type ++ k.primaryEntries r.primaries) : e.shape ≠ .target := by
  obtain he | he := List.mem_append.1 h
  · obtain ⟨_, _, rfl⟩ := List.mem_map.1 he
    exact nofun
  · exact (k.shape_of_mem_primaryEntries he).1

theorem eq_of_entries_eq {r s : Relations k.Primaries} (h : r.entries = s.entries) : r = s := by
  obtain ⟨htargets, hlater⟩ := Entry.eq_of_map_append_eq (fun _ _ => Entry.target.inj)
    (fun _ => rfl) (fun _ => shape_of_mem_laterEntries) (fun _ => shape_of_mem_laterEntries) h
  obtain ⟨htypes, hprimary⟩ := Entry.eq_of_map_append_eq (fun _ _ => Entry.type.inj)
    (fun _ => rfl) (fun _ he => (k.shape_of_mem_primaryEntries he).2)
    (fun _ he => (k.shape_of_mem_primaryEntries he).2) hlater
  obtain ⟨targets, types, primaries⟩ := r
  obtain ⟨targets', types', primaries'⟩ := s
  obtain rfl : targets = targets' := OrderedMap.ext htargets
  obtain rfl : types = types' := OrderedMap.ext htypes
  obtain rfl : primaries = primaries' := k.eq_of_primaryEntries_eq hprimary
  rfl

end Relations

end QualifierConstraints
