import Mathlib.Data.List.Basic
import QualifierConstraints.Text.Quoted

/-!
# Legible texts

When a value can be read back from its text although more text follows it. `ReadsAs` says so of one
value, so that for nested values it can be proved by induction on the value: the texts of its parts
are read one after the other, and each part needs to know what may come next. Three ways to build
texts keep it: a word before an end mark, one text after another, and items with a separator.
-/

set_option autoImplicit false

namespace QualifierConstraints
namespace Text

/-- No other admitted value has this text, whatever comes next, as long as it is something that may
follow; and the text that follows is the same. -/
def ReadsAs {α : Type} (text : α → String) (admits : α → Prop) (follows : List Char → Prop)
    (a : α) : Prop :=
  ∀ ⦃b s s'⦄, admits b → follows s → follows s' →
    (text a).toList ++ s = (text b).toList ++ s' → a = b ∧ s = s'

def Avoids (marks : List Char) (word : String) : Prop := ∀ c ∈ word.toList, c ∉ marks

/-- The text is over or goes on with one of the marks. -/
def StopsAt (marks : List Char) (s : List Char) : Prop := ∀ c ∈ s.head?, c ∈ marks

instance (marks : List Char) (word : String) : Decidable (Avoids marks word) :=
  List.decidableBAll (· ∉ marks) word.toList

theorem stopsAt_nil (marks : List Char) : StopsAt marks [] := by
  intro c hc
  cases hc

theorem stopsAt_cons {marks : List Char} {c : Char} (h : c ∈ marks) (s : List Char) :
    StopsAt marks (c :: s) := by
  intro d hd
  rwa [← Option.some.inj hd]

theorem stopsAt_text {marks : List Char} {text : String} {c : Char} {cs : List Char}
    (htext : text.toList = c :: cs) (h : c ∈ marks) (s : List Char) :
    StopsAt marks (text.toList ++ s) := by
  rw [htext]
  exact stopsAt_cons h _

theorem StopsAt.mono {marks more : List Char} {s : List Char} (h : StopsAt marks s)
    (hsub : marks ⊆ more) : StopsAt more s :=
  fun c hc => hsub (h c hc)

theorem StopsAt.head?_ne {marks : List Char} {s : List Char} (h : StopsAt marks s) {c : Char}
    (hc : c ∉ marks) : s.head? ≠ some c :=
  fun hs => hc (h c hs)

section Words

variable {marks : List Char} {word : String} {s : List Char}

theorem takeWhile_word (hw : Avoids marks word) (hs : StopsAt marks s) :
    (word.toList ++ s).takeWhile (· ∉ marks) = word.toList := by
  have hrest : s.takeWhile (· ∉ marks) = [] := by
    cases s with
    | nil => rfl
    | cons c s => exact List.takeWhile_cons_of_neg (by simpa using hs c rfl)
  rw [List.takeWhile_append_of_pos fun c hc => decide_eq_true (hw c hc), hrest, List.append_nil]

theorem dropWhile_word (hw : Avoids marks word) (hs : StopsAt marks s) :
    (word.toList ++ s).dropWhile (· ∉ marks) = s := by
  have h := List.takeWhile_append_dropWhile (p := (· ∉ marks)) (l := word.toList ++ s)
  rw [takeWhile_word hw hs] at h
  exact List.append_cancel_left h

theorem readsAs_word (hw : Avoids marks word) : ReadsAs id (Avoids marks) (StopsAt marks) word := by
  intro other s s' ho hs hs' h
  have hword : word.toList = other.toList := by
    rw [← takeWhile_word hw hs, ← takeWhile_word ho hs']
    exact congrArg _ h
  refine ⟨String.toList_inj.1 hword, ?_⟩
  rw [id, id, hword] at h
  exact List.append_cancel_left h

end Words

section Rows

variable {α : Type} {text : α → String} {admits : α → Prop} {follows ends : List Char → Prop}

theorem ReadsAs.eq_of_text_eq {a b : α} (h : ReadsAs text admits follows a) (hb : admits b)
    (hend : follows []) (htext : text a = text b) : a = b :=
  (h hb hend hend (by rw [htext])).1

theorem ReadsAs.after (lead : String) {a : α} (h : ReadsAs text admits follows a) :
    ReadsAs (fun a => lead ++ text a) admits follows a := by
  intro b s s' hb hs hs' htext
  simp only [String.toList_append, List.append_assoc] at htext
  exact h hb hs hs' (List.append_cancel_left htext)

/-- What the items of a row need from each other: an item may be followed by the next one and by
the end of the row, and the end is never taken for one more item. -/
structure Row (text : α → String) (admits : α → Prop) (follows ends : List Char → Prop) : Prop where
  next : ∀ a s, admits a → follows ((text a).toList ++ s)
  last : ∀ s, ends s → follows s
  stop : ∀ a s, admits a → ¬ ends ((text a).toList ++ s)

theorem Row.follows_join (h : Row text admits follows ends) {as : List α}
    (has : ∀ a ∈ as, admits a) {s : List Char} (hs : ends s) :
    follows ((String.join (as.map text)).toList ++ s) := by
  cases as with
  | nil => simpa using h.last s hs
  | cons a as =>
    rw [List.map_cons, String.join_cons, String.toList_append, List.append_assoc]
    exact h.next a _ (has a List.mem_cons_self)

theorem Row.eq_nil_of_ends (h : Row text admits follows ends) {as : List α}
    (has : ∀ a ∈ as, admits a) {s : List Char}
    (hs : ends ((String.join (as.map text)).toList ++ s)) : as = [] := by
  cases as with
  | nil => rfl
  | cons a as =>
    rw [List.map_cons, String.join_cons, String.toList_append, List.append_assoc] at hs
    exact absurd hs (h.stop a _ (has a List.mem_cons_self))

theorem Row.readsAs_join (h : Row text admits follows ends) {as : List α}
    (has : ∀ a ∈ as, admits a) (hread : ∀ a ∈ as, ReadsAs text admits follows a) :
    ReadsAs (fun as => String.join (as.map text)) (fun as => ∀ a ∈ as, admits a) ends as := by
  induction as with
  | nil =>
    intro bs s s' hbs hs hs' htext
    simp only [List.map_nil, String.join_nil, String.toList_empty, List.nil_append] at htext
    obtain rfl := h.eq_nil_of_ends hbs (htext ▸ hs)
    exact ⟨rfl, htext⟩
  | cons a as ih =>
    intro bs s s' hbs hs hs' htext
    cases bs with
    | nil =>
      simp only [List.map_nil, String.join_nil, String.toList_empty, List.nil_append] at htext
      cases h.eq_nil_of_ends has (htext ▸ hs')
    | cons b bs =>
      rw [List.forall_mem_cons] at has hread hbs
      simp only [List.map_cons, String.join_cons, String.toList_append, List.append_assoc] at htext
      obtain ⟨rfl, hrest⟩ := hread.1 hbs.1 (h.follows_join has.2 hs) (h.follows_join hbs.2 hs')
        htext
      obtain ⟨rfl, hs⟩ := ih has.2 hread.2 hbs.2 hs hs' hrest
      exact ⟨rfl, hs⟩

variable {separator : String}

theorem intercalate_cons (a : α) (as : List α) :
    String.intercalate separator ((a :: as).map text) =
      text a ++ String.join (as.map fun a => separator ++ text a) := by
  induction as generalizing a with
  | nil => simp
  | cons b as ih =>
    rw [List.map_cons, String.intercalate_cons_of_ne_nil (by simp), ih b, List.map_cons,
      String.join_cons, String.append_assoc, String.append_assoc]

theorem no_items_of_ends (hfirst : ∀ a s, admits a → ¬ ends ((text a).toList ++ s)) {as : List α}
    (has : ∀ a ∈ as, admits a) {s : List Char}
    (hs : ends ((String.intercalate separator (as.map text)).toList ++ s)) : as = [] := by
  cases as with
  | nil => rfl
  | cons a as =>
    rw [intercalate_cons, String.toList_append, List.append_assoc] at hs
    exact absurd hs (hfirst a _ (has a List.mem_cons_self))

/-- Items with a separator: the first item, and a row of the others with the separator before
each. -/
theorem Row.readsAs_intercalate (h : Row (fun a => separator ++ text a) admits follows ends)
    (hfirst : ∀ a s, admits a → ¬ ends ((text a).toList ++ s)) {as : List α}
    (has : ∀ a ∈ as, admits a) (hread : ∀ a ∈ as, ReadsAs text admits follows a) :
    ReadsAs (fun as => String.intercalate separator (as.map text)) (fun as => ∀ a ∈ as, admits a)
      ends as := by
  intro bs s s' hbs hs hs' htext
  cases as with
  | nil =>
    simp only [List.map_nil, String.intercalate_nil, String.toList_empty, List.nil_append] at htext
    obtain rfl := no_items_of_ends hfirst hbs (htext ▸ hs)
    exact ⟨rfl, htext⟩
  | cons a as =>
    cases bs with
    | nil =>
      simp only [List.map_nil, String.intercalate_nil, String.toList_empty,
        List.nil_append] at htext
      cases no_items_of_ends hfirst has (htext ▸ hs')
    | cons b bs =>
      rw [List.forall_mem_cons] at has hread hbs
      simp only [intercalate_cons, String.toList_append, List.append_assoc] at htext
      obtain ⟨rfl, hrest⟩ := hread.1 hbs.1 (h.follows_join has.2 hs) (h.follows_join hbs.2 hs')
        htext
      have hlater : ∀ a ∈ as, ReadsAs (fun a => separator ++ text a) admits follows a :=
        fun a ha => (hread.2 a ha).after separator
      obtain ⟨rfl, hs⟩ := h.readsAs_join has.2 hlater hbs.2 hs hs' hrest
      exact ⟨rfl, hs⟩

variable {opening closing : String} {c d : Char}

/-- What items need to be listed up to the bracket `c`: each may be followed by a comma and by the
bracket, and none begins with the bracket. -/
structure Listable (text : α → String) (admits : α → Prop) (follows : List Char → Prop)
    (c : Char) : Prop where
  comma : ∀ s, follows (',' :: s)
  bracket : ∀ s, follows (c :: s)
  ne_comma : c ≠ ','
  first : ∀ a s, admits a → ((text a).toList ++ s).head? ≠ some c

theorem Listable.row (h : Listable text admits follows c) :
    Row (fun a => ", " ++ text a) admits follows (·.head? = some c) where
  next a s _ := by
    rw [String.toList_append, List.append_assoc]
    exact h.comma _
  last s hs := by
    obtain ⟨rest, rfl⟩ := List.head?_eq_some_iff.1 hs
    exact h.bracket rest
  stop a s _ hs := by
    rw [String.toList_append, List.append_assoc] at hs
    exact h.ne_comma (Option.some.inj hs).symm

theorem Listable.readsAs_listed (h : Listable text admits follows c) (hc : closing.toList = [c])
    {as : List α} (has : ∀ a ∈ as, admits a) (hread : ∀ a ∈ as, ReadsAs text admits follows a) :
    ReadsAs (fun as => listed opening closing (as.map text)) (fun as => ∀ a ∈ as, admits a)
      (fun _ => True) as := by
  intro bs s s' hbs _ _ htext
  simp only [listed, String.toList_append, List.append_assoc, hc] at htext
  obtain ⟨rfl, hs⟩ := h.row.readsAs_intercalate h.first has hread hbs rfl rfl
    (List.append_cancel_left htext)
  exact ⟨rfl, List.append_cancel_left hs⟩

/-- Nothing at all for no items. -/
def bracketed (opening closing : String) (items : List String) : String :=
  if items.isEmpty then "" else listed opening closing items

theorem head?_listed (hd : opening.toList = [d]) (items : List String) (s : List Char) :
    ((listed opening closing items).toList ++ s).head? = some d := by
  simp [listed, hd]

theorem stopsAt_bracketed (hd : opening.toList = [d]) {marks : List Char} (hmem : d ∈ marks)
    {s : List Char} (hs : StopsAt marks s) (items : List String) :
    StopsAt marks ((bracketed opening closing items).toList ++ s) := by
  cases items with
  | nil => exact hs
  | cons item items =>
    intro c hc
    rw [bracketed, List.isEmpty_cons, if_neg Bool.false_ne_true, head?_listed hd] at hc
    rwa [← Option.some.inj hc]

theorem Listable.readsAs_bracketed (h : Listable text admits follows c)
    (hd : opening.toList = [d]) (hc : closing.toList = [c]) {as : List α}
    (has : ∀ a ∈ as, admits a) (hread : ∀ a ∈ as, ReadsAs text admits follows a) :
    ReadsAs (fun as => bracketed opening closing (as.map text)) (fun as => ∀ a ∈ as, admits a)
      (·.head? ≠ some d) as := by
  intro bs s s' hbs hs hs' htext
  cases as with
  | nil =>
    cases bs with
    | nil => exact ⟨rfl, htext⟩
    | cons b bs =>
      have hs : s = (listed opening closing ((b :: bs).map text)).toList ++ s' := htext
      exact absurd (hs ▸ head?_listed hd _ _) ‹s.head? ≠ some d›
  | cons a as =>
    cases bs with
    | nil =>
      have hs' : (listed opening closing ((a :: as).map text)).toList ++ s = s' := htext
      exact absurd (hs' ▸ head?_listed hd _ _) ‹s'.head? ≠ some d›
    | cons b bs => exact h.readsAs_listed hc has hread hbs trivial trivial htext

end Rows
end Text
end QualifierConstraints
