import QualifierConstraints.Types
import QualifierConstraints.Proofs.Legible

set_option autoImplicit false

namespace QualifierConstraints

open Text

namespace Text

def nameMarks : List Char :=
  [' ', '\n', '@', '"', '(', ')', '<', '>', ',', '\x7b', '\x7d']

def IsName (word : String) : Prop := word ≠ "" ∧ Avoids nameMarks word

instance (word : String) : Decidable (IsName word) :=
  inferInstanceAs (Decidable (word ≠ "" ∧ Avoids nameMarks word))

theorem IsName.head?_ne {word : String} (h : IsName word) {mark : Char} (hm : mark ∈ nameMarks)
    (s : List Char) : (word.toList ++ s).head? ≠ some mark := by
  obtain ⟨c, cs, hc⟩ := List.exists_cons_of_ne_nil (mt String.toList_eq_nil_iff.1 h.1)
  have hmem : c ∈ word.toList := by
    rw [hc]
    exact List.mem_cons_self
  rw [hc, List.cons_append, List.head?_cons]
  exact fun hhead => h.2 c hmem (Option.some.inj hhead ▸ hm)

theorem IsName.readsAs {word : String} (h : IsName word) :
    ReadsAs id IsName (StopsAt nameMarks) word :=
  fun _ _ _ ho => readsAs_word h.2 ho.2

end Text

namespace Target

structure Plain (t : Target) : Prop where
  name : IsName t.name
  binding : IsName t.binding

theorem Plain.readsAs {t : Target} (ht : t.Plain) : ReadsAs render Plain (StopsAt nameMarks) t := by
  intro u s s' hu hs hs' h
  simp only [render, String.toList_append, List.append_assoc] at h
  obtain ⟨hname, h⟩ := ht.name.readsAs hu.name (stopsAt_text rfl (by decide) _)
    (stopsAt_text rfl (by decide) _) h
  obtain ⟨hbinding, h⟩ := ht.binding.readsAs hu.binding hs hs' (List.append_cancel_left h)
  exact ⟨congrArg₂ Target.mk hname hbinding, h⟩

end Target

namespace Qualifier

def quote (argument : String) : String := "\"" ++ argument ++ "\""

structure Plain (q : Qualifier) : Prop where
  name : IsName q.name
  arguments : ∀ argument ∈ q.arguments, Avoids ['"'] argument

/-- What may come next after a qualifier: no bracket, for then its arguments would follow. -/
def After (s : List Char) : Prop := StopsAt [' ', '\n', ',', '\x7d'] s

theorem render_eq (q : Qualifier) :
    q.render = "@" ++ q.name ++ bracketed "(" ")" (q.arguments.map quote) := by
  rw [render, bracketed, List.isEmpty_map]
  rfl

theorem readsAs_quote {argument : String} (h : Avoids ['"'] argument) :
    ReadsAs quote (Avoids ['"']) (fun _ => True) argument := by
  intro other s s' ho _ _ htext
  simp only [quote, String.toList_append, List.append_assoc] at htext
  obtain ⟨rfl, hrest⟩ := readsAs_word h ho (stopsAt_text rfl (by decide) _)
    (stopsAt_text rfl (by decide) _) (List.append_cancel_left htext)
  exact ⟨rfl, List.append_cancel_left hrest⟩

theorem listable_quote : Listable quote (Avoids ['"']) (fun _ => True) ')' where
  comma _ := trivial
  bracket _ := trivial
  ne_comma := by decide
  first argument s _ := by simp [quote]

theorem Plain.readsAs {q : Qualifier} (hq : q.Plain) : ReadsAs render Plain After q := by
  intro r s s' hr hs hs' h
  simp only [render_eq, String.toList_append, List.append_assoc] at h
  obtain ⟨hname, h⟩ := hq.name.readsAs hr.name
    (stopsAt_bracketed rfl (by decide) (hs.mono (by decide)) _)
    (stopsAt_bracketed rfl (by decide) (hs'.mono (by decide)) _) (List.append_cancel_left h)
  obtain ⟨harguments, h⟩ := listable_quote.readsAs_bracketed rfl rfl hq.arguments
    (fun argument ha => readsAs_quote (hq.arguments argument ha)) hr.arguments
    (hs.head?_ne (by decide)) (hs'.head?_ne (by decide)) h
  exact ⟨congrArg₂ Qualifier.mk hname harguments, h⟩

theorem listable_render : Listable render Plain After '\x7d' where
  comma := stopsAt_cons (by decide)
  bracket := stopsAt_cons (by decide)
  ne_comma := by decide
  first q s _ := by simp [render]

end Qualifier

namespace Hierarchy

def Plain (h : Hierarchy) : Prop := h.top.Plain

theorem Plain.readsAs {h : Hierarchy} (hh : h.Plain) :
    ReadsAs render Plain Qualifier.After h := by
  intro g s s' hg hs hs' htext
  obtain ⟨htop, hrest⟩ := Qualifier.Plain.readsAs hh hg hs hs' htext
  exact ⟨congrArg Hierarchy.mk htop, hrest⟩

theorem listable_render : Listable render Plain Qualifier.After '\x7d' where
  comma := Qualifier.listable_render.comma
  bracket := Qualifier.listable_render.bracket
  ne_comma := Qualifier.listable_render.ne_comma
  first h := Qualifier.listable_render.first h.top

end Hierarchy

namespace AnnotatedType

inductive Plain : AnnotatedType → Prop where
  | mk {name : String} {arguments : List AnnotatedType} {qualifiers : List Qualifier}
      (hname : IsName name) (harguments : ∀ a ∈ arguments, Plain a)
      (hqualifiers : ∀ q ∈ qualifiers, q.Plain) : Plain ⟨name, arguments, qualifiers⟩

/-- What may come next after a type: no angle bracket, for then its arguments would follow. -/
def After (s : List Char) : Prop := StopsAt [' ', ',', '>'] s

theorem render_eq (name : String) (arguments : List AnnotatedType) (qualifiers : List Qualifier) :
    render ⟨name, arguments, qualifiers⟩ = String.join (qualifiers.map fun q => q.render ++ " ") ++
      name ++ bracketed "<" ">" (arguments.map render) := by
  cases arguments with
  | nil => rfl
  | cons a as =>
    rw [render, renderAll_eq_map]
    rfl

theorem readsAs_spaced {q : Qualifier} (hq : q.Plain) :
    ReadsAs (fun q => q.render ++ " ") Qualifier.Plain (fun _ => True) q := by
  intro r s s' hr _ _ h
  simp only [String.toList_append, List.append_assoc] at h
  obtain ⟨rfl, hrest⟩ := hq.readsAs hr (stopsAt_text rfl (by decide) _)
    (stopsAt_text rfl (by decide) _) h
  exact ⟨rfl, List.append_cancel_left hrest⟩

/-- The qualifiers end where no at sign comes next. -/
theorem row_spaced :
    Row (fun q => q.render ++ " ") Qualifier.Plain (fun _ => True) (·.head? ≠ some '@') where
  next _ _ _ := trivial
  last _ _ := trivial
  stop q s _ hs := hs (by simp [Qualifier.render])

theorem head?_render_ne {t : AnnotatedType} (ht : t.Plain) (s : List Char) :
    (t.render.toList ++ s).head? ≠ some '>' := by
  obtain ⟨hname, -, -⟩ := ht
  rename_i name arguments qualifiers
  rw [render_eq]
  cases qualifiers with
  | nil =>
    simp only [List.map_nil, String.join_nil, String.empty_append, String.toList_append,
      List.append_assoc]
    exact hname.head?_ne (by decide) _
  | cons q qs => simp [Qualifier.render]

theorem listable_render : Listable render Plain After '>' where
  comma := stopsAt_cons (by decide)
  bracket := stopsAt_cons (by decide)
  ne_comma := by decide
  first _ s ht := head?_render_ne ht s

theorem Plain.readsAs {t : AnnotatedType} (ht : t.Plain) : ReadsAs render Plain After t := by
  -- The induction gives for every argument of `t` that it can be read.
  induction ht with
  | mk hname harguments hqualifiers ih =>
    intro u s s' hu hs hs' h
    obtain ⟨hname', harguments', hqualifiers'⟩ := hu
    simp only [render_eq, String.toList_append, List.append_assoc] at h
    obtain ⟨rfl, hnamed⟩ := row_spaced.readsAs_join hqualifiers
      (fun q hq => readsAs_spaced (hqualifiers q hq)) hqualifiers'
      (hname.head?_ne (by decide) _) (hname'.head?_ne (by decide) _) h
    obtain ⟨rfl, hbracketed⟩ := hname.readsAs hname'
      (stopsAt_bracketed rfl (by decide) (hs.mono (by decide)) _)
      (stopsAt_bracketed rfl (by decide) (hs'.mono (by decide)) _) hnamed
    obtain ⟨rfl, hrest⟩ := listable_render.readsAs_bracketed rfl rfl harguments ih harguments'
      (hs.head?_ne (by decide)) (hs'.head?_ne (by decide)) hbracketed
    exact ⟨rfl, hrest⟩

end AnnotatedType
end QualifierConstraints
