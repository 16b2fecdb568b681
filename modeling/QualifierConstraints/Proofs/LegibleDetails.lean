import QualifierConstraints.Proofs.Legible
import QualifierConstraints.Qualifier

set_option autoImplicit false

namespace QualifierConstraints

open Text

namespace Text

theorem digitChar_inj : ∀ m < 16, ∀ n < 16, Nat.digitChar m = Nat.digitChar n → m = n := by
  decide

theorem toDigits_inj {m n : Nat} (h : Nat.toDigits 16 m = Nat.toDigits 16 n) : m = n := by
  induction m using Nat.strongRecOn generalizing n with
  | ind m ih =>
    rw [Nat.toDigits_eq_if (n := m) (by decide), Nat.toDigits_eq_if (n := n) (by decide)] at h
    split_ifs at h with hm hn hn
    · exact digitChar_inj m hm n hn (List.singleton_inj.1 h)
    · rw [← List.nil_append [m.digitChar]] at h
      exact absurd (List.append_inj' h rfl).1.symm Nat.toDigits_ne_nil
    · rw [← List.nil_append [n.digitChar]] at h
      exact absurd (List.append_inj' h rfl).1 Nat.toDigits_ne_nil
    · obtain ⟨hquotient, hlast⟩ := List.append_inj' h rfl
      have hquotient := ih (m / 16) (by omega) hquotient
      have hrest := digitChar_inj (m % 16) (Nat.mod_lt m (by decide)) (n % 16)
        (Nat.mod_lt n (by decide)) (List.singleton_inj.1 hlast)
      omega

theorem bracket_not_mem_toDigits (n : Nat) : '\x7d' ∉ Nat.toDigits 16 n := by
  induction n using Nat.strongRecOn with
  | ind n ih =>
    rw [Nat.toDigits_eq_if (by decide)]
    split_ifs with hn
    · rw [List.mem_singleton]
      exact (Nat.digitChar_ne '\x7d' rfl).symm
    · rw [List.mem_append, List.mem_singleton, not_or]
      exact ⟨ih (n / 16) (by omega), (Nat.digitChar_ne '\x7d' rfl).symm⟩

theorem digits_bracket_inj {m n : Nat} {s s' : List Char}
    (h : Nat.toDigits 16 m ++ '\x7d' :: s = Nat.toDigits 16 n ++ '\x7d' :: s') :
    Nat.toDigits 16 m = Nat.toDigits 16 n ∧ s = s' := by
  have havoids : ∀ k, Avoids ['\x7d'] (String.ofList (Nat.toDigits 16 k)) := by
    intro k c hc hbracket
    rw [String.toList_ofList] at hc
    exact bracket_not_mem_toDigits k (List.mem_singleton.1 hbracket ▸ hc)
  obtain ⟨hdigits, hrest⟩ := readsAs_word (havoids m) (havoids n)
    (stopsAt_cons (List.mem_singleton_self _) s) (stopsAt_cons (List.mem_singleton_self _) s')
    (by simpa only [id, String.toList_ofList] using h)
  exact ⟨String.ofList_inj.1 hdigits, (List.cons.inj hrest).2⟩

def shortNames : List (Char × Char) :=
  [('\"', '\"'), ('\\', '\\'), ('\n', 'n'), ('\t', 't'), ('\r', 'r'), ('\x00', '0')]

/-- The three ways to write a character of a quoted text. -/
inductive Escape (c : Char) : List Char → Prop where
  | short (name : Char) (h : (c, name) ∈ shortNames) : Escape c ['\\', name]
  | number : Escape c (['\\', 'u', '\x7b'] ++ Nat.toDigits 16 c.toNat ++ ['\x7d'])
  | plain (hquote : c ≠ '\"') (hbackslash : c ≠ '\\') : Escape c [c]

theorem escape_escapeChar (c : Char) : Escape c (escapeChar c) := by
  unfold escapeChar
  split_ifs with hquote hbackslash hn ht hr hz hnumber
  · exact .short _ (by simp [shortNames, hquote])
  · exact .short _ (by simp [shortNames, hbackslash])
  · exact .short _ (by simp [shortNames, hn])
  · exact .short _ (by simp [shortNames, ht])
  · exact .short _ (by simp [shortNames, hr])
  · exact .short _ (by simp [shortNames, hz])
  · exact .number
  · exact .plain hquote hbackslash

theorem shortNames_inj : ∀ x ∈ shortNames, ∀ y ∈ shortNames, x.2 = y.2 → x.1 = y.1 := by
  decide

theorem shortNames_ne_u : ∀ x ∈ shortNames, x.2 ≠ 'u' := by
  decide

/-- A character is known from how it is written, whatever comes next. -/
theorem Escape.inj {c d : Char} {cs ds s s' : List Char} (hc : Escape c cs) (hd : Escape d ds)
    (h : cs ++ s = ds ++ s') : c = d ∧ s = s' := by
  cases hc with
  | short name hname =>
    cases hd with
    | short other hother =>
      simp only [List.cons_append, List.nil_append, List.cons.injEq, true_and] at h
      exact ⟨shortNames_inj _ hname _ hother h.1, h.2⟩
    | number =>
      simp only [List.cons_append, List.cons.injEq, true_and] at h
      exact absurd h.1 (shortNames_ne_u _ hname)
    | plain _ hbackslash => exact absurd (List.cons.inj h).1.symm hbackslash
  | number =>
    cases hd with
    | short other hother =>
      simp only [List.cons_append, List.cons.injEq, true_and] at h
      exact absurd h.1.symm (shortNames_ne_u _ hother)
    | number =>
      simp only [List.append_assoc, List.cons_append, List.nil_append, List.cons.injEq,
        true_and] at h
      obtain ⟨hdigits, hrest⟩ := digits_bracket_inj h
      exact ⟨Char.toNat_inj.1 (toDigits_inj hdigits), hrest⟩
    | plain _ hbackslash => exact absurd (List.cons.inj h).1.symm hbackslash
  | plain _ hbackslash =>
    cases hd with
    | short | number => exact absurd (List.cons.inj h).1 hbackslash
    | plain => exact List.cons.inj h

theorem Escape.head?_ne {c : Char} {cs : List Char} (h : Escape c cs) (s : List Char) :
    (cs ++ s).head? ≠ some '\"' := by
  cases h with
  | short | number => simp
  | plain hquote => simpa using hquote

/-- The closing quote is found, and the characters before it are known. -/
theorem flatMap_escapeChar_inj {cs ds s s' : List Char}
    (h : cs.flatMap escapeChar ++ '\"' :: s = ds.flatMap escapeChar ++ '\"' :: s') :
    cs = ds ∧ s = s' := by
  induction cs generalizing ds with
  | nil =>
    cases ds with
    | nil => exact ⟨rfl, (List.cons.inj h).2⟩
    | cons d ds =>
      rw [List.flatMap_cons, List.append_assoc] at h
      exact absurd (congrArg List.head? h).symm ((escape_escapeChar d).head?_ne _)
  | cons c cs ih =>
    rw [List.flatMap_cons, List.append_assoc] at h
    cases ds with
    | nil => exact absurd (congrArg List.head? h) ((escape_escapeChar c).head?_ne _)
    | cons d ds =>
      rw [List.flatMap_cons, List.append_assoc] at h
      obtain ⟨rfl, hrest⟩ := (escape_escapeChar c).inj (escape_escapeChar d) h
      obtain ⟨rfl, hs⟩ := ih hrest
      exact ⟨rfl, hs⟩

theorem readsAs_quoted (word : String) :
    ReadsAs quoted (fun _ => True) (fun _ => True) word := by
  intro other s s' _ _ _ h
  simp only [quoted, String.toList_append, String.toList_ofList, List.append_assoc] at h
  obtain ⟨hchars, hs⟩ := flatMap_escapeChar_inj (List.append_cancel_left h)
  exact ⟨String.toList_inj.1 hchars, hs⟩

theorem listable_quoted : Listable quoted (fun _ => True) (fun _ => True) ']' where
  comma _ := trivial
  bracket _ := trivial
  ne_comma := by decide
  first word s _ := by simp [quoted]

theorem readsAs_quoted_list (words : List String) :
    ReadsAs (fun words => listed "[" "]" (words.map quoted)) (∀ word ∈ ·, True) (fun _ => True)
      words :=
  listable_quoted.readsAs_listed rfl (fun _ _ => trivial) fun word _ => readsAs_quoted word

end Text

theorem Qualifier.readsAs_detail (q : Qualifier) :
    ReadsAs detail (fun _ => True) (fun _ => True) q := by
  intro r s s' _ _ _ h
  unfold detail at h
  simp only [String.toList_append, List.append_assoc] at h
  obtain ⟨hname, h⟩ := readsAs_quoted q.name trivial trivial trivial (List.append_cancel_left h)
  obtain ⟨harguments, h⟩ := readsAs_quoted_list q.arguments (fun _ _ => trivial) trivial trivial
    (List.append_cancel_left h)
  exact ⟨congrArg₂ Qualifier.mk hname harguments, List.append_cancel_left h⟩

namespace Hierarchy

theorem readsAs_detail (h : Hierarchy) :
    ReadsAs detail (fun _ => True) (fun _ => True) h := by
  intro g s s' _ _ _ htext
  unfold detail at htext
  simp only [String.toList_append, List.append_assoc] at htext
  obtain ⟨htop, hrest⟩ := h.top.readsAs_detail trivial trivial trivial
    (List.append_cancel_left htext)
  exact ⟨congrArg Hierarchy.mk htop, List.append_cancel_left hrest⟩

theorem listable_detail : Listable detail (fun _ => True) (fun _ => True) '\x7d' where
  comma _ := trivial
  bracket _ := trivial
  ne_comma := by decide
  first h s _ := by simp [detail]

/-- Whatever names the hierarchies of a list have, the text says which ones they are and in which
order. -/
theorem listed_detail_inj {hs gs : List Hierarchy} :
    listed "\x7b" "\x7d" (hs.map detail) = listed "\x7b" "\x7d" (gs.map detail) ↔ hs = gs := by
  refine ⟨fun h => ?_, fun h => by rw [h]⟩
  exact (listable_detail.readsAs_listed rfl (fun _ _ => trivial)
    fun h _ => h.readsAs_detail).eq_of_text_eq (fun _ _ => trivial) trivial h

end Hierarchy
end QualifierConstraints
