import QualifierConstraints.Text.Unprintable
import QualifierConstraints.Text.JoiningMark

set_option autoImplicit false

namespace QualifierConstraints.Text

/-- Characters that cannot be seen on their own, or that join the one before them. -/
def needsNumber (c : Char) : Bool := isUnprintable c || isJoiningMark c

/-- How a character is written in a quoted text: by a short name after a backslash if it has one, by
its number if it cannot be seen, and otherwise as it is. -/
def escapeChar (c : Char) : List Char :=
  if c = '\"' then ['\\', '\"']
  else if c = '\\' then ['\\', '\\']
  else if c = '\n' then ['\\', 'n']
  else if c = '\t' then ['\\', 't']
  else if c = '\r' then ['\\', 'r']
  else if c = '\x00' then ['\\', '0']
  else if needsNumber c then ['\\', 'u', '\x7b'] ++ Nat.toDigits 16 c.toNat ++ ['\x7d']
  else [c]

def quoted (s : String) : String := "\"" ++ String.ofList (s.toList.flatMap escapeChar) ++ "\""

/-- The items between the brackets, with a comma and a blank between two of them. -/
def listed (left right : String) (items : List String) : String :=
  left ++ String.intercalate ", " items ++ right

theorem escapeChar_of_plain {c : Char} (hq : c ≠ '\"') (hb : c ≠ '\\')
    (hc : needsNumber c = false) : escapeChar c = [c] := by
  have hn : c ≠ '\n' := by rintro rfl; exact absurd hc (by decide)
  have ht : c ≠ '\t' := by rintro rfl; exact absurd hc (by decide)
  have hr : c ≠ '\r' := by rintro rfl; exact absurd hc (by decide)
  have hz : c ≠ '\x00' := by rintro rfl; exact absurd hc (by decide)
  simp [escapeChar, hq, hb, hn, ht, hr, hz, hc]

theorem needsNumber_ascii {c : Char} (h : 32 ≤ c.toNat) (h' : c.toNat < 127) :
    needsNumber c = false := by
  rw [needsNumber, isUnprintable_ascii h h', isJoiningMark_low (by omega), Bool.or_false]

/-- A text of visible ASCII characters and blanks stands as it is, if no quote and no backslash is
among them. -/
theorem quoted_of_plain {s : String} (h : ∀ c ∈ s.toList,
    (32 ≤ c.toNat ∧ c.toNat < 127) ∧ c ≠ '\"' ∧ c ≠ '\\') : quoted s = "\"" ++ s ++ "\"" := by
  have hplain : ∀ cs : List Char, (∀ c ∈ cs, escapeChar c = [c]) → cs.flatMap escapeChar = cs := by
    intro cs hcs
    induction cs with
    | nil => rfl
    | cons c cs ih =>
      rw [List.forall_mem_cons] at hcs
      rw [List.flatMap_cons, hcs.1, ih hcs.2]
      rfl
  rw [quoted, hplain s.toList fun c hc => ?_, String.ofList_toList]
  obtain ⟨⟨hlow, hhigh⟩, hquote, hbackslash⟩ := h c hc
  exact escapeChar_of_plain hquote hbackslash (needsNumber_ascii hlow hhigh)

end QualifierConstraints.Text
