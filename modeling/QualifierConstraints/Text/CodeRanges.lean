set_option autoImplicit false

namespace QualifierConstraints.Text

/-- Each range has a member, and at least one code point lies between two of them. -/
def isAscending : List (Nat × Nat) → Bool
  | [] => true
  | [r] => decide (r.1 ≤ r.2)
  | r :: s :: rest => decide (r.1 ≤ r.2) && decide (r.2 + 1 < s.1) && isAscending (s :: rest)

/-- One of the ranges, which are in ascending order, has the number. The look-up stops at the first
range that starts beyond it. -/
def inRanges : List (Nat × Nat) → Nat → Bool
  | [], _ => false
  | r :: rest, n => decide (r.1 ≤ n) && (decide (n ≤ r.2) || inRanges rest n)

theorem isAscending_tail {r : Nat × Nat} {rest : List (Nat × Nat)}
    (h : isAscending (r :: rest) = true) : isAscending rest = true := by
  cases rest with
  | nil => rfl
  | cons s rest =>
    simp only [isAscending, Bool.and_eq_true] at h
    exact h.2

theorem first_le_of_mem {r : Nat × Nat} {rest : List (Nat × Nat)}
    (h : isAscending (r :: rest) = true) : ∀ s ∈ rest, r.1 ≤ s.1 := by
  induction rest generalizing r with
  | nil => simp
  | cons t rest ih =>
    intro s hs
    have hrt : r.1 ≤ r.2 ∧ r.2 + 1 < t.1 := by
      simp only [isAscending, Bool.and_eq_true, decide_eq_true_eq] at h
      exact h.1
    rcases List.mem_cons.1 hs with rfl | hs
    · omega
    · have := ih (isAscending_tail h) s hs
      omega

theorem inRanges_iff {ranges : List (Nat × Nat)} {n : Nat} (h : isAscending ranges = true) :
    inRanges ranges n = true ↔ ∃ r ∈ ranges, r.1 ≤ n ∧ n ≤ r.2 := by
  induction ranges with
  | nil => simp [inRanges]
  | cons r rest ih =>
    have hr := first_le_of_mem h
    simp only [inRanges, Bool.and_eq_true, Bool.or_eq_true, decide_eq_true_eq, List.mem_cons,
      exists_eq_or_imp, ih (isAscending_tail h)]
    constructor
    · rintro ⟨h₁, h₂ | h₂⟩
      · exact .inl ⟨h₁, h₂⟩
      · exact .inr h₂
    · rintro (h₁ | ⟨s, hs, h₁, h₂⟩)
      · exact ⟨h₁.1, .inl h₁.2⟩
      · exact ⟨Nat.le_trans (hr s hs) h₁, .inr ⟨s, hs, h₁, h₂⟩⟩

theorem inRanges_between {r s : Nat × Nat} {rest : List (Nat × Nat)} {n : Nat} (hr : r.2 < n)
    (hs : n < s.1) : inRanges (r :: s :: rest) n = false := by
  simp [inRanges, Nat.not_le.2 hr, Nat.not_le.2 hs]

theorem inRanges_below {r : Nat × Nat} {rest : List (Nat × Nat)} {n : Nat} (hr : n < r.1) :
    inRanges (r :: rest) n = false := by
  simp [inRanges, Nat.not_le.2 hr]

end QualifierConstraints.Text
