set_option autoImplicit false

namespace QualifierConstraints.Text

/-- The bounds and the middle are counted in units of `2 ^ exponent`; the bounds belong to the
interval if it is closed. -/
structure RoundingInterval where
  low : Nat
  middle : Nat
  high : Nat
  exponent : Int
  closed : Bool
  low_le_middle : low ≤ middle
  middle_lt_high : middle < high

namespace RoundingInterval

/-- The interval of a finite number, given by its bits without the sign. Its unit is a quarter of
the distance to the neighbour above. The neighbour below is half as far away if the number is a
power of two, but for the smallest ones. -/
def ofBits (bits : Nat) : RoundingInterval :=
  let fraction := bits % 0x10000000000000
  let field := bits / 0x10000000000000
  let significand := if field = 0 then fraction else 0x10000000000000 + fraction
  { low := 4 * significand - if fraction = 0 ∧ 1 < field then 1 else 2
    middle := 4 * significand
    high := 4 * significand + 2
    exponent := (max field 1 : Nat) - 1077
    closed := significand % 2 = 0
    low_le_middle := Nat.sub_le _ _
    middle_lt_high := by omega }

/-- The unit of the bounds and the power of ten, as whole numbers of one common unit. -/
def unit (i : RoundingInterval) (k : Int) : Nat :=
  Nat.pow 2 i.exponent.toNat * Nat.pow 10 (-k).toNat

def step (i : RoundingInterval) (k : Int) : Nat :=
  Nat.pow 2 (-i.exponent).toNat * Nat.pow 10 k.toNat

def contains (i : RoundingInterval) (k : Int) (d : Nat) : Bool :=
  if i.closed then
    decide (i.low * i.unit k ≤ d * i.step k) && decide (d * i.step k ≤ i.high * i.unit k)
  else decide (i.low * i.unit k < d * i.step k) && decide (d * i.step k < i.high * i.unit k)

/-- The nearest multiple of `10 ^ k` in the interval, as the factor before the power. -/
def nearestMultiple? (i : RoundingInterval) (k : Int) : Option Nat :=
  let below := i.middle * i.unit k / i.step k
  let nearer :=
    match compare (2 * (i.middle * i.unit k)) ((2 * below + 1) * i.step k) with
    | .lt => below
    | .eq => below + below % 2
    | .gt => below + 1
  if i.contains k below && i.contains k (below + 1) then some nearer
  else if i.contains k below then some below
  else if i.contains k (below + 1) then some (below + 1)
  else none

/-- Exponents from above the largest number down to where every number is a multiple. -/
def exponents : List Int := (List.range 1386).map fun n : Nat => 309 - (n : Int)

def shortest (i : RoundingInterval) : Nat × Int :=
  (exponents.findSome? fun k => (i.nearestMultiple? k).map fun d => (d, k)).getD (0, 0)

theorem unit_pos (i : RoundingInterval) (k : Int) : 0 < i.unit k :=
  Nat.mul_pos (Nat.pow_pos (by decide)) (Nat.pow_pos (by decide))

theorem step_pos (i : RoundingInterval) (k : Int) : 0 < i.step k :=
  Nat.mul_pos (Nat.pow_pos (by decide)) (Nat.pow_pos (by decide))

theorem contains_of_nearestMultiple? {i : RoundingInterval} {k : Int} {d : Nat}
    (h : i.nearestMultiple? k = some d) : i.contains k d = true := by
  simp only [nearestMultiple?] at h
  split at h
  · rename_i both
    rw [Bool.and_eq_true] at both
    split at h
    · cases h; exact both.1
    · cases h
      rcases Nat.mod_two_eq_zero_or_one (i.middle * i.unit k / i.step k) with e | e
      · rw [e]; exact both.1
      · rw [e]; exact both.2
    · cases h; exact both.2
  · split at h
    · cases h; assumption
    · split at h
      · cases h; assumption
      · cases h

theorem contains_between {i : RoundingInterval} {k : Int} {d e : Nat} (h : i.contains k d = true)
    (hl : d * i.step k ≤ e * i.step k ∨ i.low * i.unit k < e * i.step k)
    (hh : e * i.step k ≤ d * i.step k ∨ e * i.step k < i.high * i.unit k) :
    i.contains k e = true := by
  cases hc : i.closed <;>
    simp only [contains, hc, if_true, Bool.false_eq_true, if_false, Bool.and_eq_true,
      decide_eq_true_eq] at h ⊢ <;> omega

theorem nearestMultiple?_isSome_iff (i : RoundingInterval) (k : Int) :
    (i.nearestMultiple? k).isSome = true ↔ ∃ d, i.contains k d = true := by
  constructor
  · intro h
    obtain ⟨d, hd⟩ := Option.isSome_iff_exists.1 h
    exact ⟨d, contains_of_nearestMultiple? hd⟩
  · rintro ⟨d, hd⟩
    have hs := i.step_pos k
    have hmid : i.middle * i.unit k < i.high * i.unit k :=
      Nat.mul_lt_mul_of_pos_right i.middle_lt_high (i.unit_pos k)
    have hlow : i.low * i.unit k ≤ i.middle * i.unit k := Nat.mul_le_mul_right _ i.low_le_middle
    have hdown := Nat.div_mul_le_self (i.middle * i.unit k) (i.step k)
    have hup : i.middle * i.unit k < (i.middle * i.unit k / i.step k + 1) * i.step k := by
      rw [Nat.succ_mul]
      exact Nat.lt_div_mul_add hs
    have hit : i.contains k (i.middle * i.unit k / i.step k) = true ∨
        i.contains k (i.middle * i.unit k / i.step k + 1) = true := by
      rcases Nat.lt_or_ge (i.middle * i.unit k / i.step k) d with hlt | hge
      · exact .inr (contains_between hd (.inr (by omega)) (.inl (Nat.mul_le_mul_right _ hlt)))
      · exact .inl (contains_between hd (.inl (Nat.mul_le_mul_right _ hge)) (.inr (by omega)))
    simp only [nearestMultiple?]
    split
    · rfl
    · split
      · rfl
      · simp_all

end RoundingInterval

/-- The digits, shifted by the exponent of the last one. -/
def positional (digits : List Char) (exponent : Int) : String :=
  let places := (-exponent).toNat
  let padded := List.replicate (places + 1 - digits.length) '0' ++ digits ++
    List.replicate exponent.toNat '0'
  let whole := padded.take (padded.length - places)
  let fraction := padded.drop (padded.length - places)
  String.ofList whole ++ "." ++ if fraction.isEmpty then "0" else String.ofList fraction

/-- The digits with the exponent of the first one. -/
def scientific (digits : List Char) (exponent : Int) : String :=
  String.ofList (digits.take 1) ++
    (if digits.length ≤ 1 then "" else "." ++ String.ofList (digits.drop 1)) ++
    (if exponent < 0 then "e-" else "e+") ++ exponent.natAbs.repr

def decimal (mantissa : Nat) (exponent : Int) : String :=
  let digits := Nat.toDigits 10 mantissa
  let leading := exponent + (digits.length : Int) - 1
  if -5 ≤ leading ∧ leading ≤ 15 then positional digits exponent else scientific digits leading

def float (x : Float) : String :=
  let bits := x.toBits.toNat
  let magnitude := bits % 0x8000000000000000
  let shortest := (RoundingInterval.ofBits magnitude).shortest
  (if 0x8000000000000000 ≤ bits then "-" else "") ++
    if magnitude = 0 then "0.0" else decimal shortest.1 shortest.2

end QualifierConstraints.Text
