import QualifierConstraints.Json.Reading
import QualifierConstraints.Ordered.Map

set_option autoImplicit false

namespace QualifierConstraints

/-- A sign, the digits before and after the point, and an exponent. -/
structure Numeral where
  negative : Bool
  whole : List Nat
  fraction : List Nat
  exponent : Option Int

namespace Numeral

def ofDigits (digits : List Nat) : Nat := digits.foldl (fun n d => 10 * n + d) 0

/-- Appends digits to a number while it stays below `2 ^ 64`, and says how many were left over. -/
def gather : Nat → List Nat → Nat × Nat
  | n, [] => (n, 0)
  | n, d :: ds =>
    if 10 * n + d < 0x10000000000000000 then gather (10 * n + d) ds else (n, ds.length + 1)

def powerOfTen (k : Nat) : Float := Float.ofScientific 1 false k

/-- `x * 10 ^ exponent` for a number `x` that is not negative, in steps of at most 308 places, each
of which rounds. -/
def scale? (x : Float) (exponent : Int) : Option Float :=
  if x == 0 then some x
  else if exponent < -308 then scale? (x / powerOfTen 308) (exponent + 308)
  else if exponent < 0 then some (x / powerOfTen exponent.natAbs)
  else if 308 < exponent then none
  else
    let product := x * powerOfTen exponent.natAbs
    if product.isInf then none else some product
termination_by (-exponent).toNat

/-- Each digit left over before the point counts as a place, and so does each digit gathered after
it, the other way. -/
def toFloat? (n : Numeral) : Option Float :=
  let whole := gather 0 n.whole
  let all := gather whole.1 n.fraction
  let exponent := n.exponent.getD 0 + (whole.2 : Int) - ((n.fraction.length - all.2 : Nat) : Int)
  (scale? (Float.ofScientific all.1 false 0) exponent).map fun x => if n.negative then -x else x

def toInt? (n : Numeral) : Option Int :=
  let value : Int := if n.negative then -(ofDigits n.whole : Int) else ofDigits n.whole
  if n.fraction.isEmpty && n.exponent.isNone && !(n.negative && value == 0) &&
      decide (-9223372036854775808 ≤ value) && decide (value ≤ 18446744073709551615) then
    some value
  else none

def toJson? (n : Numeral) : Option Json :=
  match n.toInt? with
  | some value => some (.integer value)
  | none => n.toFloat?.map Json.float

def takeDigits (cs : List Char) : List Nat × List Char :=
  ((cs.takeWhile Char.isDigit).map fun c => c.toNat - '0'.toNat, cs.dropWhile Char.isDigit)

def digits? (cs : List Char) : Option (List Nat × List Char) :=
  let taken := takeDigits cs
  if taken.1.isEmpty then none else some taken

/-- No digit follows a zero at the start. -/
def whole? : List Char → Option (List Nat × List Char)
  | '0' :: rest => some ([0], rest)
  | cs => digits? cs

def fraction? : List Char → Option (List Nat × List Char)
  | '.' :: rest => digits? rest
  | cs => some ([], cs)

def signedDigits? : List Char → Option (Int × List Char)
  | '-' :: rest => (digits? rest).map fun r => (-(ofDigits r.1 : Int), r.2)
  | '+' :: rest => (digits? rest).map fun r => ((ofDigits r.1 : Int), r.2)
  | cs => (digits? cs).map fun r => ((ofDigits r.1 : Int), r.2)

def exponent? : List Char → Option (Option Int × List Char)
  | 'e' :: rest => (signedDigits? rest).map fun r => (some r.1, r.2)
  | 'E' :: rest => (signedDigits? rest).map fun r => (some r.1, r.2)
  | cs => some (none, cs)

def takeMinus : List Char → Bool × List Char
  | '-' :: rest => (true, rest)
  | cs => (false, cs)

def read? (cs : List Char) : Option (Numeral × List Char) := do
  let (negative, rest) := takeMinus cs
  let (whole, rest) ← whole? rest
  let (fraction, rest) ← fraction? rest
  let (exponent, rest) ← exponent? rest
  return (⟨negative, whole, fraction, exponent⟩, rest)

end Numeral

namespace Json

def skipBlanks (cs : List Char) : List Char :=
  cs.dropWhile fun c => c = ' ' || c = '\t' || c = '\n' || c = '\r'

/-- A part of a text: a character, or a 16-bit unit given by its number. -/
inductive TextPart where
  | char (c : Char)
  | unit (n : Nat)

/-- The characters that a backslash and one more character stand for. -/
def escaped? : Char → Option Char
  | '\"' => some '\"'
  | '\\' => some '\\'
  | '/' => some '/'
  | 'b' => some '\x08'
  | 'f' => some '\x0c'
  | 'n' => some '\n'
  | 'r' => some '\r'
  | 't' => some '\t'
  | _ => none

def hexDigit? (c : Char) : Option Nat :=
  if '0' ≤ c ∧ c ≤ '9' then some (c.toNat - '0'.toNat)
  else if 'a' ≤ c ∧ c ≤ 'f' then some (c.toNat - 'a'.toNat + 10)
  else if 'A' ≤ c ∧ c ≤ 'F' then some (c.toNat - 'A'.toNat + 10)
  else none

/-- The parts up to the closing quote. Control characters have to be escaped. -/
def parts? : List Char → Option (List TextPart × List Char)
  | [] => none
  | '\"' :: rest => some ([], rest)
  | '\\' :: 'u' :: a :: b :: c :: d :: rest => do
    let n := 4096 * (← hexDigit? a) + 256 * (← hexDigit? b) + 16 * (← hexDigit? c) + (← hexDigit? d)
    let (ps, rest) ← parts? rest
    return (.unit n :: ps, rest)
  | '\\' :: c :: rest => do
    let e ← escaped? c
    let (ps, rest) ← parts? rest
    return (.char e :: ps, rest)
  | c :: rest =>
    if c.toNat < 32 then none
    else do
      let (ps, rest) ← parts? rest
      return (.char c :: ps, rest)

/-- A unit is a character of its own, or the first of a pair that makes one. -/
def joinParts? : List TextPart → Option (List Char)
  | [] => some []
  | .char c :: ps => (joinParts? ps).map (c :: ·)
  | .unit n :: ps =>
    if n < 0xD800 ∨ 0xE000 ≤ n then (joinParts? ps).map (Char.ofNat n :: ·)
    else
      match ps with
      | .unit m :: ps =>
        if n < 0xDC00 ∧ 0xDC00 ≤ m ∧ m < 0xE000 then
          (joinParts? ps).map (Char.ofNat (0x10000 + 0x400 * (n - 0xD800) + (m - 0xDC00)) :: ·)
        else none
      | _ => none

def text? (cs : List Char) : Option (String × List Char) := do
  let (ps, rest) ← parts? cs
  return (String.ofList (← joinParts? ps), rest)

def ofMembers (members : List (String × Json)) : Json :=
  .object (members.foldl (fun m e => m.set e.1 e.2) OrderedMap.empty).entries

mutual
/-- A value, after blanks. The first argument bounds how deep the readings nest. -/
def value? : Nat → List Char → Option (Json × List Char)
  | 0, _ => none
  | fuel + 1, cs =>
    match skipBlanks cs with
    | 'n' :: 'u' :: 'l' :: 'l' :: rest => some (.null, rest)
    | 't' :: 'r' :: 'u' :: 'e' :: rest => some (.bool true, rest)
    | 'f' :: 'a' :: 'l' :: 's' :: 'e' :: rest => some (.bool false, rest)
    | '\"' :: rest => (text? rest).map fun r => (.text r.1, r.2)
    | '[' :: rest =>
      match skipBlanks rest with
      | ']' :: rest => some (.array [], rest)
      | rest => (items? fuel rest).map fun r => (.array r.1, r.2)
    | '\x7b' :: rest =>
      match skipBlanks rest with
      | '\x7d' :: rest => some (.object [], rest)
      | rest => (members? fuel rest).map fun r => (ofMembers r.1, r.2)
    | cs => do
      let (n, rest) ← Numeral.read? cs
      return (← n.toJson?, rest)

def items? : Nat → List Char → Option (List Json × List Char)
  | 0, _ => none
  | fuel + 1, cs => do
    let (j, rest) ← value? fuel cs
    match skipBlanks rest with
    | ',' :: rest =>
      let (js, rest) ← items? fuel rest
      return (j :: js, rest)
    | ']' :: rest => return ([j], rest)
    | _ => none

def members? : Nat → List Char → Option (List (String × Json) × List Char)
  | 0, _ => none
  | fuel + 1, cs =>
    match skipBlanks cs with
    | '\"' :: rest => do
      let (key, rest) ← text? rest
      match skipBlanks rest with
      | ':' :: rest =>
        let (j, rest) ← value? fuel rest
        match skipBlanks rest with
        | ',' :: rest =>
          let (es, rest) ← members? fuel rest
          return ((key, j) :: es, rest)
        | '\x7d' :: rest => return ([(key, j)], rest)
        | _ => none
      | _ => none
    | _ => none
end

/-- Of two readings one inside the other at least one takes a character, so twice the length of the
text is deep enough. -/
def ofText? (s : String) : Option Json := do
  let cs := s.toList
  let (j, rest) ← value? (2 * cs.length + 2) cs
  if (skipBlanks rest).isEmpty then return j else none

end Json
end QualifierConstraints
