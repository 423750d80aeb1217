import CjsInterop.Text

/-! Binary floating-point numbers of 64 bits, as far as positive ones are read from digits and written
with the fewest digits that read back, always positionally. -/

namespace CjsInterop

/-- `n` rounded to 53 significant bits, a tie going to the even neighbour. -/
def roundToDouble (n : Nat) : Nat :=
  let bits := n.log2 + 1
  if bits ≤ 53 then n
  else
    let unit := Nat.pow 2 (bits - 53)
    let low := n % unit
    let high := n / unit
    if 2 * low < unit ∨ (2 * low = unit ∧ high % 2 = 0) then high * unit else (high + 1) * unit

/-- Half a unit above the largest finite number: from here on results are infinite. -/
def overflowBound : Nat := Nat.pow 2 1024 - Nat.pow 2 970

/-- A finite positive number `mantissa · 2 ^ exponent`, or zero. -/
structure Binary64 where
  mantissa : Nat
  exponent : Int
  deriving DecidableEq, Repr

namespace Binary64

def leastExponent : Int := -1074

/-- `n · 2 ^ e` as a fraction. -/
def scaled (n : Nat) (e : Int) : Nat × Nat :=
  if 0 ≤ e then (n * Nat.pow 2 e.toNat, 1) else (n, Nat.pow 2 (-e).toNat)

/-- The quotient rounded to a whole number, a tie going to the even neighbour. -/
def roundQuotient (num den : Nat) : Nat :=
  let low := num % den
  let n := num / den
  if 2 * low < den ∨ (2 * low = den ∧ n % 2 = 0) then n else n + 1

/-- The nearest number to `num / den`; none when it is infinite. -/
def ofFraction (num den : Nat) : Option Binary64 :=
  if num = 0 then some ⟨0, leastExponent⟩
  else
    let guess : Int := (num.log2 : Int) - den.log2 - 53
    let fits (e : Int) : Bool :=
      let (n, d) := if 0 ≤ e then (num, den * Nat.pow 2 e.toNat) else (num * Nat.pow 2 (-e).toNat, den)
      n / d < Nat.pow 2 53
    let e := max leastExponent (if fits guess then guess else guess + 1)
    let (n, d) := if 0 ≤ e then (num, den * Nat.pow 2 e.toNat) else (num * Nat.pow 2 (-e).toNat, den)
    let m := roundQuotient n d
    let (whole, _) := scaled m e
    if 0 ≤ e ∧ Nat.pow 2 1024 ≤ whole then none else some ⟨m, e⟩

/-- The number that decimal digits times a power of ten round to. -/
def ofDecimal (digits : Nat) (exponent : Int) : Option Binary64 :=
  if digits = 0 then some ⟨0, leastExponent⟩
  else if 400 < exponent then none
  else if exponent + (Nat.toDigits 10 digits).length < -400 then some ⟨0, leastExponent⟩
  else if 0 ≤ exponent then ofFraction (digits * Nat.pow 10 exponent.toNat) 1
  else ofFraction digits (Nat.pow 10 (-exponent).toNat)

/-- Whether `candidate · 10 ^ place` rounds to the number. -/
def readsBack (x : Binary64) (candidate : Nat) (place : Int) : Bool :=
  let least := x.mantissa = Nat.pow 2 52 ∧ leastExponent < x.exponent
  -- The bounds of the interval that rounds to `x`, in quarters of its unit.
  let (lowNum, den) := scaled (4 * x.mantissa - (if least then 1 else 2)) (x.exponent - 2)
  let (highNum, _) := scaled (4 * x.mantissa + 2) (x.exponent - 2)
  let (num, den') :=
    if 0 ≤ place then (candidate * Nat.pow 10 place.toNat, 1) else (candidate, Nat.pow 10 (-place).toNat)
  let aboveLow := lowNum * den'
  let value := num * den
  let belowHigh := highNum * den'
  if x.mantissa % 2 = 0 then aboveLow ≤ value ∧ value ≤ belowHigh
  else aboveLow < value ∧ value < belowHigh

/-- The digits before and after the point of the unit `10 ^ place`. -/
def neighbours (x : Binary64) (place : Int) : Nat × Nat × Nat :=
  let (num, den) := scaled x.mantissa x.exponent
  let (num, den) :=
    if 0 ≤ place then (num, den * Nat.pow 10 place.toNat) else (num * Nat.pow 10 (-place).toNat, den)
  (num / den, 2 * (num % den), den)

/-- The nearer neighbour on the grid of `10 ^ place` that reads back. -/
def onGrid (x : Binary64) (place : Int) : Option Nat :=
  let (low, twiceRest, den) := neighbours x place
  let lowFits := 0 < low ∧ readsBack x low place = true
  let highFits := readsBack x (low + 1) place = true
  if lowFits ∧ (¬ highFits ∨ twiceRest ≤ den) then some low
  else if highFits then some (low + 1)
  else none

/-- How many digits stand before the point; zero or less when none do. -/
def magnitude (x : Binary64) : Int :=
  let (num, den) := scaled x.mantissa x.exponent
  if den ≤ num then (Nat.toDigits 10 (num / den)).length
  else
    let rec go : Nat → Nat → Int → Int
      | 0, _, e => e
      | n + 1, num, e => if den ≤ num * 10 then e else go n (num * 10) (e - 1)
    go 400 num 0

/-- The fewest digits that read back, and the place of the last of them. The first grid tried is
coarser than the number, for a power of ten just above it may read back. -/
def shortest (x : Binary64) : Nat × Int :=
  let rec go : Nat → Int → Nat × Int
    | 0, place => ((neighbours x place).1, place)
    | n + 1, place =>
      match onGrid x place with
      | some digits => (digits, place)
      | none => go n (place - 1)
  go 20 (magnitude x)

/-- Digits with the point put at `place`, zeros filled in, none left behind the last digit. -/
def positional (digits : Nat) (place : Int) : Text :=
  let text := Nat.toDigits 10 digits
  if 0 ≤ place then text ++ List.replicate place.toNat '0'
  else
    let after := (-place).toNat
    let text := List.replicate (after + 1 - text.length) '0' ++ text
    text.take (text.length - after) ++ '.' :: text.drop (text.length - after)

def display (x : Binary64) : Text :=
  if x.mantissa = 0 then "0"
  else
    let (digits, place) := shortest x
    positional digits place

end Binary64
end CjsInterop
