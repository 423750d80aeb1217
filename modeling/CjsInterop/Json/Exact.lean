import CjsInterop.Binary64
import CjsInterop.Json

/-! Whether a JSON number fits a binary64 number, as a reader decides it that keeps the digits in one
64-bit word. Digits that no longer fit the word only move the decimal point; the word is then rounded
and scaled by a power of ten that is itself rounded. -/

namespace CjsInterop.Json

def wordLimit : Nat := Nat.pow 2 64

/-- The digits read so far as a word, how far the decimal point has moved, and whether a digit has
been given up for good. -/
structure Scan where
  word : Nat
  shift : Int
  closed : Bool

def digitOf (c : Char) : Nat := c.toNat - '0'.toNat

/-- A whole digit. After the first that does not fit, the rest only count. -/
def Scan.whole (s : Scan) (c : Char) : Scan :=
  let next := s.word * 10 + digitOf c
  if s.closed ∨ wordLimit ≤ next then { s with shift := s.shift + 1, closed := true }
  else { s with word := next }

/-- A digit after the point. From the first that does not fit, all are dropped. -/
def Scan.fraction (s : Scan) (c : Char) : Scan :=
  let next := s.word * 10 + digitOf c
  if s.closed ∨ wordLimit ≤ next then { s with closed := true }
  else { s with word := next, shift := s.shift - 1 }

/-- `word · 10 ^ exponent` is finite. -/
def fits (word : Nat) (exponent : Int) : Bool :=
  if exponent < 0 then true
  else if exponent ≤ 308 then
    roundToDouble word * roundToDouble (Nat.pow 10 exponent.toNat) < overflowBound
  else word == 0

/-- Whether the number so spelled has a finite value. -/
def isFiniteNumber (spelling : Text) : Bool :=
  let body := if spelling.head? = some '-' then spelling.tail else spelling
  let whole := body.takeWhile Char.isDigit
  let afterWhole := body.dropWhile Char.isDigit
  let s := whole.foldl Scan.whole ⟨0, 0, false⟩
  let (s, rest) :=
    match afterWhole with
    | '.' :: digits =>
      ((digits.takeWhile Char.isDigit).foldl Scan.fraction { s with closed := false },
        digits.dropWhile Char.isDigit)
    | rest => (s, rest)
  match rest with
  | [] => fits s.word s.shift
  | _ :: exponent =>
    let negative := exponent.head? = some '-'
    let digits := exponent.filter Char.isDigit
    let size := digits.foldl (fun n c => n * 10 + digitOf c) 0
    if Nat.pow 2 31 ≤ size then negative || s.word == 0
    else fits s.word (if negative then s.shift - size else s.shift + size)

mutual

/-- All numbers in the value are finite. -/
def numbersFinite : Json → Bool
  | .number n => isFiniteNumber n
  | .array items => itemsFinite items
  | .object members => membersFinite members
  | _ => true

def itemsFinite : List Json → Bool
  | [] => true
  | item :: items => numbersFinite item && itemsFinite items

def membersFinite : List (Option Text × Json) → Bool
  | [] => true
  | (_, value) :: members => numbersFinite value && membersFinite members

end

mutual

/-- All strings in the value, keys included, are text. -/
def stringsDecode : Json → Bool
  | .string s => s.isSome
  | .array items => itemsDecode items
  | .object members => membersDecode members
  | _ => true

def itemsDecode : List Json → Bool
  | [] => true
  | item :: items => stringsDecode item && itemsDecode items

def membersDecode : List (Option Text × Json) → Bool
  | [] => true
  | (key, value) :: members => key.isSome && stringsDecode value && membersDecode members

end

mutual

/-- How many arrays and objects stand inside each other. -/
def nesting : Json → Nat
  | .array items => itemsNesting items + 1
  | .object members => membersNesting members + 1
  | _ => 0

def itemsNesting : List Json → Nat
  | [] => 0
  | item :: items => max (nesting item) (itemsNesting items)

def membersNesting : List (Option Text × Json) → Nat
  | [] => 0
  | (_, value) :: members => max (nesting value) (membersNesting members)

end

/-- A value that can be held: at most `depth` containers inside each other, finite numbers, and
strings that are text. -/
def isExact (depth : Nat) (value : Json) : Bool :=
  nesting value ≤ depth && numbersFinite value && stringsDecode value

end CjsInterop.Json
