import CjsInterop.Json

/-! Reading JSON text. The grammar is the standard's: four blanks, no leading zeros, no control
characters in strings, nothing after the value, and any depth. -/

namespace CjsInterop.Json

def isBlank (c : Char) : Bool :=
  c == ' ' || c == '\n' || c == '\t' || c == '\r'

def skipBlanks (text : Text) : Text :=
  text.dropWhile isBlank

/-- The text between the quotes before escapes are joined: a character, or a code of an escape. -/
inductive Piece where
  | char (c : Char)
  | code (n : Nat)

def hexDigit? (c : Char) : Option Nat :=
  if '0' ≤ c ∧ c ≤ '9' then some (c.toNat - '0'.toNat)
  else if 'a' ≤ c ∧ c ≤ 'f' then some (c.toNat - 'a'.toNat + 10)
  else if 'A' ≤ c ∧ c ≤ 'F' then some (c.toNat - 'A'.toNat + 10)
  else none

def hexCode? (a b c d : Char) : Option Nat := do
  let a ← hexDigit? a
  let b ← hexDigit? b
  let c ← hexDigit? c
  let d ← hexDigit? d
  pure (((a * 16 + b) * 16 + c) * 16 + d)

def simpleEscape? : Char → Option Char
  | '"' => some '"'
  | '\\' => some '\\'
  | '/' => some '/'
  | 'b' => some '\x08'
  | 'f' => some '\x0c'
  | 'n' => some '\n'
  | 'r' => some '\r'
  | 't' => some '\t'
  | _ => none

/-- The pieces up to the closing quote, and what follows it. -/
def readPieces : Text → Option (List Piece × Text)
  | [] => none
  | '"' :: rest => some ([], rest)
  | '\\' :: 'u' :: a :: b :: c :: d :: rest => do
    let n ← hexCode? a b c d
    let (pieces, rest) ← readPieces rest
    pure (.code n :: pieces, rest)
  | '\\' :: e :: rest => do
    let c ← simpleEscape? e
    let (pieces, rest) ← readPieces rest
    pure (.char c :: pieces, rest)
  | c :: rest =>
    if c.toNat < 0x20 then none
    else do
      let (pieces, rest) ← readPieces rest
      pure (.char c :: pieces, rest)

/-- Joins surrogate halves. A half on its own stands for no character. -/
def decode : List Piece → Option Text
  | [] => some []
  | .char c :: rest => (decode rest).map (c :: ·)
  | .code high :: .code low :: rest =>
    if 0xD800 ≤ high ∧ high < 0xDC00 then
      if 0xDC00 ≤ low ∧ low < 0xE000 then
        (decode rest).map (Char.ofNat (0x10000 + (high - 0xD800) * 0x400 + (low - 0xDC00)) :: ·)
      else none
    else if 0xDC00 ≤ high ∧ high < 0xE000 then none
    else (decode (.code low :: rest)).map (Char.ofNat high :: ·)
  | .code n :: rest =>
    if 0xD800 ≤ n ∧ n < 0xE000 then none else (decode rest).map (Char.ofNat n :: ·)

/-- A string whose opening quote has been read. -/
def readString (text : Text) : Option (Option Text × Text) :=
  (readPieces text).map fun (pieces, rest) => (decode pieces, rest)

def isDigit (c : Char) : Bool := '0' ≤ c ∧ c ≤ '9'

/-- One digit or more. -/
def readDigits (text : Text) : Option (Text × Text) :=
  match text.takeWhile isDigit with
  | [] => none
  | digits => some (digits, text.dropWhile isDigit)

def readInteger (text : Text) : Option (Text × Text) :=
  match text with
  | '0' :: c :: rest => if isDigit c then none else some (['0'], c :: rest)
  | _ => readDigits text

def readFraction (text : Text) : Option (Text × Text) :=
  match text with
  | '.' :: rest => (readDigits rest).map fun (digits, rest) => ('.' :: digits, rest)
  | _ => some ([], text)

def readExponent (text : Text) : Option (Text × Text) :=
  match text with
  | e :: rest =>
    if e = 'e' ∨ e = 'E' then
      match rest with
      | sign :: after =>
        if sign = '+' ∨ sign = '-' then
          (readDigits after).map fun (digits, rest) => (e :: sign :: digits, rest)
        else (readDigits rest).map fun (digits, rest) => (e :: digits, rest)
      | [] => none
    else some ([], text)
  | [] => some ([], text)

/-- An unsigned number. -/
def readMagnitude (text : Text) : Option (Text × Text) := do
  let (whole, rest) ← readInteger text
  let (fraction, rest) ← readFraction rest
  let (exponent, rest) ← readExponent rest
  pure (whole ++ fraction ++ exponent, rest)

def readWord (text : Text) : Option (Json × Text) :=
  match Text.dropStart? "null" text with
  | some rest => some (.null, rest)
  | none =>
    match Text.dropStart? "true" text with
    | some rest => some (.bool true, rest)
    | none => (Text.dropStart? "false" text).map fun rest => (.bool false, rest)

mutual

/-- A value, blanks before it skipped. Each unit of fuel pays for one bracket, comma or value. -/
def readValue : Nat → Text → Option (Json × Text)
  | 0, _ => none
  | fuel + 1, text =>
    match skipBlanks text with
    | '"' :: rest => (readString rest).map fun (s, rest) => (.string s, rest)
    | '[' :: rest =>
      match skipBlanks rest with
      | ']' :: rest => some (.array [], rest)
      | rest => (readItems fuel rest).map fun (items, rest) => (.array items, rest)
    | '{' :: rest =>
      match skipBlanks rest with
      | '}' :: rest => some (.object [], rest)
      | rest => (readMembers fuel rest).map fun (members, rest) => (.object members, rest)
    | '-' :: rest => (readMagnitude rest).map fun (n, rest) => (.number ('-' :: n), rest)
    | c :: rest =>
      if isDigit c then (readMagnitude (c :: rest)).map fun (n, rest) => (.number n, rest)
      else readWord (c :: rest)
    | [] => none

def readItems : Nat → Text → Option (List Json × Text)
  | 0, _ => none
  | fuel + 1, text =>
    match readValue fuel text with
    | none => none
    | some (item, rest) =>
      match skipBlanks rest with
      | ']' :: rest => some ([item], rest)
      | ',' :: rest => (readItems fuel rest).map fun (items, rest) => (item :: items, rest)
      | _ => none

def readMembers : Nat → Text → Option (List (Option Text × Json) × Text)
  | 0, _ => none
  | fuel + 1, text =>
    match skipBlanks text with
    | '"' :: rest =>
      match readString rest with
      | none => none
      | some (key, rest) =>
        match skipBlanks rest with
        | ':' :: rest =>
          match readValue fuel rest with
          | none => none
          | some (value, rest) =>
            match skipBlanks rest with
            | '}' :: rest => some ([(key, value)], rest)
            | ',' :: rest =>
              (readMembers fuel rest).map fun (members, rest) => ((key, value) :: members, rest)
            | _ => none
        | _ => none
    | _ => none

end

/-- The value that the whole text spells. -/
def ofText? (text : Text) : Option Json :=
  match readValue (2 * text.length + 2) text with
  | some (value, rest) => if skipBlanks rest = [] then some value else none
  | none => none

end CjsInterop.Json
