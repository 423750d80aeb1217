import CjsInterop.Syntax.Token

/-! The lexical grammar of ECMAScript. Tokens are read one at a time, since what a slash or a closing
brace begins is known only to the reader of the grammar above. Every function here takes what is
left of the source and returns what is then left of it. -/

namespace CjsInterop.Syntax.Lexer

/-! ## Blanks and comments -/

def isLineEnd (c : Char) : Bool :=
  c == '\n' || c == '\r' || c == '\u2028' || c == '\u2029'

def isSpace (c : Char) : Bool :=
  c == ' ' || c == '\t' || c == '\x0b' || c == '\x0c' || c == '\u0085' || c == '\u00a0' ||
    c == '\u1680' || ('\u2000' ≤ c && c ≤ '\u200b') || c == '\u202f' || c == '\u205f' ||
    c == '\u3000' || c == '\ufeff'

inductive Blank where
  | between
  | lineComment
  | blockComment

/-- Skips blanks and comments, and says whether a line ended. `html` also takes `<!--` for a comment,
and `-->` where only blanks and comments stand before it on the line. A block comment must close. -/
def skipBlanks (html : Bool) : Blank → (lineStart newLine : Bool) → Text → Option (Bool × Text)
  | .blockComment, _, _, [] => none
  | .blockComment, lineStart, newLine, '*' :: '/' :: rest =>
    skipBlanks html .between lineStart newLine rest
  | .blockComment, lineStart, newLine, c :: rest =>
    skipBlanks html .blockComment (lineStart || isLineEnd c) (newLine || isLineEnd c) rest
  | .lineComment, _, newLine, [] => some (newLine, [])
  | .lineComment, lineStart, newLine, c :: rest =>
    if isLineEnd c then skipBlanks html .between true true rest
    else skipBlanks html .lineComment lineStart newLine rest
  | .between, lineStart, newLine, '/' :: '/' :: rest =>
    skipBlanks html .lineComment lineStart newLine rest
  | .between, lineStart, newLine, '/' :: '*' :: rest =>
    skipBlanks html .blockComment lineStart newLine rest
  | .between, lineStart, newLine, '<' :: '!' :: '-' :: '-' :: rest =>
    if html then skipBlanks html .lineComment lineStart newLine rest
    else some (newLine, '<' :: '!' :: '-' :: '-' :: rest)
  | .between, lineStart, newLine, '-' :: '-' :: '>' :: rest =>
    if html && lineStart then skipBlanks html .lineComment lineStart newLine rest
    else some (newLine, '-' :: '-' :: '>' :: rest)
  | .between, lineStart, newLine, c :: rest =>
    if isLineEnd c then skipBlanks html .between true true rest
    else if isSpace c then skipBlanks html .between lineStart newLine rest
    else some (newLine, c :: rest)
  | .between, _, newLine, [] => some (newLine, [])

/-! ## Escapes -/

def hexValue? (c : Char) : Option Nat :=
  if '0' ≤ c ∧ c ≤ '9' then some (c.toNat - '0'.toNat)
  else if 'a' ≤ c ∧ c ≤ 'f' then some (c.toNat - 'a'.toNat + 10)
  else if 'A' ≤ c ∧ c ≤ 'F' then some (c.toNat - 'A'.toNat + 10)
  else none

/-- Exactly `n` hexadecimal digits. -/
def hexDigits : Nat → Nat → Text → Option (Nat × Text)
  | 0, value, text => some (value, text)
  | n + 1, value, c :: rest => (hexValue? c).bind fun d => hexDigits n (value * 16 + d) rest
  | _ + 1, _, [] => none

/-- Hexadecimal digits up to a closing brace, at least one, for a code point. -/
def bracedDigits (any : Bool) (value : Nat) : Text → Option (Nat × Text)
  | '}' :: rest => if any ∧ value ≤ 0x10FFFF then some (value, rest) else none
  | c :: rest =>
    (hexValue? c).bind fun d => bracedDigits true (min (value * 16 + d) 0x110000) rest
  | [] => none

/-- A code after `\u`: four digits, or any number of them in braces. -/
def unicodeEscape : Text → Option (Nat × Text)
  | '{' :: rest => bracedDigits false 0 rest
  | text => hexDigits 4 0 text

/-! ## Words -/

def isSurrogate (n : Nat) : Bool := 0xD800 ≤ n && n < 0xE000

/-- The characters of a name, and whether any was escaped. `isFirst` holds for its first character,
which each escape must fit as well. -/
def nameChars : Nat → (isFirst escaped : Bool) → Text → Option (Text × Bool × Text)
  | 0, _, _, _ => none
  | fuel + 1, isFirst, escaped, text =>
    match text with
    | '\\' :: 'u' :: rest => do
      let (n, rest) ← unicodeEscape rest
      if isSurrogate n then none
      else
        let c := Char.ofNat n
        if if isFirst then Text.isNameStart c else Text.isNamePart c then
          let (name, escaped, rest) ← nameChars fuel false true rest
          pure (c :: name, escaped, rest)
        else none
    | '\\' :: _ => none
    | c :: rest =>
      if if isFirst then Text.isNameStart c else Text.isNamePart c then do
        let (name, escaped, rest) ← nameChars fuel false escaped rest
        pure (c :: name, escaped, rest)
      else if isFirst then none
      else some ([], escaped, text)
    | [] => if isFirst then none else some ([], escaped, [])

def name (text : Text) : Option (Text × Bool × Text) :=
  nameChars (text.length + 1) true false text

/-! ## Numbers -/

/-- Digits with single underscores between them. -/
def separated (isDigit : Char → Bool) : Text → Option (Text × Text)
  | '_' :: c :: rest =>
    if isDigit c then
      (separated isDigit (c :: rest)).map fun (digits, rest) => ('_' :: digits, rest)
    else none
  | ['_'] => none
  | c :: rest =>
    if isDigit c then (separated isDigit rest).map fun (digits, rest) => (c :: digits, rest)
    else some ([], c :: rest)
  | [] => some ([], [])

/-- As `separated`, beginning with a digit. -/
def someDigits (isDigit : Char → Bool) (text : Text) : Option (Text × Text) :=
  match text with
  | c :: _ => if isDigit c then separated isDigit text else none
  | [] => none

def decimal (c : Char) : Bool := '0' ≤ c && c ≤ '9'

def digitOf (radixMark : Char) (c : Char) : Bool :=
  if radixMark = 'x' ∨ radixMark = 'X' then (hexValue? c).isSome
  else if radixMark = 'o' ∨ radixMark = 'O' then '0' ≤ c && c ≤ '7'
  else c == '0' || c == '1'

/-- No name and no digit may follow a number directly. -/
def numberEnd (token : Token) (rest : Text) : Option (Token × Text) :=
  match rest with
  | c :: _ => if decimal c || Text.isNameStart c then none else some (token, rest)
  | [] => some (token, rest)

def exponent (text : Text) : Option (Text × Text) :=
  match text with
  | e :: rest =>
    if e = 'e' ∨ e = 'E' then
      match rest with
      | sign :: after =>
        if sign = '+' ∨ sign = '-' then
          (someDigits decimal after).map fun (digits, rest) => (e :: sign :: digits, rest)
        else (someDigits decimal rest).map fun (digits, rest) => (e :: digits, rest)
      | [] => none
    else some ([], text)
  | [] => some ([], text)

/-- The digits after a point, which may be missing. -/
def fractionDigits (text : Text) : Option (Text × Text) :=
  match text with
  | c :: _ => if decimal c then separated decimal text else some ([], text)
  | [] => some ([], text)

/-- What may follow the digits before the point: a point with digits, an exponent. -/
def decimalTail (whole rest : Text) : Option (Token × Text) :=
  match rest with
  | '.' :: after => do
    let (fraction, rest) ← fractionDigits after
    let (e, rest) ← exponent rest
    numberEnd (.number (whole ++ '.' :: fraction ++ e)) rest
  | 'n' :: after => numberEnd (.bigint (whole ++ "n")) after
  | _ => do
    let (e, rest) ← exponent rest
    numberEnd (.number (whole ++ e)) rest

/-- A number that starts with `0` and a further digit: octal unless an 8 or 9 is among its digits. -/
def legacyNumber (text : Text) : Option (Token × Text) :=
  let digits := text.takeWhile decimal
  let rest := text.dropWhile decimal
  if digits.any fun c => c == '8' || c == '9' then
    match rest with
    | '.' :: after => do
      let (fraction, rest) ← fractionDigits after
      let (e, rest) ← exponent rest
      numberEnd (.number (digits ++ '.' :: fraction ++ e)) rest
    | _ => do
      let (e, rest) ← exponent rest
      numberEnd (.number (digits ++ e)) rest
  else numberEnd (.number digits) rest

def number (text : Text) : Option (Token × Text) :=
  match text with
  | '.' :: rest => do
    let (fraction, rest) ← someDigits decimal rest
    let (e, rest) ← exponent rest
    numberEnd (.number ('.' :: fraction ++ e)) rest
  | '0' :: c :: rest =>
    if c ∈ ['x', 'X', 'o', 'O', 'b', 'B'] then do
      let (digits, rest) ← someDigits (digitOf c) rest
      match rest with
      | 'n' :: rest => numberEnd (.bigint ('0' :: c :: digits ++ "n")) rest
      | _ => numberEnd (.number ('0' :: c :: digits)) rest
    else if decimal c then legacyNumber text
    else if c = '_' then none
    else decimalTail ['0'] (c :: rest)
  | _ => do
    let (whole, rest) ← someDigits decimal text
    decimalTail whole rest

/-! ## Strings and templates -/

/-- A character of a string, or a code that an escape gave. -/
inductive Unit16 where
  | char (c : Char)
  | code (n : Nat)
  deriving DecidableEq, Repr

/-- What one escape, its backslash read, stands for. Octal escapes are for strings only. -/
inductive Escape where
  | nothing (rest : Text)
  | unit (u : Unit16) (rest : Text)
  | invalid (rest : Text)

def octal (c : Char) : Bool := '0' ≤ c && c ≤ '7'

/-- Up to `n` more octal digits. -/
def octalDigits : Nat → Nat → Text → Nat × Text
  | n + 1, value, c :: rest =>
    if octal c then octalDigits n (value * 8 + (c.toNat - '0'.toNat)) rest else (value, c :: rest)
  | _, value, text => (value, text)

def escape (inTemplate : Bool) : Text → Escape
  | [] => .invalid []
  | '\r' :: '\n' :: rest => .nothing rest
  | 'n' :: rest => .unit (.char '\n') rest
  | 't' :: rest => .unit (.char '\t') rest
  | 'r' :: rest => .unit (.char '\r') rest
  | 'b' :: rest => .unit (.char '\x08') rest
  | 'f' :: rest => .unit (.char '\x0c') rest
  | 'v' :: rest => .unit (.char '\x0b') rest
  | 'x' :: rest =>
    match hexDigits 2 0 rest with
    | some (n, rest) => .unit (.code n) rest
    | none => .invalid rest
  | 'u' :: rest =>
    match unicodeEscape rest with
    | some (n, rest) => .unit (.code n) rest
    | none => .invalid rest
  | c :: rest =>
    if isLineEnd c then .nothing rest
    else if inTemplate then
      if decimal c then
        if c = '0' ∧ ¬ (rest.head?.any decimal) then .unit (.char '\x00') rest else .invalid rest
      else .unit (.char c) rest
    else if octal c then
      let (n, rest) := octalDigits (if c ≤ '3' then 2 else 1) (c.toNat - '0'.toNat) rest
      .unit (.code n) rest
    else .unit (.char c) rest

/-- Joins surrogate halves; says whether none is left alone. A half left alone is spelled by the
replacement character and four digits, and so is, beside one, the replacement character itself. -/
def joinUnits : List Unit16 → List Unit16
  | .code high :: .code low :: rest =>
    if 0xD800 ≤ high ∧ high < 0xDC00 ∧ 0xDC00 ≤ low ∧ low < 0xE000 then
      .char (Char.ofNat (0x10000 + (high - 0xD800) * 0x400 + (low - 0xDC00))) :: joinUnits rest
    else if isSurrogate high then .code high :: joinUnits (.code low :: rest)
    else .char (Char.ofNat high) :: joinUnits (.code low :: rest)
  | .code n :: rest => (if isSurrogate n then .code n else .char (Char.ofNat n)) :: joinUnits rest
  | u :: rest => u :: joinUnits rest
  | [] => []

def spellUnits (units : List Unit16) : Text × Bool :=
  let units := joinUnits units
  let char? : Unit16 → Option Char
    | .char c => some c
    | .code _ => none
  match units.mapM char? with
  | some text => (text, true)
  | none =>
    (units.flatMap fun
      | .char c => if c = '\ufffd' then '\ufffd' :: "fffd" else [c]
      | .code n => '\ufffd' :: Text.hex 4 n, false)

/-- The units of a string up to its quote. A line feed or carriage return may not stand in it. -/
def stringUnits (quote : Char) : Nat → Text → Option (List Unit16 × Text)
  | 0, _ => none
  | _ + 1, [] => none
  | fuel + 1, '\\' :: rest =>
    match escape false rest with
    | .invalid _ => none
    | .nothing rest => stringUnits quote fuel rest
    | .unit u rest => (stringUnits quote fuel rest).map fun (units, rest) => (u :: units, rest)
  | fuel + 1, c :: rest =>
    if c = quote then some ([], rest)
    else if c = '\n' ∨ c = '\r' then none
    else (stringUnits quote fuel rest).map fun (units, rest) => (.char c :: units, rest)

def string (quote : Char) (text : Text) : Option (Token × Text) := do
  let (units, rest) ← stringUnits quote (text.length + 1) text
  let (value, wellFormed) := spellUnits units
  pure (.string value wellFormed, rest)

/-- The units of a stretch of a template: whether all escapes mean something, whether the template
ends here. A carriage return counts as a line feed, alone or before one. -/
def templateUnits : Nat → Text → Option (List Unit16 × Bool × Bool × Text)
  | 0, _ => none
  | _ + 1, [] => none
  | _ + 1, '`' :: rest => some ([], true, true, rest)
  | _ + 1, '$' :: '{' :: rest => some ([], true, false, rest)
  | fuel + 1, '\\' :: rest =>
    match escape true rest with
    | .invalid after =>
      let after := if after.length < rest.length then after else rest
      (templateUnits fuel after).map fun (units, _, isLast, rest) => (units, false, isLast, rest)
    | .nothing rest => templateUnits fuel rest
    | .unit u rest =>
      (templateUnits fuel rest).map fun (units, valid, more) => (u :: units, valid, more)
  | fuel + 1, '\r' :: '\n' :: rest =>
    (templateUnits fuel rest).map fun (units, more) => (.char '\n' :: units, more)
  | fuel + 1, c :: rest =>
    (templateUnits fuel rest).map fun (units, more) =>
      (.char (if c = '\r' then '\n' else c) :: units, more)

/-- A stretch of a template, the backquote or closing brace before it read. -/
def template (text : Text) : Option (Token × Text) := do
  let (units, valid, isLast, rest) ← templateUnits (text.length + 1) text
  pure (.template (if valid then some (spellUnits units).1 else none) isLast, rest)

/-! ## Regular expressions -/

/-- The body of a regular expression up to its slash, which inside a class is no end. -/
def regexBody (inClass : Bool) : Text → Option (Text × Text)
  | [] => none
  | '\\' :: c :: rest =>
    if isLineEnd c then none
    else (regexBody inClass rest).map fun (body, rest) => ('\\' :: c :: body, rest)
  | c :: rest =>
    if isLineEnd c then none
    else if c = '/' ∧ ¬ inClass then some ([], rest)
    else
      let inClass := if c = '[' then true else if c = ']' then false else inClass
      (regexBody inClass rest).map fun (body, rest) => (c :: body, rest)

def flagLetters : Text := "dgimsuvy"

/-- A regular expression, its first slash read. Flags are known letters, each at most once. -/
def regex (text : Text) : Option (Token × Text) := do
  let (body, rest) ← regexBody false text
  let flags := rest.takeWhile Text.isNamePart
  if flags.all (· ∈ flagLetters) ∧ flags.Nodup then
    pure (.regex body flags, rest.dropWhile Text.isNamePart)
  else none

/-! ## Marks -/

/-- Operators and brackets, each before any that it begins with. A closing angle bracket is always
read alone, as one of several may each close a list of type arguments. -/
def marks : List Text := List.map String.toList [
  "...", "===", "!==", "**=", "<<=", "&&=", "||=", "??=", "=>", "==", "!=", "<=", "++", "--", "+=",
  "-=", "*=", "/=", "%=", "&=", "|=", "^=", "**", "<<", "&&", "||", "??", "?.", "\x7b", "\x7d",
  "(", ")", "[", "]", ".", ";", ",", "<", ">", "=", "+", "-", "*", "/", "%", "&", "|", "^", "!",
  "~", "?", ":", "@"]

/-- What a closing angle bracket may be the start of in an expression. -/
def angleMarks : List Text := List.map String.toList [">>>=", ">>>", ">>=", ">>", ">=", ">"]

def firstOf (marks : List Text) (text : Text) : Option (Token × Text) :=
  marks.findSome? fun m => (Text.dropStart? m text).map fun rest => (Token.mark m, rest)

def mark (text : Text) : Option (Token × Text) :=
  match text with
  | '?' :: '.' :: c :: rest =>
    if decimal c then some (.mark "?", '.' :: c :: rest) else some (.mark "?.", c :: rest)
  | _ => firstOf marks text

/-! ## Tokens -/

def token (text : Text) : Option (Token × Text) :=
  match text with
  | [] => some (.eof, [])
  | '"' :: rest => string '"' rest
  | '\'' :: rest => string '\'' rest
  | '`' :: rest => template rest
  | '#' :: rest => (name rest).map fun (n, _, rest) => (.privateName n, rest)
  | '.' :: c :: _ => if decimal c then number text else mark text
  | c :: _ =>
    if decimal c then number text
    else if c = '\\' ∨ Text.isNameStart c then
      (name text).map fun (n, escaped, rest) => (.word n escaped, rest)
    else mark text

/-- The token here, or the invalid one. -/
def lexemeAt (onNewLine : Bool) (here : Text) (read : Option (Token × Text)) : Lexeme :=
  match read with
  | some (t, rest) => ⟨t, onNewLine, here, rest⟩
  | none => ⟨.invalid, onNewLine, here, []⟩

/-- The next token. -/
def next (html atStart : Bool) (text : Text) : Lexeme :=
  match skipBlanks html .between atStart false text with
  | some (onNewLine, here) => lexemeAt onNewLine here (token here)
  | none => ⟨.invalid, false, text, []⟩

/-- The regular expression that begins where a token that starts with a slash does. -/
def asRegex (l : Lexeme) : Lexeme :=
  lexemeAt l.onNewLine l.here (regex l.here.tail)

/-- The stretch of a template that begins behind a closing brace. -/
def asTemplate (l : Lexeme) : Lexeme :=
  lexemeAt l.onNewLine l.here (template l.here.tail)

/-- The longest operator that begins with a closing angle bracket. -/
def asAngle (l : Lexeme) : Lexeme :=
  lexemeAt l.onNewLine l.here (firstOf angleMarks l.here)

/-- A first opening angle bracket on its own. -/
def asSingleAngle (l : Lexeme) : Lexeme :=
  lexemeAt l.onNewLine l.here (some (.mark "<", l.here.tail))

/-! ## Markup -/

/-- A child of a markup element: its text, or the bracket that begins something else. Closing brackets
are text. -/
def markupChild (text : Text) : Lexeme :=
  match text with
  | [] => ⟨.eof, false, [], []⟩
  | '<' :: rest => ⟨.mark "<", false, text, rest⟩
  | '{' :: rest => ⟨.mark "\x7b", false, text, rest⟩
  | _ => ⟨.markupText, false, text, text.dropWhile fun c => c ≠ '<' ∧ c ≠ '{'⟩

/-- A name in markup: a word, with hyphens. -/
def asMarkupName (l : Lexeme) : Lexeme :=
  match l.token with
  | .word n _ =>
    let more := l.rest.takeWhile fun c => Text.isNamePart c || c == '-'
    { l with token := .word (n ++ more) false, rest := l.rest.drop more.length }
  | _ => l

/-- A value of a markup attribute: strings there have no escapes and may span lines. -/
def markupValue (text : Text) : Lexeme :=
  match skipBlanks false .between false false text with
  | none => ⟨.invalid, false, text, []⟩
  | some (onNewLine, here) =>
    match here with
    | '"' :: rest =>
      match rest.dropWhile (· ≠ '"') with
      | _ :: after => ⟨.string (rest.takeWhile (· ≠ '"')) true, onNewLine, here, after⟩
      | [] => ⟨.invalid, onNewLine, here, []⟩
    | '\'' :: rest =>
      match rest.dropWhile (· ≠ '\'') with
      | _ :: after => ⟨.string (rest.takeWhile (· ≠ '\'')) true, onNewLine, here, after⟩
      | [] => ⟨.invalid, onNewLine, here, []⟩
    | _ => lexemeAt onNewLine here (token here)

end CjsInterop.Syntax.Lexer
