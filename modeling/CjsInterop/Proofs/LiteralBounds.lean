import CjsInterop.Proofs.JsonString
import CjsInterop.Proofs.MapJson
import CjsInterop.Proofs.ReadBack

/-! No text ends its literal early. ECMAScript and JSON have their own grammars of strings between double quotes; at a
quoted text, with anything behind it, both find the same one literal, and its units are those of the text. -/

namespace CjsInterop

namespace Syntax

open Text (units charUnits pointUnits quoted quotedChar)
open Json (HexDigit)

/-! ## The grammar -/

/-- Escapes of one letter, and what they stand for. -/
def letterEscapes : List (Char × Char) :=
  [('\'', '\''), ('"', '"'), ('\\', '\\'), ('b', '\x08'), ('f', '\x0c'), ('n', '\n'), ('r', '\r'), ('t', '\t'),
    ('v', '\x0b')]

def octals : Text := ['0', '1', '2', '3', '4', '5', '6', '7']

/-- What has a meaning of its own behind a backslash, other than those letters. -/
def markStarts : Text := octals ++ ['8', '9', 'x', 'u', '\n', '\r', '\u2028', '\u2029']

def HexDigits (digits : Text) (n : Nat) : Prop :=
  ∃ values, digits ≠ [] ∧ List.Forall₂ HexDigit digits values ∧ n = Nat.ofDigits 16 values.reverse

/-- What may follow a backslash, and the units that it stands for, where `after` is what comes next. Octal escapes are as
long as they can be; `\0` is one of them. Ends of lines stand for nothing. -/
inductive Escaped (after : Text) : Text → List Nat → Prop
  | letter {e c : Char} (h : (e, c) ∈ letterEscapes) : Escaped after [e] (charUnits c)
  | itself {c : Char} (hletter : c ∉ letterEscapes.map Prod.fst) (hmark : c ∉ markStarts) :
      Escaped after [c] (charUnits c)
  | octal {digits : Text} {n : Nat} (hne : digits ≠ []) (hd : ∀ d ∈ digits, d ∈ octals) (hlength : digits.length ≤ 3)
      (hn : n = Nat.ofDigits 8 (digits.map fun d => d.toNat - '0'.toNat).reverse) (hbyte : n < 0x100)
      (hlongest : ∀ d ∈ after.head?, d ∈ octals → digits.length = 3 ∨ 0o37 < n) : Escaped after digits [n]
  | decimal {c : Char} (h : c = '8' ∨ c = '9') : Escaped after [c] (charUnits c)
  | byte {a b : Char} {i j : Nat} (ha : HexDigit a i) (hb : HexDigit b j) : Escaped after ['x', a, b] [i * 0x10 + j]
  | unit {a b c d : Char} {i j k l : Nat} (ha : HexDigit a i) (hb : HexDigit b j) (hc : HexDigit c k) (hd : HexDigit d l) :
      Escaped after ['u', a, b, c, d] [i * 0x1000 + j * 0x100 + k * 0x10 + l]
  | point {digits : Text} {n : Nat} (h : HexDigits digits n) (hn : n ≤ 0x10FFFF) :
      Escaped after ('u' :: '\x7b' :: (digits ++ ['\x7d'])) (pointUnits n)
  | line {c : Char} (h : c ∈ ['\n', '\u2028', '\u2029']) : Escaped after [c] []
  | returned (h : after.head? ≠ some '\n') : Escaped after ['\r'] []
  | returnedLine : Escaped after ['\r', '\n'] []

/-- What may be written between double quotes, and the units that it stands for. -/
inductive DoubleQuoted : Text → List Nat → Prop
  | nil : DoubleQuoted [] []
  | plain {c : Char} {text : Text} {us : List Nat} (hquote : c ≠ '"') (hslash : c ≠ '\\') (hline : c ≠ '\n' ∧ c ≠ '\r')
      (h : DoubleQuoted text us) : DoubleQuoted (c :: text) (charUnits c ++ us)
  | escaped {sequence text : Text} {us more : List Nat} (h : Escaped (text ++ ['"']) sequence us)
      (hmore : DoubleQuoted text more) : DoubleQuoted ('\\' :: (sequence ++ text)) (us ++ more)

/-- A string literal in double quotes, and the units of its value. -/
def StringLiteral (literal : Text) (us : List Nat) : Prop :=
  ∃ body, literal = '"' :: (body ++ ['"']) ∧ DoubleQuoted body us

/-! ## Strings of JSON -/

/-- What JSON lets stand between quotes, ECMAScript does, and for the same units. -/
theorem DoubleQuoted.of_characters {body : Text} {us : List Nat} (h : Json.Characters body us) : DoubleQuoted body us := by
  induction h with
  | nil => exact .nil
  | plain hquote hslash hcontrol h ih =>
    refine .plain hquote hslash ⟨?_, ?_⟩ ih
    · rintro rfl
      exact absurd hcontrol (by decide)
    · rintro rfl
      exact absurd hcontrol (by decide)
  | @escape e c text us he h ih =>
    have hall : ∀ p ∈ Json.escapes, p ∈ letterEscapes ∨ p = ('/', '/') := by decide
    rcases hall _ he with hletter | hslash
    · exact .escaped (.letter hletter) ih
    · obtain ⟨rfl, rfl⟩ := Prod.mk.inj hslash
      exact .escaped (.itself (by decide) (by decide)) ih
  | code ha hb hc hd h ih => exact .escaped (.unit ha hb hc hd) ih

theorem spellsString_quoted (text : Text) : Json.SpellsString (quoted text) (some text) := by
  obtain ⟨s, hs, hspells⟩ := Json.readString_sound (Json.readString_quoted text [])
  rw [List.append_nil] at hs
  rw [quoted, List.cons_append, hs]
  exact hspells

theorem stringLiteral_quoted (text : Text) : StringLiteral (quoted text) (units text) := by
  obtain ⟨body, us, hbody, hcharacters, hvalue⟩ := spellsString_quoted text
  rw [(hvalue text).mp rfl]
  exact ⟨body, hbody, .of_characters hcharacters⟩

/-! ## One literal at most -/

/-- Escapes are told apart by what they begin with. -/
theorem Escaped.begins {after sequence : Text} {us : List Nat} (h : Escaped after sequence us) :
    (∃ e c, (e, c) ∈ letterEscapes ∧ sequence = [e] ∧ us = charUnits c) ∨
      (∃ x y z w n, Json.hexCode? x y z w = some n ∧ sequence = ['u', x, y, z, w] ∧ us = [n]) ∨
      (∃ more, sequence = 'u' :: '\x7b' :: more) ∨
      ∃ d more, sequence = d :: more ∧ d ∉ letterEscapes.map Prod.fst ∧ d ≠ 'u' := by
  have hmarks : ∀ d ∈ markStarts, d ∉ letterEscapes.map Prod.fst := by simp [markStarts, octals, letterEscapes]
  cases h with
  | letter h => exact .inl ⟨_, _, h, rfl, rfl⟩
  | itself hletter hmark =>
    refine .inr (.inr (.inr ⟨_, _, rfl, hletter, ?_⟩))
    rintro rfl
    exact hmark (by decide)
  | octal hne hd =>
    obtain ⟨d, more, rfl⟩ := List.exists_cons_of_ne_nil hne
    have hoctal : ∀ d ∈ octals, d ∈ markStarts ∧ d ≠ 'u' := by simp [markStarts, octals]
    obtain ⟨hmark, hu⟩ := hoctal d (hd d List.mem_cons_self)
    exact .inr (.inr (.inr ⟨d, more, rfl, hmarks d hmark, hu⟩))
  | decimal h => rcases h with rfl | rfl <;> exact .inr (.inr (.inr ⟨_, _, rfl, by decide, by decide⟩))
  | byte => exact .inr (.inr (.inr ⟨_, _, rfl, by decide, by decide⟩))
  | unit ha hb hc hd =>
    exact .inr (.inl ⟨_, _, _, _, _, Json.hexCode?_eq_some_iff.mpr ⟨_, _, _, _, ha, hb, hc, hd, rfl⟩, rfl, rfl⟩)
  | point => exact .inr (.inr (.inl ⟨_, rfl⟩))
  | @line c h =>
    have hends : ∀ d ∈ ['\n', '\u2028', '\u2029'], d ∈ markStarts ∧ d ≠ 'u' := by simp [markStarts]
    obtain ⟨hmark, hu⟩ := hends c h
    exact .inr (.inr (.inr ⟨c, _, rfl, hmarks c hmark, hu⟩))
  | returned => exact .inr (.inr (.inr ⟨_, _, rfl, by decide, by decide⟩))
  | returnedLine => exact .inr (.inr (.inr ⟨_, _, rfl, by decide, by decide⟩))

/-- No escape of one letter goes on like another escape. -/
theorem Escaped.of_letter {after sequence : Text} {us : List Nat} (h : Escaped after sequence us) {e c : Char}
    (he : (e, c) ∈ letterEscapes) {tail text : Text} (hs : sequence ++ tail = e :: text) :
    sequence = [e] ∧ us = charUnits c := by
  have hu : ∀ p ∈ letterEscapes, p.1 ≠ 'u' := by decide
  rcases h.begins with ⟨e', c', h', rfl, rfl⟩ | ⟨x, y, z, w, n, -, rfl, -⟩ | ⟨more, rfl⟩ | ⟨d, more, rfl, hletter, -⟩
  · have hvalue : ∀ p ∈ letterEscapes, ∀ q ∈ letterEscapes, p.1 = q.1 → p.2 = q.2 := by decide
    obtain rfl : e' = e := (List.cons.inj hs).1
    obtain rfl : c' = c := hvalue _ h' _ he rfl
    exact ⟨rfl, rfl⟩
  · exact absurd (List.cons.inj hs).1.symm (hu _ he)
  · exact absurd (List.cons.inj hs).1.symm (hu _ he)
  · obtain rfl := (List.cons.inj hs).1
    exact absurd (List.mem_map_of_mem he) hletter

/-- Nor does one of four digits. -/
theorem Escaped.of_unit {after sequence : Text} {us : List Nat} (h : Escaped after sequence us) {x y z w : Char} {n : Nat}
    (hcode : Json.hexCode? x y z w = some n) {tail text : Text} (hs : sequence ++ tail = 'u' :: x :: y :: z :: w :: text) :
    sequence = ['u', x, y, z, w] ∧ us = [n] := by
  rcases h.begins with ⟨e, c, h', rfl, -⟩ | ⟨a, b, c, d, m, hread, rfl, rfl⟩ | ⟨more, rfl⟩ | ⟨d, more, rfl, -, hu⟩
  · have hu : ∀ p ∈ letterEscapes, p.1 ≠ 'u' := by decide
    exact absurd (List.cons.inj hs).1 (hu _ h')
  · obtain ⟨rfl, rfl, rfl, rfl, -⟩ : a = x ∧ b = y ∧ c = z ∧ d = w ∧ tail = text := by simpa using hs
    exact ⟨rfl, by rw [Option.some.inj (hread.symm.trans hcode)]⟩
  · -- A brace is no digit.
    obtain rfl : '\x7b' = x := (List.cons.inj (List.cons.inj hs).2).1
    obtain ⟨i, -, -, -, hdigit, -⟩ := Json.hexCode?_eq_some_iff.mp hcode
    rw [← Json.hexDigit?_eq_some_iff] at hdigit
    cases hdigit
  · exact absurd (List.cons.inj hs).1 hu

/-- A character is spelled by a letter, by its four digits, or by itself. -/
theorem quotedChar_cases (c : Char) :
    (∃ e, (e, c) ∈ letterEscapes ∧ quotedChar c = ['\\', e]) ∨
      (∃ x y z w, Json.hexCode? x y z w = some c.toNat ∧ c.toNat < 0x20 ∧ quotedChar c = ['\\', 'u', x, y, z, w]) ∨
      (c ≠ '"' ∧ c ≠ '\\' ∧ quotedChar c = [c]) := by
  unfold quotedChar
  split
  iterate 7 exact .inl ⟨_, by decide, rfl⟩
  · next hquote hslash _ _ _ _ _ =>
    by_cases hc : c.toNat < 0x20
    · obtain ⟨x, y, z, w, hhex, hcode⟩ := Json.hexCode?_control hc
      refine .inr (.inl ⟨x, y, z, w, hcode, hc, ?_⟩)
      rw [if_pos hc, hhex]
      rfl
    · exact .inr (.inr ⟨fun h => hquote h, fun h => hslash h, if_neg hc⟩)

/-- What spells a character spells it in every literal. -/
theorem DoubleQuoted.of_quotedChar {body : Text} {us : List Nat} (h : DoubleQuoted body us) {c : Char} {rest text : Text}
    (he : body ++ '"' :: rest = quotedChar c ++ text) :
    ∃ more us', body = quotedChar c ++ more ∧ us = charUnits c ++ us' ∧ DoubleQuoted more us' := by
  rcases quotedChar_cases c with ⟨e, hletter, hspell⟩ | ⟨x, y, z, w, hcode, hcontrol, hspell⟩ | ⟨hquote, hslash, hspell⟩
  all_goals rw [hspell] at he ⊢
  · cases h with
    | nil => exact absurd (List.cons.inj he).1 (by decide)
    | plain _ hslash => exact absurd (List.cons.inj he).1 hslash
    | @escaped sequence behind _ _ hsequence hmore =>
      have htail : sequence ++ (behind ++ '"' :: rest) = e :: text := by simpa using he
      obtain ⟨rfl, rfl⟩ := hsequence.of_letter hletter htail
      exact ⟨_, _, rfl, rfl, hmore⟩
  · have hunits : charUnits c = [c.toNat] := if_pos (by omega)
    cases h with
    | nil => exact absurd (List.cons.inj he).1 (by decide)
    | plain _ hslash => exact absurd (List.cons.inj he).1 hslash
    | @escaped sequence behind _ _ hsequence hmore =>
      have htail : sequence ++ (behind ++ '"' :: rest) = 'u' :: x :: y :: z :: w :: text := by simpa using he
      obtain ⟨rfl, rfl⟩ := hsequence.of_unit hcode htail
      exact ⟨_, _, rfl, by rw [hunits], hmore⟩
  · cases h with
    | nil => exact absurd (List.cons.inj he).1.symm hquote
    | plain _ _ _ h =>
      obtain rfl := (List.cons.inj he).1
      exact ⟨_, _, rfl, rfl, h⟩
    | escaped => exact absurd (List.cons.inj he).1.symm hslash

theorem DoubleQuoted.of_quoted {body : Text} {us : List Nat} (h : DoubleQuoted body us) {text rest after : Text}
    (he : body ++ '"' :: after = text.flatMap quotedChar ++ '"' :: rest) :
    body = text.flatMap quotedChar ∧ us = units text ∧ after = rest := by
  induction text generalizing body us with
  | nil =>
    cases h with
    | nil => exact ⟨rfl, rfl, (List.cons.inj he).2⟩
    | plain hquote => exact absurd (List.cons.inj he).1 hquote
    | escaped => exact absurd (List.cons.inj he).1 (by decide)
  | cons c text ih =>
    rw [List.flatMap_cons, List.append_assoc] at he
    obtain ⟨more, us', rfl, rfl, hmore⟩ := h.of_quotedChar he
    rw [List.append_assoc] at he
    obtain ⟨rfl, rfl, rfl⟩ := ih hmore (List.append_cancel_left he)
    exact ⟨rfl, rfl, rfl⟩

theorem quoted_append (text rest : Text) : quoted text ++ rest = '"' :: (text.flatMap quotedChar ++ '"' :: rest) := by
  simp [quoted]

/-- At a quoted text there is no other literal. -/
theorem StringLiteral.eq_quoted {literal : Text} {us : List Nat} (h : StringLiteral literal us) {text rest after : Text}
    (he : literal ++ after = quoted text ++ rest) : literal = quoted text ∧ us = units text ∧ after = rest := by
  obtain ⟨body, rfl, hbody⟩ := h
  have hbehind : body ++ '"' :: after = text.flatMap quotedChar ++ '"' :: rest := by
    rw [quoted_append] at he
    simpa using he
  obtain ⟨rfl, hus, hafter⟩ := hbody.of_quoted hbehind
  exact ⟨by simp [quoted], hus, hafter⟩

/-- Nor another string of JSON. -/
theorem spellsString_eq_quoted {literal : Text} {value : Option Text} (h : Json.SpellsString literal value)
    {text rest after : Text} (he : literal ++ after = quoted text ++ rest) :
    literal = quoted text ∧ value = some text ∧ after = rest := by
  obtain ⟨body, us, hliteral, hcharacters, hvalue⟩ := h
  obtain ⟨rfl, rfl, rfl⟩ := StringLiteral.eq_quoted ⟨body, hliteral, .of_characters hcharacters⟩ he
  exact ⟨rfl, (hvalue text).mpr rfl, rfl⟩

/-! ## Keys -/

open Text (isName propertyKey)

/-- In front of a colon a key is read as the property that it was written for. -/
theorem reads_propertyKey (p : Rules) (context : Context) (name rest : Text) :
    Reader.Reads (Reader.propertyName p) context (propertyKey name ++ (": ".toList ++ rest)) (keyTree name)
      (": ".toList ++ rest) := by
  unfold propertyKey keyTree
  by_cases hname : isName name = true
  · rw [if_pos hname, if_pos hname]
    have hword : Lexer.Begins (name ++ (": ".toList ++ rest)) (.word name false) (": ".toList ++ rest) :=
      .name hname (Reader.endsName_mark (m := ":".toList) (by decide) (' ' :: rest))
    exact .bind (Reader.reads_token hword) (.bind (Reader.bump_standing hword) rfl)
  · rw [if_neg hname, if_neg hname]
    have hstring := Lexer.Begins.quoted name (": ".toList ++ rest)
    exact .bind (Reader.reads_token hstring) (.bind (Reader.bump_standing hstring) rfl)

theorem quoted_ne_self (text : Text) : quoted text ≠ text := by
  intro he
  have hlength := congrArg List.length he
  have hle := Lexer.length_le_quoted text
  simp only [quoted, List.cons_append, List.length_cons, List.length_append, List.length_nil] at hlength
  omega

theorem propertyKey_eq_self_iff {name : Text} : propertyKey name = name ↔ isName name = true := by
  unfold propertyKey
  by_cases hname : isName name = true
  · rw [if_pos hname]
    exact iff_of_true rfl hname
  · rw [if_neg hname]
    exact iff_of_false (quoted_ne_self name) hname

/-- A name is what is read as one word, as it stands. -/
theorem isName_iff_token {name : Text} : isName name = true ↔ Lexer.token name = some (.word name false, []) := by
  constructor
  · intro hname
    have hread := @Lexer.token_name name [] hname (fun _ h => by cases h)
    rwa [List.append_nil] at hread
  · exact Lexer.isName_of_token

/-- At a quoted text, whatever stands behind it, the readers and the grammars of ECMAScript and JSON find one string, which
is the text, and where it ends; so quoted texts are told apart by what they begin with. A key is the property it was
written for, and is bare when it is a name. -/
theorem literal_bounded (text rest : Text) :
    Lexer.token (quoted text ++ rest) = some (.string text true, rest) ∧
      (∀ fuel, Json.readValue (fuel + 1) (quoted text ++ rest) = some (.string (some text), rest)) ∧
      (StringLiteral (quoted text) (units text) ∧ Json.SpellsString (quoted text) (some text)) ∧
      (∀ literal us after, StringLiteral literal us → literal ++ after = quoted text ++ rest →
        literal = quoted text ∧ us = units text ∧ after = rest) ∧
      (∀ literal value after, Json.SpellsString literal value → literal ++ after = quoted text ++ rest →
        literal = quoted text ∧ value = some text ∧ after = rest) ∧
      (∀ other after, quoted other ++ after = quoted text ++ rest → other = text ∧ after = rest) ∧
      (∀ p context, Reader.Reads (Reader.propertyName p) context (propertyKey text ++ (": ".toList ++ rest)) (keyTree text)
        (": ".toList ++ rest)) ∧
      staticName? (keyTree text) = some text ∧
      (propertyKey text = text ↔ isName text = true) ∧
      (isName text = true ↔ Lexer.token text = some (.word text false, [])) := by
  refine ⟨Lexer.token_quoted text rest, fun fuel => Json.readValue_quoted fuel text rest,
    ⟨stringLiteral_quoted text, spellsString_quoted text⟩, fun _ _ _ h he => h.eq_quoted he,
    fun _ _ _ h he => spellsString_eq_quoted h he, fun other after he => ?_,
    fun p context => reads_propertyKey p context text rest, staticName?_keyTree text, propertyKey_eq_self_iff,
    isName_iff_token⟩
  obtain ⟨-, hus, hafter⟩ := (stringLiteral_quoted other).eq_quoted he
  exact ⟨Text.units_injective hus, hafter⟩

end Syntax

end CjsInterop
