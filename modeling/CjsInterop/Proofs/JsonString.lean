import CjsInterop.Json.Reader
import Mathlib

/-! The strings of JSON, as the standard has them: what is written between the quotes stands for UTF-16 units, and the
string is a text when these are the units of one. A reader takes just these strings, in front of anything. -/

namespace CjsInterop

namespace Text

/-- The UTF-16 units of a code point. -/
def pointUnits (n : Nat) : List Nat :=
  if n < 0x10000 then [n] else [0xD800 + (n - 0x10000) / 0x400, 0xDC00 + (n - 0x10000) % 0x400]

def charUnits (c : Char) : List Nat := pointUnits c.toNat

def units (text : Text) : List Nat := text.flatMap charUnits

theorem char_range (c : Char) : c.toNat < 0xD800 ∨ (0xE000 ≤ c.toNat ∧ c.toNat < 0x110000) := by
  rcases c.valid with h | h
  · exact .inl h
  · exact .inr ⟨by have := h.1; exact this, h.2⟩

theorem toNat_ofNat {n : Nat} (h : n < 0xD800 ∨ (0xE000 ≤ n ∧ n < 0x110000)) : (Char.ofNat n).toNat = n := by
  have hv : n.isValidChar := by
    rcases h with h | h
    · exact .inl h
    · exact .inr ⟨by omega, h.2⟩
  rw [Char.ofNat, dif_pos hv]
  rfl

/-- The first unit of a text is a character, or with the next one the two halves of one. -/
theorem units_eq_cons {text : Text} {n : Nat} {us : List Nat} (h : units text = n :: us) :
    ∃ c rest, text = c :: rest ∧
      ((c.toNat = n ∧ units rest = us) ∨
        ∃ low more, us = low :: more ∧ 0xD800 ≤ n ∧ n < 0xDC00 ∧ 0xDC00 ≤ low ∧ low < 0xE000 ∧
          c.toNat = 0x10000 + (n - 0xD800) * 0x400 + (low - 0xDC00) ∧ units rest = more) := by
  cases text with
  | nil => simp [units] at h
  | cons c rest =>
    refine ⟨c, rest, rfl, ?_⟩
    have hc := char_range c
    rw [units, List.flatMap_cons] at h
    by_cases hsmall : c.toNat < 0x10000
    · rw [charUnits, pointUnits, if_pos hsmall, List.singleton_append] at h
      exact .inl (List.cons.inj h)
    · rw [charUnits, pointUnits, if_neg hsmall, List.cons_append, List.singleton_append] at h
      obtain ⟨hhigh, hlow⟩ := List.cons.inj h
      refine .inr ⟨_, _, hlow.symm, ?_, ?_, ?_, ?_, ?_, rfl⟩ <;> omega

theorem units_eq_append {text : Text} {c : Char} {us : List Nat} (h : units text = charUnits c ++ us) :
    ∃ rest, text = c :: rest ∧ units rest = us := by
  have hc := char_range c
  by_cases hsmall : c.toNat < 0x10000
  · rw [charUnits, pointUnits, if_pos hsmall, List.singleton_append] at h
    obtain ⟨d, rest, rfl, ⟨hd, hrest⟩ | ⟨low, more, -, hn⟩⟩ := units_eq_cons h
    · rw [Char.toNat_inj.mp hd]
      exact ⟨rest, rfl, hrest⟩
    · omega
  · rw [charUnits, pointUnits, if_neg hsmall, List.cons_append, List.singleton_append] at h
    obtain ⟨d, rest, rfl, ⟨hd, -⟩ | ⟨low, more, hlow, -, -, -, -, hd, hrest⟩⟩ := units_eq_cons h
    · have := char_range d
      omega
    · obtain ⟨rfl, rfl⟩ := List.cons.inj hlow
      have hcd : d.toNat = c.toNat := by omega
      rw [Char.toNat_inj.mp hcd]
      exact ⟨rest, rfl, hrest⟩

theorem charUnits_ne_nil (c : Char) : charUnits c ≠ [] := by
  unfold charUnits pointUnits
  split <;> exact List.cons_ne_nil _ _

/-- A text is known by its units. -/
theorem units_injective : Function.Injective units := by
  intro a b h
  induction a generalizing b with
  | nil =>
    cases b with
    | nil => rfl
    | cons d b =>
      have hnil : charUnits d ++ units b = [] := h.symm
      exact absurd (List.append_eq_nil_iff.mp hnil).1 (charUnits_ne_nil d)
  | cons c a ih =>
    obtain ⟨rest, rfl, hrest⟩ := @units_eq_append b c (units a) h.symm
    rw [ih hrest.symm]

theorem charUnits_ofNat {n : Nat} (h : n < 0xD800 ∨ 0xE000 ≤ n) (hn : n < 0x10000) : charUnits (Char.ofNat n) = [n] := by
  have hc : (Char.ofNat n).toNat = n := toNat_ofNat (by omega)
  rw [charUnits, hc, pointUnits, if_pos hn]

theorem charUnits_pair {high low : Nat} (hh : 0xD800 ≤ high ∧ high < 0xDC00) (hl : 0xDC00 ≤ low ∧ low < 0xE000) :
    charUnits (Char.ofNat (0x10000 + (high - 0xD800) * 0x400 + (low - 0xDC00))) = [high, low] := by
  have hc := @toNat_ofNat (0x10000 + (high - 0xD800) * 0x400 + (low - 0xDC00)) (by omega)
  have hhigh : 0xD800 + (0x10000 + (high - 0xD800) * 0x400 + (low - 0xDC00) - 0x10000) / 0x400 = high := by omega
  have hlow : 0xDC00 + (0x10000 + (high - 0xD800) * 0x400 + (low - 0xDC00) - 0x10000) % 0x400 = low := by omega
  rw [charUnits, hc, pointUnits, if_neg (by omega), hhigh, hlow]

/-- No character begins with the second half of a pair. -/
theorem charUnits_head {c : Char} {n : Nat} (h : (charUnits c).head? = some n) : n < 0xDC00 ∨ 0xE000 ≤ n := by
  have hc := char_range c
  unfold charUnits pointUnits at h
  split at h
  · obtain rfl := Option.some.inj h
    omega
  · obtain rfl := Option.some.inj h
    omega

end Text

namespace Json

open Text (units charUnits)

/-! ## The grammar -/

/-- A hexadecimal digit and its value. -/
def HexDigit (c : Char) (n : Nat) : Prop :=
  "0123456789abcdef".toList[n]? = some c ∨ "0123456789ABCDEF".toList[n]? = some c

/-- Escapes of one letter, and what they stand for. -/
def escapes : List (Char × Char) :=
  [('"', '"'), ('\\', '\\'), ('/', '/'), ('b', '\x08'), ('f', '\x0c'), ('n', '\n'), ('r', '\r'), ('t', '\t')]

/-- What may be written between the quotes of a string, and the units that it stands for. -/
inductive Characters : Text → List Nat → Prop
  | nil : Characters [] []
  | plain {c : Char} {text : Text} {us : List Nat} (hquote : c ≠ '"') (hslash : c ≠ '\\') (hcontrol : 0x20 ≤ c.toNat)
      (h : Characters text us) : Characters (c :: text) (charUnits c ++ us)
  | escape {e c : Char} {text : Text} {us : List Nat} (he : (e, c) ∈ escapes) (h : Characters text us) :
      Characters ('\\' :: e :: text) (charUnits c ++ us)
  | code {a b c d : Char} {i j k l : Nat} {text : Text} {us : List Nat} (ha : HexDigit a i) (hb : HexDigit b j)
      (hc : HexDigit c k) (hd : HexDigit d l) (h : Characters text us) :
      Characters ('\\' :: 'u' :: a :: b :: c :: d :: text) ((i * 0x1000 + j * 0x100 + k * 0x10 + l) :: us)

/-- A string with its quotes, and the text that it stands for, if its units are those of one. -/
def SpellsString (text : Text) (value : Option Text) : Prop :=
  ∃ body us, text = '"' :: (body ++ ['"']) ∧ Characters body us ∧ ∀ t, value = some t ↔ units t = us

/-! ## Characters -/

theorem hexDigit?_eq_some_iff {c : Char} {n : Nat} : hexDigit? c = some n ↔ HexDigit c n := by
  constructor
  · intro h
    have hdecimal : ∀ k < 10, "0123456789abcdef".toList[k]? = some (Char.ofNat (k + 48)) := by decide
    have hlower : ∀ k < 6, "0123456789abcdef".toList[k + 10]? = some (Char.ofNat (k + 97)) := by decide
    have hupper : ∀ k < 6, "0123456789ABCDEF".toList[k + 10]? = some (Char.ofNat (k + 65)) := by decide
    have hc : ∀ k m, m ≤ c.toNat → c.toNat - m = k → Char.ofNat (k + m) = c := by
      intro k m hm hk
      rw [← hk, Nat.sub_add_cancel hm, Char.ofNat_toNat]
    unfold hexDigit? at h
    split at h
    · next hr =>
      have hlow : 48 ≤ c.toNat := hr.1
      have hhigh : c.toNat ≤ 57 := hr.2
      obtain rfl : c.toNat - 48 = n := Option.some.inj h
      exact .inl ((hdecimal _ (by omega)).trans (congrArg some (hc _ 48 hlow rfl)))
    · split at h
      · next hr =>
        have hlow : 97 ≤ c.toNat := hr.1
        have hhigh : c.toNat ≤ 102 := hr.2
        obtain rfl : c.toNat - 97 + 10 = n := Option.some.inj h
        exact .inl ((hlower _ (by omega)).trans (congrArg some (hc _ 97 hlow rfl)))
      · split at h
        · next hr =>
          have hlow : 65 ≤ c.toNat := hr.1
          have hhigh : c.toNat ≤ 70 := hr.2
          obtain rfl : c.toNat - 65 + 10 = n := Option.some.inj h
          exact .inr ((hupper _ (by omega)).trans (congrArg some (hc _ 65 hlow rfl)))
        · cases h
  · have hlength : ∀ digits : Text, digits[n]? = some c → n < digits.length :=
      fun digits h => (List.getElem?_eq_some_iff.mp h).1
    rintro (h | h)
    · have hn : n < 16 := hlength _ h
      interval_cases n <;> (obtain rfl := Option.some.inj h; rfl)
    · have hn : n < 16 := hlength _ h
      interval_cases n <;> (obtain rfl := Option.some.inj h; rfl)

theorem HexDigit.lt {c : Char} {n : Nat} (h : HexDigit c n) : n < 16 := by
  rcases h with h | h <;> exact (List.getElem?_eq_some_iff.mp h).1

theorem hexCode?_eq_some_iff {a b c d : Char} {n : Nat} :
    hexCode? a b c d = some n ↔ ∃ i j k l, HexDigit a i ∧ HexDigit b j ∧ HexDigit c k ∧ HexDigit d l ∧
      n = i * 0x1000 + j * 0x100 + k * 0x10 + l := by
  simp only [← hexDigit?_eq_some_iff, hexCode?, Option.bind_eq_bind, Option.bind_eq_some_iff, Option.pure_def,
    Option.some.injEq]
  constructor
  · rintro ⟨i, ha, j, hb, k, hc, l, hd, hn⟩
    exact ⟨i, j, k, l, ha, hb, hc, hd, by omega⟩
  · rintro ⟨i, j, k, l, ha, hb, hc, hd, hn⟩
    exact ⟨i, ha, j, hb, k, hc, l, hd, by omega⟩

theorem simpleEscape?_eq_some_iff {e c : Char} : simpleEscape? e = some c ↔ (e, c) ∈ escapes := by
  simp only [escapes, List.mem_cons, List.not_mem_nil, or_false, Prod.mk.injEq]
  unfold simpleEscape?
  constructor
  · intro h
    split at h <;> simp_all [eq_comm]
  · rintro (⟨rfl, rfl⟩ | ⟨rfl, rfl⟩ | ⟨rfl, rfl⟩ | ⟨rfl, rfl⟩ | ⟨rfl, rfl⟩ | ⟨rfl, rfl⟩ | ⟨rfl, rfl⟩ | ⟨rfl, rfl⟩) <;> rfl

/-- The units of what is read between quotes. -/
def Piece.units : Piece → List Nat
  | .char c => charUnits c
  | .code n => [n]

/-- Codes of escapes are units. -/
def IsUnits (pieces : List Piece) : Prop := ∀ n, .code n ∈ pieces → n < 0x10000

theorem readPieces_sound {text rest : Text} {pieces : List Piece} (h : readPieces text = some (pieces, rest)) :
    ∃ body, text = body ++ '"' :: rest ∧ Characters body (pieces.flatMap Piece.units) ∧ IsUnits pieces := by
  fun_induction readPieces generalizing pieces rest with
  | case1 => cases h
  | case2 rest =>
    obtain ⟨rfl, rfl⟩ := Prod.mk.inj (Option.some.inj h)
    exact ⟨[], rfl, .nil, fun _ h => by cases h⟩
  | case3 a b c d text ih =>
    obtain ⟨n, hcode, h⟩ := Option.bind_eq_some_iff.mp h
    obtain ⟨⟨more, after⟩, hmore, h⟩ := Option.bind_eq_some_iff.mp h
    obtain ⟨rfl, rfl⟩ := Prod.mk.inj (Option.some.inj h)
    obtain ⟨body, rfl, hbody, hunits⟩ := ih hmore
    obtain ⟨i, j, k, l, ha, hb, hc, hd, rfl⟩ := hexCode?_eq_some_iff.mp hcode
    refine ⟨'\\' :: 'u' :: a :: b :: c :: d :: body, rfl, .code ha hb hc hd hbody, fun m hm => ?_⟩
    rcases List.mem_cons.mp hm with hm | hm
    · have hi := ha.lt
      have hj := hb.lt
      have hk := hc.lt
      have hl := hd.lt
      rw [Piece.code.inj hm]
      omega
    · exact hunits m hm
  | case4 e text hhex ih =>
    obtain ⟨c, hescape, h⟩ := Option.bind_eq_some_iff.mp h
    obtain ⟨⟨more, after⟩, hmore, h⟩ := Option.bind_eq_some_iff.mp h
    obtain ⟨rfl, rfl⟩ := Prod.mk.inj (Option.some.inj h)
    obtain ⟨body, rfl, hbody, hunits⟩ := ih hmore
    refine ⟨'\\' :: e :: body, rfl, .escape (simpleEscape?_eq_some_iff.mp hescape) hbody, fun m hm => ?_⟩
    rcases List.mem_cons.mp hm with hm | hm
    · cases hm
    · exact hunits m hm
  | case5 c text hquote hhex hslash hcontrol => cases h
  | case6 c text hquote hhex hslash hcontrol ih =>
    obtain ⟨⟨more, after⟩, hmore, h⟩ := Option.bind_eq_some_iff.mp h
    obtain ⟨rfl, rfl⟩ := Prod.mk.inj (Option.some.inj h)
    obtain ⟨body, rfl, hbody, hunits⟩ := ih hmore
    refine ⟨c :: body, rfl, .plain (fun hc => hquote hc) ?_ (Nat.le_of_not_lt hcontrol) hbody, fun m hm => ?_⟩
    · rintro rfl
      obtain ⟨e, last, he⟩ := List.exists_cons_of_ne_nil (show body ++ '"' :: after ≠ [] by simp)
      exact hslash e last rfl he
    · rcases List.mem_cons.mp hm with hm | hm
      · cases hm
      · exact hunits m hm

theorem readPieces_complete {body : Text} {us : List Nat} (h : Characters body us) (rest : Text) :
    ∃ pieces, readPieces (body ++ '"' :: rest) = some (pieces, rest) ∧ pieces.flatMap Piece.units = us := by
  induction h with
  | nil => exact ⟨[], rfl, rfl⟩
  | @plain c text us hquote hslash hcontrol h ih =>
    obtain ⟨pieces, hread, rfl⟩ := ih
    refine ⟨.char c :: pieces, ?_, rfl⟩
    rw [List.cons_append, readPieces, if_neg (Nat.not_lt_of_le hcontrol), hread]
    · rfl
    · exact hquote
    · exact fun _ _ _ _ _ hc _ => hslash hc
    · exact fun _ _ hc _ => hslash hc
  | @escape e c text us he h ih =>
    obtain ⟨pieces, hread, rfl⟩ := ih
    have hu : e ≠ 'u' := by
      rintro rfl
      cases simpleEscape?_eq_some_iff.mpr he
    refine ⟨.char c :: pieces, ?_, rfl⟩
    rw [List.cons_append, List.cons_append, readPieces, simpleEscape?_eq_some_iff.mpr he, hread]
    · rfl
    · exact fun _ _ _ _ _ he _ => hu he
  | @code a b c d i j k l text us ha hb hc hd h ih =>
    obtain ⟨pieces, hread, rfl⟩ := ih
    have hcode := hexCode?_eq_some_iff.mpr ⟨i, j, k, l, ha, hb, hc, hd, rfl⟩
    refine ⟨.code (i * 0x1000 + j * 0x100 + k * 0x10 + l) :: pieces, ?_, rfl⟩
    simp only [List.cons_append, readPieces, hcode, hread]
    rfl

theorem IsUnits.tail {p : Piece} {pieces : List Piece} (h : IsUnits (p :: pieces)) : IsUnits pieces :=
  fun n hn => h n (List.mem_cons_of_mem _ hn)

/-- Where the first pieces spell a character, the rest spells the rest of the text. -/
theorem decode_map_iff {rest : List Piece} {c : Char} {us : List Nat} (hus : us = charUnits c ++ rest.flatMap Piece.units)
    (ih : ∀ {text : Text}, decode rest = some text ↔ units text = rest.flatMap Piece.units) {text : Text} :
    (decode rest).map (c :: ·) = some text ↔ units text = us := by
  rw [Option.map_eq_some_iff, hus]
  constructor
  · rintro ⟨more, hmore, rfl⟩
    rw [units, List.flatMap_cons]
    exact congrArg _ (ih.mp hmore)
  · intro h
    obtain ⟨more, rfl, hmore⟩ := Text.units_eq_append h
    exact ⟨more, ih.mpr hmore, rfl⟩

/-- A half of a pair must be the first one, with the second behind it. -/
theorem units_half {text : Text} {n : Nat} {us : List Nat} (hn : 0xD800 ≤ n ∧ n < 0xE000) (h : units text = n :: us) :
    n < 0xDC00 ∧ ∃ low more, us = low :: more ∧ 0xDC00 ≤ low ∧ low < 0xE000 := by
  obtain ⟨c, rest, rfl, ⟨hc, -⟩ | ⟨low, more, hlow, -, hhigh, hle, hlt, -⟩⟩ := Text.units_eq_cons h
  · have := Text.char_range c
    omega
  · exact ⟨hhigh, low, more, hlow, hle, hlt⟩

theorem decode_eq_some_iff {pieces : List Piece} (h : IsUnits pieces) {text : Text} :
    decode pieces = some text ↔ units text = pieces.flatMap Piece.units := by
  fun_induction decode generalizing text with
  | case1 =>
    have hnil : units ([] : Text) = [] := rfl
    rw [List.flatMap_nil, ← hnil, Text.units_injective.eq_iff, Option.some.injEq, eq_comm]
  | case2 c rest ih => exact decode_map_iff rfl (ih h.tail)
  | case3 high low rest hhigh hlow ih =>
    exact decode_map_iff (by rw [Text.charUnits_pair hhigh hlow]; rfl) (ih h.tail.tail)
  | case4 high low rest hhigh hlow =>
    refine iff_of_false (fun h => by cases h) fun hu => ?_
    obtain ⟨-, d, more, hd, hrange⟩ := units_half ⟨hhigh.1, by omega⟩ hu
    exact hlow ((List.cons.inj hd).1 ▸ hrange)
  | case5 high low rest hhigh hlow =>
    refine iff_of_false (fun h => by cases h) fun hu => ?_
    have hhalf := (units_half ⟨by omega, hlow.2⟩ hu).1
    omega
  | case6 high low rest hhigh hlow ih =>
    have hrange : high < 0xD800 ∨ 0xE000 ≤ high := by omega
    exact decode_map_iff (by rw [Text.charUnits_ofNat hrange (h high List.mem_cons_self)]; rfl) (ih h.tail)
  | case7 n rest hnext hn =>
    refine iff_of_false (fun h => by cases h) fun hu => ?_
    obtain ⟨-, d, more, hd, hrange⟩ := units_half hn hu
    cases rest with
    | nil => cases hd
    | cons p rest =>
      cases p with
      | code m => exact hnext m rest rfl
      | char c =>
        have hhead : (charUnits c).head? = some d := by
          have he : (charUnits c ++ rest.flatMap Piece.units).head? = some d := congrArg List.head? hd
          rwa [List.head?_append_of_ne_nil _ (Text.charUnits_ne_nil c)] at he
        have := Text.charUnits_head hhead
        omega
  | case8 n rest hnext hn ih =>
    have hrange : n < 0xD800 ∨ 0xE000 ≤ n := by omega
    exact decode_map_iff (by rw [Text.charUnits_ofNat hrange (h n List.mem_cons_self)]; rfl) (ih h.tail)

/-! ## Strings -/

theorem readString_sound {text rest : Text} {value : Option Text} (h : readString text = some (value, rest)) :
    ∃ s, '"' :: text = s ++ rest ∧ SpellsString s value := by
  obtain ⟨⟨pieces, after⟩, hread, h⟩ := Option.map_eq_some_iff.mp h
  obtain ⟨rfl, rfl⟩ := Prod.mk.inj h
  obtain ⟨body, rfl, hbody, hunits⟩ := readPieces_sound hread
  refine ⟨'"' :: (body ++ ['"']), ?_, body, _, rfl, hbody, fun t => decode_eq_some_iff hunits⟩
  simp

theorem readString_complete {s : Text} {value : Option Text} (h : SpellsString s value) (rest : Text) :
    ∃ body, s = '"' :: body ∧ readString (body ++ rest) = some (value, rest) := by
  obtain ⟨body, us, rfl, hbody, hvalue⟩ := h
  obtain ⟨pieces, hread, rfl⟩ := readPieces_complete hbody rest
  obtain ⟨-, -, -, hunits⟩ := readPieces_sound hread
  have hdecode : decode pieces = value := by
    apply Option.ext
    intro t
    rw [decode_eq_some_iff hunits, ← hvalue t]
  refine ⟨body ++ ['"'], rfl, ?_⟩
  rw [List.append_assoc, List.singleton_append, readString, hread, ← hdecode]
  rfl

end Json
end CjsInterop
