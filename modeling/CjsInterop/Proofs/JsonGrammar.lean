import CjsInterop.Proofs.JsonString

/-! The grammar of JSON as the standard has it, and that the reader decides it: what it makes of a text is the one value
that the text spells, and it refuses a text only when that spells nothing. -/

namespace CjsInterop.Json

/-! ## The grammar -/

/-- What may stand between the parts of a text. -/
def Blanks (text : Text) : Prop := ∀ c ∈ text, c ∈ [' ', '\t', '\n', '\r']

def Digits (text : Text) : Prop := text ≠ [] ∧ ∀ c ∈ text, c ∈ "0123456789".toList

/-- A number has no zero in front of its other digits. -/
def Whole (text : Text) : Prop := Digits text ∧ (text.head? = some '0' → text = ['0'])

def Fraction (text : Text) : Prop := text = [] ∨ ∃ digits, text = '.' :: digits ∧ Digits digits

def Exponent (text : Text) : Prop :=
  text = [] ∨ ∃ e sign digits, text = e :: (sign ++ digits) ∧ (e = 'e' ∨ e = 'E') ∧ sign ∈ [[], ['+'], ['-']] ∧
    Digits digits

/-- A number without a sign. -/
def Magnitude (text : Text) : Prop :=
  ∃ whole fraction exponent, text = whole ++ fraction ++ exponent ∧ Whole whole ∧ Fraction fraction ∧ Exponent exponent

def Number (text : Text) : Prop := Magnitude text ∨ ∃ magnitude, text = '-' :: magnitude ∧ Magnitude magnitude

mutual

/-- The text is the value written down, with nothing in front of it or behind. -/
inductive Spells : Text → Json → Prop
  | null : Spells "null" .null
  | isTrue : Spells "true" (.bool true)
  | isFalse : Spells "false" (.bool false)
  | number {text : Text} (h : Number text) : Spells text (.number text)
  | string {text : Text} {value : Option Text} (h : SpellsString text value) : Spells text (.string value)
  | emptyArray {blanks : Text} (hb : Blanks blanks) : Spells ('[' :: (blanks ++ [']'])) (.array [])
  | array {text : Text} {items : List Json} (h : SpellsItems text items) : Spells ('[' :: (text ++ [']'])) (.array items)
  | emptyObject {blanks : Text} (hb : Blanks blanks) : Spells ('\x7b' :: (blanks ++ ['\x7d'])) (.object [])
  | object {text : Text} {members : List (Option Text × Json)} (h : SpellsMembers text members) :
      Spells ('\x7b' :: (text ++ ['\x7d'])) (.object members)

/-- One value or more, with commas between them. -/
inductive SpellsItems : Text → List Json → Prop
  | one {before text after : Text} {item : Json} (hb : Blanks before) (h : Spells text item) (ha : Blanks after) :
      SpellsItems (before ++ text ++ after) [item]
  | more {before text after rest : Text} {item : Json} {items : List Json} (hb : Blanks before) (h : Spells text item)
      (ha : Blanks after) (hmore : SpellsItems rest items) :
      SpellsItems (before ++ text ++ after ++ ',' :: rest) (item :: items)

/-- One member or more, with commas between them. -/
inductive SpellsMembers : Text → List (Option Text × Json) → Prop
  | one {text : Text} {member : Option Text × Json} (h : SpellsMember text member) : SpellsMembers text [member]
  | more {text rest : Text} {member : Option Text × Json} {members : List (Option Text × Json)}
      (h : SpellsMember text member) (hmore : SpellsMembers rest members) :
      SpellsMembers (text ++ ',' :: rest) (member :: members)

/-- A key and its value. -/
inductive SpellsMember : Text → Option Text × Json → Prop
  | mk {before name between gap text after : Text} {key : Option Text} {value : Json} (hb : Blanks before)
      (hkey : SpellsString name key) (hc : Blanks between) (hg : Blanks gap) (h : Spells text value) (ha : Blanks after) :
      SpellsMember (before ++ name ++ between ++ ':' :: (gap ++ text ++ after)) (key, value)

end

/-- The whole text spells the value. -/
def SpellsText (text : Text) (value : Json) : Prop :=
  ∃ before core after, text = before ++ core ++ after ∧ Blanks before ∧ Blanks after ∧ Spells core value

/-! ## Blanks -/

theorem blanks_iff {text : Text} : Blanks text ↔ ∀ c ∈ text, isBlank c = true := by
  refine forall₂_congr fun c _ => ?_
  simp [isBlank]
  tauto

theorem exists_skipBlanks (text : Text) : ∃ blanks, text = blanks ++ skipBlanks text ∧ Blanks blanks :=
  ⟨text.takeWhile isBlank, List.takeWhile_append_dropWhile.symm, blanks_iff.mpr fun _ hc => List.mem_takeWhile_imp hc⟩

/-- No blank comes first. -/
def Settled (text : Text) : Prop := ∀ c ∈ text.head?, isBlank c = false

theorem skipBlanks_append {blanks text : Text} (hb : Blanks blanks) (ht : Settled text) :
    skipBlanks (blanks ++ text) = text := by
  have hstop : skipBlanks text = text := by
    cases text with
    | nil => rfl
    | cons c text => exact List.dropWhile_cons_of_neg (by simp [ht c rfl])
  rw [skipBlanks, List.dropWhile_append_of_pos (blanks_iff.mp hb)]
  exact hstop

theorem skipBlanks_eq_nil_iff {text : Text} : skipBlanks text = [] ↔ Blanks text := by
  rw [skipBlanks, List.dropWhile_eq_nil_iff, blanks_iff]

/-! ## Numbers -/

theorem isDigit_iff {c : Char} : isDigit c = true ↔ c ∈ "0123456789".toList := by
  constructor
  · intro h
    have hall : ∀ k < 10, Char.ofNat (k + 48) ∈ "0123456789".toList := by decide
    have hrange : '0' ≤ c ∧ c ≤ '9' := of_decide_eq_true h
    have hlow : 48 ≤ c.toNat := hrange.1
    have hhigh : c.toNat ≤ 57 := hrange.2
    have hc := hall (c.toNat - 48) (by omega)
    rwa [Nat.sub_add_cancel hlow, Char.ofNat_toNat] at hc
  · intro h
    have hall : "0123456789".toList.all isDigit = true := rfl
    exact List.all_eq_true.mp hall c h

/-- No digit comes first. -/
def EndsDigits (text : Text) : Prop := ∀ c ∈ text.head?, isDigit c = false

theorem readDigits_sound {text digits rest : Text} (h : readDigits text = some (digits, rest)) :
    text = digits ++ rest ∧ Digits digits := by
  unfold readDigits at h
  split at h
  · cases h
  · next hne =>
    obtain ⟨rfl, rfl⟩ := Prod.mk.inj (Option.some.inj h)
    refine ⟨List.takeWhile_append_dropWhile.symm, fun he => hne he, fun c hc => ?_⟩
    exact isDigit_iff.mp (List.mem_takeWhile_imp hc)

theorem readDigits_complete {digits rest : Text} (h : Digits digits) (hrest : EndsDigits rest) :
    readDigits (digits ++ rest) = some (digits, rest) := by
  have hall : ∀ c ∈ digits, isDigit c = true := fun c hc => isDigit_iff.mpr (h.2 c hc)
  have htake : (digits ++ rest).takeWhile isDigit = digits := by
    cases rest with
    | nil => rw [List.append_nil, List.takeWhile_eq_self_iff.mpr hall]
    | cons c rest => rw [List.takeWhile_append_of_pos hall, List.takeWhile_cons_of_neg (by simp [hrest c rfl]), List.append_nil]
  have hdrop : (digits ++ rest).dropWhile isDigit = rest := by
    rw [List.dropWhile_append_of_pos hall]
    cases rest with
    | nil => rfl
    | cons c rest => exact List.dropWhile_cons_of_neg (by simp [hrest c rfl])
  unfold readDigits
  rw [htake, hdrop]
  split
  · exact absurd rfl h.1
  · rfl

theorem readInteger_sound {text whole rest : Text} (h : readInteger text = some (whole, rest)) :
    text = whole ++ rest ∧ Whole whole := by
  have hzero : Digits ['0'] := ⟨List.cons_ne_nil _ _, by simp⟩
  unfold readInteger at h
  split at h
  · next c text =>
    by_cases hc : isDigit c = true
    · rw [if_pos hc] at h
      cases h
    · rw [if_neg hc] at h
      obtain ⟨rfl, rfl⟩ := Prod.mk.inj (Option.some.inj h)
      exact ⟨rfl, hzero, fun _ => rfl⟩
  · next hone =>
    obtain ⟨rfl, hdigits⟩ := readDigits_sound h
    refine ⟨rfl, hdigits, fun hhead => ?_⟩
    obtain ⟨more, rfl⟩ := List.head?_eq_some_iff.mp hhead
    cases more with
    | nil => rfl
    | cons c more => exact absurd rfl (hone c (more ++ rest))

theorem readInteger_complete {whole rest : Text} (h : Whole whole) (hrest : EndsDigits rest) :
    readInteger (whole ++ rest) = some (whole, rest) := by
  by_cases hz : whole.head? = some '0'
  · rw [h.2 hz]
    cases rest with
    | nil => rfl
    | cons c rest =>
      have hc : isDigit c = false := hrest c rfl
      simp [readInteger, hc]
  · unfold readInteger
    split
    · next c text he =>
      obtain ⟨d, more, rfl⟩ := List.exists_cons_of_ne_nil h.1.1
      exact absurd (congrArg some (List.cons.inj he).1) hz
    · exact readDigits_complete h.1 hrest

theorem readFraction_sound {text fraction rest : Text} (h : readFraction text = some (fraction, rest)) :
    text = fraction ++ rest ∧ Fraction fraction := by
  unfold readFraction at h
  split at h
  · obtain ⟨⟨digits, after⟩, hread, h⟩ := Option.map_eq_some_iff.mp h
    obtain ⟨rfl, rfl⟩ := Prod.mk.inj h
    obtain ⟨rfl, hdigits⟩ := readDigits_sound hread
    exact ⟨rfl, .inr ⟨digits, rfl, hdigits⟩⟩
  · obtain ⟨rfl, rfl⟩ := Prod.mk.inj (Option.some.inj h)
    exact ⟨rfl, .inl rfl⟩

theorem readFraction_complete {fraction rest : Text} (h : Fraction fraction)
    (hrest : EndsDigits rest) (hdot : rest.head? ≠ some '.') :
    readFraction (fraction ++ rest) = some (fraction, rest) := by
  rcases h with rfl | ⟨digits, rfl, hdigits⟩
  · unfold readFraction
    split
    · next he =>
      rw [List.nil_append] at he
      rw [he] at hdot
      exact absurd rfl hdot
    · rfl
  · have hread := readDigits_complete hdigits hrest
    rw [List.cons_append, readFraction, hread]
    rfl

theorem readExponent_sound {text exponent rest : Text} (h : readExponent text = some (exponent, rest)) :
    text = exponent ++ rest ∧ Exponent exponent := by
  unfold readExponent at h
  split at h
  · next e text =>
    by_cases he : e = 'e' ∨ e = 'E'
    · rw [if_pos he] at h
      split at h
      · next sign text =>
        by_cases hsign : sign = '+' ∨ sign = '-'
        · rw [if_pos hsign] at h
          obtain ⟨⟨digits, after⟩, hread, h⟩ := Option.map_eq_some_iff.mp h
          obtain ⟨rfl, rfl⟩ := Prod.mk.inj h
          obtain ⟨rfl, hdigits⟩ := readDigits_sound hread
          exact ⟨rfl, .inr ⟨e, [sign], digits, rfl, he, by simpa using hsign, hdigits⟩⟩
        · rw [if_neg hsign] at h
          obtain ⟨⟨digits, after⟩, hread, h⟩ := Option.map_eq_some_iff.mp h
          obtain ⟨rfl, rfl⟩ := Prod.mk.inj h
          obtain ⟨htext, hdigits⟩ := readDigits_sound hread
          exact ⟨by rw [htext]; rfl, .inr ⟨e, [], digits, rfl, he, List.mem_cons_self, hdigits⟩⟩
      · cases h
    · rw [if_neg he] at h
      obtain ⟨rfl, rfl⟩ := Prod.mk.inj (Option.some.inj h)
      exact ⟨rfl, .inl rfl⟩
  · obtain ⟨rfl, rfl⟩ := Prod.mk.inj (Option.some.inj h)
    exact ⟨rfl, .inl rfl⟩

theorem readExponent_complete {exponent rest : Text} (h : Exponent exponent) (hrest : EndsDigits rest)
    (he : rest.head? ≠ some 'e') (hE : rest.head? ≠ some 'E') :
    readExponent (exponent ++ rest) = some (exponent, rest) := by
  rcases h with rfl | ⟨mark, sign, digits, rfl, hmark, hsign, hdigits⟩
  · cases rest with
    | nil => rfl
    | cons c rest =>
      have hc : ¬(c = 'e' ∨ c = 'E') := by
        rintro (rfl | rfl)
        · exact he rfl
        · exact hE rfl
      simp only [List.nil_append, readExponent, if_neg hc]
  · have hread := readDigits_complete hdigits hrest
    have hsigned : ∀ c, c = '+' ∨ c = '-' →
        readExponent (mark :: c :: (digits ++ rest)) = some (mark :: c :: digits, rest) := by
      intro c hc
      simp only [readExponent, if_pos hmark, if_pos hc, hread]
      rfl
    simp only [List.mem_cons, List.not_mem_nil, or_false] at hsign
    rcases hsign with rfl | rfl | rfl
    · obtain ⟨c, more, rfl⟩ := List.exists_cons_of_ne_nil hdigits.1
      have hc : ¬(c = '+' ∨ c = '-') := by
        have hdigit := isDigit_iff.mpr (hdigits.2 c List.mem_cons_self)
        rintro (rfl | rfl) <;> exact absurd hdigit (by decide)
      simp only [List.nil_append, List.cons_append, readExponent, if_pos hmark, if_neg hc] at hread ⊢
      rw [hread]
      rfl
    · exact hsigned '+' (.inl rfl)
    · exact hsigned '-' (.inr rfl)

/-- What cannot go on with a number. -/
structure EndsNumber (text : Text) : Prop where
  digits : EndsDigits text
  point : text.head? ≠ some '.'
  lower : text.head? ≠ some 'e'
  upper : text.head? ≠ some 'E'

theorem readMagnitude_sound {text number rest : Text} (h : readMagnitude text = some (number, rest)) :
    text = number ++ rest ∧ Magnitude number := by
  obtain ⟨⟨whole, afterWhole⟩, hreadWhole, h⟩ := Option.bind_eq_some_iff.mp h
  obtain ⟨⟨fraction, afterFraction⟩, hreadFraction, h⟩ := Option.bind_eq_some_iff.mp h
  obtain ⟨⟨exponent, afterExponent⟩, hreadExponent, h⟩ := Option.bind_eq_some_iff.mp h
  obtain ⟨rfl, rfl⟩ := Prod.mk.inj (Option.some.inj h)
  obtain ⟨rfl, hwhole⟩ := readInteger_sound hreadWhole
  obtain ⟨rfl, hfraction⟩ := readFraction_sound hreadFraction
  obtain ⟨rfl, hexponent⟩ := readExponent_sound hreadExponent
  exact ⟨by simp only [List.append_assoc], whole, fraction, exponent, rfl, hwhole, hfraction, hexponent⟩

theorem readMagnitude_complete {number rest : Text} (h : Magnitude number) (hrest : EndsNumber rest) :
    readMagnitude (number ++ rest) = some (number, rest) := by
  obtain ⟨whole, fraction, exponent, rfl, hwhole, hfraction, hexponent⟩ := h
  have hbehindFraction : EndsDigits (exponent ++ rest) ∧ (exponent ++ rest).head? ≠ some '.' := by
    rcases hexponent with rfl | ⟨e, sign, digits, rfl, rfl | rfl, -⟩
    · exact ⟨hrest.digits, hrest.point⟩
    · exact ⟨by simp [EndsDigits]; decide, by simp⟩
    · exact ⟨by simp [EndsDigits]; decide, by simp⟩
  have hbehindWhole : EndsDigits (fraction ++ (exponent ++ rest)) := by
    rcases hfraction with rfl | ⟨digits, rfl, -⟩
    · exact hbehindFraction.1
    · simp [EndsDigits]; decide
  have hreadWhole := readInteger_complete hwhole hbehindWhole
  have hreadFraction := readFraction_complete hfraction hbehindFraction.1 hbehindFraction.2
  have hreadExponent := readExponent_complete hexponent hrest.digits hrest.lower hrest.upper
  simp only [List.append_assoc, readMagnitude, hreadWhole, hreadFraction, hreadExponent, Option.bind_eq_bind,
    Option.bind_some]
  rfl

/-! ## Values -/

/-- What may follow a value: what ends every number. -/
theorem endsNumber_cons {c : Char} (hc : c ∈ [',', ']', '\x7d', ' ', '\t', '\n', '\r']) (rest : Text) :
    EndsNumber (c :: rest) := by
  simp only [List.mem_cons, List.not_mem_nil, or_false] at hc
  rcases hc with rfl | rfl | rfl | rfl | rfl | rfl | rfl <;>
    exact ⟨by simp [EndsDigits]; decide, by simp, by simp, by simp⟩

theorem Blanks.append {a b : Text} (ha : Blanks a) (hb : Blanks b) : Blanks (a ++ b) := by
  intro c hc
  rcases List.mem_append.mp hc with hc | hc
  · exact ha c hc
  · exact hb c hc

theorem SpellsItems.blank {blanks text : Text} {items : List Json} (hb : Blanks blanks) (h : SpellsItems text items) :
    SpellsItems (blanks ++ text) items := by
  cases h with
  | one hbefore h hafter =>
    have hone := SpellsItems.one (hb.append hbefore) h hafter
    simpa only [List.append_assoc] using hone
  | more hbefore h hafter hmore =>
    have hall := SpellsItems.more (hb.append hbefore) h hafter hmore
    simpa only [List.append_assoc] using hall

theorem SpellsMember.blank {blanks text : Text} {member : Option Text × Json} (hb : Blanks blanks)
    (h : SpellsMember text member) : SpellsMember (blanks ++ text) member := by
  cases h with
  | mk hbefore hkey hbetween hgap h hafter =>
    have hmember := SpellsMember.mk (hb.append hbefore) hkey hbetween hgap h hafter
    simpa only [List.append_assoc] using hmember

theorem SpellsMembers.blank {blanks text : Text} {members : List (Option Text × Json)} (hb : Blanks blanks)
    (h : SpellsMembers text members) : SpellsMembers (blanks ++ text) members := by
  cases h with
  | one h => exact .one (h.blank hb)
  | more h hmore =>
    have hall := SpellsMembers.more (h.blank hb) hmore
    simpa only [List.append_assoc] using hall

/-- What is read as a value is one. -/
def SoundValues (fuel : Nat) : Prop :=
  ∀ text value rest, readValue fuel text = some (value, rest) →
    ∃ before core, text = before ++ core ++ rest ∧ Blanks before ∧ Spells core value

def SoundItems (fuel : Nat) : Prop :=
  ∀ text items rest, readItems fuel text = some (items, rest) →
    ∃ core, text = core ++ ']' :: rest ∧ SpellsItems core items

def SoundMembers (fuel : Nat) : Prop :=
  ∀ text members rest, readMembers fuel text = some (members, rest) →
    ∃ core, text = core ++ '\x7d' :: rest ∧ SpellsMembers core members

theorem readWord_sound {text rest : Text} {value : Json} (h : readWord text = some (value, rest)) :
    ∃ core, text = core ++ rest ∧ Spells core value := by
  unfold readWord at h
  split at h
  · next hword =>
    obtain ⟨rfl, rfl⟩ := Prod.mk.inj (Option.some.inj h)
    exact ⟨_, Text.dropStart?_eq_some hword, .null⟩
  · split at h
    · next hword =>
      obtain ⟨rfl, rfl⟩ := Prod.mk.inj (Option.some.inj h)
      exact ⟨_, Text.dropStart?_eq_some hword, .isTrue⟩
    · obtain ⟨after, hword, h⟩ := Option.map_eq_some_iff.mp h
      obtain ⟨rfl, rfl⟩ := Prod.mk.inj h
      exact ⟨_, Text.dropStart?_eq_some hword, .isFalse⟩

theorem soundValues_succ {fuel : Nat} (hitems : SoundItems fuel) (hmembers : SoundMembers fuel) :
    SoundValues (fuel + 1) := by
  intro text value rest h
  obtain ⟨before, htext, hbefore⟩ := exists_skipBlanks text
  suffices hcore : ∃ core, skipBlanks text = core ++ rest ∧ Spells core value by
    obtain ⟨core, hskip, hspells⟩ := hcore
    rw [hskip, ← List.append_assoc] at htext
    exact ⟨before, core, htext, hbefore, hspells⟩
  rw [readValue.eq_def] at h
  dsimp only at h
  split at h
  · next body hskip =>
    rw [hskip]
    obtain ⟨⟨s, after⟩, hread, h⟩ := Option.map_eq_some_iff.mp h
    obtain ⟨rfl, rfl⟩ := Prod.mk.inj h
    obtain ⟨core, hcore, hspells⟩ := readString_sound hread
    exact ⟨core, hcore, .string hspells⟩
  · next body hskip =>
    rw [hskip]
    obtain ⟨blanks, hbody, hblanks⟩ := exists_skipBlanks body
    split at h
    · next after hafter =>
      obtain ⟨rfl, rfl⟩ := Prod.mk.inj (Option.some.inj h)
      refine ⟨'[' :: (blanks ++ [']']), ?_, .emptyArray hblanks⟩
      rw [hbody, hafter]
      simp
    · obtain ⟨⟨items, after⟩, hread, h⟩ := Option.map_eq_some_iff.mp h
      obtain ⟨rfl, rfl⟩ := Prod.mk.inj h
      obtain ⟨core, hcore, hspells⟩ := hitems _ _ _ hread
      refine ⟨'[' :: (blanks ++ core ++ [']']), ?_, .array (hspells.blank hblanks)⟩
      rw [hbody, hcore]
      simp
  · next body hskip =>
    rw [hskip]
    obtain ⟨blanks, hbody, hblanks⟩ := exists_skipBlanks body
    split at h
    · next after hafter =>
      obtain ⟨rfl, rfl⟩ := Prod.mk.inj (Option.some.inj h)
      refine ⟨'\x7b' :: (blanks ++ ['\x7d']), ?_, .emptyObject hblanks⟩
      rw [hbody, hafter]
      simp
    · obtain ⟨⟨members, after⟩, hread, h⟩ := Option.map_eq_some_iff.mp h
      obtain ⟨rfl, rfl⟩ := Prod.mk.inj h
      obtain ⟨core, hcore, hspells⟩ := hmembers _ _ _ hread
      refine ⟨'\x7b' :: (blanks ++ core ++ ['\x7d']), ?_, .object (hspells.blank hblanks)⟩
      rw [hbody, hcore]
      simp
  · next body hskip =>
    rw [hskip]
    obtain ⟨⟨number, after⟩, hread, h⟩ := Option.map_eq_some_iff.mp h
    obtain ⟨rfl, rfl⟩ := Prod.mk.inj h
    obtain ⟨hbody, hmagnitude⟩ := readMagnitude_sound hread
    refine ⟨'-' :: number, by rw [hbody]; rfl, .number (.inr ⟨number, rfl, hmagnitude⟩)⟩
  · next c body _ _ _ _ hskip =>
    rw [hskip]
    by_cases hc : isDigit c = true
    · rw [if_pos hc] at h
      obtain ⟨⟨number, after⟩, hread, h⟩ := Option.map_eq_some_iff.mp h
      obtain ⟨rfl, rfl⟩ := Prod.mk.inj h
      obtain ⟨hbody, hmagnitude⟩ := readMagnitude_sound hread
      exact ⟨number, hbody, .number (.inl hmagnitude)⟩
    · rw [if_neg hc] at h
      exact readWord_sound h
  · cases h

theorem soundItems_succ {fuel : Nat} (hvalues : SoundValues fuel) (hitems : SoundItems fuel) : SoundItems (fuel + 1) := by
  intro text items rest h
  rw [readItems] at h
  split at h
  · cases h
  · next item behind hread =>
    obtain ⟨before, core, rfl, hbefore, hcore⟩ := hvalues _ _ _ hread
    obtain ⟨after, hbehind, hafter⟩ := exists_skipBlanks behind
    split at h
    · next last hlast =>
      obtain ⟨rfl, rfl⟩ := Prod.mk.inj (Option.some.inj h)
      rw [hlast] at hbehind
      refine ⟨before ++ core ++ after, ?_, .one hbefore hcore hafter⟩
      rw [hbehind, List.append_assoc (before ++ core)]
    · next last hlast =>
      obtain ⟨⟨more, tail⟩, hmore, h⟩ := Option.map_eq_some_iff.mp h
      obtain ⟨rfl, rfl⟩ := Prod.mk.inj h
      obtain ⟨others, rfl, hothers⟩ := hitems _ _ _ hmore
      rw [hlast] at hbehind
      refine ⟨before ++ core ++ after ++ ',' :: others, ?_, .more hbefore hcore hafter hothers⟩
      rw [hbehind]
      simp only [List.append_assoc, List.cons_append]
    · cases h

theorem soundMembers_succ {fuel : Nat} (hvalues : SoundValues fuel) (hmembers : SoundMembers fuel) :
    SoundMembers (fuel + 1) := by
  intro text members rest h
  obtain ⟨before, htext, hbefore⟩ := exists_skipBlanks text
  rw [readMembers.eq_def] at h
  dsimp only at h
  split at h
  · next body hskip =>
    split at h
    · cases h
    · next key behindKey hkey =>
      obtain ⟨name, hname, hspells⟩ := readString_sound hkey
      obtain ⟨between, hbehindKey, hbetween⟩ := exists_skipBlanks behindKey
      split at h
      · next behindColon hcolon =>
        split at h
        · cases h
        · next value behind hread =>
          obtain ⟨gap, core, rfl, hgap, hcore⟩ := hvalues _ _ _ hread
          obtain ⟨after, hbehind, hafter⟩ := exists_skipBlanks behind
          have hmember := SpellsMember.mk hbefore hspells hbetween hgap hcore hafter
          rw [hskip, hname, hbehindKey, hcolon] at htext
          split at h
          · next last hlast =>
            obtain ⟨rfl, rfl⟩ := Prod.mk.inj (Option.some.inj h)
            rw [hlast] at hbehind
            refine ⟨_, ?_, .one hmember⟩
            rw [htext, hbehind]
            simp only [List.append_assoc, List.cons_append]
          · next last hlast =>
            obtain ⟨⟨more, tail⟩, hmore, h⟩ := Option.map_eq_some_iff.mp h
            obtain ⟨rfl, rfl⟩ := Prod.mk.inj h
            obtain ⟨others, rfl, hothers⟩ := hmembers _ _ _ hmore
            rw [hlast] at hbehind
            refine ⟨_, ?_, .more hmember hothers⟩
            rw [htext, hbehind]
            simp only [List.append_assoc, List.cons_append]
          · cases h
      · cases h
  · cases h

theorem readValue_sound (fuel : Nat) : SoundValues fuel ∧ SoundItems fuel ∧ SoundMembers fuel := by
  induction fuel with
  | zero => refine ⟨?_, ?_, ?_⟩ <;> exact fun _ _ _ h => by cases h
  | succ fuel ih =>
    obtain ⟨hvalues, hitems, hmembers⟩ := ih
    exact ⟨soundValues_succ hitems hmembers, soundItems_succ hvalues hitems, soundMembers_succ hvalues hmembers⟩

/-! ## All values are read -/

theorem Magnitude.begins {text : Text} (h : Magnitude text) : ∃ c more, text = c :: more ∧ isDigit c = true := by
  obtain ⟨whole, fraction, exponent, rfl, ⟨⟨hne, hdigits⟩, -⟩, -, -⟩ := h
  obtain ⟨c, more, rfl⟩ := List.exists_cons_of_ne_nil hne
  exact ⟨c, more ++ fraction ++ exponent, by simp, isDigit_iff.mpr (hdigits c List.mem_cons_self)⟩

theorem ne_of_isDigit {c d : Char} (hc : isDigit c = true) (hd : isDigit d = false) : c ≠ d := by
  rintro rfl
  rw [hc] at hd
  cases hd

theorem isBlank_of_isDigit {c : Char} (hc : isDigit c = true) : isBlank c = false := by
  have hne : ∀ d ∈ [' ', '\n', '\t', '\r'], c ≠ d := by
    intro d hd
    refine ne_of_isDigit hc ?_
    have hall : [' ', '\n', '\t', '\r'].all (fun d => !isDigit d) = true := rfl
    simpa using List.all_eq_true.mp hall d hd
  simpa [isBlank, and_assoc] using hne

/-- No value begins with a blank or with the end of an array. -/
theorem Spells.begins {text : Text} {value : Json} (h : Spells text value) :
    ∃ c more, text = c :: more ∧ isBlank c = false ∧ c ≠ ']' := by
  have hdigit : ∀ {n : Text}, Magnitude n → ∃ c more, n = c :: more ∧ isBlank c = false ∧ c ≠ ']' := by
    intro n hn
    obtain ⟨c, more, rfl, hc⟩ := hn.begins
    exact ⟨c, more, rfl, isBlank_of_isDigit hc, ne_of_isDigit hc rfl⟩
  cases h with
  | null => exact ⟨'n', _, rfl, rfl, by decide⟩
  | isTrue => exact ⟨'t', _, rfl, rfl, by decide⟩
  | isFalse => exact ⟨'f', _, rfl, rfl, by decide⟩
  | number h =>
    rcases h with h | ⟨n, rfl, -⟩
    · exact hdigit h
    · exact ⟨'-', n, rfl, rfl, by decide⟩
  | string h =>
    obtain ⟨body, us, rfl, -⟩ := h
    exact ⟨'"', _, rfl, rfl, by decide⟩
  | emptyArray => exact ⟨'[', _, rfl, rfl, by decide⟩
  | array => exact ⟨'[', _, rfl, rfl, by decide⟩
  | emptyObject => exact ⟨'\x7b', _, rfl, rfl, by decide⟩
  | object => exact ⟨'\x7b', _, rfl, rfl, by decide⟩

theorem settled_cons {c : Char} (hc : isBlank c = false) (rest : Text) : Settled (c :: rest) := by
  intro d hd
  rw [← Option.some.inj hd]
  exact hc

theorem Spells.settled {text : Text} {value : Json} (h : Spells text value) (rest : Text) : Settled (text ++ rest) := by
  obtain ⟨c, more, rfl, hc, -⟩ := h.begins
  exact settled_cons hc _

theorem skipBlanks_skipBlanks (text : Text) : skipBlanks (skipBlanks text) = skipBlanks text :=
  List.dropWhile_idempotent isBlank text

/-- Blanks in front are skipped anyway. -/
theorem readValue_skipBlanks (fuel : Nat) (text : Text) : readValue fuel (skipBlanks text) = readValue fuel text := by
  cases fuel with
  | zero => rfl
  | succ fuel => rw [readValue.eq_def, readValue.eq_def]; simp only [skipBlanks_skipBlanks]

theorem readItems_skipBlanks (fuel : Nat) (text : Text) : readItems fuel (skipBlanks text) = readItems fuel text := by
  cases fuel with
  | zero => rfl
  | succ fuel => rw [readItems, readItems, readValue_skipBlanks]

theorem readMembers_skipBlanks (fuel : Nat) (text : Text) : readMembers fuel (skipBlanks text) = readMembers fuel text := by
  cases fuel with
  | zero => rfl
  | succ fuel => rw [readMembers.eq_def, readMembers.eq_def]; simp only [skipBlanks_skipBlanks]

/-- What is a value is read as it, with fuel for each of its characters. -/
def CompleteValues (fuel : Nat) : Prop :=
  ∀ before text value rest, Blanks before → Spells text value → EndsNumber rest → 2 * text.length ≤ fuel →
    readValue fuel (before ++ (text ++ rest)) = some (value, rest)

def CompleteItems (fuel : Nat) : Prop :=
  ∀ text items rest, SpellsItems text items → 2 * text.length < fuel →
    readItems fuel (text ++ ']' :: rest) = some (items, rest)

def CompleteMembers (fuel : Nat) : Prop :=
  ∀ text members rest, SpellsMembers text members → 2 * text.length < fuel →
    readMembers fuel (text ++ '\x7d' :: rest) = some (members, rest)

/-- An array with items does not look like one without. -/
theorem SpellsItems.begins {text : Text} {items : List Json} (h : SpellsItems text items) (rest : Text) :
    (skipBlanks (text ++ rest)).head? ≠ some ']' := by
  have hskip : ∀ {before core : Text} {item : Json} (after : Text), Blanks before → Spells core item →
      (skipBlanks (before ++ (core ++ after))).head? ≠ some ']' := by
    intro before core item after hb hcore
    obtain ⟨c, more, hc, -, hne⟩ := hcore.begins
    rw [skipBlanks_append hb (hcore.settled after), hc]
    exact fun he => hne (Option.some.inj he)
  cases h with
  | one hb h ha =>
    simp only [List.append_assoc]
    exact hskip _ hb h
  | more hb h ha hmore =>
    simp only [List.append_assoc]
    exact hskip _ hb h

theorem SpellsMembers.begins {text : Text} {members : List (Option Text × Json)} (h : SpellsMembers text members)
    (rest : Text) : (skipBlanks (text ++ rest)).head? = some '"' := by
  have hskip : ∀ {core : Text} {member : Option Text × Json} (after : Text), SpellsMember core member →
      (skipBlanks (core ++ after)).head? = some '"' := by
    intro core member after hmember
    obtain ⟨hb, ⟨body, us, rfl, -⟩, -, -, -, -⟩ := hmember
    simp only [List.append_assoc, List.cons_append]
    rw [skipBlanks_append hb (settled_cons rfl _)]
    rfl
  cases h with
  | one h => exact hskip _ h
  | more h hmore =>
    rw [List.append_assoc]
    exact hskip _ h

theorem readValue_digit {fuel : Nat} {text : Text} {c : Char} {more : Text} (hskip : skipBlanks text = c :: more)
    (hc : isDigit c = true) :
    readValue (fuel + 1) text = (readMagnitude (c :: more)).map fun (n, rest) => (.number n, rest) := by
  have hne : ∀ d, isDigit d = false → c ≠ d := fun d hd => ne_of_isDigit hc hd
  rw [readValue.eq_def]
  simp only [hskip]
  split
  · next h => exact absurd (List.cons.inj h).1 (hne '"' rfl)
  · next h => exact absurd (List.cons.inj h).1 (hne '[' rfl)
  · next h => exact absurd (List.cons.inj h).1 (hne '\x7b' rfl)
  · next h => exact absurd (List.cons.inj h).1 (hne '-' rfl)
  · next d last _ _ _ _ h =>
    obtain ⟨rfl, rfl⟩ := List.cons.inj h
    rw [if_pos hc]
  · next h => cases h

theorem completeValues_succ {fuel : Nat} (hitems : CompleteItems fuel) (hmembers : CompleteMembers fuel) :
    CompleteValues (fuel + 1) := by
  intro before text value rest hb h hrest hfuel
  have hskip := skipBlanks_append hb (h.settled rest)
  have hmagnitude : ∀ {n : Text}, Magnitude n → readMagnitude (n ++ rest) = some (n, rest) :=
    fun hn => readMagnitude_complete hn hrest
  cases h with
  | null => rw [readValue.eq_def]; simp only [hskip]; rfl
  | isTrue => rw [readValue.eq_def]; simp only [hskip]; rfl
  | isFalse => rw [readValue.eq_def]; simp only [hskip]; rfl
  | number h =>
    rcases h with h | ⟨n, rfl, h⟩
    · obtain ⟨c, more, hc, hdigit⟩ := h.begins
      have hread := hmagnitude h
      rw [hc, List.cons_append] at hskip hread
      rw [hc, List.cons_append, readValue_digit hskip hdigit, hread]
      rfl
    · rw [readValue.eq_def]
      simp only [hskip]
      simp only [List.cons_append, hmagnitude h]
      rfl
  | string h =>
    obtain ⟨body, rfl, hread⟩ := readString_complete h rest
    rw [readValue.eq_def]
    simp only [hskip]
    simp only [List.cons_append, hread]
    rfl
  | @emptyArray blanks hblanks =>
    have hclose := skipBlanks_append hblanks (@settled_cons ']' rfl rest)
    rw [readValue.eq_def]
    simp only [hskip]
    simp only [List.cons_append, List.append_assoc, List.nil_append, hclose]
  | @array text items h =>
    have hlength : 2 * text.length < fuel := by
      simp only [List.length_cons, List.length_append] at hfuel
      omega
    have hread := hitems text items rest h hlength
    rw [← readItems_skipBlanks] at hread
    have hfirst := h.begins (']' :: rest)
    rw [readValue.eq_def]
    simp only [hskip]
    simp only [List.cons_append, List.append_assoc, List.nil_append]
    split
    · next hclose =>
      rw [hclose] at hfirst
      exact absurd rfl hfirst
    · rw [hread]
      rfl
  | @emptyObject blanks hblanks =>
    have hclose := skipBlanks_append hblanks (@settled_cons '\x7d' rfl rest)
    rw [readValue.eq_def]
    simp only [hskip]
    simp only [List.cons_append, List.append_assoc, List.nil_append, hclose]
  | @object text members h =>
    have hlength : 2 * text.length < fuel := by
      simp only [List.length_cons, List.length_append] at hfuel
      omega
    have hread := hmembers text members rest h hlength
    rw [← readMembers_skipBlanks] at hread
    have hfirst := h.begins ('\x7d' :: rest)
    rw [readValue.eq_def]
    simp only [hskip]
    simp only [List.cons_append, List.append_assoc, List.nil_append]
    split
    · next hclose =>
      rw [hclose] at hfirst
      exact absurd (Option.some.inj hfirst) (by decide)
    · rw [hread]
      rfl

theorem endsNumber_nil : EndsNumber [] := ⟨by simp [EndsDigits], by simp, by simp, by simp⟩

/-- Blanks end every number, and leave it to what stands behind them where there are none. -/
theorem Blanks.endsNumber {blanks rest : Text} (hb : Blanks blanks) (h : EndsNumber rest) : EndsNumber (blanks ++ rest) := by
  cases blanks with
  | nil => exact h
  | cons b blanks =>
    have hblank := hb b List.mem_cons_self
    refine endsNumber_cons ?_ _
    simp only [List.mem_cons, List.not_mem_nil, or_false] at hblank ⊢
    tauto

theorem completeItems_succ {fuel : Nat} (hvalues : CompleteValues fuel) (hitems : CompleteItems fuel) :
    CompleteItems (fuel + 1) := by
  intro text items rest h hfuel
  cases h with
  | @one before text after item hb h ha =>
    simp only [List.length_append] at hfuel
    have hends := ha.endsNumber (@endsNumber_cons ']' (by simp) rest)
    have hread := hvalues before text item (after ++ ']' :: rest) hb h hends (by omega)
    have hclose := skipBlanks_append ha (@settled_cons ']' rfl rest)
    simp only [List.append_assoc, readItems, hread, hclose]
  | @more before text after others item items hb h ha hmore =>
    simp only [List.length_append, List.length_cons] at hfuel
    have hends := ha.endsNumber (@endsNumber_cons ',' (by simp) (others ++ ']' :: rest))
    have hread := hvalues before text item (after ++ ',' :: (others ++ ']' :: rest)) hb h hends (by omega)
    have hcomma := skipBlanks_append ha (@settled_cons ',' rfl (others ++ ']' :: rest))
    have hothers := hitems others items rest hmore (by omega)
    simp only [List.append_assoc, List.cons_append, readItems, hread, hcomma, hothers]
    rfl

/-- A member is read up to the comma behind it, or to the end of the object. -/
theorem readMembers_member {fuel : Nat} (hvalues : CompleteValues fuel) {text : Text} {member : Option Text × Json}
    (h : SpellsMember text member) (hfuel : 2 * text.length ≤ fuel) (rest : Text) :
    readMembers (fuel + 1) (text ++ '\x7d' :: rest) = some ([member], rest) ∧
      readMembers (fuel + 1) (text ++ ',' :: rest) =
        (readMembers fuel rest).map fun (members, rest) => (member :: members, rest) := by
  obtain @⟨before, name, between, gap, text, after, key, value, hb, hkey, hbetween, hgap, h, ha⟩ := h
  simp only [List.length_append, List.length_cons] at hfuel
  have hcolon : ∀ tail, skipBlanks (between ++ ':' :: tail) = ':' :: tail :=
    fun tail => skipBlanks_append hbetween (settled_cons rfl tail)
  have hmark : ∀ c ∈ [',', '\x7d'], ∃ body,
      skipBlanks (before ++ name ++ between ++ ':' :: (gap ++ text ++ after) ++ c :: rest) = '"' :: body ∧
        readString body = some (key, between ++ ':' :: (gap ++ (text ++ (after ++ c :: rest)))) ∧
        readValue fuel (gap ++ (text ++ (after ++ c :: rest))) = some (value, after ++ c :: rest) ∧
        skipBlanks (after ++ c :: rest) = c :: rest := by
    intro c hc
    have hsettled : isBlank c = false := by
      rcases List.mem_pair.mp hc with rfl | rfl <;> rfl
    have hends : EndsNumber (after ++ c :: rest) := by
      refine ha.endsNumber (endsNumber_cons ?_ rest)
      rcases List.mem_pair.mp hc with rfl | rfl <;> simp
    obtain ⟨body, rfl, hread⟩ := readString_complete hkey (between ++ ':' :: (gap ++ (text ++ (after ++ c :: rest))))
    refine ⟨body ++ (between ++ ':' :: (gap ++ (text ++ (after ++ c :: rest)))), ?_, hread, ?_, ?_⟩
    · simp only [List.append_assoc, List.cons_append]
      exact skipBlanks_append hb (settled_cons rfl _)
    · exact hvalues gap text value _ hgap h hends (by omega)
    · exact skipBlanks_append ha (settled_cons hsettled rest)
  constructor
  · obtain ⟨body, hskip, hread, hvalue, hlast⟩ := hmark '\x7d' (by simp)
    simp only [readMembers, hskip, hread, hcolon, hvalue, hlast]
  · obtain ⟨body, hskip, hread, hvalue, hlast⟩ := hmark ',' (by simp)
    simp only [readMembers, hskip, hread, hcolon, hvalue, hlast]

theorem completeMembers_succ {fuel : Nat} (hvalues : CompleteValues fuel) (hmembers : CompleteMembers fuel) :
    CompleteMembers (fuel + 1) := by
  intro text members rest h hfuel
  cases h with
  | one h => exact (readMembers_member hvalues h (by omega) rest).1
  | @more text others member members h hmore =>
    simp only [List.length_append, List.length_cons] at hfuel
    have hread := (readMembers_member hvalues h (by omega) (others ++ '\x7d' :: rest)).2
    have hothers := hmembers others members rest hmore (by omega)
    rw [List.append_assoc, List.cons_append, hread, hothers]
    rfl

theorem readValue_complete (fuel : Nat) : CompleteValues fuel ∧ CompleteItems fuel ∧ CompleteMembers fuel := by
  induction fuel with
  | zero =>
    refine ⟨fun before text value rest _ h _ hfuel => ?_, fun _ _ _ _ hfuel => ?_, fun _ _ _ _ hfuel => ?_⟩
    · obtain ⟨c, more, rfl, -⟩ := h.begins
      simp at hfuel
    · exact absurd hfuel (Nat.not_lt_zero _)
    · exact absurd hfuel (Nat.not_lt_zero _)
  | succ fuel ih =>
    obtain ⟨hvalues, hitems, hmembers⟩ := ih
    exact ⟨completeValues_succ hitems hmembers, completeItems_succ hvalues hitems,
      completeMembers_succ hvalues hmembers⟩

/-! ## Texts -/

/-- What a text is read as is what it spells. -/
theorem ofText?_eq_some_iff {text : Text} {value : Json} : ofText? text = some value ↔ SpellsText text value := by
  constructor
  · intro h
    unfold ofText? at h
    split at h
    · next found rest hread =>
      obtain ⟨before, core, rfl, hbefore, hcore⟩ := (readValue_sound _).1 _ _ _ hread
      split at h
      · next hend =>
        obtain rfl := Option.some.inj h
        exact ⟨before, core, rest, rfl, hbefore, skipBlanks_eq_nil_iff.mp hend, hcore⟩
      · cases h
    · cases h
  · rintro ⟨before, core, after, rfl, hbefore, hafter, hcore⟩
    have hends : EndsNumber after := by
      rw [← List.append_nil after]
      exact hafter.endsNumber endsNumber_nil
    have hread := (readValue_complete (2 * (before ++ core ++ after).length + 2)).1 before core value after hbefore hcore
      hends (by simp only [List.length_append]; omega)
    rw [← List.append_assoc] at hread
    rw [ofText?, hread]
    exact if_pos (skipBlanks_eq_nil_iff.mpr hafter)

/-- A text spells one value at most. -/
theorem SpellsText.unique {text : Text} {value other : Json} (h : SpellsText text value) (h' : SpellsText text other) :
    value = other :=
  Option.some.inj ((ofText?_eq_some_iff.mpr h).symm.trans (ofText?_eq_some_iff.mpr h'))

end CjsInterop.Json
