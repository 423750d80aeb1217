import CjsInterop.Proofs.LexerOrder
import CjsInterop.Text.Literal
import Mathlib

/-! Quoted texts and names are read back from wherever they stand, whatever follows them. -/

namespace CjsInterop.Syntax.Lexer

open Text (isNameStart isNamePart isName quotedChar quoted hex)

/-! ## Strings -/

/-- A code below the surrogates stands for its character, whatever follows. -/
theorem joinUnits_code {n : Nat} (h : n < 0xD800) (units : List Unit16) :
    joinUnits (.code n :: units) = .char (Char.ofNat n) :: joinUnits units := by
  have hs : isSurrogate n = false := by
    simp only [isSurrogate, Bool.and_eq_false_iff, decide_eq_false_iff_not]
    omega
  cases units with
  | nil => simp [joinUnits, hs]
  | cons u units =>
    cases u with
    | char c => simp [joinUnits, hs]
    | code low =>
      have hpair : ¬(0xD800 ≤ n ∧ n < 0xDC00 ∧ 0xDC00 ≤ low ∧ low < 0xE000) := by omega
      simp [joinUnits, hs, hpair]

theorem escape_control {n : Nat} (h : n < 0x20) (rest : Text) :
    escape false ('u' :: (hex 4 n ++ rest)) = .unit (.code n) rest := by
  interval_cases n <;> rfl

/-- The spelling of a character is read as that character, as one unit. -/
theorem stringUnits_quotedChar (c : Char) (fuel : Nat) (text : Text) :
    ∃ u, stringUnits '"' (fuel + 1) (quotedChar c ++ text) =
        (stringUnits '"' fuel text).map (fun (units, rest) => (u :: units, rest)) ∧
      ∀ units, joinUnits (u :: units) = .char c :: joinUnits units := by
  have hchar : ∀ c units, joinUnits (.char c :: units) = .char c :: joinUnits units := fun _ _ => by
    simp [joinUnits]
  unfold quotedChar
  split
  iterate 7 exact ⟨_, rfl, hchar _⟩
  · next hquote hslash _ _ hfeed hreturn _ =>
    by_cases hc : c.toNat < 0x20
    · refine ⟨.code c.toNat, ?_, fun units => ?_⟩
      · rw [if_pos hc]
        simp only [List.cons_append, List.nil_append]
        rw [stringUnits, escape_control hc]
      · rw [joinUnits_code (by omega), Char.ofNat_toNat]
    · refine ⟨.char c, ?_, hchar c⟩
      rw [if_neg hc, List.singleton_append, stringUnits]
      · rw [if_neg (fun h => hquote h), if_neg (by rintro (h | h) <;> contradiction)]
      · exact hslash

theorem stringUnits_quoted (text rest : Text) {fuel : Nat} (h : text.length < fuel) :
    ∃ units, stringUnits '"' fuel (text.flatMap quotedChar ++ '"' :: rest) = some (units, rest) ∧
      joinUnits units = text.map .char := by
  induction text generalizing fuel with
  | nil =>
    obtain ⟨fuel, rfl⟩ : ∃ n, fuel = n + 1 := ⟨fuel - 1, by omega⟩
    exact ⟨[], rfl, rfl⟩
  | cons c text ih =>
    obtain ⟨fuel, rfl⟩ : ∃ n, fuel = n + 1 := ⟨fuel - 1, by omega⟩
    obtain ⟨units, hread, hjoin⟩ := @ih fuel (by simpa using h)
    obtain ⟨u, hu, hju⟩ := stringUnits_quotedChar c fuel (text.flatMap quotedChar ++ '"' :: rest)
    refine ⟨u :: units, ?_, ?_⟩
    · rw [List.flatMap_cons, List.append_assoc, hu, hread, Option.map_some]
    · rw [hju, hjoin, List.map_cons]

theorem length_le_quoted (text : Text) : text.length ≤ (text.flatMap quotedChar).length := by
  induction text with
  | nil => simp
  | cons c text ih =>
    have hc : 1 ≤ (quotedChar c).length := by
      unfold quotedChar
      split <;> try simp
      split <;> simp
    rw [List.flatMap_cons, List.length_append, List.length_cons]
    omega

theorem mapM_char (f : Unit16 → Option Char) (hf : ∀ c, f (.char c) = some c) (text : Text) :
    (text.map Unit16.char).mapM f = some text := by
  induction text with
  | nil => rfl
  | cons c text ih => simp [hf, ih]

/-- A quoted text is a well-formed string of that text, and what stands behind it is left. -/
theorem token_quoted (text rest : Text) : token (quoted text ++ rest) = some (.string text true, rest) := by
  obtain ⟨units, hread, hjoin⟩ := @stringUnits_quoted text rest
    ((text.flatMap quotedChar ++ '"' :: rest).length + 1) (by
      have hl := length_le_quoted text
      rw [List.length_append]
      omega)
  have htoken : token (quoted text ++ rest) = string '"' (text.flatMap quotedChar ++ '"' :: rest) := by
    simp [quoted, token]
  have hspell : spellUnits units = (text, true) := by
    simp only [spellUnits, hjoin]
    rw [mapM_char]
    exact fun _ => rfl
  rw [htoken, string, hread, Option.bind_eq_bind, Option.bind_some]
  simp only [hspell]
  rfl

/-! ## Names -/

/-- No name begins with a blank. -/
theorem isBlank_of_isNameStart {c : Char} (h : isNameStart c = true) : isLineEnd c = false ∧ isSpace c = false := by
  have hnot : ∀ d : Char, isNameStart d = false → c ≠ d := fun d hd he => by simp [he, hd] at h
  constructor
  · simp only [isLineEnd, Bool.or_eq_false_iff, beq_eq_false_iff_ne]
    refine ⟨⟨⟨?_, ?_⟩, ?_⟩, ?_⟩ <;> exact hnot _ (by decide +kernel)
  · have hrange : ('\u2000' ≤ c && c ≤ '\u200b') = false := by
      have hstarts : ∀ n, 0x2000 ≤ n → n ≤ 0x200b → Text.within Text.startRanges n = false := by decide +kernel
      by_contra hc
      simp only [Bool.not_eq_false, Bool.and_eq_true, decide_eq_true_eq] at hc
      have hlow : 0x2000 ≤ c.toNat := hc.1
      have hhigh : c.toNat ≤ 0x200b := hc.2
      rw [Text.isNameStart, if_neg (by omega), hstarts _ hlow hhigh] at h
      cases h
    simp only [isSpace, hrange, Bool.or_eq_false_iff, beq_eq_false_iff_ne]
    refine ⟨⟨⟨⟨⟨⟨⟨⟨⟨⟨⟨?_, ?_⟩, ?_⟩, ?_⟩, ?_⟩, ?_⟩, ?_⟩, trivial⟩, ?_⟩, ?_⟩, ?_⟩, ?_⟩ <;> exact hnot _ (by decide +kernel)

theorem decimal_of_isNameStart {c : Char} (h : isNameStart c = true) : decimal c = false := by
  have hdigits : ∀ n, 48 ≤ n → n ≤ 57 → isNameStart (Char.ofNat n) = false := by decide
  by_contra hc
  simp only [Bool.not_eq_false, decimal, Bool.and_eq_true, decide_eq_true_eq] at hc
  have hn := hdigits c.toNat hc.1 hc.2
  rw [Char.ofNat_toNat, h] at hn
  cases hn

theorem exists_start {w : Text} (hw : isName w = true) : ∃ c more, w = c :: more ∧ isNameStart c = true := by
  cases w with
  | nil => cases hw
  | cons c more =>
    simp only [isName, Bool.and_eq_true] at hw
    exact ⟨c, more, rfl, hw.1⟩

/-- No part of a name follows. -/
def EndsName (rest : Text) : Prop :=
  ∀ c ∈ rest.head?, isNamePart c = false ∧ c ≠ '\\'

theorem nameChars_append {w rest : Text} {fuel : Nat} {isFirst : Bool}
    (hw : if isFirst then isName w = true else w.all isNamePart = true) (hrest : EndsName rest)
    (hfuel : w.length < fuel) : nameChars fuel isFirst false (w ++ rest) = some (w, false, rest) := by
  induction w generalizing fuel isFirst with
  | nil =>
    obtain ⟨fuel, rfl⟩ : ∃ n, fuel = n + 1 := ⟨fuel - 1, by omega⟩
    cases isFirst with
    | true => cases hw
    | false =>
      cases rest with
      | nil => rfl
      | cons c rest =>
        obtain ⟨hpart, hslash⟩ := hrest c rfl
        rw [List.nil_append, nameChars]
        · simp [hpart]
        · exact fun _ he => absurd he hslash
        · exact hslash
  | cons c w ih =>
    obtain ⟨fuel, rfl⟩ : ∃ n, fuel = n + 1 := ⟨fuel - 1, by omega⟩
    have hslash : c ≠ '\\' := by
      rintro rfl
      cases isFirst <;> simp_all [isName] <;> exact absurd hw.1 (by decide)
    have hc : (if isFirst then isNameStart c else isNamePart c) = true ∧ w.all isNamePart = true := by
      cases isFirst <;> simpa [isName] using hw
    have hmore := @ih fuel false hc.2 (by simpa using hfuel)
    rw [List.cons_append, nameChars]
    · rw [if_pos hc.1, hmore]
      rfl
    · exact fun _ he => absurd he hslash
    · exact hslash

theorem token_name {w rest : Text} (hw : isName w = true) (hrest : EndsName rest) :
    token (w ++ rest) = some (.word w false, rest) := by
  obtain ⟨c, more, rfl, hstart⟩ := exists_start hw
  have hnot : ∀ d : Char, isNameStart d = false → c ≠ d := fun d hd he => by simp [he, hd] at hstart
  have hdigit := decimal_of_isNameStart hstart
  have hname : name (c :: more ++ rest) = some (c :: more, false, rest) :=
    @nameChars_append _ _ _ true hw hrest (by simp)
  rw [List.cons_append] at hname ⊢
  rw [token]
  · simp [hdigit, hstart, hname]
  iterate 4 exact hnot _ (by decide)
  · exact fun _ _ he => absurd he (hnot _ (by decide))

theorem skipBlanks_name {w : Text} (hw : isName w = true) (rest : Text) (html lineStart newLine : Bool) :
    skipBlanks html .between lineStart newLine (w ++ rest) = some (newLine, w ++ rest) := by
  obtain ⟨c, more, rfl, hstart⟩ := exists_start hw
  have hnot : ∀ d : Char, isNameStart d = false → c ≠ d := fun d hd he => by simp [he, hd] at hstart
  obtain ⟨hend, hspace⟩ := isBlank_of_isNameStart hstart
  rw [List.cons_append, skipBlanks]
  · simp [hend, hspace]
  iterate 4 exact fun _ he => absurd he (hnot _ (by decide))

/-- What is read as the characters of a name is one. -/
theorem isName_of_nameChars {fuel : Nat} {isFirst escaped escaped' : Bool} {text w rest : Text}
    (h : nameChars fuel isFirst escaped text = some (w, escaped', rest)) :
    if isFirst then isName w = true else w.all isNamePart = true := by
  have hcons : ∀ {isFirst : Bool} {c : Char} {w : Text}, (if isFirst then isNameStart c else isNamePart c) = true →
      w.all isNamePart = true → if isFirst then isName (c :: w) = true else (c :: w).all isNamePart = true := by
    intro isFirst c w hc hw
    cases isFirst <;> simp_all [isName]
  fun_induction nameChars generalizing w escaped' rest with
  | case1 => cases h
  | case2 fuel isFirst escaped rest ih =>
    obtain ⟨⟨n, after⟩, -, h⟩ := Option.bind_eq_some_iff.1 h
    dsimp only at h
    split at h
    · cases h
    · by_cases hc : (if isFirst then isNameStart (Char.ofNat n) else isNamePart (Char.ofNat n)) = true
      · rw [if_pos hc] at h
        obtain ⟨⟨w, escaped, last⟩, hmore, h⟩ := Option.bind_eq_some_iff.1 h
        obtain ⟨rfl, -⟩ := Prod.mk.inj (Option.some.inj h)
        exact hcons hc (ih _ hmore)
      · rw [if_neg hc] at h
        cases h
  | case3 => cases h
  | case4 fuel isFirst escaped c rest hu hb hc ih =>
    obtain ⟨⟨w, escaped, after⟩, hmore, h⟩ := Option.bind_eq_some_iff.1 h
    obtain ⟨rfl, -⟩ := Prod.mk.inj (Option.some.inj h)
    exact hcons hc (ih hmore)
  | case5 => cases h
  | case6 fuel isFirst escaped c rest hu hb hc hfirst =>
    obtain ⟨rfl, -⟩ := Prod.mk.inj (Option.some.inj h)
    simp [hfirst]
  | case7 => cases h
  | case8 fuel isFirst escaped hfirst =>
    obtain ⟨rfl, -⟩ := Prod.mk.inj (Option.some.inj h)
    simp [hfirst]

theorem isName_of_token {text w rest : Text} {escaped : Bool} (h : token text = some (.word w escaped, rest)) :
    isName w = true := by
  have hstring : ∀ quote text, string quote text ≠ some (.word w escaped, rest) := by
    intro quote text he
    obtain ⟨a, -, ha⟩ := Option.bind_eq_some_iff.1 he
    cases ha
  have hnumber : ∀ text, number text ≠ some (.word w escaped, rest) := by
    intro text he
    rcases number_givesNumber text _ _ he with ⟨s, hs⟩ | ⟨s, hs⟩ <;> cases hs
  have hmark : ∀ text, mark text ≠ some (.word w escaped, rest) := by
    intro text he
    obtain ⟨m, ht, -⟩ := mark_eq_some he
    cases ht
  unfold token at h
  split at h
  · cases h
  · exact absurd h (hstring _ _)
  · exact absurd h (hstring _ _)
  · obtain ⟨a, -, ha⟩ := Option.bind_eq_some_iff.1 h
    cases ha
  · obtain ⟨a, -, ha⟩ := Option.map_eq_some_iff.1 h
    cases ha
  · split at h
    · exact absurd h (hnumber _)
    · exact absurd h (hmark _)
  · split at h
    · exact absurd h (hnumber _)
    · split at h
      · obtain ⟨⟨n, e, after⟩, hn, ha⟩ := Option.map_eq_some_iff.1 h
        cases ha
        exact isName_of_nameChars hn
      · exact absurd h (hmark _)

/-! ## The next token -/

/-- What the next token of a text is, and what is left behind it, whatever stands before the text. -/
def Begins (text : Text) (t : Token) (rest : Text) : Prop :=
  ∀ html lineStart newLine, ∃ newLine' here,
    skipBlanks html .between lineStart newLine text = some (newLine', here) ∧ token here = some (t, rest)

namespace Begins

variable {text rest : Text} {t : Token}

theorem next (h : Begins text t rest) (html atStart : Bool) :
    (Lexer.next html atStart text).token = t ∧ (Lexer.next html atStart text).rest = rest := by
  obtain ⟨newLine, here, hskip, htoken⟩ := h html atStart false
  simp [Lexer.next, hskip, htoken, lexemeAt]

theorem space (h : Begins text t rest) : Begins (' ' :: text) t rest :=
  fun html lineStart newLine => h html lineStart newLine

theorem line (h : Begins text t rest) : Begins ('\n' :: text) t rest :=
  fun html _ _ => h html true true

theorem name {w : Text} (hw : isName w = true) (hrest : EndsName rest) : Begins (w ++ rest) (.word w false) rest :=
  fun html lineStart newLine => ⟨newLine, _, skipBlanks_name hw rest html lineStart newLine, token_name hw hrest⟩

theorem quoted (value rest : Text) : Begins (Text.quoted value ++ rest) (.string value true) rest :=
  fun _ _ newLine => ⟨newLine, _, rfl, token_quoted value rest⟩

end Begins

/-! ## What stands between tokens -/

/-- Nothing but blanks and whole comments. -/
def Skipped (gap : Text) : Prop :=
  ∀ html lineStart newLine text, ∃ lineStart' newLine',
    skipBlanks html .between lineStart newLine (gap ++ text) = skipBlanks html .between lineStart' newLine' text

theorem exists_of_append_eq {front rest gap text : Text} (h : front ++ rest = gap ++ text) (hs : text <:+ rest) :
    ∃ g, gap = front ++ g ∧ rest = g ++ text := by
  obtain ⟨g, rfl⟩ := hs
  rw [← List.append_assoc] at h
  exact ⟨g, (List.append_cancel_right h).symm, rfl⟩

theorem skipped_nil : Skipped [] := fun _ lineStart newLine _ => ⟨lineStart, newLine, rfl⟩

theorem Skipped.append {a b : Text} (ha : Skipped a) (hb : Skipped b) : Skipped (a ++ b) := by
  intro html lineStart newLine text
  obtain ⟨lineStart', newLine', h⟩ := ha html lineStart newLine (b ++ text)
  obtain ⟨lineStart'', newLine'', h'⟩ := hb html lineStart' newLine' text
  exact ⟨lineStart'', newLine'', by rw [List.append_assoc, h, h']⟩

theorem Begins.skip {gap text rest : Text} {t : Token} (hg : Skipped gap) (h : Begins text t rest) :
    Begins (gap ++ text) t rest := by
  intro html lineStart newLine
  obtain ⟨lineStart', newLine', he⟩ := hg html lineStart newLine text
  rw [he]
  exact h html lineStart' newLine'

/-- A comment takes the character that it goes on with. -/
theorem skipBlanks_comment {html lineStart newLine newLine' : Bool} {c : Char} {text rest : Text}
    (h : skipBlanks html .blockComment lineStart newLine (c :: text) = some (newLine', rest)) : rest <:+ text := by
  have hends : ∀ {mode lineStart newLine} {text : Text},
      skipBlanks html mode lineStart newLine text = some (newLine', rest) → rest <:+ text :=
    fun h => skipBlanks_ends _ _ _ _ _ _ h
  rw [skipBlanks.eq_def] at h
  split at h <;> try contradiction
  · next he =>
    cases he
    exact (hends h).trans (List.suffix_cons _ _)
  · next he =>
    cases he
    exact hends h

/-- What is skipped in front of a text is skipped in front of every other. -/
theorem skipBlanks_gap {gap text : Text} (hne : text ≠ []) {mode : Blank} {lineStart newLine newLine' : Bool}
    (h : skipBlanks false mode lineStart newLine (gap ++ text) = some (newLine', text)) :
    ∀ html lineStart newLine after, ∃ lineStart' newLine',
      skipBlanks html mode lineStart newLine (gap ++ after) = skipBlanks html .between lineStart' newLine' after := by
  have hends : ∀ {mode lineStart newLine newLine'} {rest : Text},
      skipBlanks false mode lineStart newLine rest = some (newLine', text) → text <:+ rest :=
    fun h => skipBlanks_ends _ _ _ _ _ _ h
  have hstay : ∀ {gap : Text}, gap ++ text = text → ∀ html lineStart newLine after, ∃ lineStart' newLine',
      skipBlanks html .between lineStart newLine (gap ++ after) = skipBlanks html .between lineStart' newLine' after := by
    intro gap he html lineStart newLine after
    obtain rfl := List.append_left_eq_self.1 he
    exact ⟨lineStart, newLine, rfl⟩
  generalize hT : gap ++ text = T at h
  fun_induction skipBlanks false mode lineStart newLine T generalizing gap with
  | case1 | case4 => simp_all
  | case2 _ _ rest ih =>
    obtain ⟨g, rfl, rfl⟩ := @exists_of_append_eq ['*', '/'] _ _ _ hT.symm (hends h)
    exact fun html lineStart newLine after => ih rfl h html lineStart newLine after
  | case3 lineStart newLine c rest hslash ih =>
    obtain ⟨g, rfl, rfl⟩ := @exists_of_append_eq [c] _ _ _ hT.symm (hends h)
    intro html lineStart newLine after
    obtain ⟨x, g, rfl⟩ : ∃ x g', g = x :: g' := by
      refine List.exists_cons_of_ne_nil ?_
      rintro rfl
      obtain ⟨d, text, rfl⟩ := List.exists_cons_of_ne_nil hne
      have := (skipBlanks_comment h).length_le
      simp at this
    rw [List.cons_append, List.cons_append, skipBlanks]
    · exact ih rfl h _ _ _ _
    · rintro rest' rfl he
      cases he
      exact hslash _ rfl rfl
  | case5 _ _ c rest hc ih =>
    obtain ⟨g, rfl, rfl⟩ := @exists_of_append_eq [c] _ _ _ hT.symm (hends h)
    intro html lineStart newLine after
    rw [List.cons_append, List.cons_append, skipBlanks, if_pos hc]
    exact ih rfl h _ _ _ _
  | case6 _ _ c rest hc ih =>
    obtain ⟨g, rfl, rfl⟩ := @exists_of_append_eq [c] _ _ _ hT.symm (hends h)
    intro html lineStart newLine after
    rw [List.cons_append, List.cons_append, skipBlanks, if_neg hc]
    exact ih rfl h _ _ _ _
  | case7 _ _ rest ih | case8 _ _ rest ih =>
    obtain ⟨g, rfl, rfl⟩ := @exists_of_append_eq ['/', _] _ _ _ hT.symm (hends h)
    exact fun html lineStart newLine after => ih rfl h html lineStart newLine after
  | case9 | case11 => contradiction
  | case13 _ _ c rest h₁ h₂ h₃ h₄ hc ih =>
    obtain ⟨g, rfl, rfl⟩ := @exists_of_append_eq [c] _ _ _ hT.symm (hends h)
    intro html lineStart newLine after
    rw [List.cons_append, List.cons_append, skipBlanks, if_pos hc]
    · exact ih rfl h _ _ _ _
    all_goals
      rintro _ rfl
      exact absurd hc (by decide)
  | case14 _ _ c rest h₁ h₂ h₃ h₄ hc hs ih =>
    obtain ⟨g, rfl, rfl⟩ := @exists_of_append_eq [c] _ _ _ hT.symm (hends h)
    intro html lineStart newLine after
    rw [List.cons_append, List.cons_append, skipBlanks, if_neg hc, if_pos hs]
    · exact ih rfl h _ _ _ _
    all_goals
      rintro _ rfl
      exact absurd hs (by decide)
  | case10 | case12 | case15 | case16 =>
    obtain ⟨-, rfl⟩ := Prod.mk.inj (Option.some.inj h)
    exact hstay hT

/-- What stands in front of a token is nothing but blanks and whole comments. -/
theorem skipped_of_skipBlanks {gap text : Text} (hne : text ≠ []) {lineStart newLine newLine' : Bool}
    (h : skipBlanks false .between lineStart newLine (gap ++ text) = some (newLine', text)) : Skipped gap :=
  skipBlanks_gap hne h

/-- Without markup comments the place of the next token does not depend on what stands before the blanks. -/
theorem skipBlanks_place (mode : Blank) (lineStart newLine lineStart' newLine' : Bool) (text : Text) :
    (skipBlanks false mode lineStart newLine text).map Prod.snd =
      (skipBlanks false mode lineStart' newLine' text).map Prod.snd := by
  fun_induction skipBlanks false mode lineStart newLine text generalizing lineStart' newLine' <;> grind [skipBlanks]

theorem next_place {a b : Text} {atStart atStart' : Bool}
    (h : (skipBlanks false .between atStart false a).map Prod.snd = (skipBlanks false .between atStart' false b).map Prod.snd) :
    (next false atStart a).token = (next false atStart' b).token ∧
      (next false atStart a).rest = (next false atStart' b).rest := by
  unfold next
  cases ha : skipBlanks false .between atStart false a with
  | none =>
    rw [ha] at h
    rw [Option.map_eq_none_iff.1 h.symm]
    exact ⟨rfl, rfl⟩
  | some found =>
    obtain ⟨newLine, here⟩ := found
    rw [ha] at h
    obtain ⟨⟨newLine', here'⟩, hb, he⟩ := Option.map_eq_some_iff.1 h.symm
    obtain rfl : here' = here := he
    rw [hb]
    cases hx : token here' <;> simp [lexemeAt, hx]

/-- The token behind skipped blanks is the one that comes without them. -/
theorem next_skip {gap : Text} (hg : Skipped gap) (atStart atStart' : Bool) (text : Text) :
    (next false atStart (gap ++ text)).token = (next false atStart' text).token ∧
      (next false atStart (gap ++ text)).rest = (next false atStart' text).rest := by
  obtain ⟨lineStart, newLine, he⟩ := hg false atStart false text
  exact next_place (by rw [he, skipBlanks_place .between lineStart newLine atStart' false])

end CjsInterop.Syntax.Lexer
