import CjsInterop.Syntax.Lexer

/-! Whatever is read off a source, an end of the source is left. So a token stands behind the blanks
before it, and what follows the token stands behind the token. -/

namespace CjsInterop.Syntax.Lexer

/-- What is left after a reading, as `last` finds it in the result, is an end of `text`. -/
def Ends {α : Type} (last : α → Text) (x : Option α) (text : Text) : Prop :=
  ∀ a, x = some a → last a <:+ text

namespace Ends

variable {α β : Type} {last : α → Text} {last' : β → Text} {x : Option α} {text : Text}

theorem none : Ends last none text := by
  simp [Ends]

theorem some {a : α} (h : last a <:+ text) : Ends last (some a) text := by
  simpa [Ends] using h

theorem cons {c : Char} (h : Ends last x text) : Ends last x (c :: text) :=
  fun a ha => (h a ha).trans (List.suffix_cons c text)

theorem mono {longer : Text} (h : Ends last x text) (ht : text <:+ longer) : Ends last x longer :=
  fun a ha => (h a ha).trans ht

theorem bind {f : α → Option β} (h : Ends last x text) (hf : ∀ a, Ends last' (f a) (last a)) :
    Ends last' (x >>= f) text := by
  intro b hb
  obtain ⟨a, ha, hfa⟩ := Option.bind_eq_some_iff.1 hb
  exact (hf a b hfa).trans (h a ha)

theorem map {f : α → β} (h : Ends last x text) (hf : ∀ a, last' (f a) = last a) :
    Ends last' (x.map f) text := by
  intro b hb
  obtain ⟨a, ha, rfl⟩ := Option.map_eq_some_iff.1 hb
  exact hf a ▸ h a ha

theorem ite {p : Prop} [Decidable p] {y : Option α} (hx : Ends last x text) (hy : Ends last y text) :
    Ends last (if p then x else y) text := by
  split
  · exact hx
  · exact hy

end Ends

theorem skipBlanks_ends (html : Bool) (mode : Blank) (lineStart newLine : Bool) (text : Text) :
    Ends Prod.snd (skipBlanks html mode lineStart newLine text) text := by
  fun_induction skipBlanks with
  | case1 => exact .none
  | case4 | case10 | case12 | case15 | case16 => exact .some List.suffix_rfl
  | case2 _ _ _ ih | case7 _ _ _ ih | case8 _ _ _ ih => exact ih.cons.cons
  | case9 _ _ _ _ ih => exact ih.cons.cons.cons.cons
  | case11 _ _ _ _ ih => exact ih.cons.cons.cons
  | case3 _ _ _ _ _ ih | case5 _ _ _ _ _ ih | case6 _ _ _ _ _ ih => exact ih.cons
  | case13 _ _ _ _ _ _ _ _ _ ih | case14 _ _ _ _ _ _ _ _ _ _ ih => exact ih.cons

/-- Without markup comments it does not matter what stands before the blanks on their line. -/
theorem skipBlanks_lineStart (mode : Blank) (lineStart lineStart' newLine : Bool) (text : Text) :
    skipBlanks false mode lineStart newLine text = skipBlanks false mode lineStart' newLine text := by
  fun_induction skipBlanks false mode lineStart newLine text generalizing lineStart' <;> grind [skipBlanks]

/-! ## Names and numbers -/

theorem hexDigits_ends (n value : Nat) (text : Text) : Ends Prod.snd (hexDigits n value text) text := by
  fun_induction hexDigits with
  | case1 => exact .some List.suffix_rfl
  | case2 n value c rest ih =>
    intro a ha
    obtain ⟨d, -, hd⟩ := Option.bind_eq_some_iff.1 ha
    exact (ih d).cons a hd
  | case3 => exact .none

theorem bracedDigits_ends (any : Bool) (value : Nat) (text : Text) :
    Ends Prod.snd (bracedDigits any value text) text := by
  fun_induction bracedDigits with
  | case1 => exact .some (List.suffix_cons _ _)
  | case2 => exact .none
  | case3 any value c rest hc ih =>
    intro a ha
    obtain ⟨d, -, hd⟩ := Option.bind_eq_some_iff.1 ha
    exact (ih d).cons a hd
  | case4 => exact .none

theorem unicodeEscape_ends (text : Text) : Ends Prod.snd (unicodeEscape text) text := by
  unfold unicodeEscape
  split
  · exact (bracedDigits_ends _ _ _).cons
  · exact hexDigits_ends _ _ _

theorem nameChars_ends (fuel : Nat) (isFirst escaped : Bool) (text : Text) :
    Ends (fun r => r.2.2) (nameChars fuel isFirst escaped text) text := by
  fun_induction nameChars with
  | case1 => exact .none
  | case2 fuel isFirst escaped rest ih =>
    refine ((unicodeEscape_ends rest).bind fun a => ?_).cons.cons
    exact .ite .none (.ite ((ih a.2).bind fun _ => .some List.suffix_rfl) .none)
  | case3 => exact .none
  | case4 fuel isFirst escaped c rest hu hb hc ih =>
    exact .cons (ih.bind fun _ => .some List.suffix_rfl)
  | case5 => exact .none
  | case6 => exact .some List.suffix_rfl
  | case7 => exact .none
  | case8 => exact .some List.suffix_rfl

theorem name_ends (text : Text) : Ends (fun r => r.2.2) (name text) text.tail := by
  unfold name nameChars
  split
  · refine ((unicodeEscape_ends _).bind fun a => ?_).cons
    exact .ite .none (.ite ((nameChars_ends _ _ _ a.2).bind fun _ => .some List.suffix_rfl) .none)
  · exact .none
  · exact .ite ((nameChars_ends _ _ _ _).bind fun _ => .some List.suffix_rfl) .none
  · exact .none

theorem separated_ends (isDigit : Char → Bool) (text : Text) : Ends Prod.snd (separated isDigit text) text := by
  fun_induction separated with
  | case1 c rest hc ih => exact .cons (ih.map fun _ => rfl)
  | case2 => exact .none
  | case3 => exact .none
  | case4 c rest hu hn hc ih => exact .cons (ih.map fun _ => rfl)
  | case5 => exact .some List.suffix_rfl
  | case6 => exact .some List.suffix_rfl

theorem separated_ends_tail {isDigit : Char → Bool} {c : Char} {rest : Text} (hc : isDigit c = true) :
    Ends Prod.snd (separated isDigit (c :: rest)) rest := by
  unfold separated
  split
  · next d more he =>
    obtain ⟨-, rfl⟩ := List.cons.inj he
    exact .ite ((separated_ends _ _).map fun _ => rfl) .none
  · exact .none
  · next he =>
    obtain ⟨rfl, rfl⟩ := List.cons.inj he
    rw [if_pos hc]
    exact (separated_ends _ _).map fun _ => rfl
  · next he => cases he

theorem someDigits_ends (isDigit : Char → Bool) (text : Text) :
    Ends Prod.snd (someDigits isDigit text) text.tail := by
  unfold someDigits
  split
  · split
    · exact separated_ends_tail (by assumption)
    · exact .none
  · exact .none

theorem exponent_ends (text : Text) : Ends Prod.snd (exponent text) text := by
  unfold exponent
  split
  · next e rest =>
    refine .ite ?_ (.some List.suffix_rfl)
    split
    · next sign after =>
      refine .ite (.cons (.cons ?_)) (.cons ?_)
      · exact ((someDigits_ends _ _).mono (List.tail_suffix _)).map fun _ => rfl
      · exact ((someDigits_ends _ _).mono (List.tail_suffix _)).map fun _ => rfl
    · exact .none
  · exact .some List.suffix_rfl

theorem fractionDigits_ends (text : Text) : Ends Prod.snd (fractionDigits text) text := by
  unfold fractionDigits
  split
  · exact .ite (separated_ends _ _) (.some List.suffix_rfl)
  · exact .some List.suffix_rfl

theorem numberEnd_ends (t : Token) (text : Text) : Ends Prod.snd (numberEnd t text) text := by
  unfold numberEnd
  split
  · exact .ite .none (.some List.suffix_rfl)
  · exact .some List.suffix_rfl

theorem decimalTail_ends (whole text : Text) : Ends Prod.snd (decimalTail whole text) text := by
  unfold decimalTail
  split
  · exact ((fractionDigits_ends _).bind fun _ => (exponent_ends _).bind fun _ => numberEnd_ends _ _).cons
  · exact (numberEnd_ends _ _).cons
  · exact (exponent_ends _).bind fun _ => numberEnd_ends _ _

theorem legacyNumber_ends (text : Text) :
    Ends Prod.snd (legacyNumber text) (text.dropWhile decimal) := by
  unfold legacyNumber
  refine .ite ?_ (numberEnd_ends _ _)
  split
  · next after h =>
    rw [h]
    exact ((fractionDigits_ends _).bind fun _ => (exponent_ends _).bind fun _ => numberEnd_ends _ _).cons
  · exact (exponent_ends _).bind fun _ => numberEnd_ends _ _

theorem number_ends (text : Text) : Ends Prod.snd (number text) text.tail := by
  unfold number
  split
  · refine .mono ?_ (List.tail_suffix _)
    exact (someDigits_ends _ _).bind fun _ => (exponent_ends _).bind fun _ => numberEnd_ends _ _
  · next c rest =>
    refine .ite ?_ (.ite ?_ (.ite .none (decimalTail_ends _ _)))
    · refine .cons (.bind ((someDigits_ends _ _).mono (List.tail_suffix _)) fun ⟨digits, after⟩ => ?_)
      dsimp only
      split
      · exact .cons (numberEnd_ends _ _)
      · exact numberEnd_ends _ _
    · refine (legacyNumber_ends _).mono ?_
      rw [List.dropWhile_cons_of_pos (by decide)]
      exact List.dropWhile_suffix _
  · exact (someDigits_ends _ _).bind fun _ => decimalTail_ends _ _

/-! ## Strings, templates and regular expressions -/

theorem octalDigits_suffix (n value : Nat) (text : Text) : (octalDigits n value text).2 <:+ text := by
  fun_induction octalDigits with
  | case1 n value c rest hc ih => exact ih.trans (List.suffix_cons _ _)
  | case2 => exact List.suffix_rfl
  | case3 => exact List.suffix_rfl

/-- What is left after an escape. -/
def Escape.rest : Escape → Text
  | .nothing rest => rest
  | .unit _ rest => rest
  | .invalid rest => rest

theorem escape_suffix (inTemplate : Bool) (text : Text) : (escape inTemplate text).rest <:+ text := by
  unfold escape
  split
  · exact List.suffix_rfl
  · exact (List.suffix_cons _ _).trans (List.suffix_cons _ _)
  iterate 6 exact List.suffix_cons _ _
  · next rest =>
    split
    · next n after h => exact (hexDigits_ends _ _ _ _ h).trans (List.suffix_cons _ _)
    · exact List.suffix_cons _ _
  · next rest =>
    split
    · next n after h => exact (unicodeEscape_ends _ _ h).trans (List.suffix_cons _ _)
    · exact List.suffix_cons _ _
  · next c rest _ _ _ _ _ _ _ _ _ =>
    have hc : rest <:+ c :: rest := List.suffix_cons _ _
    split
    · exact hc
    · split
      · split
        · split <;> exact hc
        · exact hc
      · split
        · exact (octalDigits_suffix _ _ _).trans hc
        · exact hc

theorem stringUnits_ends (quote : Char) (fuel : Nat) (text : Text) :
    Ends Prod.snd (stringUnits quote fuel text) text := by
  fun_induction stringUnits with
  | case1 => exact .none
  | case2 => exact .none
  | case3 => exact .none
  | case4 fuel rest after h ih =>
    have hs := escape_suffix false rest
    rw [h] at hs
    exact .cons (ih.mono hs)
  | case5 fuel rest u after h ih =>
    have hs := escape_suffix false rest
    rw [h] at hs
    exact .cons (.mono (ih.map fun _ => rfl) hs)
  | case6 => exact .some (List.suffix_cons _ _)
  | case7 => exact .none
  | case8 fuel c rest hb hq hn ih => exact .cons (ih.map fun _ => rfl)

theorem string_ends (quote : Char) (text : Text) : Ends Prod.snd (string quote text) text :=
  (stringUnits_ends _ _ _).bind fun _ => .some List.suffix_rfl

theorem templateUnits_ends (fuel : Nat) (text : Text) :
    Ends (fun r => r.2.2.2) (templateUnits fuel text) text := by
  fun_induction templateUnits with
  | case1 => exact .none
  | case2 => exact .none
  | case3 => exact .some (List.suffix_cons _ _)
  | case4 => exact .some ((List.suffix_cons _ _).trans (List.suffix_cons _ _))
  | case5 fuel rest after h longer ih =>
    have hs : longer <:+ rest := by
      have hs := escape_suffix true rest
      rw [h] at hs
      unfold longer
      split
      · exact hs
      · exact List.suffix_rfl
    exact .cons (.mono (ih.map fun _ => rfl) hs)
  | case6 fuel rest after h ih =>
    have hs := escape_suffix true rest
    rw [h] at hs
    exact .cons (ih.mono hs)
  | case7 fuel rest u after h ih =>
    have hs := escape_suffix true rest
    rw [h] at hs
    exact .cons (.mono (ih.map fun _ => rfl) hs)
  | case8 fuel rest ih => exact .cons (.cons (ih.map fun _ => rfl))
  | case9 fuel c rest _ _ _ _ ih => exact .cons (ih.map fun _ => rfl)

theorem template_ends (text : Text) : Ends Prod.snd (template text) text :=
  (templateUnits_ends _ _).bind fun _ => .some List.suffix_rfl

theorem regexBody_ends (inClass : Bool) (text : Text) : Ends Prod.snd (regexBody inClass text) text := by
  fun_induction regexBody with
  | case1 => exact .none
  | case2 => exact .none
  | case3 inClass c rest hc ih => exact .cons (.cons (ih.map fun _ => rfl))
  | case4 => exact .none
  | case5 => exact .some (List.suffix_cons _ _)
  | case6 inClass c rest hb hc hs inner ih => exact .cons (ih.map fun _ => rfl)

theorem regex_ends (text : Text) : Ends Prod.snd (regex text) text :=
  (regexBody_ends _ _).bind fun _ => .ite (.some (List.dropWhile_suffix _)) .none

/-! ## Marks and tokens -/

theorem firstOf_eq_some {marks : List Text} {text rest : Text} {t : Token}
    (h : firstOf marks text = some (t, rest)) : ∃ m ∈ marks, t = .mark m ∧ text = m ++ rest := by
  obtain ⟨m, hm, he⟩ := List.exists_of_findSome?_eq_some h
  obtain ⟨after, hd, he⟩ := Option.map_eq_some_iff.1 he
  obtain ⟨rfl, rfl⟩ := Prod.mk.inj he
  exact ⟨m, hm, rfl, Text.dropStart?_eq_some hd⟩

theorem mark_eq_some {text rest : Text} {t : Token} (h : mark text = some (t, rest)) :
    ∃ m, t = .mark m ∧ text = m ++ rest := by
  unfold mark at h
  split at h
  · split at h
    · obtain ⟨rfl, rfl⟩ := Prod.mk.inj (Option.some.inj h)
      exact ⟨_, rfl, rfl⟩
    · obtain ⟨rfl, rfl⟩ := Prod.mk.inj (Option.some.inj h)
      exact ⟨_, rfl, rfl⟩
  · obtain ⟨m, -, ht, he⟩ := firstOf_eq_some h
    exact ⟨m, ht, he⟩

theorem mark_ends (text : Text) : Ends Prod.snd (mark text) text.tail := by
  have hmarks : ∀ m ∈ marks, m ≠ [] := by decide
  have hfirst : ∀ text, Ends Prod.snd (firstOf marks text) text.tail := by
    intro text ⟨t, rest⟩ ha
    obtain ⟨m, hm, -, rfl⟩ := firstOf_eq_some ha
    obtain ⟨c, m, rfl⟩ := List.exists_cons_of_ne_nil (hmarks m hm)
    exact List.suffix_append _ _
  unfold mark
  split
  · exact .ite (.some List.suffix_rfl) (.some (List.suffix_cons _ _))
  · exact hfirst _

/-- A token takes at least one character, unless there is none left. -/
theorem token_ends (text : Text) : Ends Prod.snd (token text) text.tail := by
  unfold token
  split
  · exact .some List.suffix_rfl
  · exact string_ends _ _
  · exact string_ends _ _
  · exact template_ends _
  · exact ((name_ends _).mono (List.tail_suffix _)).map fun _ => rfl
  · exact .ite (number_ends _) (mark_ends _)
  · exact .ite (number_ends _) (.ite ((name_ends _).map fun _ => rfl) (mark_ends _))

theorem lexemeAt_rest {onNewLine : Bool} {here text : Text} {x : Option (Token × Text)} (h : Ends Prod.snd x text) :
    (lexemeAt onNewLine here x).rest <:+ text := by
  unfold lexemeAt
  split
  · exact h _ rfl
  · exact List.nil_suffix

theorem lexemeAt_here (onNewLine : Bool) (here : Text) (x : Option (Token × Text)) :
    (lexemeAt onNewLine here x).here = here := by
  unfold lexemeAt
  split <;> rfl

/-! ## Tokens that are marks -/

/-- What a reading gives is a number, if anything. -/
def GivesNumber (x : Option (Token × Text)) : Prop :=
  ∀ t rest, x = some (t, rest) → (∃ s, t = .number s) ∨ ∃ s, t = .bigint s

theorem numberEnd_givesNumber {t : Token} {text : Text} (h : (∃ s, t = .number s) ∨ ∃ s, t = .bigint s) :
    GivesNumber (numberEnd t text) := by
  intro t' rest he
  unfold numberEnd at he
  split at he
  · split at he
    · cases he
    · obtain ⟨rfl, rfl⟩ := Prod.mk.inj (Option.some.inj he)
      exact h
  · obtain ⟨rfl, rfl⟩ := Prod.mk.inj (Option.some.inj he)
    exact h

theorem bind_givesNumber {α : Type} {x : Option α} {f : α → Option (Token × Text)} (h : ∀ a, GivesNumber (f a)) :
    GivesNumber (x >>= f) := by
  intro t rest he
  obtain ⟨a, -, ha⟩ := Option.bind_eq_some_iff.1 he
  exact h a t rest ha

theorem decimalTail_givesNumber (whole text : Text) : GivesNumber (decimalTail whole text) := by
  unfold decimalTail
  split
  · exact bind_givesNumber fun _ => bind_givesNumber fun _ => numberEnd_givesNumber (.inl ⟨_, rfl⟩)
  · exact numberEnd_givesNumber (.inr ⟨_, rfl⟩)
  · exact bind_givesNumber fun _ => numberEnd_givesNumber (.inl ⟨_, rfl⟩)

theorem legacyNumber_givesNumber (text : Text) : GivesNumber (legacyNumber text) := by
  unfold legacyNumber
  extract_lets digits rest
  split
  · clear_value rest
    split
    · exact bind_givesNumber fun _ => bind_givesNumber fun _ => numberEnd_givesNumber (.inl ⟨_, rfl⟩)
    · exact bind_givesNumber fun _ => numberEnd_givesNumber (.inl ⟨_, rfl⟩)
  · exact numberEnd_givesNumber (.inl ⟨_, rfl⟩)

theorem number_givesNumber (text : Text) : GivesNumber (number text) := by
  unfold number
  split
  · exact bind_givesNumber fun _ => bind_givesNumber fun _ => numberEnd_givesNumber (.inl ⟨_, rfl⟩)
  · split
    · refine bind_givesNumber fun ⟨digits, after⟩ => ?_
      dsimp only
      split
      · exact numberEnd_givesNumber (.inr ⟨_, rfl⟩)
      · exact numberEnd_givesNumber (.inl ⟨_, rfl⟩)
    · split
      · exact legacyNumber_givesNumber _
      · split
        · intro t rest he
          cases he
        · exact decimalTail_givesNumber _ _
  · exact bind_givesNumber fun _ => decimalTail_givesNumber _ _

theorem token_eq_mark {text rest m : Text} (h : token text = some (.mark m, rest)) : text = m ++ rest := by
  have hnumber : ∀ text, number text ≠ some (.mark m, rest) := by
    intro text he
    rcases number_givesNumber text _ _ he with ⟨s, hs⟩ | ⟨s, hs⟩ <;> cases hs
  have hmark : ∀ text, mark text = some (.mark m, rest) → text = m ++ rest := by
    intro text he
    obtain ⟨m', ht, he⟩ := mark_eq_some he
    cases ht
    exact he
  have hstring : ∀ quote text, string quote text ≠ some (.mark m, rest) := by
    intro quote text he
    obtain ⟨a, -, ha⟩ := Option.bind_eq_some_iff.1 he
    cases ha
  unfold token at h
  split at h
  · cases h
  · exact absurd h (hstring _ _)
  · exact absurd h (hstring _ _)
  · obtain ⟨a, -, ha⟩ := Option.bind_eq_some_iff.1 h
    cases ha
  · obtain ⟨a, -, ha⟩ := Option.map_eq_some_iff.1 h
    cases ha
  · split at h
    · exact absurd h (hnumber _)
    · exact hmark _ h
  · split at h
    · exact absurd h (hnumber _)
    · split at h
      · obtain ⟨a, -, ha⟩ := Option.map_eq_some_iff.1 h
        cases ha
      · exact hmark _ h

theorem next_eq_mark {html atStart : Bool} {text m : Text} (h : (next html atStart text).token = .mark m) :
    (next html atStart text).here = m ++ (next html atStart text).rest := by
  unfold next at h ⊢
  split at h
  · next onNewLine here hs =>
    unfold lexemeAt at h ⊢
    split at h
    · next t rest ht =>
      obtain rfl : t = .mark m := h
      exact token_eq_mark ht
    · cases h
  · cases h

theorem next_token_of_here_nil {html atStart : Bool} {text : Text} (h : (next html atStart text).here = []) :
    (next html atStart text).token = .eof := by
  unfold next at h ⊢
  split at h
  · rw [lexemeAt_here] at h
    subst h
    rfl
  · next hnone =>
    obtain rfl : text = [] := h
    simp [skipBlanks] at hnone

end CjsInterop.Syntax.Lexer
