import CjsInterop.Proofs.ItemOrder
import CjsInterop.Proofs.ExpressionReading

/-! What readers come to in front of tokens that are known, and what they have taken when they come to something. -/

namespace CjsInterop.Syntax

/-- The next token of a module, and what is left behind it. -/
def Next (text : Text) (t : Token) (rest : Text) : Prop :=
  (Lexer.next false false text).token = t ∧ (Lexer.next false false text).rest = rest

/-- A module goes on with these tokens, up to what is left behind them. -/
inductive Spells : Text → List Token → Text → Prop
  | nil {text : Text} : Spells text [] text
  | cons {text rest last : Text} {t : Token} {tokens : List Token} (h : Next text t rest) (hmore : Spells rest tokens last) :
      Spells text (t :: tokens) last

/-- The next tokens of a module, `n` of them, and what is left behind them. -/
def spelling : Nat → Text → List Token × Text
  | 0, text => ([], text)
  | n + 1, text =>
    let l := Lexer.next false false text
    let (tokens, rest) := spelling n l.rest
    (l.token :: tokens, rest)

namespace Spells

variable {text rest : Text} {t : Token} {tokens more : List Token}

theorem cons_inv (h : Spells text (t :: tokens) rest) : ∃ middle, Next text t middle ∧ Spells middle tokens rest := by
  cases h with
  | cons h hmore => exact ⟨_, h, hmore⟩

theorem append_inv (h : Spells text (tokens ++ more) rest) :
    ∃ middle, Spells text tokens middle ∧ Spells middle more rest := by
  induction tokens generalizing text with
  | nil => exact ⟨text, .nil, h⟩
  | cons t tokens ih =>
    obtain ⟨second, ht, h⟩ := h.cons_inv
    obtain ⟨middle, h, hmore⟩ := ih h
    exact ⟨middle, .cons ht h, hmore⟩

theorem spelling (n : Nat) (text : Text) : Spells text (spelling n text).1 (spelling n text).2 := by
  induction n generalizing text with
  | zero => exact .nil
  | succ n ih => exact .cons ⟨rfl, rfl⟩ (ih _)

end Spells

namespace Reader

theorem bind_inv {α β : Type} {x : Reader α} {f : α → Reader β} {context : Context} {cursor after : Cursor} {b : β}
    (h : (x >>= f) context cursor = some (b, after)) :
    ∃ a middle, x context cursor = some (a, middle) ∧ f a context middle = some (b, after) := by
  obtain ⟨⟨a, middle⟩, hx, hf⟩ := Option.bind_eq_some_iff.1 h
  exact ⟨a, middle, hx, hf⟩

/-- The reader is in a module, in front of the first token of the text. -/
structure Before (context : Context) (cursor : Cursor) (text : Text) : Prop where
  script : context.dialect.script = false
  token : cursor.lexeme.token = (Lexer.next false false text).token
  rest : cursor.lexeme.rest = (Lexer.next false false text).rest

/-- In front of `text` the reader comes to nothing but `a`, and leaves `rest`. -/
def Draws {α : Type} (x : Reader α) (context : Context) (text : Text) (a : α) (rest : Text) : Prop :=
  ∀ cursor b after, Before context cursor text → x context cursor = some (b, after) → b = a ∧ Before context after rest

section Steps

variable {α β : Type} {x : Reader α} {context : Context} {text rest last : Text} {t u : Token} {a : α}

theorem Draws.bind {f : α → Reader β} {b : β} (hx : Draws x context text a rest) (hf : Draws (f a) context rest b last) :
    Draws (x >>= f) context text b last := by
  intro cursor c after hc h
  obtain ⟨_, middle, hmiddle, h⟩ := bind_inv h
  obtain ⟨rfl, hm⟩ := hx _ _ _ hc hmiddle
  exact hf _ _ _ hm h

theorem draws_pure (a : α) (text : Text) : Draws (pure a) context text a text := by
  intro cursor b after hc h
  obtain ⟨rfl, rfl⟩ := Prod.mk.inj (Option.some.inj h)
  exact ⟨rfl, hc⟩

theorem draws_failure : Draws failure context text a rest := fun _ _ _ _ => nofun

theorem draws_token (h : Next text t rest) : Draws token context text t text := by
  intro cursor b after hc hrun
  obtain ⟨rfl, rfl⟩ := Prod.mk.inj (Option.some.inj hrun)
  exact ⟨hc.token.trans h.1, hc⟩

theorem draws_isAt (h : Next text t rest) (m : Text) : Draws (isAt m) context text (t.isMark m) text :=
  (draws_token h).bind (draws_pure _ _)

theorem draws_isAtWord (h : Next text t rest) (w : Text) : Draws (isAtWord w) context text (t.isWord w) text :=
  (draws_token h).bind (draws_pure _ _)

theorem draws_isTypescript : Draws isTypescript context text context.dialect.typescript text := by
  intro cursor b after hc hrun
  obtain ⟨rfl, rfl⟩ := Prod.mk.inj (Option.some.inj hrun)
  exact ⟨rfl, hc⟩

theorem draws_bump (h : Next text t rest) : Draws bump context text () rest := by
  intro cursor b after hc hrun
  obtain ⟨-, rfl⟩ := Prod.mk.inj (Option.some.inj hrun)
  refine ⟨rfl, hc.script, ?_, ?_⟩ <;> simp only [hc.script, hc.rest, h.2]

theorem draws_looksLike {x : Reader Bool} (h : Draws x context text false rest) :
    Draws (looksLike x) context text false text := by
  intro cursor b after hc hrun
  unfold looksLike at hrun
  split at hrun
  · next found middle hfound =>
    obtain ⟨rfl, -⟩ := h _ _ _ hc hfound
    obtain ⟨rfl, rfl⟩ := Prod.mk.inj (Option.some.inj hrun)
    exact ⟨rfl, hc⟩
  · obtain ⟨rfl, rfl⟩ := Prod.mk.inj (Option.some.inj hrun)
    exact ⟨rfl, hc⟩

theorem draws_nextIs (h : Next text t rest) (hu : Next rest u last) (test : Token → Bool) :
    Draws (nextIs fun t _ => test t) context text (test u) text := by
  intro cursor b after hc hrun
  have hbump : bump context cursor = some ((), { cursor with
      behind := cursor.lexeme.rest
      lexeme := Lexer.next context.dialect.script false cursor.lexeme.rest }) := rfl
  have htoken : (Lexer.next context.dialect.script false cursor.lexeme.rest).token = u := by
    rw [hc.script, hc.rest, h.2, hu.1]
  simp only [nextIs, looksLike, bind_apply, hbump, token_apply, onNewLine_apply, Option.bind_some, pure_apply, htoken] at hrun
  obtain ⟨rfl, rfl⟩ := Prod.mk.inj (Option.some.inj hrun)
  exact ⟨rfl, hc⟩

theorem draws_eat (h : Next text t rest) {m : Text} (ht : t.isMark m = true) : Draws (eat m) context text true rest := by
  refine (draws_isAt h m).bind ?_
  rw [ht]
  exact (draws_bump h).bind (draws_pure _ _)

theorem draws_eat_not (h : Next text t rest) {m : Text} (ht : t.isMark m = false) :
    Draws (eat m) context text false text := by
  refine (draws_isAt h m).bind ?_
  rw [ht]
  exact draws_pure _ _

theorem draws_eatWord (h : Next text t rest) {w : Text} (ht : t.isWord w = true) :
    Draws (eatWord w) context text true rest := by
  refine (draws_isAtWord h w).bind ?_
  rw [ht]
  exact (draws_bump h).bind (draws_pure _ _)

theorem draws_eatWord_not (h : Next text t rest) {w : Text} (ht : t.isWord w = false) :
    Draws (eatWord w) context text false text := by
  refine (draws_isAtWord h w).bind ?_
  rw [ht]
  exact draws_pure _ _

theorem draws_expect (h : Next text t rest) {m : Text} (ht : t.isMark m = true) :
    Draws (expect m) context text () rest :=
  (draws_eat h ht).bind (draws_pure _ _)

theorem draws_expectWord (h : Next text t rest) {w : Text} (ht : t.isWord w = true) :
    Draws (expectWord w) context text () rest :=
  (draws_eatWord h ht).bind (draws_pure _ _)

theorem draws_refuseIf (b : Bool) (text : Text) : Draws (refuseIf b) context text () text := by
  cases b
  · exact draws_pure _ _
  · exact draws_failure

theorem draws_flawIf (b : Bool) (text : Text) : Draws (flawIf b) context text () text := by
  cases b
  · exact draws_pure _ _
  · intro cursor a after hc hrun
    obtain ⟨-, rfl⟩ := Prod.mk.inj (Option.some.inj hrun)
    exact ⟨rfl, hc.script, hc.token, hc.rest⟩

theorem draws_checkName (name text : Text) : Draws (checkName name) context text () text := by
  have hread : Draws (read : Reader Context) context text context text := by
    intro cursor b after hc hrun
    obtain ⟨rfl, rfl⟩ := Prod.mk.inj (Option.some.inj hrun)
    exact ⟨rfl, hc⟩
  exact hread.bind ((draws_flawIf _ _).bind (draws_flawIf _ _))

end Steps

/-! ## Readers in front of any tokens -/

/-- In front of `text` the reader comes to nothing but results with `R`, each with what it leaves. -/
def Finds {α : Type} (x : Reader α) (context : Context) (text : Text) (R : α → Text → Prop) : Prop :=
  ∀ cursor a after, Before context cursor text → x context cursor = some (a, after) →
    ∃ rest, Before context after rest ∧ R a rest

section Finds

variable {α β : Type} {x y : Reader α} {context : Context} {text rest : Text} {t : Token} {a : α}
  {R S : α → Text → Prop} {f : α → Reader β} {Q : β → Text → Prop}

theorem exists_next (text : Text) : ∃ t rest, Next text t rest := ⟨_, _, rfl, rfl⟩

theorem Draws.finds (h : Draws x context text a rest) (hr : R a rest) : Finds x context text R := by
  intro cursor b after hc hrun
  obtain ⟨rfl, hafter⟩ := h _ _ _ hc hrun
  exact ⟨rest, hafter, hr⟩

theorem Finds.weaken (h : Finds x context text S) (hr : ∀ a rest, S a rest → R a rest) : Finds x context text R := by
  intro cursor a after hc hrun
  obtain ⟨rest, hafter, hs⟩ := h _ _ _ hc hrun
  exact ⟨rest, hafter, hr a rest hs⟩

theorem Finds.bind (hx : Finds x context text S) (hf : ∀ a rest, S a rest → Finds (f a) context rest Q) :
    Finds (x >>= f) context text Q := by
  intro cursor b after hc hrun
  obtain ⟨a, middle, hmiddle, hrun⟩ := bind_inv hrun
  obtain ⟨rest, hm, hs⟩ := hx _ _ _ hc hmiddle
  exact hf a rest hs _ _ _ hm hrun

theorem Draws.andThen (hx : Draws x context text a rest) (hf : Finds (f a) context rest Q) :
    Finds (x >>= f) context text Q :=
  (hx.finds (R := fun b r => b = a ∧ r = rest) ⟨rfl, rfl⟩).bind fun _ _ h => h.1 ▸ h.2 ▸ hf

theorem finds_pure (h : R a text) : Finds (pure a) context text R := (draws_pure a text).finds h

theorem finds_failure : Finds failure context text R := fun _ _ _ _ => nofun

theorem finds_ite {c : Prop} [Decidable c] (hx : c → Finds x context text R) (hy : ¬c → Finds y context text R) :
    Finds (if c then x else y) context text R := by
  split
  · next h => exact hx h
  · next h => exact hy h

theorem finds_refuseIf (b : Bool) (text : Text) : Finds (refuseIf b) context text fun _ rest => b = false ∧ rest = text := by
  cases b
  · exact finds_pure ⟨rfl, rfl⟩
  · exact finds_failure

theorem finds_eat (h : Next text t rest) (m : Text) : Finds (eat m) context text fun taken after =>
    taken = t.isMark m ∧ after = if t.isMark m then rest else text := by
  cases hm : t.isMark m with
  | true => exact (draws_eat h hm).finds ⟨rfl, rfl⟩
  | false => exact (draws_eat_not h hm).finds ⟨rfl, rfl⟩

theorem finds_eatWord (h : Next text t rest) (w : Text) : Finds (eatWord w) context text fun taken after =>
    taken = t.isWord w ∧ after = if t.isWord w then rest else text := by
  cases hw : t.isWord w with
  | true => exact (draws_eatWord h hw).finds ⟨rfl, rfl⟩
  | false => exact (draws_eatWord_not h hw).finds ⟨rfl, rfl⟩

end Finds

theorem eq_of_isWord {t : Token} {w : Text} (h : t.isWord w = true) : t = .word w false := by
  unfold Token.isWord at h
  split at h
  · rw [beq_iff_eq.1 h]
  · cases h

theorem eq_of_isMark {t : Token} {m : Text} (h : t.isMark m = true) : t = .mark m := by
  unfold Token.isMark at h
  split at h
  · rw [beq_iff_eq.1 h]
  · cases h

section Finds

variable {context : Context} {text rest : Text} {t : Token}

/-- A mark that is expected is there. -/
theorem finds_expect (h : Next text t rest) (m : Text) :
    Finds (expect m) context text fun _ after => t = .mark m ∧ after = rest := by
  refine (finds_eat h m).bind fun taken after ht => (finds_refuseIf _ after).weaken fun _ last hl => ?_
  obtain ⟨rfl, rfl⟩ := ht
  have hm : t.isMark m = true := by simpa using hl.1
  exact ⟨eq_of_isMark hm, by rw [hl.2, if_pos hm]⟩

/-- A word that is expected is there. -/
theorem finds_expectWord (h : Next text t rest) (w : Text) :
    Finds (expectWord w) context text fun _ after => t = .word w false ∧ after = rest := by
  refine (finds_eatWord h w).bind fun taken after ht => (finds_refuseIf _ after).weaken fun _ last hl => ?_
  obtain ⟨rfl, rfl⟩ := ht
  have hw : t.isWord w = true := by simpa using hl.1
  exact ⟨eq_of_isWord hw, by rw [hl.2, if_pos hw]⟩

end Finds

/-- In front of a token the reader is in front of the text that begins there. -/
theorem Fresh.before {context : Context} {cursor : Cursor} (h : Fresh context cursor) (hs : context.dialect.script = false)
    (ht : cursor.lexeme.token ≠ .eof) (hi : cursor.lexeme.token ≠ .invalid) :
    Before context cursor cursor.lexeme.here := by
  obtain ⟨gap, hskipped, hgap⟩ := h.skipped hs ht hi
  obtain ⟨htoken, hrest⟩ := Lexer.next_skip hskipped false false cursor.lexeme.here
  rw [hgap, ← h.lexeme_eq hs] at htoken hrest
  exact ⟨hs, htoken, hrest⟩

end Reader
end CjsInterop.Syntax
