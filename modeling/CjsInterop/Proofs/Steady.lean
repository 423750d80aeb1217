import CjsInterop.Proofs.LexerOrder
import CjsInterop.Syntax.Grammar.Pattern

/-! Readers only move on: what is behind them never grows, and no flaw is taken back. A steady reader
that begins at an ordinary token also ends at one, however tokens were read anew on the way. -/

namespace CjsInterop.Syntax

namespace Lexer

theorem next_here (html atStart : Bool) (text : Text) : (next html atStart text).here <:+ text := by
  unfold next
  split
  · next h =>
    rw [lexemeAt_here]
    exact skipBlanks_ends _ _ _ _ _ _ h
  · exact List.suffix_rfl

theorem next_rest (html atStart : Bool) (text : Text) :
    (next html atStart text).rest <:+ (next html atStart text).here.tail := by
  unfold next
  split
  · rw [lexemeAt_here]
    exact lexemeAt_rest (token_ends _)
  · exact List.nil_suffix

/-- A token read anew at its place. -/
structure Rereads (lex : Lexeme → Lexeme) : Prop where
  here : ∀ l, (lex l).here = l.here
  rest : ∀ l, l.rest <:+ l.here.tail → (lex l).rest <:+ l.here.tail

theorem rereads_asRegex : Rereads asRegex :=
  ⟨fun _ => lexemeAt_here _ _ _, fun _ _ => lexemeAt_rest (regex_ends _)⟩

theorem rereads_asTemplate : Rereads asTemplate :=
  ⟨fun _ => lexemeAt_here _ _ _, fun _ _ => lexemeAt_rest (template_ends _)⟩

theorem rereads_asSingleAngle : Rereads asSingleAngle :=
  ⟨fun _ => lexemeAt_here _ _ _, fun _ _ => List.suffix_rfl⟩

theorem rereads_asAngle : Rereads asAngle := by
  refine ⟨fun _ => lexemeAt_here _ _ _, fun l _ => lexemeAt_rest ?_⟩
  have hmarks : ∀ m ∈ angleMarks, m ≠ [] := by decide
  intro ⟨t, rest⟩ ha
  obtain ⟨m, hm, -, he⟩ := firstOf_eq_some ha
  obtain ⟨c, m, rfl⟩ := List.exists_cons_of_ne_nil (hmarks m hm)
  rw [he]
  exact List.suffix_append _ _

theorem rereads_asMarkupName : Rereads asMarkupName := by
  constructor
  · intro l
    unfold asMarkupName
    split <;> rfl
  · intro l h
    unfold asMarkupName
    split
    · exact (List.drop_suffix _ _).trans h
    · exact h

end Lexer

namespace Reader

/-- The token stands behind what was read, and takes a character or more unless none is left. -/
structure Ordered (cursor : Cursor) : Prop where
  here : cursor.lexeme.here <:+ cursor.behind
  rest : cursor.lexeme.rest <:+ cursor.lexeme.here.tail

/-- The token is the next one in the source, read as an ordinary token. -/
def Fresh (context : Context) (cursor : Cursor) : Prop :=
  ∃ atStart, cursor.lexeme = Lexer.next context.dialect.script atStart cursor.behind

/-- A cursor later in the same source: it stands at the same token, or behind its first character. -/
structure Onward (before after : Cursor) : Prop where
  flawed : before.flawed = true → after.flawed = true
  moved : after.behind = before.behind ∧ after.lexeme.here = before.lexeme.here ∨
    after.behind <:+ before.lexeme.here.tail

theorem Fresh.ordered {context : Context} {cursor : Cursor} (h : Fresh context cursor) : Ordered cursor := by
  obtain ⟨atStart, h⟩ := h
  constructor
  · rw [h]
    exact Lexer.next_here _ _ _
  · rw [h]
    exact Lexer.next_rest _ _ _

theorem Onward.refl (cursor : Cursor) : Onward cursor cursor :=
  ⟨id, .inl ⟨rfl, rfl⟩⟩

theorem Onward.trans {a b c : Cursor} (hb : Ordered b) (h : Onward a b) (h' : Onward b c) : Onward a c := by
  refine ⟨fun hf => h'.flawed (h.flawed hf), ?_⟩
  rcases h.moved with ⟨hbe, hbh⟩ | hm
  · rcases h'.moved with ⟨hce, hch⟩ | hm'
    · exact .inl ⟨hce.trans hbe, hch.trans hbh⟩
    · exact .inr (hbh ▸ hm')
  · rcases h'.moved with ⟨hce, -⟩ | hm'
    · exact .inr (hce ▸ hm)
    · exact .inr (hm'.trans ((List.tail_suffix _).trans (hb.here.trans hm)))

theorem Onward.behind {a b : Cursor} (ha : Ordered a) (h : Onward a b) : b.behind <:+ a.behind := by
  rcases h.moved with ⟨he, -⟩ | hm
  · exact he ▸ List.suffix_rfl
  · exact hm.trans ((List.tail_suffix _).trans ha.here)

/-- A reader that begins where `P` holds, if it comes to a result, has moved on to where `Q` holds. -/
def Leads {α : Type} (P : Context → Cursor → Prop) (x : Reader α) (Q : α → Context → Cursor → Prop) : Prop :=
  ∀ context cursor a after, Ordered cursor → P context cursor → x context cursor = some (a, after) →
    Ordered after ∧ Onward cursor after ∧ Q a context after

namespace Leads

variable {α β : Type} {P P' : Context → Cursor → Prop} {Q Q' : α → Context → Cursor → Prop}
  {R : β → Context → Cursor → Prop} {x : Reader α}

theorem weaken (h : Leads P x Q) (hp : ∀ context cursor, P' context cursor → P context cursor)
    (hq : ∀ a context cursor, Q a context cursor → Q' a context cursor) : Leads P' x Q' := by
  intro context cursor a after ho hpre hx
  obtain ⟨hoa, hon, hpost⟩ := h context cursor a after ho (hp _ _ hpre) hx
  exact ⟨hoa, hon, hq _ _ _ hpost⟩

theorem bind {f : α → Reader β} (h : Leads P x Q) (hf : ∀ a, Leads (Q a) (f a) R) : Leads P (x >>= f) R := by
  intro context cursor b after ho hp hx
  obtain ⟨⟨a, middle⟩, hmid, hrest⟩ := Option.bind_eq_some_iff.1 hx
  obtain ⟨hom, honm, hq⟩ := h context cursor a middle ho hp hmid
  obtain ⟨hoa, hon, hr⟩ := hf a context middle b after hom hq hrest
  exact ⟨hoa, honm.trans hom hon, hr⟩

/-- A reader that stays where it is. -/
theorem stay (h : ∀ context cursor a after, x context cursor = some (a, after) → after = cursor) :
    Leads P x (fun _ => P) := by
  intro context cursor a after ho hp hx
  obtain rfl := h context cursor a after hx
  exact ⟨ho, .refl _, hp⟩

theorem pure {a : α} (h : ∀ context cursor, P context cursor → Q a context cursor) : Leads P (pure a) Q := by
  intro context cursor b after ho hp hx
  obtain ⟨rfl, rfl⟩ := Prod.mk.inj (Option.some.inj hx)
  exact ⟨ho, .refl _, h _ _ hp⟩

theorem fail : Leads P (failure : Reader α) Q := by
  intro context cursor a after ho hp hx
  cases hx

theorem ite {p : Prop} [Decidable p] {y : Reader α} (hx : p → Leads P x Q) (hy : ¬p → Leads P y Q) :
    Leads P (if p then x else y) Q := by
  split
  · next h => exact hx h
  · next h => exact hy h

end Leads

/-- Any place in the source. -/
def Anywhere (_ : Context) (_ : Cursor) : Prop := True

theorem leads_bump {P : Context → Cursor → Prop} : Leads P bump (fun _ => Fresh) := by
  intro context cursor a after ho hp hx
  obtain ⟨rfl, rfl⟩ := Prod.mk.inj (Option.some.inj hx)
  refine ⟨Fresh.ordered ⟨_, rfl⟩, ⟨id, .inr ho.rest⟩, _, rfl⟩

theorem leads_bumpInto {P : Context → Cursor → Prop} {lex : Text → Lexeme}
    (h : ∀ text, (lex text).here <:+ text ∧ (lex text).rest <:+ (lex text).here.tail) :
    Leads P (bumpInto lex) (fun _ => Anywhere) := by
  intro context cursor a after ho hp hx
  obtain ⟨rfl, rfl⟩ := Prod.mk.inj (Option.some.inj hx)
  exact ⟨⟨(h _).1, (h _).2⟩, ⟨id, .inr ho.rest⟩, trivial⟩

theorem leads_reread {P : Context → Cursor → Prop} {Q : Unit → Context → Cursor → Prop} {lex : Lexeme → Lexeme}
    (h : Lexer.Rereads lex)
    (hq : ∀ context cursor, P context cursor → Q () context { cursor with lexeme := lex cursor.lexeme }) :
    Leads P (reread lex) Q := by
  intro context cursor a after ho hp hx
  obtain ⟨rfl, rfl⟩ := Prod.mk.inj (Option.some.inj hx)
  refine ⟨⟨?_, ?_⟩, ⟨id, .inl ⟨rfl, h.here _⟩⟩, hq _ _ hp⟩
  · exact (h.here cursor.lexeme).symm ▸ ho.here
  · exact (h.here cursor.lexeme).symm ▸ h.rest _ ho.rest

theorem leads_anew {P : Context → Cursor → Prop} {lex : Lexeme → Lexeme} (h : Lexer.Rereads lex) :
    Leads P (reread lex) (fun _ => Anywhere) :=
  leads_reread h fun _ _ _ => trivial

theorem leads_read {P : Context → Cursor → Prop} : Leads P (read : Reader Context) (fun _ => P) :=
  .stay fun _ _ _ _ h => (Prod.mk.inj (Option.some.inj h)).2.symm

theorem leads_isTypescript {P : Context → Cursor → Prop} : Leads P isTypescript (fun _ => P) :=
  leads_read.bind fun _ => .pure fun _ _ h => h

theorem leads_onNewLine {P : Context → Cursor → Prop} : Leads P onNewLine (fun _ => P) :=
  .stay fun _ _ _ _ h => (Prod.mk.inj (Option.some.inj h)).2.symm

theorem leads_flawIf {P : Context → Cursor → Prop} {b : Bool}
    (h : ∀ context cursor, P context cursor → P context { cursor with flawed := true }) :
    Leads P (flawIf b) (fun _ => P) := by
  cases b
  · exact .pure fun _ _ hp => hp
  · intro context cursor a after ho hp hx
    obtain ⟨rfl, rfl⟩ := Prod.mk.inj (Option.some.inj hx)
    exact ⟨⟨ho.here, ho.rest⟩, ⟨fun _ => rfl, .inl ⟨rfl, rfl⟩⟩, h _ _ hp⟩

theorem leads_token {P : Context → Cursor → Prop} :
    Leads P token (fun t context cursor => P context cursor ∧ cursor.lexeme.token = t) := by
  intro context cursor a after ho hp hx
  obtain ⟨rfl, rfl⟩ := Prod.mk.inj (Option.some.inj hx)
  exact ⟨ho, .refl _, hp, rfl⟩

theorem leads_isAt {P : Context → Cursor → Prop} {s : Text} :
    Leads P (isAt s) (fun b context cursor => P context cursor ∧ cursor.lexeme.token.isMark s = b) := by
  intro context cursor a after ho hp hx
  obtain ⟨rfl, rfl⟩ := Prod.mk.inj (Option.some.inj hx)
  exact ⟨ho, .refl _, hp, rfl⟩

theorem leads_refuseIf {P : Context → Cursor → Prop} {b : Bool} :
    Leads P (refuseIf b) (fun _ context cursor => P context cursor ∧ b = false) := by
  cases b
  · exact .pure fun _ _ h => ⟨h, rfl⟩
  · exact .fail

theorem leads_eat {P : Context → Cursor → Prop} {s : Text} :
    Leads P (eat s) (fun b context cursor => if b then Fresh context cursor else P context cursor) := by
  unfold eat
  refine leads_isAt.bind fun b => ?_
  cases b
  · exact .pure fun _ _ h => h.1
  · exact leads_bump.bind fun _ => .pure fun _ _ h => h

/-- A mark that was expected is taken, whatever it was read as. -/
theorem leads_expect {P : Context → Cursor → Prop} {s : Text} : Leads P (expect s) (fun _ => Fresh) := by
  unfold expect
  refine leads_eat.bind fun b => ?_
  cases b
  · exact .fail
  · exact .pure fun _ _ h => h

theorem leads_looksLike {P : Context → Cursor → Prop} {p : Reader Bool} : Leads P (looksLike p) (fun _ => P) := by
  refine .stay fun context cursor a after h => ?_
  unfold looksLike at h
  split at h <;> exact (Prod.mk.inj (Option.some.inj h)).2.symm

theorem leads_repeatWhile {P Q : Context → Cursor → Prop} {step : List Tree → Reader (Option (List Tree))}
    (h : ∀ done, Leads P (step done)
      (fun r context cursor => if r.isSome then P context cursor else Q context cursor)) :
    Leads P (repeatWhile step) (fun _ => Q) := by
  have hgo : ∀ n done, Leads P (repeatWhile.go step n done) (fun _ => Q) := by
    intro n
    induction n with
    | zero => exact fun done => .fail
    | succ n ih =>
      intro done
      refine (h done).bind fun r => ?_
      cases r with
      | none => exact .pure fun _ _ h => h
      | some done => exact (ih done).weaken (fun _ _ h => h) fun _ _ _ h => h
  exact leads_read.bind fun _ => hgo _ _

/-! ## Steady readers -/

/-- A reader that leads from an ordinary token to an ordinary token. -/
class Steady {α : Type} (x : Reader α) : Prop where
  leads : Leads Fresh x (fun _ => Fresh)

/-- A change of the context that keeps the language. -/
class KeepsDialect (change : Context → Context) : Prop where
  dialect : ∀ c, (change c).dialect = c.dialect

instance {size limit : Context → Nat} {f g h i j k l : Context → Bool} :
    KeepsDialect fun c => ⟨c.dialect, size c, limit c, f c, g c, h c, i c, j c, k c, l c⟩ := ⟨fun _ => rfl⟩

namespace Steady

variable {α β : Type} {x y : Reader α} {f : α → Reader β}

instance {a : α} : Steady (pure a : Reader α) := ⟨.pure fun _ _ h => h⟩

instance [hx : Steady x] [hf : ∀ a, Steady (f a)] : Steady (x >>= f) :=
  ⟨hx.leads.bind fun a => (hf a).leads⟩

theorem bind [hx : Steady x] (hf : ∀ a, Steady (f a)) : Steady (x >>= f) := inferInstance

theorem bind_of (hx : Steady x) (hf : ∀ a, Steady (f a)) : Steady (x >>= f) := inferInstance

instance : Steady (failure : Reader α) := ⟨.fail⟩

instance {c : Prop} [Decidable c] [hx : Steady x] [hy : Steady y] : Steady (if c then x else y) :=
  ⟨.ite (fun _ => hx.leads) fun _ => hy.leads⟩

theorem ite {c : Prop} [Decidable c] (hx : Steady x) (hy : Steady y) : Steady (if c then x else y) := inferInstance

instance {g : α → β} [Steady x] : Steady (g <$> x) := by
  rw [map_eq_pure_bind]
  infer_instance

instance [Steady x] : Steady (discard x) :=
  inferInstanceAs (Steady ((fun _ => ()) <$> x))

instance : Steady (read : Reader Context) := ⟨leads_read⟩

instance : Steady (get : Reader Cursor) := by
  refine ⟨.stay fun context cursor a after h => ?_⟩
  exact (Prod.mk.inj (Option.some.inj h)).2.symm

instance : Steady bump := ⟨leads_bump⟩

instance {b : Bool} : Steady (flawIf b) := ⟨leads_flawIf fun _ _ h => h⟩

instance {p : Reader Bool} : Steady (looksLike p) := ⟨leads_looksLike⟩

instance [hx : Steady x] : Steady (attempt x) := by
  refine ⟨fun context cursor a after ho hp h => ?_⟩
  unfold attempt at h
  split at h
  · next b middle hb =>
    obtain ⟨-, rfl⟩ := Prod.mk.inj (Option.some.inj h)
    exact hx.leads context cursor b middle ho hp hb
  · obtain ⟨-, rfl⟩ := Prod.mk.inj (Option.some.inj h)
    exact ⟨ho, .refl _, hp⟩

instance {change : Context → Context} [hc : KeepsDialect change] [hx : Steady x] : Steady (within change x) := by
  refine ⟨fun context cursor a after ho hp h => ?_⟩
  have hfresh : ∀ cursor, Fresh (change context) cursor ↔ Fresh context cursor := fun cursor => by
    rw [Fresh, Fresh, hc.dialect context]
  obtain ⟨hoa, hon, hq⟩ := hx.leads (change context) cursor a after ho ((hfresh _).2 hp) h
  exact ⟨hoa, hon, (hfresh _).1 hq⟩

theorem within_of {change : Context → Context} [KeepsDialect change] (hx : Steady x) :
    Steady (within change x) := inferInstance

instance {x y : Reader Bool} [Steady x] [Steady y] : Steady (x <||> y) := by
  unfold orM
  refine .bind fun b => ?_
  split <;> infer_instance

instance {x y : Reader Bool} [Steady x] [Steady y] : Steady (x <&&> y) := by
  unfold andM
  refine .bind fun b => ?_
  split <;> infer_instance

/-! ### Looking, and small pieces -/

instance : Steady token := by unfold token; infer_instance
instance : Steady onNewLine := by unfold onNewLine; infer_instance
instance {s : Text} : Steady (isAt s) := by unfold isAt; infer_instance
instance {s : Text} : Steady (isAtWord s) := by unfold isAtWord; infer_instance
instance : Steady isAtEnd := by unfold isAtEnd; infer_instance
instance : Steady isTypescript := by unfold isTypescript; infer_instance
instance : Steady here := by unfold here; infer_instance
instance : Steady Reader.behind := by unfold Reader.behind; infer_instance
instance {b : Bool} : Steady (refuseIf b) := by unfold refuseIf; infer_instance
instance {s : Text} : Steady (eat s) := by unfold eat; infer_instance
instance {s : Text} : Steady (eatWord s) := by unfold eatWord; infer_instance
instance {s : Text} : Steady (expect s) := by unfold expect; infer_instance
instance {s : Text} : Steady (expectWord s) := by unfold expectWord; infer_instance
instance {q : Token → Bool → Bool} : Steady (nextIs q) := by unfold nextIs; infer_instance
instance : Steady isAtStatementEnd := by unfold isAtStatementEnd; infer_instance
instance : Steady semicolon := by unfold semicolon; infer_instance

instance {step : List Tree → Reader (Option (List Tree))} [h : ∀ done, Steady (step done)] :
    Steady (repeatWhile step) :=
  ⟨leads_repeatWhile fun done => (h done).leads.weaken (fun _ _ h => h) fun r _ _ h => by cases r <;> exact h⟩

theorem repeatWhile_of {step : List Tree → Reader (Option (List Tree))} (h : ∀ done, Steady (step done)) :
    Steady (repeatWhile step) := inferInstance

instance {close : Text} {item : Reader Tree} [Steady item] : Steady (untilMark close item) := by
  unfold untilMark; infer_instance
instance {close : Text} {item : Reader Tree} [Steady item] : Steady (commasUntil close item) := by
  unfold commasUntil; infer_instance
instance {mark : Text} {item : Reader Tree} [Steady item] : Steady (separatedBy mark item) := by
  unfold separatedBy; infer_instance

instance {name : Text} : Steady (checkName name) := by unfold checkName; infer_instance

instance : Steady declaredName := by
  unfold declaredName
  refine .bind fun t => ?_
  split <;> infer_instance

instance : Steady variableName := by
  unfold variableName
  refine .bind fun t => ?_
  split <;> infer_instance

instance : Steady wordName := by
  unfold wordName
  refine .bind fun t => ?_
  split <;> infer_instance

end Steady

end Reader
end CjsInterop.Syntax
