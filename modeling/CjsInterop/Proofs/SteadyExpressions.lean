import CjsInterop.Proofs.SteadyTypes
import CjsInterop.Syntax.Grammar.Expression

/-! Expressions are steady. Only in their midst a token is read anew, such as a regular expression. -/

namespace CjsInterop.Syntax.Reader
namespace Steady

variable {p : Rules} [h : SteadyRules p]

/-! ## Operands -/

instance : Steady (argumentList p) := by unfold argumentList; infer_instance
instance {tagged : Bool} : Steady (templateLiteral p tagged) := by
  unfold templateLiteral
  extract_lets stretch
  have hs : ∀ P, Leads P stretch (fun _ => P) := by
    intro P
    refine (leads_token (P := P)).bind fun t => ?_
    split
    · exact leads_refuseIf.bind fun _ => .pure fun _ _ h => h.1.1
    · exact .fail
  have : Steady stretch := ⟨hs _⟩
  refine .bind fun _ => .bind fun _ => .ite inferInstance ?_
  refine .bind_of (.repeatWhile_of fun done => ?_) inferInstance
  split
  · infer_instance
  · refine .bind fun _ => .bind fun _ => .bind fun _ => ?_
    refine ⟨(leads_anew Lexer.rereads_asTemplate).bind fun _ => ?_⟩
    exact (hs _).bind fun _ => leads_bump.bind fun _ => .pure fun _ _ h => h
instance : Steady (parenthesizedExpression p) := by unfold parenthesizedExpression; infer_instance
instance : Steady (importExpression p) := by
  unfold importExpression
  repeat' first | infer_instance | refine .bind fun _ => ?_ | split
instance : Steady superExpression := by unfold superExpression; infer_instance
instance : Steady regexLiteral := by
  unfold regexLiteral
  refine ⟨(leads_anew Lexer.rereads_asRegex).bind fun _ => leads_token.bind fun t => ?_⟩
  split
  · exact leads_bump.bind fun _ => .pure fun _ _ h => h
  · exact .fail
instance : Steady isFunctionStart := by unfold isFunctionStart; infer_instance
instance : Steady (wordExpression p) := by unfold wordExpression; infer_instance
instance : Steady (primary p) := by
  unfold primary
  exact .bind fun _ => by split <;> infer_instance
instance {object : Tree} : Steady (memberOf object) := by
  unfold memberOf
  exact .bind fun _ => by split <;> infer_instance
instance : Steady mayFollowTypeArguments := by
  unfold mayFollowTypeArguments
  exact .bind fun _ => by split <;> infer_instance
instance : Steady (typeArgumentsInExpression? p) := by unfold typeArgumentsInExpression?; infer_instance
instance {calls : Bool} {o : Operand} : Steady (operandStep p calls o) := by
  unfold operandStep
  repeat' first | infer_instance | refine .bind fun _ => ?_ | split
instance {calls : Bool} {first : Tree} : Steady (operandRest p calls first) := by
  have hgo : ∀ n o, Steady (operandRest.go p calls n o) := by
    intro n
    induction n with
    | zero => exact fun o => inferInstanceAs (Steady failure)
    | succ n ih =>
      intro o
      unfold operandRest.go
      refine .bind fun r => ?_
      split <;> infer_instance
  unfold operandRest
  infer_instance
instance : Steady (newExpression p) := by
  unfold newExpression
  refine .bind fun _ => .bind fun _ => ?_
  split <;> infer_instance
instance : Steady (memberStart p) := by unfold memberStart; infer_instance
instance : Steady (callee p) := by unfold callee; infer_instance
instance : Steady (operand p) := by unfold operand; infer_instance
instance : Steady isOperandNext := by unfold isOperandNext; infer_instance
instance : Steady isAwait := by unfold isAwait; infer_instance
instance : Steady isYield := by unfold isYield; infer_instance
instance {t : Tree} : Steady (updateOperand t) := by unfold updateOperand; infer_instance
instance : Steady (postfixExpression p) := by unfold postfixExpression; infer_instance
instance : Steady (unary p) := by
  unfold unary
  repeat' first | infer_instance | refine .bind fun _ => ?_ | split

/-! ### Closing angle brackets

Where an operator may stand, several of them are read as one. The expression ends at that token only if
it is the mark of an assignment, which is then taken. -/

/-- An ordinary token, or an operator that begins with a closing angle bracket. -/
def Angled (context : Context) (cursor : Cursor) : Prop :=
  Fresh context cursor ∨
    ∃ m ∈ Lexer.angleMarks, cursor.lexeme.token = .mark m ∧ cursor.lexeme.here = m ++ cursor.lexeme.rest

/-- An ordinary token, or the mark of an assignment that begins with a closing angle bracket. -/
def AtAngledAssignment (context : Context) (cursor : Cursor) : Prop :=
  Fresh context cursor ∨ cursor.lexeme.token = .mark ">>=" ∨ cursor.lexeme.token = .mark ">>>="

theorem Angled.begins {context : Context} {cursor : Cursor} (h : Angled context cursor)
    (hm : cursor.lexeme.token.isMark ">" = true) : ∃ rest, cursor.lexeme.here = '>' :: rest := by
  obtain ⟨m, ht⟩ : ∃ m, cursor.lexeme.token = .mark m := by
    unfold Token.isMark at hm
    split at hm
    · exact ⟨_, by assumption⟩
    · cases hm
  obtain rfl : m = ">".toList := by simpa [ht, Token.isMark] using hm
  rcases h with ⟨atStart, h⟩ | ⟨m, -, hm, he⟩
  · rw [h] at ht ⊢
    exact ⟨_, Lexer.next_eq_mark ht⟩
  · obtain rfl := Token.mark.inj (hm.symm.trans ht)
    exact ⟨_, he⟩

theorem angled_asAngle {context : Context} {cursor : Cursor} (h : ∃ rest, cursor.lexeme.here = '>' :: rest) :
    Angled context { cursor with lexeme := Lexer.asAngle cursor.lexeme } := by
  obtain ⟨rest, h⟩ := h
  have hs : (Lexer.firstOf Lexer.angleMarks cursor.lexeme.here).isSome := by
    rw [Lexer.firstOf, List.findSome?_isSome_iff]
    refine ⟨['>'], by simp [Lexer.angleMarks], ?_⟩
    simp [h, Text.dropStart?]
  obtain ⟨⟨t, after⟩, hf⟩ := Option.isSome_iff_exists.1 hs
  obtain ⟨m, hm, rfl, he⟩ := Lexer.firstOf_eq_some hf
  refine .inr ⟨m, hm, ?_⟩
  rw [Lexer.asAngle, hf]
  exact ⟨rfl, he⟩

theorem markPrecedence?_pos {m : Text} {n : Nat} (h : markPrecedence? m = some n) : 0 < n := by
  have hall : ∀ q ∈ precedences, 0 < q.2 := by decide
  obtain ⟨⟨op, level⟩, hmem, he⟩ := List.exists_of_findSome?_eq_some h
  have hlevel := hall _ hmem
  simp only at he
  split at he
  · exact Option.some.inj he ▸ hlevel
  · cases he

theorem angled_markPrecedence? {m : Text} (hm : m ∈ Lexer.angleMarks) (h : markPrecedence? m = none) :
    m = ">>=" ∨ m = ">>>=" := by
  have hall : ∀ m ∈ Lexer.angleMarks, markPrecedence? m = none → m = ">>=".toList ∨ m = ">>>=".toList := by
    decide
  exact hall m hm h

/-- Unless it is such an operator, the token is an ordinary one. -/
theorem Angled.settled {context : Context} {cursor : Cursor} (h : Angled context cursor)
    (hm : ∀ m, cursor.lexeme.token = .mark m → markPrecedence? m = none) : AtAngledAssignment context cursor := by
  rcases h with h | ⟨m, hmem, ht, -⟩
  · exact .inl h
  · refine .inr ?_
    rw [ht]
    exact (angled_markPrecedence? hmem (hm m ht)).imp (congrArg _) (congrArg _)

theorem leads_operator? : Leads Angled operator? (fun r context cursor => Angled context cursor ∧
    (r = none → AtAngledAssignment context cursor) ∧ ∀ op level, r = some (op, level) → 0 < level) := by
  have hrelational : ∀ name : Text, Leads Angled (Pure.pure (some (name, relationalPrecedence)) : Reader _)
      (fun r context cursor => Angled context cursor ∧
        (r = none → AtAngledAssignment context cursor) ∧ ∀ op level, r = some (op, level) → 0 < level) := by
    intro name
    refine .pure fun context cursor h => ⟨h, nofun, fun op level he => ?_⟩
    obtain ⟨-, rfl⟩ := Prod.mk.inj (Option.some.inj he)
    decide
  unfold operator?
  refine leads_isAt.bind fun b => ?_
  extract_lets look
  have hlook : ∀ r, Leads Angled (look r) (fun r context cursor => Angled context cursor ∧
      (r = none → AtAngledAssignment context cursor) ∧ ∀ op level, r = some (op, level) → 0 < level) := by
    intro r
    refine leads_token.bind fun t => ?_
    split
    · next m =>
      refine .pure fun context cursor ⟨h, ht⟩ => ⟨h, fun hn => ?_, fun op level hs => ?_⟩
      · refine h.settled fun m' ht' => ?_
        obtain rfl := Token.mark.inj (ht.symm.trans ht')
        simpa using hn
      · obtain ⟨n, hn, he⟩ := Option.map_eq_some_iff.1 hs
        obtain ⟨-, rfl⟩ := Prod.mk.inj he
        exact markPrecedence?_pos hn
    · next name =>
      have hnone : ∀ context cursor, Angled context cursor ∧ cursor.lexeme.token = .word name false →
          AtAngledAssignment context cursor := fun context cursor ⟨h, ht⟩ =>
        h.settled fun m hm => by simp [ht] at hm
      have hsome : Leads
          (fun context cursor => Angled context cursor ∧ cursor.lexeme.token = .word name false) _ _ :=
        (hrelational name).weaken (fun _ _ h => h.1) fun _ _ _ h => h
      refine leads_read.bind fun _ => .ite (fun _ => hsome) fun _ => ?_
      refine leads_isTypescript.bind fun _ => leads_onNewLine.bind fun _ => .ite (fun _ => hsome) fun _ => ?_
      exact .pure fun context cursor h => ⟨h.1, fun _ => hnone _ _ h, nofun⟩
    · next t hmark _ =>
      refine .pure fun context cursor ⟨h, ht⟩ => ⟨h, fun _ => h.settled fun m hm => ?_, nofun⟩
      exact absurd (ht.symm.trans hm) (hmark m)
  cases b with
  | false => exact (hlook ()).weaken (fun _ _ h => h.1) fun _ _ _ h => h
  | true =>
    refine (leads_reread Lexer.rereads_asAngle fun context cursor ⟨h, hm⟩ => ?_).bind hlook
    exact angled_asAngle (h.begins hm)

theorem leads_binaryRest (n floor : Nat) (left : Tree) : Leads Angled (binaryRest p n floor left)
    (fun _ context cursor => Angled context cursor ∧ (floor = 0 → AtAngledAssignment context cursor)) := by
  induction n generalizing floor left with
  | zero => exact .fail
  | succ n ih =>
    have hih : ∀ floor left, Leads Fresh (binaryRest p n floor left) (fun _ context cursor =>
        Angled context cursor ∧ (floor = 0 → AtAngledAssignment context cursor)) :=
      fun floor left => (ih floor left).weaken (fun _ _ h => .inl h) fun _ _ _ h => h
    have hflaw : ∀ b, Leads Angled (flawIf b) (fun _ => Angled) := fun b => leads_flawIf fun _ _ h => h
    unfold binaryRest
    refine leads_operator?.bind fun r => ?_
    rcases r with _ | ⟨op, level⟩
    · exact .pure fun _ _ ⟨h, hn, _⟩ => ⟨h, fun _ => hn rfl⟩
    · refine .ite (fun hc => .pure fun _ _ ⟨h, _, hp⟩ => ⟨h, fun h0 => ?_⟩) fun _ => ?_
      · have hlevel := hp op level rfl
        omega
      refine leads_bump.bind fun _ => .ite (fun _ => ?_) fun _ => ?_
      · refine (leads (x := isAtWord "const")).bind fun _ => .ite (fun _ => ?_) fun _ => ?_
        · exact leads_bump.bind fun _ => hih _ _
        · exact (within_of (x := p .type) inferInstance).leads.bind fun _ => hih _ _
      · refine (leads (x := flawIf _)).bind fun _ => (leads (x := unary p)).bind fun first => ?_
        refine (hih level first).bind fun right => ?_
        exact ((hflaw _).weaken (fun _ _ h => h.1) fun _ _ _ h => h).bind fun _ => ih floor _

instance : Steady privateIn := by unfold privateIn; infer_instance

theorem leads_binaryExpression : Leads Fresh (binaryExpression p) (fun _ => AtAngledAssignment) := by
  have hrest : ∀ n left, Leads Angled (binaryRest p n 0 left) (fun _ => AtAngledAssignment) :=
    fun n left => (leads_binaryRest n 0 left).weaken (fun _ _ h => h) fun _ _ _ h => h.2 rfl
  unfold binaryExpression
  refine (leads (x := read)).bind fun c => (leads (x := token)).bind fun t => ?_
  split
  · refine (leads (x := privateIn)).bind fun _ => (leads (x := unary p)).bind fun first => ?_
    refine ((leads_binaryRest _ _ first).weaken (fun _ _ h => .inl h) fun _ _ _ h => h.1).bind fun right => ?_
    exact hrest _ _
  · refine (leads (x := unary p)).bind fun first => ?_
    exact (hrest _ first).weaken (fun _ _ h => .inl h) fun _ _ _ h => h

/-! ## Arrow functions and assignments -/

instance : Steady arrowLikeness := by
  refine ⟨.stay fun context cursor a after h => ?_⟩
  unfold arrowLikeness at h
  extract_lets look at h
  split at h <;> exact (Prod.mk.inj (Option.some.inj h)).2.symm
instance {async returnType : Bool} : Steady (arrowBody p async returnType) := by
  unfold arrowBody
  infer_instance
instance {certain returnType : Bool} : Steady (parenthesizedArrow p certain returnType) := by
  unfold parenthesizedArrow
  repeat' first | infer_instance | refine .bind fun _ => ?_
instance {returnType : Bool} : Steady (parenthesizedArrow? p returnType) := by
  unfold parenthesizedArrow?
  repeat' first | infer_instance | refine .bind fun _ => ?_ | split
instance : Steady isAsyncArrow := by unfold isAsyncArrow; infer_instance
instance {param : Tree} {async returnType : Bool} : Steady (simpleArrow p param async returnType) := by
  unfold simpleArrow
  infer_instance
instance : Steady (yieldExpression p) := by
  unfold yieldExpression
  repeat' first | infer_instance | refine .bind fun _ => ?_
instance {test : Tree} {returnType : Bool} : Steady (conditionalRest p test returnType) := by
  unfold conditionalRest
  infer_instance
instance {returnType : Bool} : Steady (assignment p returnType) := by
  unfold assignment
  refine .bind fun _ => .ite inferInstance (.bind fun r => ?_)
  split
  · infer_instance
  · refine .bind fun _ => .ite inferInstance ?_
    refine ⟨leads_binaryExpression.bind fun left => leads_token.bind fun t => ?_⟩
    extract_lets assign
    have hassign : ∀ r, Leads
        (fun context cursor => AtAngledAssignment context cursor ∧ cursor.lexeme.token = t) (assign r)
        (fun _ => Fresh) := by
      refine fun _ => .ite (fun _ => ?_) fun _ => ?_
      · split
        · exact .fail
        · exact leads_bump.bind fun _ => (bind (x := p _) inferInstance).leads
      · split
        · exact leads_refuseIf.bind fun _ => leads_bump.bind fun _ => (bind (x := p _) inferInstance).leads
        · next hnone =>
          refine leads.weaken (fun context cursor ⟨h, ht⟩ => ?_) fun _ _ _ h => h
          rw [List.find?_eq_none] at hnone
          rcases h with h | h | h
          · exact h
          · exact absurd (by simp [← ht, h, Token.isMark]) (hnone ">>=" (by decide))
          · exact absurd (by simp [← ht, h, Token.isMark]) (hnone ">>>=" (by decide))
    split
    · refine .ite (fun harrow => ?_) fun _ => hassign ()
      refine leads.weaken (fun context cursor ⟨h, ht⟩ => ?_) fun _ _ _ h => h
      rcases h with h | h | h
      · exact h
      · simp [← ht, h, Token.isMark] at harrow
      · simp [← ht, h, Token.isMark] at harrow
    · exact hassign ()
instance : Steady (expression p) := by unfold expression; infer_instance

end Steady
end CjsInterop.Syntax.Reader
