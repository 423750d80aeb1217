import CjsInterop.Proofs.ItemOrder
import CjsInterop.Proofs.LiteralReading
import Mathlib

/-! How readers take a text whose next tokens are known. -/

namespace CjsInterop.Syntax

namespace Token

variable (name spelling value : Text) (escaped wellFormed : Bool)

@[simp] theorem isMark_mark (m : Text) : (mark spelling).isMark m = (spelling == m) := rfl

@[simp] theorem isMark_word (m : Text) : (word name escaped).isMark m = false := rfl

@[simp] theorem isMark_string (m : Text) : (string value wellFormed).isMark m = false := rfl

@[simp] theorem isWord_mark (w : Text) : (mark spelling).isWord w = false := rfl

@[simp] theorem isWord_word (w : Text) : (word name false).isWord w = (name == w) := rfl

@[simp] theorem isWord_string (w : Text) : (string value wellFormed).isWord w = false := rfl

@[simp] theorem isOneOfMarks_mark (marks : List String) :
    (mark spelling).isOneOfMarks marks = marks.any fun m => spelling == m.toList := rfl

@[simp] theorem isOneOfMarks_word (marks : List String) : (word name escaped).isOneOfMarks marks = false := rfl

@[simp] theorem isOneOfMarks_string (marks : List String) : (string value wellFormed).isOneOfMarks marks = false := rfl

@[simp] theorem isOneOfWords_mark (words : List String) : (mark spelling).isOneOfWords words = false := rfl

@[simp] theorem isOneOfWords_word (words : List String) :
    (word name false).isOneOfWords words = words.any fun w => name == w.toList := rfl

@[simp] theorem isOneOfWords_string (words : List String) : (string value wellFormed).isOneOfWords words = false := rfl

theorem isOneOfWords_eq_any (t : Token) (words : List String) :
    t.isOneOfWords words = words.any fun w => t.isWord w.toList := by
  rcases t with ⟨name, _ | _⟩ | _ | _ | _ | _ | _ | _ | _ | _ | _ | _ <;> simp [isOneOfWords, isWord]

end Token

namespace Reader

open Lexer (Begins)

/-! ## Steps -/

/-- The place of a source at which `text` is left of it, with no flaw so far. -/
def standing (dialect : Dialect) (text : Text) : Cursor where
  lexeme := Lexer.next dialect.script false text
  behind := text

/-- At `text` the reader comes to `a` and leaves `rest`. -/
def Reads {α : Type} (x : Reader α) (context : Context) (text : Text) (a : α) (rest : Text) : Prop :=
  x context (standing context.dialect text) = some (a, standing context.dialect rest)

/-- In front of a token of a module are blanks and comments, and nothing else. -/
theorem Fresh.skipped {context : Context} {cursor : Cursor} (h : Fresh context cursor) (hs : context.dialect.script = false)
    (ht : cursor.lexeme.token ≠ .eof) (hi : cursor.lexeme.token ≠ .invalid) :
    ∃ gap, Lexer.Skipped gap ∧ gap ++ cursor.lexeme.here = cursor.behind := by
  obtain ⟨gap, hgap⟩ := h.ordered.here
  refine ⟨gap, ?_, hgap⟩
  have hlexeme := h.lexeme_eq hs
  unfold Lexer.next at hlexeme
  split at hlexeme
  · next onNewLine here hskip =>
    have hh : cursor.lexeme.here = here := by rw [hlexeme, Lexer.lexemeAt_here]
    rw [← hgap, ← hh] at hskip
    exact Lexer.skipped_of_skipBlanks (h.here_ne_nil ht) hskip
  · exact absurd (congrArg Lexeme.token hlexeme) hi

section Steps

variable {α : Type} {context : Context} {cursor : Cursor} {text rest : Text} {t : Token}

@[simp] theorem pure_apply (a : α) : (pure a : Reader α) context cursor = some (a, cursor) := rfl

@[simp] theorem map_apply {β : Type} (f : α → β) (x : Reader α) :
    (f <$> x) context cursor = (x context cursor).map fun (a, after) => (f a, after) := by
  rw [map_eq_pure_bind, bind_apply, Option.map_eq_bind]
  rfl

@[simp] theorem failure_apply : (failure : Reader α) context cursor = none := rfl

@[simp] theorem ite_run {c : Prop} [Decidable c] (x y : Reader α) :
    (if c then x else y) context cursor = if c then x context cursor else y context cursor := by
  split <;> rfl

@[simp] theorem within_apply (change : Context → Context) (x : Reader α) :
    within change x context cursor = x (change context) cursor := rfl

@[simp] theorem read_apply : (read : Reader Context) context cursor = some (context, cursor) := rfl

@[simp] theorem token_apply : token context cursor = some (cursor.lexeme.token, cursor) := rfl

@[simp] theorem onNewLine_apply : onNewLine context cursor = some (cursor.lexeme.onNewLine, cursor) := rfl

@[simp] theorem isTypescript_apply :
    isTypescript context cursor = some (context.dialect.typescript, cursor) := rfl

@[simp] theorem isAt_apply (s : Text) : isAt s context cursor = some (cursor.lexeme.token.isMark s, cursor) := rfl

@[simp] theorem isAtWord_apply (s : Text) :
    isAtWord s context cursor = some (cursor.lexeme.token.isWord s, cursor) := rfl

@[simp] theorem isAtEnd_apply : isAtEnd context cursor = some (cursor.lexeme.token == .eof, cursor) := rfl

@[simp] theorem refuseIf_false : refuseIf false = pure () := rfl

@[simp] theorem flawIf_false : flawIf false = pure () := rfl

attribute [simp] bind_apply

theorem token_standing (h : Begins text t rest) (dialect : Dialect) : (standing dialect text).lexeme.token = t :=
  (h.next _ _).1

theorem bump_standing (h : Begins text t rest) :
    bump context (standing context.dialect text) = some ((), standing context.dialect rest) := by
  change some ((), Cursor.mk (Lexer.next context.dialect.script false
    (Lexer.next context.dialect.script false text).rest) (Lexer.next context.dialect.script false text).rest _) = _
  rw [(h.next _ _).2]
  rfl

theorem eat_standing {s : Text} (h : Begins text (.mark s) rest) : Reads (eat s) context text true rest := by
  simp [Reads, eat, token_standing h, bump_standing h]

theorem reads_eat_not {s : Text} (h : Begins text t rest) (ht : t.isMark s = false) :
    Reads (eat s) context text false text := by
  simp [Reads, eat, token_standing h, ht]

theorem expect_standing {s : Text} (h : Begins text (.mark s) rest) : Reads (expect s) context text () rest := by
  simp [Reads, expect, show eat s context _ = _ from eat_standing h]

theorem eatWord_standing {w : Text} (h : Begins text (.word w false) rest) :
    Reads (eatWord w) context text true rest := by
  simp [Reads, eatWord, token_standing h, bump_standing h]

theorem expectWord_standing {w : Text} (h : Begins text (.word w false) rest) :
    Reads (expectWord w) context text () rest := by
  simp [Reads, expectWord, show eatWord w context _ = _ from eatWord_standing h]

theorem reads_token (h : Begins text t rest) : Reads token context text t text := by
  simp [Reads, token_standing h]

theorem reads_isAtWord (h : Begins text t rest) (w : Text) : Reads (isAtWord w) context text (t.isWord w) text := by
  simp [Reads, token_standing h]

theorem Reads.bind {β : Type} {x : Reader α} {f : α → Reader β} {a : α} {b : β} {after : Text}
    (hx : Reads x context text a rest) (hf : Reads (f a) context rest b after) : Reads (x >>= f) context text b after := by
  simp [Reads, show x context _ = _ from hx, show f a context _ = _ from hf]

theorem Reads.discard {x : Reader α} {a : α} (hx : Reads x context text a rest) :
    Reads (discard x) context text () rest := by
  change ((fun _ => ()) <$> x) context (standing context.dialect text) = _
  rw [map_apply, show x context _ = _ from hx]
  rfl

/-- A statement ends with its semicolon. -/
theorem semicolon_standing (h : Begins text (.mark ";") rest) : Reads semicolon context text () rest := by
  have hend : Reads isAtStatementEnd context text true text := by
    simp [Reads, isAtStatementEnd, token_standing h]
  exact .bind hend (.bind rfl (.discard (eat_standing h)))

end Steps

/-! ## Operands -/

section Operands

variable {p : Rules} {context : Context} {text rest after : Text} {t : Token}

/-- Marks that end an expression. -/
def ends : List Text := List.map String.toList [";", ",", ")", "\x7d"]

theorem mem_ends {m : Text} : m ∈ ends ↔ m = ";".toList ∨ m = ",".toList ∨ m = ")".toList ∨ m = "\x7d".toList := by
  simp [ends]

theorem operandStep_end {m : Text} (hm : m ∈ ends) (h : Begins text (.mark m) rest) (calls : Bool) (o : Operand) :
    Reads (operandStep p calls o) context text none text := by
  rw [mem_ends] at hm
  rcases hm with rfl | rfl | rfl | rfl <;>
    simp [Reads, operandStep, eat, token_standing h, typeArgumentsInExpression?, isAtAngle]

theorem operandStep_member {name : Text} {escaped calls : Bool} (h : Begins text (.mark ".") rest)
    (hname : Begins rest (.word name escaped) after) (o : Operand) :
    Reads (operandStep p calls o) context text (some { o with tree := .node (.member name) [o.tree] }) after := by
  simp [Reads, operandStep, eat, token_standing h, bump_standing h, memberOf, token_standing hname,
    bump_standing hname]

theorem operandStep_call {args : List Tree} (h : Begins text (.mark "(") rest)
    (hargs : Reads (argumentList p) context text args after) (o : Operand) :
    Reads (operandStep p true o) context text (some { o with tree := .node .call (o.tree :: args) }) after := by
  simp [Reads, operandStep, eat, token_standing h, show argumentList p context _ = _ from hargs]

/-- Members and calls behind an operand, `n` of them, up to a mark that ends the expression. -/
inductive Suffixed (p : Rules) (context : Context) : Nat → Text → Tree → Tree → Text → Prop
  | stop {text rest m : Text} {o : Tree} (hm : m ∈ ends) (h : Begins text (.mark m) rest) :
      Suffixed p context 0 text o o text
  | member {n : Nat} {text rest after last name : Text} {escaped : Bool} {o result : Tree}
      (h : Begins text (.mark ".") rest) (hname : Begins rest (.word name escaped) after)
      (hmore : Suffixed p context n after (.node (.member name) [o]) result last) :
      Suffixed p context (n + 1) text o result last
  | call {n : Nat} {text rest after last : Text} {o result : Tree} {args : List Tree}
      (h : Begins text (.mark "(") rest) (hargs : Reads (argumentList p) context text args after)
      (hmore : Suffixed p context n after (.node .call (o :: args)) result last) :
      Suffixed p context (n + 1) text o result last

theorem operandRest_suffixed {n : Nat} {o result : Tree} {last : Text} (h : Suffixed p context n text o result last)
    (hl : n < context.limit) : Reads (operandRest p true o) context text result last := by
  have hstep : ∀ {k : Nat} {o : Operand} {r : Option Operand} {text after : Text},
      Reads (operandStep p true o) context text r after →
        operandRest.go p true (k + 1) o context (standing context.dialect text) =
          (r.elim (pure o) (operandRest.go p true k)) context (standing context.dialect after) := by
    intro k o r text after hr
    simp only [operandRest.go, bind_apply, show operandStep p true o context _ = _ from hr, Option.bind_some]
    cases r <;> rfl
  have hgo : ∀ k, n < k → operandRest.go p true k ⟨o, false⟩ context (standing context.dialect text) =
      some (⟨result, false⟩, standing context.dialect last) := by
    clear hl
    induction h with
    | stop hm h =>
      intro k hk
      obtain ⟨k, rfl⟩ : ∃ i, k = i + 1 := ⟨k - 1, by omega⟩
      rw [hstep (operandStep_end hm h true _)]
      rfl
    | member h hname hmore ih =>
      intro k hk
      obtain ⟨k, rfl⟩ : ∃ i, k = i + 1 := ⟨k - 1, by omega⟩
      rw [hstep (operandStep_member h hname _)]
      exact ih k (by omega)
    | call h hargs hmore ih =>
      intro k hk
      obtain ⟨k, rfl⟩ : ∃ i, k = i + 1 := ⟨k - 1, by omega⟩
      rw [hstep (operandStep_call h hargs _)]
      exact ih k (by omega)
  simp [Reads, operandRest, hgo _ hl]

/-! ## Expressions -/

/-- No operator and no function begins here, so that an expression begins with an operand. -/
structure OperandAt (context : Context) (text : Text) : Prop where
  isYield : Reads isYield context text false text
  arrow : ∀ p returnType, Reads (parenthesizedArrow? p returnType) context text none text
  asyncArrow : Reads isAsyncArrow context text false text
  unary : ∀ p, unary p context (standing context.dialect text) =
    postfixExpression p context (standing context.dialect text)
  begins : ∃ t rest, Begins text t rest ∧ ∀ name, t ≠ .privateName name

theorem binaryRest_end {m : Text} (hm : m ∈ ends) (h : Begins text (.mark m) rest) (n floor : Nat) (left : Tree) :
    Reads (binaryRest p (n + 1) floor left) context text left text := by
  have hangle : ∀ m ∈ ends, (m == ">".toList) = false := by decide
  have hlevel : ∀ m ∈ ends, markPrecedence? m = none := by decide
  have hoperator : Reads operator? context text none text := by
    simp only [Reads, operator?, bind_apply, isAt_apply, token_apply, token_standing h, Token.isMark_mark, hangle m hm,
      Option.bind_some, Bool.false_eq_true, if_false, pure_apply, hlevel m hm, Option.map_none]
  exact .bind hoperator rfl

theorem OperandAt.assignment {o : Tree} {m : Text} {returnType : Bool} (h : OperandAt context text)
    (ho : Reads (operand p) context text o rest) (hm : m ∈ ends) (hrest : Begins rest (.mark m) after)
    (hl : 0 < context.limit) : Reads (assignment p returnType) context text o rest := by
  obtain ⟨t, first, hb, ht⟩ := h.begins
  obtain ⟨n, hn⟩ : ∃ n, context.limit = n + 1 := ⟨context.limit - 1, by omega⟩
  have hpostfix : Reads (postfixExpression p) context text o rest := by
    rw [mem_ends] at hm
    rcases hm with rfl | rfl | rfl | rfl <;>
      simp [Reads, postfixExpression, show operand p context _ = _ from ho, token_standing hrest]
  have hbinary : Reads (binaryExpression p) context text o rest := by
    have hend : Reads (binaryRest p (n + 1) 0 o) context rest o rest := binaryRest_end hm hrest n 0 o
    have hunary := (h.unary p).trans hpostfix
    unfold Reads binaryExpression
    simp only [bind_apply, read_apply, token_apply, Option.bind_some, token_standing hb, hn]
    cases t with
    | privateName name => exact absurd rfl (ht name)
    | _ => simp [hunary, show binaryRest p (n + 1) 0 o context _ = _ from hend]
  refine .bind h.isYield (.bind (h.arrow p returnType) (.bind h.asyncArrow (.bind hbinary ?_)))
  have hno : ∀ m ∈ ends, (m == "=>".toList) = false ∧ (m == "=".toList) = false ∧ (m == "?".toList) = false ∧
      assignmentMarks.find? (fun (mark : String) => m == mark.toList) = none := by decide
  obtain ⟨harrow, hassign, hquestion, hmarks⟩ := hno m hm
  have hconditional : Reads (conditionalRest p o returnType) context rest o rest := by
    simp only [Reads, conditionalRest, eat, bind_apply, isAt_apply, token_standing hrest, Token.isMark_mark, hquestion,
      Option.bind_some, Bool.false_eq_true, if_false, pure_apply]
  simp only [Reads, bind_apply, token_apply, token_standing hrest, Option.bind_some, Token.isMark_mark, harrow, hassign,
    hmarks, Bool.false_eq_true, if_false]
  split <;> exact hconditional

/-- Words that begin more than an operand. -/
def operatorWords : List Text := List.map String.toList ["yield", "async", "await", "delete", "void", "typeof"]

theorem operandAt_word {w : Text} (h : Begins text (.word w false) rest) (hw : w ∉ operatorWords) :
    OperandAt context text := by
  simp [operatorWords] at hw
  obtain ⟨hyield, hasync, hawait, hdelete, hvoid, htypeof⟩ := hw
  constructor
  · simp [Reads, isYield, token_standing h, hyield]
  · simp [Reads, parenthesizedArrow?, token_standing h, hasync]
  · simp [Reads, isAsyncArrow, token_standing h, hasync]
  · simp [unary, token_standing h, hdelete, hvoid, htypeof, isAwait, hawait, isAtAngle]
  · exact ⟨_, _, h, fun _ => Token.noConfusion⟩

theorem operandAt_string {value : Text} {wellFormed : Bool} (h : Begins text (.string value wellFormed) rest) :
    OperandAt context text := by
  constructor
  · simp [Reads, isYield, token_standing h]
  · simp [Reads, parenthesizedArrow?, token_standing h]
  · simp [Reads, isAsyncArrow, token_standing h]
  · simp [unary, token_standing h, isAwait, isAtAngle]
  · exact ⟨_, _, h, fun _ => Token.noConfusion⟩

theorem operandAt_brace (h : Begins text (.mark "\x7b") rest) : OperandAt context text := by
  constructor
  · simp [Reads, isYield, token_standing h]
  · simp [Reads, parenthesizedArrow?, token_standing h]
  · simp [Reads, isAsyncArrow, token_standing h]
  · simp [unary, token_standing h, isAwait, isAtAngle]
  · exact ⟨_, _, h, fun _ => Token.noConfusion⟩

/-- A name that a module may give to a variable. -/
structure Free (name : Text) : Prop where
  isName : Text.isName name = true
  notReserved : name ∉ reservedWords
  ne_await : name ≠ "await".toList

theorem arrowLikeness_async {m : Text} (h : Begins text (.word "async" false) rest) (hm : m ∈ ends)
    (hrest : Begins rest (.mark m) after) : Reads arrowLikeness context text .no text := by
  have heat : Reads (eatWord "async") context text true rest := by
    simp [Reads, eatWord, token_standing h, bump_standing h]
  have hrefuse : refuseIf (!(Token.mark m).isOneOfMarks ["(", "<"]) = failure := by
    rw [mem_ends] at hm
    rcases hm with rfl | rfl | rfl | rfl <;> simp [refuseIf]
  unfold Reads arrowLikeness
  -- only the way into the word `async` is looked at
  extract_lets markup parentheses look
  clear_value parentheses
  have hlook : look context (standing context.dialect text) =
      if (standing context.dialect rest).lexeme.onNewLine then some (.no, standing context.dialect rest) else none := by
    simp only [look, bind_apply, show eatWord "async" context _ = _ from heat, Option.bind_some, if_true, onNewLine_apply,
      ite_run, pure_apply, token_apply, token_standing hrest, hrefuse, failure_apply, Option.bind_none]
  rw [hlook]
  cases (standing context.dialect rest).lexeme.onNewLine <;> rfl

theorem operandAt_variable {name m : Text} (hn : Free name) (hy : context.yield = false)
    (h : Begins text (.word name false) rest) (hm : m ∈ ends) (hrest : Begins rest (.mark m) after) :
    OperandAt context text := by
  by_cases hasync : name = "async".toList
  · subst hasync
    have hlikeness : arrowLikeness context _ = _ := arrowLikeness_async h hm hrest
    constructor
    · simp [Reads, isYield, token_standing h]
    · intro p returnType
      simp [Reads, parenthesizedArrow?, token_standing h, hlikeness]
    · rw [mem_ends] at hm
      rcases hm with rfl | rfl | rfl | rfl <;>
        simp [Reads, isAsyncArrow, token_standing h, looksLike, bump_standing h, token_standing hrest, refuseIf,
          Token.isVariable, Token.asVariable?]
    · simp [unary, token_standing h, isAwait, isAtAngle]
    · exact ⟨_, _, h, fun _ => Token.noConfusion⟩
  by_cases hyield : name = "yield".toList
  · subst hyield
    constructor
    · simp [Reads, isYield, token_standing h, hy, isOperandNext, nextIs, looksLike, bump_standing h,
        token_standing hrest]
    · simp [Reads, parenthesizedArrow?, token_standing h]
    · simp [Reads, isAsyncArrow, token_standing h]
    · simp [unary, token_standing h, isAwait, isAtAngle]
    · exact ⟨_, _, h, fun _ => Token.noConfusion⟩
  refine operandAt_word h fun hw => ?_
  have hreserved : ∀ w ∈ operatorWords, w = "async".toList ∨ w = "yield".toList ∨ w = "await".toList ∨
      w ∈ reservedWords := by decide
  rcases hreserved name hw with he | he | he | he
  · exact hasync he
  · exact hyield he
  · exact hn.ne_await he
  · exact hn.notReserved he

theorem checkName_free {name : Text} (hn : Free name) (hy : context.yield = false) (cursor : Cursor) :
    checkName name context cursor = some ((), cursor) := by
  have hawait : (name == "await".toList) = false := by simpa using hn.ne_await
  simp only [checkName, bind_apply, read_apply, Option.bind_some, hawait, hy, Bool.and_false, Bool.false_and,
    flawIf_false, pure_apply]

theorem variableName_free {name : Text} (hn : Free name) (hy : context.yield = false)
    (h : Begins text (.word name false) rest) : Reads variableName context text (.leaf (.identifier name)) rest := by
  simp [Reads, variableName, token_standing h, Token.asVariable?, hn.notReserved, checkName_free hn hy, bump_standing h]

theorem memberStart_variable {name m : Text} (hn : Free name) (hy : context.yield = false)
    (h : Begins text (.word name false) rest) (hrest : Begins rest (.mark m) after) :
    Reads (memberStart p) context text (.leaf (.identifier name)) rest := by
  have hne : ∀ w ∈ reservedWords, (name == w) = false := fun w hw => by
    simp only [beq_eq_false_iff_ne]
    exact fun he => hn.notReserved (he ▸ hw)
  have hfunction : Reads isFunctionStart context text false text := by
    simp only [Reads, isFunctionStart, bind_apply, isAtWord_apply, token_standing h, Token.isWord_word, Option.bind_some,
      hne _ (show "function".toList ∈ reservedWords by decide), Bool.false_eq_true, if_false, ite_run, pure_apply]
    split
    · simp [nextIs, looksLike, bump_standing h, token_standing hrest]
    · rfl
  have hword : Reads (wordExpression p) context text (.leaf (.identifier name)) rest := by
    have hboth : (["true", "false"].any fun w => name == w.toList) = false := by
      simp only [List.any_cons, List.any_nil, hne _ (show "true".toList ∈ reservedWords by decide),
        hne _ (show "false".toList ∈ reservedWords by decide), Bool.or_self]
    simp only [Reads, wordExpression, bind_apply, token_apply, token_standing h, Option.bind_some,
      show isFunctionStart context _ = _ from hfunction, Bool.false_eq_true, if_false, Token.isWord_word,
      hne _ (show "this".toList ∈ reservedWords by decide), hne _ (show "null".toList ∈ reservedWords by decide),
      hne _ (show "class".toList ∈ reservedWords by decide), hne _ (show "super".toList ∈ reservedWords by decide),
      hne _ (show "import".toList ∈ reservedWords by decide), Token.isOneOfWords_word, hboth]
    exact variableName_free hn hy h
  simp only [Reads, memberStart, bind_apply, isAtWord_apply, token_standing h, Token.isWord_word, Option.bind_some,
    hne _ (show "new".toList ∈ reservedWords by decide), Bool.false_eq_true, if_false, primary, token_apply]
  exact hword

/-- A variable by itself is taken as an expression. -/
theorem assignment_variable {name m : Text} {returnType : Bool} (hn : Free name) (hy : context.yield = false)
    (h : Begins text (.word name false) rest) (hm : m ∈ ends) (hrest : Begins rest (.mark m) after)
    (hl : 0 < context.limit) : Reads (assignment p returnType) context text (.leaf (.identifier name)) rest := by
  refine (operandAt_variable hn hy h hm hrest).assignment ?_ hm hrest hl
  exact .bind (memberStart_variable hn hy h hrest) (operandRest_suffixed (.stop hm hrest) hl)

theorem memberStart_string {value : Text} {wellFormed : Bool} (h : Begins text (.string value wellFormed) rest) :
    Reads (memberStart p) context text (.leaf (.string value)) rest := by
  simp [Reads, memberStart, primary, token_standing h, bump_standing h]

theorem assignment_string {value m : Text} {wellFormed returnType : Bool} (h : Begins text (.string value wellFormed) rest)
    (hm : m ∈ ends) (hrest : Begins rest (.mark m) after) (hl : 0 < context.limit) :
    Reads (assignment p returnType) context text (.leaf (.string value)) rest := by
  refine (operandAt_string h).assignment ?_ hm hrest hl
  exact .bind (memberStart_string h) (operandRest_suffixed (.stop hm hrest) hl)

/-- `import.meta.name` -/
theorem assignment_importMeta {t₁ t₂ t₃ t₄ name m : Text} {returnType : Bool} (h : Begins text (.word "import" false) t₁)
    (h₁ : Begins t₁ (.mark ".") t₂) (h₂ : Begins t₂ (.word "meta" false) t₃) (h₃ : Begins t₃ (.mark ".") t₄)
    (h₄ : Begins t₄ (.word name false) rest) (hm : m ∈ ends) (hrest : Begins rest (.mark m) after)
    (hl : 1 < context.limit) :
    Reads (assignment p returnType) context text (.node (.member name) [.leaf .importMeta]) rest := by
  refine (operandAt_word h (by decide)).assignment ?_ hm hrest (by omega)
  refine .bind ?_ (operandRest_suffixed (.member h₃ h₄ (.stop hm hrest)) hl)
  have hfunction : Reads isFunctionStart context text false text := by
    simp [Reads, isFunctionStart, token_standing h, -String.reduceToList, String.toList_inj]
  have himport : Reads (importExpression p) context text (.leaf .importMeta) t₃ :=
    .bind (expectWord_standing h) (.bind (eat_standing h₁) (.bind (eatWord_standing h₂) rfl))
  exact .bind (reads_isAtWord h _) (.bind (reads_token h) (.bind (reads_token h) (.bind hfunction himport)))

end Operands

/-! ## Lists -/

section Lists

variable {context : Context} {close text rest after last : Text} {t : Token}

theorem repeatWhile_apply (step : List Tree → Reader (Option (List Tree))) (cursor : Cursor) :
    repeatWhile step context cursor = repeatWhile.go step context.limit [] context cursor := rfl

theorem go_more {step : List Tree → Reader (Option (List Tree))} {done done' : List Tree} {cursor after : Cursor}
    (h : step done context cursor = some (some done', after)) (n : Nat) :
    repeatWhile.go step (n + 1) done context cursor = repeatWhile.go step n done' context after := by
  simp [repeatWhile.go, h]

theorem go_last {step : List Tree → Reader (Option (List Tree))} {done : List Tree} {cursor after : Cursor}
    (h : step done context cursor = some (none, after)) (n : Nat) :
    repeatWhile.go step (n + 1) done context cursor = some (done.reverse, after) := by
  simp [repeatWhile.go, h]

/-- Items with commas between them, then a closing mark. -/
inductive Listed (item : Reader Tree) (context : Context) (close : Text) : Text → List Tree → Text → Prop
  | one {text first rest after : Text} {t : Token} {tree : Tree} (hb : Begins text t first)
      (ht : t.isMark close = false) (h : Reads item context text tree rest) (hc : Begins rest (.mark close) after) :
      Listed item context close text [tree] after
  | more {text first rest after last : Text} {t : Token} {tree : Tree} {trees : List Tree} (hb : Begins text t first)
      (ht : t.isMark close = false) (h : Reads item context text tree rest) (hc : Begins rest (.mark ",") after)
      (hmore : Listed item context close after trees last) : Listed item context close text (tree :: trees) last

theorem commasUntil_listed {item : Reader Tree} {trees : List Tree} (hclose : close ≠ ",".toList)
    (h : Listed item context close text trees last) (hl : trees.length < context.limit) :
    Reads (commasUntil close item) context text trees last := by
  have hcomma : ¬",".toList = close := hclose.symm
  obtain ⟨step, hstep, hsplit⟩ : ∃ step : List Tree → Reader (Option (List Tree)),
      (∀ done, step done = do
        if ← isAt close then return none
        else
          let t ← item
          if ← isAt close then return some (t :: done)
          else
            expect ","
            return some (t :: done)) ∧
      commasUntil close item = (do
        let items ← repeatWhile step
        expect close
        return items) := ⟨_, fun _ => rfl, rfl⟩
  have hgo : ∃ stop, Begins stop (.mark close) last ∧ ∀ done n, trees.length < n →
      repeatWhile.go step n done context (standing context.dialect text) =
        some (done.reverse ++ trees, standing context.dialect stop) := by
    clear hl
    induction h with
    | @one text first rest after t tree hb ht hitem hc =>
      refine ⟨rest, hc, fun done n hn => ?_⟩
      obtain ⟨n, rfl⟩ : ∃ k, n = k + 2 := ⟨n - 2, by simp at hn; omega⟩
      have htake : step done context (standing context.dialect text) =
          some (some (tree :: done), standing context.dialect rest) := by
        simp [hstep, token_standing hb, ht, token_standing hc, show item context _ = _ from hitem]
      have hstop : step (tree :: done) context (standing context.dialect rest) =
          some (none, standing context.dialect rest) := by
        simp [hstep, token_standing hc]
      rw [go_more htake, go_last hstop]
      simp
    | @more text first rest after last t tree trees hb ht hitem hc _ ih =>
      obtain ⟨stop, hstop, ih⟩ := ih
      refine ⟨stop, hstop, fun done n hn => ?_⟩
      obtain ⟨n, rfl⟩ : ∃ k, n = k + 1 := ⟨n - 1, by simp at hn; omega⟩
      have hexpect : expect ",".toList context (standing context.dialect rest) = _ := expect_standing hc
      have htake : step done context (standing context.dialect text) =
          some (some (tree :: done), standing context.dialect after) := by
        simp only [hstep, bind_apply, isAt_apply, Option.bind_some, token_standing hb, ht, Bool.false_eq_true, if_false,
          show item context _ = _ from hitem, token_standing hc, Token.isMark_mark, beq_iff_eq, hcomma, ite_run, hexpect,
          pure_apply]
      rw [go_more htake, ih _ _ (by simpa using hn)]
      simp
  obtain ⟨stop, hstop, hgo⟩ := hgo
  rw [hsplit]
  have hitems : Reads (repeatWhile step) context text trees stop := by
    simpa [Reads, repeatWhile_apply] using hgo [] _ hl
  exact .bind hitems (.bind (expect_standing hstop) rfl)

/-- One argument in parentheses. -/
theorem argumentList_one {p : Rules} {arg : Tree} {first : Text} (h : Begins text (.mark "(") rest)
    (hb : Begins rest t first) (hopen : t.isMark ")" = false) (hspread : t.isMark "..." = false)
    (harg : Reads (p (.assignment true)) { context with inOperator := true, decorator := false } rest arg after)
    (hclose : Begins after (.mark ")") last) (hl : 1 < context.limit) :
    Reads (argumentList p) context text [arg] last := by
  refine .bind (expect_standing h) ?_
  refine @commasUntil_listed { context with inOperator := true, decorator := false } _ _ _ _ _ (by decide)
    (.one hb hopen ?_ hclose) hl
  exact .bind (reads_eat_not hb hspread) harg

end Lists

end Reader
end CjsInterop.Syntax
