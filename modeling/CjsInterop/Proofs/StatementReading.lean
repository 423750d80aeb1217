import CjsInterop.Proofs.ExpressionReading

/-! How readers take the statements that a rewriting writes: constants, and calls by themselves. -/

namespace CjsInterop.Syntax.Reader

open Lexer (Begins)

/-- The reader stands at a token, with `rest` behind it, and met no flaw so far. -/
structure At (cursor : Cursor) (t : Token) (rest : Text) : Prop where
  token : cursor.lexeme.token = t
  rest : cursor.lexeme.rest = rest
  unflawed : cursor.flawed = false

variable {p : Rules} {context : Context} {cursor : Cursor} {text rest after : Text} {t : Token}

theorem at_standing (h : Begins text t rest) (dialect : Dialect) : At (standing dialect text) t rest :=
  ⟨token_standing h dialect, (h.next _ _).2, rfl⟩

theorem At.bump (h : At cursor t rest) : bump context cursor = some ((), standing context.dialect rest) := by
  change some ((), Cursor.mk (Lexer.next context.dialect.script false cursor.lexeme.rest) cursor.lexeme.rest
    cursor.flawed) = _
  rw [h.rest, h.unflawed]
  rfl

theorem At.nextIs (h : At cursor t rest) {u : Token} (hu : Begins rest u after) (test : Token → Bool) :
    Reader.nextIs (fun t _ => test t) context cursor = some (test u, cursor) := by
  simp [Reader.nextIs, looksLike, h.bump, token_standing hu]

/-! ## Heads of statements -/

/-- Words that begin imports, exports and declarations of types. -/
def headWords : List Text := List.map String.toList ["import", "export", "type", "interface", "namespace", "module",
  "global", "abstract", "enum", "declare"]

/-- Nothing in front of the reader makes the item an import, an export or the declaration of a type. -/
structure Headless (p : Rules) (context : Context) (cursor : Cursor) : Prop where
  noImport : isImportDeclaration context cursor = some (false, cursor)
  noExport : cursor.lexeme.token.isWord "export" = false
  noDecorated : isDecoratedExport p context cursor = some (false, cursor)
  noType : isTypeDeclaration context cursor = some (false, cursor)
  noDeclare : isDeclare context cursor = some (false, cursor)

theorem isOneOfWords_of_words {words : List Text} (hword : ∀ w ∈ words, cursor.lexeme.token.isWord w = false)
    {l : List String} (hl : ∀ w ∈ l, w.toList ∈ words) : cursor.lexeme.token.isOneOfWords l = false := by
  rw [Token.isOneOfWords_eq_any, List.any_eq_false]
  exact fun w hw => by simp [hword _ (hl w hw)]

theorem headless (hword : ∀ w ∈ headWords, cursor.lexeme.token.isWord w = false)
    (hat : cursor.lexeme.token.isMark "@" = false) : Headless p context cursor where
  noImport := by
    simp only [isImportDeclaration, bind_apply, isAtWord_apply, hword "import" (by decide), Option.bind_some,
      Bool.false_eq_true, if_false, pure_apply]
  noExport := hword "export" (by decide)
  noDecorated := by
    simp only [isDecoratedExport, bind_apply, isAt_apply, hat, Option.bind_some, Bool.false_eq_true, if_false, pure_apply]
  noType := by
    have htypes := isOneOfWords_of_words hword (l := ["type", "interface"]) (by decide)
    have hmodules := isOneOfWords_of_words hword (l := ["namespace", "module"]) (by decide)
    cases hts : context.dialect.typescript <;>
      simp only [isTypeDeclaration, bind_apply, isTypescript_apply, token_apply, isAtWord_apply, hts, htypes, hmodules,
        hword "global" (by decide), hword "abstract" (by decide), hword "enum" (by decide), Option.bind_some,
        Bool.not_true, Bool.not_false, Bool.false_eq_true, if_false, if_true, ite_run, pure_apply]
  noDeclare := by
    simp only [isDeclare, bind_apply, isTypescript_apply, isAtWord_apply, hword "declare" (by decide), Option.bind_some,
      Bool.and_false, Bool.false_eq_true, if_false, pure_apply]

/-- Such an item is a declaration of values or a statement. -/
theorem Headless.item_eq (h : Headless p context cursor) {declares : Bool}
    (hd : isPlainDeclaration context cursor = some (declares, cursor)) :
    item p context cursor = (if declares then declared p else plainStatement p) context cursor := by
  simp only [item, bind_apply, h.noImport, isAtWord_apply, h.noExport, h.noDecorated, hd, h.noType, h.noDeclare,
    Option.bind_some, Bool.or_self, Bool.or_false, Bool.false_eq_true, if_false, ite_run]

/-- A word that begins nothing but a declaration of constants. -/
theorem item_const (h : At cursor (.word "const" false) rest) (hb : Begins rest t after)
    (ht : t.isWord "enum" = false) :
    item p context cursor = variableStatement p true context (standing context.dialect rest) := by
  have hword : ∀ w : String, w ≠ "const" → cursor.lexeme.token.isWord w.toList = false := by
    intro w hw
    simp [h.token, -String.reduceToList, String.toList_inj, Ne.symm hw]
  have hat : cursor.lexeme.token.isMark "@" = false := by rw [h.token]; rfl
  have hconst : cursor.lexeme.token.isWord "const" = true := by rw [h.token]; rfl
  have hhead : Headless p context cursor := headless (fun w hw => by rw [h.token]; revert w; decide) hat
  have hdeclaration : isPlainDeclaration context cursor = some (true, cursor) := by
    simp [isPlainDeclaration, h.token]
  have hfunction : isFunctionStart context cursor = some (false, cursor) := by
    simp only [isFunctionStart, bind_apply, isAtWord_apply, hword "function" (by decide), hword "async" (by decide),
      Option.bind_some, Bool.false_eq_true, if_false, pure_apply]
  have hvariable : variableWord? context cursor = some (some true, standing context.dialect rest) := by
    simp only [variableWord?, bind_apply, isAtWord_apply, hword "var" (by decide), hconst, Option.bind_some,
      Bool.false_eq_true, if_false, if_true, ite_run, h.bump, pure_apply]
  have hplain : plainDeclaration p context cursor = variableStatement p true context (standing context.dialect rest) := by
    simp only [plainDeclaration, bind_apply, hfunction, isAtWord_apply, hword "class" (by decide), isAt_apply, hat,
      Option.bind_some, Bool.or_self, Bool.false_eq_true, if_false, ite_run, hvariable]
  have hdeclared : declared p context cursor = variableStatement p true context (standing context.dialect rest) := by
    have henum := @At.nextIs context _ _ _ _ h _ hb fun t => t.isWord "enum"
    cases hts : context.dialect.typescript <;>
      simp only [declared, bind_apply, hhead.noType, isAtWord_apply, hconst, isTypescript_apply, hts, henum, ht,
        hhead.noDeclare, Option.bind_some, Bool.and_true, Bool.and_false, Bool.false_eq_true, if_false, ite_run, hplain]
  rw [hhead.item_eq hdeclaration, if_pos rfl, hdeclared]

/-! ## Marks -/

/-- Marks that begin no longer one. -/
def plainMarks : List Text := List.map String.toList ["(", ")", ";", ",", ":", "\x7b", "\x7d", "..."]

theorem begins_mark {m : Text} (hm : m ∈ plainMarks) (rest : Text) : Begins (m ++ rest) (.mark m) rest := by
  simp only [plainMarks, List.map_cons, List.map_nil, List.mem_cons, List.not_mem_nil, or_false] at hm
  rcases hm with rfl | rfl | rfl | rfl | rfl | rfl | rfl | rfl <;> exact fun _ _ newLine => ⟨newLine, _, rfl, rfl⟩

theorem begins_equals (rest : Text) : Begins ("= ".toList ++ rest) (.mark "=") (' ' :: rest) :=
  fun _ _ newLine => ⟨newLine, _, rfl, rfl⟩

theorem begins_dot {w : Text} (hw : Text.isName w = true) (rest : Text) :
    Begins ('.' :: (w ++ rest)) (.mark ".") (w ++ rest) := by
  obtain ⟨c, more, rfl, hstart⟩ := Lexer.exists_start hw
  have hdot : c ≠ '.' := by
    rintro rfl
    exact absurd hstart (by decide)
  refine fun _ _ newLine => ⟨newLine, _, rfl, ?_⟩
  have hdigit := Lexer.decimal_of_isNameStart hstart
  have hmark : Lexer.mark ('.' :: c :: (more ++ rest)) = some (.mark ".", c :: (more ++ rest)) := by
    simp [Lexer.mark, Lexer.firstOf, Lexer.marks, Text.dropStart?, Ne.symm hdot]
  rw [List.cons_append, Lexer.token, if_neg (by simp [hdigit]), hmark]

theorem endsName_cons {c : Char} (hc : Text.isNamePart c = false) (hs : c ≠ '\\') (rest : Text) :
    Lexer.EndsName (c :: rest) := fun d hd => by
  obtain rfl := Option.some.inj hd
  exact ⟨hc, hs⟩

/-! ## Constants -/

theorem declaredName_free {name : Text} (hn : Free name) (hy : context.yield = false)
    (h : Begins text (.word name false) rest) : Reads declaredName context text (.leaf (.declared name)) rest := by
  simp [Reads, declaredName, token_standing h, Token.asVariable?, hn.notReserved, checkName_free hn hy, bump_standing h]

theorem binding_name {name : Text} (hn : Free name) (hy : context.yield = false)
    (h : Begins text (.word name false) rest) : Reads (binding p) context text (.leaf (.declared name)) rest := by
  simp [Reads, binding, token_standing h, show declaredName context _ = _ from declaredName_free hn hy h]

theorem declarator_value {target value : Tree} (hb : Reads (p .binding) context text target rest)
    (he : Begins rest (.mark "=") after) {last : Text}
    (hv : Reads (p (.assignment true)) context after value last) (constant : Bool) (place : VariablePlace) :
    Reads (declarator p constant place) context text (.node .defaulted [target, value]) last := by
  have hannotation : Reads (annotation? p) context rest [] rest := by
    simp [Reads, annotation?, token_standing he]
  have hinitializer : Reads (initializer? p) context rest (some value) last :=
    .bind (eat_standing he) (.bind hv rfl)
  simp [Reads, declarator, show p .binding context _ = _ from hb, token_standing he,
    show annotation? p context _ = _ from hannotation, show initializer? p context _ = _ from hinitializer]
  cases place <;> rfl

/-- One declaration with its semicolon. -/
theorem variableStatement_one {tree : Tree} {constant : Bool}
    (hd : Reads (declarator p constant .statement) context text tree rest) (hs : Begins rest (.mark ";") after)
    (hl : 0 < context.limit) :
    Reads (variableStatement p constant) context text (.node .declaration [tree]) after := by
  have hmore : Reads (repeatWhile fun done => do
      if ← eat "," then return some ((← declarator p constant .statement) :: done)
      else return none) context rest [] rest := by
    obtain ⟨n, hn⟩ : ∃ n, context.limit = n + 1 := ⟨context.limit - 1, by omega⟩
    rw [Reads, repeatWhile_apply, hn]
    refine go_last ?_ n
    exact Reads.bind (reads_eat_not hs rfl) rfl
  exact .bind (.bind hd (.bind hmore rfl)) (.bind (semicolon_standing hs) rfl)

/-! ## Patterns -/

theorem withDefault_none {m : Text} (h : Begins text (.mark m) rest) (hm : m ≠ "=".toList) (target : Tree) :
    Reads (withDefault p target) context text target text := by
  have hequals : Token.isMark (.mark m) "=" = false := by simpa using hm
  have hinitializer : Reads (initializer? p) context text none text := .bind (reads_eat_not h hequals) rfl
  exact .bind hinitializer rfl

/-- The marks behind a member of a pattern. -/
def memberEnds : List Text := List.map String.toList [",", "\x7d"]

/-- A member of an object pattern. -/
def patternMember (p : Rules) : Reader Tree := do
  if ← eat "..." then lastBefore "\x7d" (← declaredName)
  else
    let shorthand ← nextIs fun t _ => t.isOneOfMarks [",", "=", "\x7d"]
    if (← token).isAnyWord && shorthand then
      let name ← declaredName
      withDefault p name
    else
      let key ← propertyName p
      expect ":"
      return .node .property [key, ← bindingElement p]

theorem objectPattern_eq : objectPattern p = do
    expect "\x7b"
    return .node .pattern (← commasUntil "\x7d" (patternMember p)) := rfl

theorem ne_of_mem_memberEnds {m : Text} (hm : m ∈ memberEnds) : m ≠ "=".toList := by
  have hall : ∀ m ∈ memberEnds, m ≠ "=".toList := by decide
  exact hall m hm

/-- `name` -/
theorem patternMember_shorthand {name m : Text} (hn : Free name) (hy : context.yield = false)
    (h : Begins text (.word name false) rest) (hm : m ∈ memberEnds) (hrest : Begins rest (.mark m) after) :
    Reads (patternMember p) context text (.leaf (.declared name)) rest := by
  have hnext : Reads (nextIs fun t _ => t.isOneOfMarks [",", "=", "\x7d"]) context text true text := by
    have hall : ∀ m ∈ memberEnds, (Token.mark m).isOneOfMarks [",", "=", "\x7d"] = true := by decide
    rw [Reads, (at_standing h _).nextIs hrest fun t => t.isOneOfMarks [",", "=", "\x7d"], hall m hm]
  refine .bind (reads_eat_not h rfl) (.bind hnext (.bind (reads_token h) ?_))
  exact .bind (declaredName_free hn hy h) (withDefault_none hrest (ne_of_mem_memberEnds hm) _)

/-- `key: name` -/
theorem patternMember_renamed {key : Tree} {name m last : Text} (h : Begins text t rest) (ht : t.isMark "..." = false)
    (hkey : Reads (propertyName p) context text key rest) (hcolon : Begins rest (.mark ":") after)
    (hb : Reads (p .binding) context after (.leaf (.declared name)) last)
    (hm : m ∈ memberEnds) {behind : Text} (hlast : Begins last (.mark m) behind) :
    Reads (patternMember p) context text (.node .property [key, .leaf (.declared name)]) last := by
  have hnext : Reads (nextIs fun t _ => t.isOneOfMarks [",", "=", "\x7d"]) context text false text := by
    rw [Reads, (at_standing h _).nextIs hcolon fun t => t.isOneOfMarks [",", "=", "\x7d"]]
    rfl
  have helement : Reads (bindingElement p) context after (.leaf (.declared name)) last :=
    .bind hb (withDefault_none hlast (ne_of_mem_memberEnds hm) _)
  refine .bind (reads_eat_not h ht) (.bind hnext (.bind (reads_token h) ?_))
  rw [Bool.and_false]
  exact .bind hkey (.bind (expect_standing hcolon) (.bind helement rfl))

theorem binding_pattern {members : List Tree} {last : Text} (h : Begins text (.mark "\x7b") rest)
    (hm : Listed (patternMember p) { context with inOperator := true } "\x7d".toList rest members last)
    (hl : members.length < context.limit) : Reads (binding p) context text (.node .pattern members) last := by
  have hpattern : Reads (objectPattern p) { context with inOperator := true } text (.node .pattern members) last := by
    rw [objectPattern_eq]
    exact .bind (expect_standing h) (.bind (commasUntil_listed (by decide) hm hl) rfl)
  simpa only [Reads, binding, bind_apply, isAt_apply, token_standing h, Token.isMark_mark, Option.bind_some,
    show ("\x7b".toList == "[".toList) = false by decide, BEq.rfl, Bool.false_eq_true, if_false, if_true, ite_run,
    within_apply] using hpattern

/-! ## Objects -/

theorem markTrailing_false (items : List Tree) : markTrailing items false = items := by
  unfold markTrailing
  split <;> rfl

/-- `...name` -/
theorem objectMember_spread {value : Tree} (h : Begins text (.mark "...") rest)
    (hv : Reads (p (.assignment true)) context rest value after) :
    Reads (objectMember p) context text (.node .spread [value]) after :=
  .bind (eat_standing h) (.bind hv rfl)

/-- `default: value` -/
theorem objectMember_default {value : Tree} {last : Text} (h : Begins text (.word "default" false) rest)
    (hcolon : Begins rest (.mark ":") after) (hv : Reads (p (.assignment true)) context after value last) :
    Reads (objectMember p) context text (.node .property [.leaf (.propertyName "default"), value]) last := by
  have hmodifier : Reads (isModifier "async" true) context text false text := by
    simp [Reads, isModifier, token_standing h]
  have haccessor : ∀ name : String, name ≠ "default" → Reads (isAccessor name.toList) context text false text := by
    intro name hne
    simp [Reads, isAccessor, token_standing h, -String.reduceToList, String.toList_inj, Ne.symm hne]
  have hnext : Reads (nextIs fun t _ => t.isOneOfMarks [",", "\x7d", "="]) context text false text := by
    rw [Reads, (at_standing h _).nextIs hcolon fun t => t.isOneOfMarks [",", "\x7d", "="]]
    rfl
  have hkey : Reads (propertyName p) context text (.leaf (.propertyName "default")) rest := by
    simp [Reads, propertyName, token_standing h, bump_standing h]
  have hangle : Reads isAtAngle context rest false rest := by
    simp [Reads, isAtAngle, token_standing hcolon]
  have heat : ∀ m : Text, Reads (eat m) context text false text := fun m => reads_eat_not h rfl
  have hparenthesis : Token.isMark (.mark ":") "(" = false := rfl
  have hexpect : Reads (expect ":") context rest () after := expect_standing hcolon
  refine .bind (heat _) (.bind hmodifier (.bind (heat _) (.bind (haccessor "get" (by decide))
    (.bind (haccessor "set" (by decide)) (.bind (reads_token h) (.bind hnext (.bind hkey ?_)))))))
  have hisAt : Reads (isAt "(") context rest false rest := by
    simp [Reads, token_standing hcolon]
  have htypes : Reads isTypescript context rest context.dialect.typescript rest := rfl
  refine .bind hisAt (.bind htypes (.bind hangle ?_))
  rw [Bool.and_false]
  exact .bind (expect_standing hcolon) (.bind hv rfl)

/-- Two members with a comma between them. -/
theorem elements_two {item : Reader Tree} {close : Text} {a b : Tree} {first second third last : Text} {u : Token}
    (hclose : close ≠ ",".toList) (ht : Begins text t rest) (hto : t.isMark close = false)
    (ha : Reads item context text a first) (hcomma : Begins first (.mark ",") second) (hu : Begins second u after)
    (huo : u.isMark close = false) (hb : Reads item context second b third) (hc : Begins third (.mark close) last)
    (hl : 2 < context.limit) : Reads (elements close item) context text [a, b] last := by
  obtain ⟨n, hn⟩ : ∃ n, context.limit = n + 3 := ⟨context.limit - 3, by omega⟩
  have hcommaClose : (Token.mark ",").isMark close = false := by simpa using hclose.symm
  obtain ⟨step, hstep, hsplit⟩ : ∃ step : List Tree → Reader (Option (List Tree)),
      (∀ done, step done = do
        if ← isAt close then return none
        else
          let t ← item
          if ← isAt close then return some (t :: done)
          else
            expect ","
            let comma ← isAt close
            return some ((markTrailing [t] comma).reverse ++ done)) ∧
      elements close item = (do
        let items ← repeatWhile step
        expect close
        return items) := ⟨_, fun _ => rfl, rfl⟩
  have hfirst : step [] context (standing context.dialect text) = some (some [a], standing context.dialect second) := by
    have hexpect : expect ",".toList context (standing context.dialect first) = _ := expect_standing hcomma
    simp only [hstep, bind_apply, isAt_apply, token_standing ht, hto, Option.bind_some, Bool.false_eq_true, if_false,
      ite_run, show item context _ = _ from ha, token_standing hcomma, hcommaClose, hexpect, token_standing hu, huo,
      markTrailing_false, pure_apply]
    rfl
  have hsecond : step [a] context (standing context.dialect second) =
      some (some [b, a], standing context.dialect third) := by
    simp only [hstep, bind_apply, isAt_apply, token_standing hu, huo, Option.bind_some, Bool.false_eq_true, if_false,
      if_true, ite_run, show item context _ = _ from hb, token_standing hc, Token.isMark_mark, BEq.rfl, pure_apply]
  have hlast : step [b, a] context (standing context.dialect third) =
      some (none, standing context.dialect third) := by
    simp only [hstep, bind_apply, isAt_apply, token_standing hc, Token.isMark_mark, BEq.rfl, Option.bind_some,
      if_true, ite_run, pure_apply]
  have hitems : Reads (repeatWhile step) context text [a, b] third := by
    rw [Reads, repeatWhile_apply, hn, go_more hfirst, go_more hsecond, go_last hlast]
    rfl
  rw [hsplit]
  exact .bind hitems (.bind (expect_standing hc) rfl)

theorem assignment_object {tree : Tree} {m : Text} {returnType : Bool} {last : Text}
    (h : Begins text (.mark "\x7b") rest) (ho : Reads (objectLiteral p) context text tree after) (hm : m ∈ ends)
    (hafter : Begins after (.mark m) last) (hl : 0 < context.limit) :
    Reads (assignment p returnType) context text tree after := by
  have hstart : Reads (memberStart p) context text tree after := by
    have hparenthesis : "\x7b".toList ≠ "(".toList := by decide
    have hbracket : "\x7b".toList ≠ "[".toList := by decide
    simp only [Reads, memberStart, primary, bind_apply, isAtWord_apply, token_apply, token_standing h,
      Token.isWord_mark, Option.bind_some, Bool.false_eq_true, if_false, ite_run, hparenthesis, hbracket, if_true]
    exact ho
  exact (operandAt_brace h).assignment (.bind hstart (operandRest_suffixed (.stop hm hafter) hl)) hm hafter hl

/-! ## Calls as statements -/

theorem expression_one {tree : Tree} {m : Text} (hv : Reads (p (.assignment true)) context text tree rest)
    (hm : m ≠ ",".toList) (hrest : Begins rest (.mark m) after) :
    Reads (expression p) context text tree rest := by
  have hcomma : Reads (isAt ",") context rest false rest := by
    rw [Reads, isAt_apply, token_standing hrest, Token.isMark_mark, beq_eq_false_iff_ne.2 hm]
  exact .bind hv (.bind hcomma rfl)

/-- Words that begin declarations. -/
def declarationWords : List Text := List.map String.toList ["import", "export", "var", "const", "class", "function",
  "async", "let", "using", "await", "type", "interface", "namespace", "module", "global", "abstract", "enum", "declare"]

theorem item_plain (hword : ∀ w ∈ declarationWords, cursor.lexeme.token.isWord w = false)
    (hat : cursor.lexeme.token.isMark "@" = false) : item p context cursor = plainStatement p context cursor := by
  have hhead : Headless p context cursor := headless (fun w hw => hword w (by revert w; decide)) hat
  have hdeclaration : isPlainDeclaration context cursor = some (false, cursor) := by
    simp only [isPlainDeclaration, isFunctionStart, isLetDeclaration, isUsingDeclaration, bind_apply, token_apply,
      isAtWord_apply, hat, isOneOfWords_of_words hword (l := ["var", "const", "class"]) (by decide),
      hword "function" (by decide), hword "async" (by decide), hword "let" (by decide), hword "using" (by decide),
      hword "await" (by decide), Option.bind_some, Bool.or_self, Bool.false_eq_true, if_false, pure_apply]
  rw [hhead.item_eq hdeclaration, if_neg Bool.false_ne_true]

/-- Words that begin statements other than expressions and declarations. -/
def statementWords : List Text := List.map String.toList ["if", "for", "while", "do", "break", "continue", "return",
  "with", "switch", "throw", "try", "debugger"]

/-- Marks that begin statements other than expressions. -/
def statementMarks : List Text := List.map String.toList ["@", "\x7b", ";"]

theorem item_expression (hword : ∀ w ∈ declarationWords ++ statementWords, cursor.lexeme.token.isWord w = false)
    (hmark : ∀ m ∈ statementMarks, cursor.lexeme.token.isMark m = false) :
    item p context cursor = expressionStatement p context cursor := by
  have hjump : cursor.lexeme.token.isOneOfWords ["break", "continue"] = false := by
    rw [Token.isOneOfWords_eq_any, List.any_cons, List.any_cons, hword "break" (by decide), hword "continue" (by decide)]
    rfl
  rw [item_plain (fun w hw => hword w (List.mem_append_left _ hw)) (hmark "@" (by decide))]
  simp only [plainStatement, bind_apply, token_apply, hmark "\x7b" (by decide), hmark ";" (by decide),
    hword "if" (by decide), hword "for" (by decide), hword "while" (by decide), hword "do" (by decide), hjump,
    hword "return" (by decide), hword "with" (by decide), hword "switch" (by decide), hword "throw" (by decide),
    hword "try" (by decide), hword "debugger" (by decide), Option.bind_some, Bool.false_eq_true, if_false, ite_run]

/-- An expression that is no single name, with its semicolon. -/
theorem expressionStatement_one {f : Form} {parts : List Tree}
    (hv : Reads (p .expression) { context with inOperator := true, decorator := false } text (.node f parts) rest)
    (hf : ∀ name, f ≠ .identifier name) (hs : Begins rest (.mark ";") after) :
    Reads (expressionStatement p) context text (.node .statement [.node f parts]) after := by
  refine .bind hv ?_
  split
  · next name _ he =>
    cases he
    exact absurd rfl (hf name)
  · exact .bind (semicolon_standing hs) rfl

end CjsInterop.Syntax.Reader
