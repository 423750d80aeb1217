import CjsInterop.Proofs.ReplacementReading

/-! The definition of the function is read as its statements too, whatever stands behind it. -/

namespace CjsInterop.Syntax.Reader

open Lexer (Begins)

variable {context : Context} {text rest after last : Text} {depth n : Nat} {result : Tree} {t : Token}

def importMetaUrl : Tree := .node (.member "url") [.leaf .importMeta]

/-- A call with the place of the module, in front of a semicolon. -/
theorem Suffixed.importMeta {o : Tree} (hl : 1 < context.limit) (rest : Text) :
    Suffixed (rules (depth + 1)) context 1 ("(".toList ++ ("import.meta.url);".toList ++ rest)) o
      (.node .call [o, importMetaUrl]) (";".toList ++ rest) := by
  have hclose := begins_mark (m := ")".toList) (by decide) (";".toList ++ rest)
  have hmeta : Begins ("import.meta.url);".toList ++ rest) (.word "import" false)
      ('.' :: ("meta".toList ++ '.' :: ("url".toList ++ (")".toList ++ (";".toList ++ rest))))) :=
    .name (w := "import".toList) (by decide) (endsName_dot _)
  have hopen := begins_mark (m := "(".toList) (by decide) ("import.meta.url);".toList ++ rest)
  refine .call hopen (argumentList_one hopen hmeta rfl rfl ?_ hclose hl) (.stop (by decide) (begins_semicolon rest))
  exact assignment_importMeta hmeta (begins_dot (w := "meta".toList) (by decide) _)
    (.name (by decide) (endsName_dot _)) (begins_dot (w := "url".toList) (by decide) _)
    (.name (by decide) (endsName_mark (m := ")".toList) (by decide) _)) (by decide) hclose hl

def createRequireName : Text := "__cjs_createRequire"

theorem free_createRequireName : Free createRequireName := ⟨by decide, by decide, by decide⟩

/-- The constant that the function is. -/
def definitionTree (maker : Tree) : Tree :=
  constantTree (.leaf (.declared requireName)) (.node .call [maker, importMetaUrl])

theorem item_definition {value w behind : Text} {maker : Tree} (hy : context.yield = false) (hl : 1 < context.limit)
    (hword : Begins (' ' :: value) (.word w false) behind) (hw : w ∉ operatorWords)
    (ho : Reads (operand (rules (depth + 1))) context (' ' :: value) (.node .call [maker, importMetaUrl])
      (";".toList ++ rest))
    (hb : Begins text (.word "const" false) (" __cjs_require = ".toList ++ value)) :
    Reads ((rules (depth + 3)) .item) context text (definitionTree maker) rest := by
  have hname : Begins (" __cjs_require = ".toList ++ value) (.word requireName false) (' ' :: ("= ".toList ++ value)) :=
    (Begins.name free_requireName.isName (endsName_space _)).space
  have hvalue : Reads ((rules (depth + 2)) (.assignment true)) context (' ' :: value) _ (";".toList ++ rest) :=
    (operandAt_word hword hw).assignment ho (by decide) (begins_semicolon rest) (by omega)
  refine (item_const (at_standing hb _) hname (by decide)).trans ?_
  exact variableStatement_one (declarator_value (binding_name free_requireName hy hname) (begins_equals _).space hvalue
    true .statement) (begins_semicolon rest) (by omega)

theorem item_builtinPreamble (hy : context.yield = false) (hl : 5 < context.limit)
    (hb : Begins text (.word "const" false) (builtinPreamble.drop 5 ++ rest)) :
    Reads ((rules (depth + 3)) .item) context text
      (definitionTree (.node (.member "createRequire") [(Target.builtin "module").tree])) ('\n' :: rest) := by
  have htext : builtinPreamble.drop 5 = " __cjs_require = ".toList ++ ("globalThis".toList ++
      ((Target.builtin "module").behindWord ++ ('.' :: ("createRequire".toList ++
        ("(".toList ++ ("import.meta.url);".toList ++ ['\n'])))))) := by decide +kernel
  have hmember := @Suffixed.dot context _ _ _ _ (rules (depth + 1)) "createRequire".toList _ (by decide)
    (endsName_mark (m := "(".toList) (by decide) _)
    (@Suffixed.importMeta context depth (.node (.member "createRequire") [(Target.builtin "module").tree])
      (show 1 < context.limit by omega) ('\n' :: rest))
  have hword := fun tail => (Begins.name free_globalThis.isName (endsName_behindWord (.builtin "module") tail)).space
  rw [htext] at hb
  simp only [List.append_assoc, List.cons_append, List.nil_append] at hb
  exact item_definition hy (by omega) (hword _) (by decide)
    (operand_target (.builtin "module") hy (hword _) (endsName_dot _) hmember (by omega)) hb

/-! ## An import of one name -/

theorem collectUntil_one {α : Type} {item : Reader α} {close : Text} {a : α} {first : Text} {t : Token}
    (hb : Begins text t first) (ht : t.isMark close = false) (hi : Reads item context text a rest)
    (hc : Begins rest (.mark close) after) (hl : 0 < context.limit) :
    Reads (collectUntil close item) context text [a] after := by
  obtain ⟨n, hn⟩ : ∃ n, context.limit = n + 1 := ⟨context.limit - 1, by omega⟩
  have hgo : Reads (collectUntil.go close item (n + 1) []) context text [a] after :=
    .bind (reads_eat_not hb ht) (.bind hi (.bind (eat_standing hc) rfl))
  rw [← hn] at hgo
  exact hgo

/-- `imported as name` -/
theorem moduleSpecifier_renamed {imported name t₁ t₂ : Text} (hi : imported ≠ "type".toList) (hn : name ∉ reservedWords)
    (hv : imported ∉ reservedWords) (h : Begins text (.word imported false) t₁) (h₁ : Begins t₁ (.word "as" false) t₂)
    (h₂ : Begins t₂ (.word name false) rest) :
    Reads moduleSpecifier context text ⟨⟨imported, true, false⟩, some ⟨name, true, false⟩, false⟩ rest := by
  have hname : ∀ {text w rest : Text}, w ∉ reservedWords → Begins text (.word w false) rest →
      Reads moduleName context text ⟨w, true, false⟩ rest := by
    intro text w rest hw hb
    have hvariable : (Token.word w false).isVariable = true := by simp [Token.isVariable, Token.asVariable?, hw]
    simp [Reads, moduleName, token_standing hb, bump_standing hb, hvariable]
  have htype : Reads (isAtWord "type") context text false text := by
    rw [Reads, isAtWord_apply, token_standing h, Token.isWord_word, beq_eq_false_iff_ne.2 hi]
  refine .bind htype (.bind (hname hv h) (.bind rfl (.bind (reads_token h₁) ?_)))
  rw [Bool.false_and]
  exact .bind (eatWord_standing h₁) (.bind (hname hn h₂) rfl)

theorem isImportEquals_brace (h : Begins text (.mark "\x7b") rest) (hrest : Begins rest t after) :
    Reads isImportEquals context text false text := by
  have hnext := @At.nextIs context _ _ _ _ (at_standing h context.dialect) _ hrest Token.isVariable
  refine .bind rfl ?_
  split
  · have hvariable : (Token.mark "\x7b".toList).isVariable = false := rfl
    simp only [Reads, looksLike, bind_apply, isAtWord_apply, token_apply, token_standing h, Token.isWord_mark, hnext,
      Option.bind_some, Bool.false_and, Bool.false_eq_true, if_false, hvariable, Bool.not_false, refuseIf,
      if_true, failure_apply, Option.bind_none]
  · rfl

/-- `{ imported as name }` -/
theorem importClause_renamed {imported name t₁ t₂ t₃ t₄ : Text} (hi : imported ≠ "type".toList)
    (hv : imported ∉ reservedWords) (hn : Free name) (hyield : name ≠ "yield".toList) (hy : context.yield = false)
    (hl : 0 < context.limit) (h : Begins text (.mark "\x7b") t₁) (h₁ : Begins t₁ (.word imported false) t₂)
    (h₂ : Begins t₂ (.word "as" false) t₃) (h₃ : Begins t₃ (.word name false) t₄) (h₄ : Begins t₄ (.mark "\x7d") rest) :
    Reads (importClause none) context text [.named imported name false] rest := by
  have hlocal : localName ⟨name, true, false⟩ context (standing context.dialect t₄) =
      some (name, standing context.dialect t₄) := by
    have hflaw : (name == "yield".toList || name == "await".toList) = false := by
      rw [Bool.or_eq_false_iff, beq_eq_false_iff_ne, beq_eq_false_iff_ne]
      exact ⟨hyield, hn.ne_await⟩
    simp only [localName, bind_apply, Bool.not_true, Bool.or_self, refuseIf_false, pure_apply, Option.bind_some,
      checkName_free hn hy, hflaw, flawIf_false]
  have hstar : Reads (isAt "*") context text false text := by
    rw [Reads, isAt_apply, token_standing h]
    rfl
  have hnamed : Reads namedBindings context text [.named imported name false] rest :=
    .bind (expect_standing h) (collectUntil_one h₁ rfl
      (.bind (moduleSpecifier_renamed hi hn.notReserved hv h₁ h₂ h₃) (.bind hlocal rfl)) h₄ hl)
  have hclause : Reads (do if ← isAt "*" then return [← namespaceBinding] else namedBindings) context text
      [.named imported name false] rest := .bind hstar hnamed
  exact hclause

theorem importHead_brace {bindings : List Binding} {first last : Text} (h : Begins text (.mark "\x7b") first)
    (hfirst : Begins first t after) (hc : Reads (importClause none) context text bindings rest)
    (hfrom : Begins rest (.word "from" false) last) : Reads importHead context text ⟨false, bindings⟩ last := by
  have htype : Reads isTypeImport context text false text := by
    cases hts : context.dialect.typescript <;>
      simp only [Reads, isTypeImport, bind_apply, isTypescript_apply, isAtWord_apply, token_standing h, hts,
        Token.isWord_mark, Option.bind_some, Bool.false_and, Bool.true_and, Bool.false_eq_true, if_false, pure_apply]
  have hsource : Reads isSourceImport context text false text := .bind (reads_isAtWord h _) rfl
  have hdefer : Reads (nextIs fun t _ => t.isMark "*") context text (t.isMark "*") text :=
    (at_standing h _).nextIs hfirst fun t => t.isMark "*"
  refine .bind htype (.bind hsource (.bind (reads_isAtWord h _) (.bind hdefer ?_)))
  rw [Token.isWord_mark, Bool.false_and]
  refine .bind rfl (.bind (reads_isAtWord h _) (.bind (reads_token h) ?_))
  rw [Token.isWord_mark, Bool.and_false]
  exact .bind rfl (.bind (reads_token h) (.bind hc (.bind (expectWord_standing hfrom) rfl)))

/-- `import … from "source";` -/
theorem item_importFrom {p : Rules} {head : ImportHead} {source first last behind : Text}
    (h : Begins text (.word "import" false) rest) (hbrace : Begins rest (.mark "\x7b") first) (hfirst : Begins first t after)
    (hhead : Reads importHead context rest head last) {second : Text} (hs : Begins last (.string source true) second)
    (hend : Begins second (.mark ";") behind) :
    Reads (item p) context text (.leaf (.importDeclaration
      ⟨⟨place context (standing context.dialect text).lexeme.here, place context behind⟩, source, head.isType,
        head.bindings⟩)) behind := by
  have hstart : Reads isImportDeclaration context text true text := by
    refine .bind (reads_isAtWord h _) ?_
    rw [show (Token.word "import".toList false).isWord "import".toList = true from rfl, if_pos rfl, Reads,
      (at_standing h _).nextIs hbrace fun t => !t.isOneOfMarks ["(", "."]]
    rfl
  have hattributes : Reads importAttributes context second () second := by
    have hat : ∀ w : Text, Reads (isAtWord w) context second false second := fun w => reads_isAtWord hend w
    exact .bind (hat _) (.bind (hat _) (.bind rfl rfl))
  have hdeclaration : Reads importDeclaration context text (.leaf (.importDeclaration
      ⟨⟨place context (standing context.dialect text).lexeme.here, place context behind⟩, source, head.isType,
        head.bindings⟩)) behind := by
    refine .bind (a := place context (standing context.dialect text).lexeme.here) rfl (.bind (expectWord_standing h)
      (.bind (isImportEquals_brace hbrace hfirst) ?_))
    have hstring : Reads moduleString context last source second :=
      .bind (reads_token hs) (.bind (bump_standing hs) rfl)
    refine .bind (reads_token hbrace) (.bind hhead (.bind hstring ?_))
    exact .bind hattributes (.bind (semicolon_standing hend) (.bind rfl rfl))
  exact .bind hstart hdeclaration

/-! ## Definitions -/

/-- The import that the definition begins with, at a place of a source. -/
def requireImport (span : Span) : ImportStatement where
  span := span
  source := "node:module"
  bindings := [.named "createRequire" createRequireName false]

/-- The line of the definition behind the import. -/
def importedDefinition : Text := "\nconst __cjs_require = __cjs_createRequire(import.meta.url);\n"

theorem item_requireImport {p : Rules} (hy : context.yield = false) (hl : 0 < context.limit)
    (hb : Begins text (.word "import" false) (importedPreamble.drop 6 ++ rest)) :
    ∃ span, Reads (item p) context text (.leaf (.importDeclaration (requireImport span)))
      (importedDefinition ++ rest) := by
  have htext : importedPreamble.drop 6 = ' ' :: ("\x7b".toList ++ (' ' :: ("createRequire".toList ++
      (' ' :: ("as".toList ++ (' ' :: (createRequireName ++ (' ' :: ("\x7d".toList ++ (' ' :: ("from".toList ++
        (' ' :: (Text.quoted "node:module" ++ (";".toList ++ importedDefinition)))))))))))))) := by decide +kernel
  have hword := fun {w : Text} (hw : Text.isName w = true) (tail : Text) => (Begins.name hw (endsName_space tail)).space
  rw [htext] at hb
  simp only [List.append_assoc, List.cons_append] at hb
  generalize importedDefinition ++ rest = behind at *
  have hend := begins_semicolon behind
  have hsource := (Begins.quoted "node:module" (";".toList ++ behind)).space
  have hfrom := hword (w := "from".toList) (by decide) (Text.quoted "node:module" ++ (";".toList ++ behind))
  generalize ' ' :: (Text.quoted "node:module" ++ (";".toList ++ behind)) = source at *
  have hclose := (begins_mark (m := "\x7d".toList) (by decide) (' ' :: ("from".toList ++ source))).space
  generalize ' ' :: ("from".toList ++ source) = from' at *
  have hname := hword free_createRequireName.isName ("\x7d".toList ++ from')
  generalize ' ' :: ("\x7d".toList ++ from') = close at *
  have has := hword (w := "as".toList) (by decide) (createRequireName ++ close)
  generalize ' ' :: (createRequireName ++ close) = name at *
  have himported := hword (w := "createRequire".toList) (by decide) ("as".toList ++ name)
  generalize ' ' :: ("as".toList ++ name) = as at *
  have hopen := (begins_mark (m := "\x7b".toList) (by decide) (' ' :: ("createRequire".toList ++ as))).space
  exact ⟨_, item_importFrom hb hopen himported (importHead_brace hopen himported (importClause_renamed (by decide)
    (by decide) free_createRequireName (by decide) hy hl hopen himported has hname hclose) hfrom) hsource hend⟩

theorem item_importedDefinition (hy : context.yield = false) (hl : 1 < context.limit) (rest : Text) :
    Reads ((rules (depth + 3)) .item) context (importedDefinition ++ rest)
      (definitionTree (.leaf (.identifier createRequireName))) ('\n' :: rest) := by
  have htext : importedDefinition = '\n' :: ("const".toList ++ (" __cjs_require = ".toList ++ (createRequireName ++
      ("(".toList ++ ("import.meta.url);".toList ++ ['\n']))))) := by decide +kernel
  have hword := fun tail => (Begins.name free_createRequireName.isName
    (endsName_mark (m := "(".toList) (by decide) tail)).space
  rw [htext]
  simp only [List.append_assoc, List.cons_append, List.nil_append]
  exact item_definition hy hl (hword _) (by decide)
    (operand_name free_createRequireName hy (hword _) (begins_mark (by decide) _) (.importMeta hl _) hl)
    (Begins.name (by decide) (endsName_space _)).line

/-- The statements of the definition, its import at a place of a source. -/
def preambleTrees (rewriteBuiltins : Bool) (span : Span) : List Tree :=
  if rewriteBuiltins then [definitionTree (.node (.member "createRequire") [(Target.builtin "module").tree])]
  else
    [.leaf (.importDeclaration (requireImport span)), definitionTree (.leaf (.identifier createRequireName))]

/-- The word that the definition begins with. -/
def preambleWord (rewriteBuiltins : Bool) : Text := if rewriteBuiltins then "const" else "import"

theorem preambleWord_isName (rewriteBuiltins : Bool) : Text.isName (preambleWord rewriteBuiltins) = true := by
  cases rewriteBuiltins <;> decide

theorem preamble_eq (rewriteBuiltins : Bool) :
    ∃ tail, preamble rewriteBuiltins = preambleWord rewriteBuiltins ++ ' ' :: tail := by
  refine ⟨(preamble rewriteBuiltins).drop ((preambleWord rewriteBuiltins).length + 1), ?_⟩
  cases rewriteBuiltins <;> decide +kernel

theorem lt_length_preamble (rewriteBuiltins : Bool) : 5 < (preamble rewriteBuiltins).length := by
  cases rewriteBuiltins <;> decide +kernel

theorem begins_preamble (rewriteBuiltins : Bool) (rest : Text) :
    Begins (preamble rewriteBuiltins ++ rest) (.word (preambleWord rewriteBuiltins) false)
      ((preamble rewriteBuiltins).drop (preambleWord rewriteBuiltins).length ++ rest) := by
  obtain ⟨tail, htail⟩ := preamble_eq rewriteBuiltins
  rw [htail, List.drop_left, List.append_assoc]
  exact .name (preambleWord_isName rewriteBuiltins) (endsName_space _)

/-- Behind blanks the definition is read as its statements, whatever stands behind it. -/
theorem readsAll_preamble (rewriteBuiltins : Bool) (hl : 5 < context.limit) (hy : context.yield = false) {gap : Text}
    (hg : Lexer.Skipped gap) (rest : Text) :
    ∃ span, ReadsAll (rules (depth + 4)) context (gap ++ (preamble rewriteBuiltins ++ rest))
      (preambleTrees rewriteBuiltins span) (['\n'] ++ rest) := by
  have hbegins := (begins_preamble rewriteBuiltins rest).skip hg
  cases rewriteBuiltins with
  | true => exact ⟨{}, .cons hbegins nofun (@item_builtinPreamble context _ _ (depth + 1) hy hl hbegins) .none⟩
  | false =>
    obtain ⟨span, himport⟩ := item_requireImport (p := rules (depth + 3)) hy (by omega) hbegins
    obtain ⟨tail, htail⟩ : ∃ tail, importedDefinition = '\n' :: ("const".toList ++ ' ' :: tail) :=
      ⟨importedDefinition.drop 7, by decide +kernel⟩
    have hconst := (Begins.name (w := "const".toList) (by decide) (endsName_space (tail ++ rest))).line
    have hline : importedDefinition ++ rest = '\n' :: ("const".toList ++ ' ' :: (tail ++ rest)) := by
      rw [htail, List.cons_append, List.append_assoc, List.cons_append]
    rw [← hline] at hconst
    exact ⟨span, .cons hbegins nofun himport (.cons hconst nofun
      (@item_importedDefinition context (depth + 1) hy (by omega) rest) .none)⟩

end CjsInterop.Syntax.Reader
