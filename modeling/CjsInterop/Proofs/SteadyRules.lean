import CjsInterop.Proofs.SteadyExpressions
import CjsInterop.Syntax.Program

/-! Statements, imports and exports are steady, and so is markup that begins in ordinary source: with
that, the readers of all goals. -/

namespace CjsInterop.Syntax

namespace Lexer

theorem markupChild_ordered (text : Text) :
    (markupChild text).here <:+ text ∧ (markupChild text).rest <:+ (markupChild text).here.tail := by
  unfold markupChild
  split
  · exact ⟨List.suffix_rfl, List.suffix_rfl⟩
  · exact ⟨List.suffix_rfl, List.suffix_rfl⟩
  · exact ⟨List.suffix_rfl, List.suffix_rfl⟩
  · next hnil hangle hbrace =>
    refine ⟨List.suffix_rfl, ?_⟩
    cases text with
    | nil => exact absurd rfl hnil
    | cons c rest =>
      rw [List.dropWhile_cons_of_pos]
      · exact List.dropWhile_suffix _
      · simp only [ne_eq, decide_eq_true_eq]
        exact ⟨fun h => hangle rest (h ▸ rfl), fun h => hbrace rest (h ▸ rfl)⟩

theorem markupValue_ordered (text : Text) :
    (markupValue text).here <:+ text ∧ (markupValue text).rest <:+ (markupValue text).here.tail := by
  have hquoted : ∀ (quote : Char) (rest after : Text) (c : Char), rest.dropWhile (· ≠ quote) = c :: after →
      after <:+ rest := fun quote rest after c h =>
    (List.suffix_cons c after).trans (h ▸ List.dropWhile_suffix _)
  unfold markupValue
  split
  · exact ⟨List.suffix_rfl, List.nil_suffix⟩
  · next onNewLine here hs =>
    have hhere : here <:+ text := skipBlanks_ends _ _ _ _ _ _ hs
    split
    · split
      · next h => exact ⟨hhere, hquoted _ _ _ _ h⟩
      · exact ⟨hhere, List.nil_suffix⟩
    · split
      · next h => exact ⟨hhere, hquoted _ _ _ _ h⟩
      · exact ⟨hhere, List.nil_suffix⟩
    · exact ⟨lexemeAt_here _ _ _ ▸ hhere, lexemeAt_here _ _ _ ▸ lexemeAt_rest (token_ends _)⟩

end Lexer

namespace Reader
namespace Steady

variable {p : Rules} [h : SteadyRules p]

/-! ## Statements -/

instance : Steady (block p) := by unfold block; infer_instance
instance {constant : Bool} {place : VariablePlace} : Steady (declarator p constant place) := by
  unfold declarator
  repeat' first | infer_instance | refine .bind fun _ => ?_ | split
instance {constant : Bool} {place : VariablePlace} : Steady (declarators p constant place) := by
  unfold declarators
  infer_instance
instance {constant : Bool} : Steady (variableStatement p constant) := by
  unfold variableStatement
  infer_instance
instance : Steady isLetDeclaration := by unfold isLetDeclaration; infer_instance
instance : Steady isUsingDeclaration := by unfold isUsingDeclaration; infer_instance
instance : Steady variableWord? := by
  unfold variableWord?
  exact .bind fun _ => by split <;> infer_instance
instance : Steady (condition p) := by unfold condition; infer_instance
instance : Steady (ifStatement p) := by unfold ifStatement; infer_instance
instance : Steady (whileStatement p) := by unfold whileStatement; infer_instance
instance : Steady (doStatement p) := by unfold doStatement; infer_instance
instance {first : List Tree} : Steady (counterLoop p first) := by
  unfold counterLoop
  repeat' first | infer_instance | refine .bind fun _ => ?_ | split
instance {awaits : Bool} {target : List Tree} : Steady (memberLoop p awaits target) := by
  unfold memberLoop
  exact .bind fun _ => by split <;> infer_instance
instance : Steady isMemberLoop := by unfold isMemberLoop; infer_instance
instance : Steady (forStatement p) := by
  unfold forStatement
  repeat' first | infer_instance | refine .bind fun _ => ?_ | split
instance : Steady jumpStatement := by unfold jumpStatement; infer_instance
instance : Steady (returnStatement p) := by unfold returnStatement; infer_instance
instance : Steady (throwStatement p) := by unfold throwStatement; infer_instance
instance : Steady (switchCase p) := by
  unfold switchCase
  repeat' first | infer_instance | refine .bind fun _ => ?_ | split
instance : Steady (switchStatement p) := by unfold switchStatement; infer_instance
instance : Steady (catchClause p) := by unfold catchClause; infer_instance
instance : Steady (tryStatement p) := by
  unfold tryStatement
  refine .bind fun _ => .bind fun _ => .bind fun _ => ?_
  split <;> infer_instance
instance : Steady (expressionStatement p) := by
  unfold expressionStatement
  exact .bind fun _ => by split <;> infer_instance
instance : Steady (typeAlias p) := by unfold typeAlias; infer_instance
instance : Steady (interfaceDeclaration p) := by unfold interfaceDeclaration; infer_instance
instance : Steady (enumMember p) := by unfold enumMember; infer_instance
instance : Steady (enumDeclaration p) := by unfold enumDeclaration; infer_instance
instance : Steady (moduleDeclaration p) := by
  unfold moduleDeclaration
  repeat' first | infer_instance | refine .bind fun _ => ?_ | split
instance : Steady isTypeDeclaration := by
  unfold isTypeDeclaration
  exact .bind fun _ => by split <;> infer_instance
instance : Steady (typeDeclaration p) := by
  unfold typeDeclaration
  repeat' first | infer_instance | refine .bind fun _ => ?_ | refine .ite ?_ ?_
instance : Steady isDeclare := by unfold isDeclare; infer_instance

/-! ## Imports and exports -/

instance : Steady moduleName := by
  unfold moduleName
  exact .bind fun _ => by split <;> infer_instance
instance : Steady moduleSpecifier := by
  unfold moduleSpecifier
  repeat' first | infer_instance | refine .bind fun _ => ?_ | split
instance {α : Type} {close : Text} {item : Reader α} [Steady item] : Steady (collectUntil close item) := by
  have hgo : ∀ n done, Steady (collectUntil.go close item n done) := by
    intro n
    induction n with
    | zero => exact fun done => inferInstanceAs (Steady failure)
    | succ n ih =>
      intro done
      unfold collectUntil.go
      infer_instance
  unfold collectUntil
  infer_instance
instance {name : ModuleName} : Steady (localName name) := by unfold localName; infer_instance
instance : Steady namedBindings := by unfold namedBindings; infer_instance
instance : Steady bindingName := by
  unfold bindingName
  exact .bind fun _ => by split <;> infer_instance
instance : Steady namespaceBinding := by unfold namespaceBinding; infer_instance
instance {first : Option Text} : Steady (importClause first) := by
  unfold importClause
  split <;> infer_instance
instance : Steady moduleString := by
  unfold moduleString
  exact .bind fun _ => by split <;> infer_instance
instance : Steady importAttributes := by
  unfold importAttributes
  repeat' first | infer_instance | refine .bind fun _ => ?_
instance : Steady importEquals := by
  unfold importEquals
  repeat' first | infer_instance | refine .bind fun _ => ?_
instance : Steady isTypeImport := by unfold isTypeImport; infer_instance
instance : Steady isSourceImport := by unfold isSourceImport; infer_instance
instance : Steady importHead := by
  unfold importHead
  repeat' first | infer_instance | refine .bind fun _ => ?_ | split
instance : Steady isImportEquals := by unfold isImportEquals; infer_instance
instance : Steady importDeclaration := by
  unfold importDeclaration
  repeat' first | infer_instance | refine .bind fun _ => ?_ | split
instance : Steady isImportDeclaration := by unfold isImportDeclaration; infer_instance
instance : Steady exportAll := by
  unfold exportAll
  repeat' first | infer_instance | refine .bind fun _ => ?_ | split
instance {α β : Type} {l : List α} {b : β} {f : α → β → Reader (ForInStep β)} [h : ∀ a b, Steady (f a b)] :
    Steady (forIn l b f) := by
  induction l generalizing b with
  | nil => exact inferInstanceAs (Steady (pure b))
  | cons a l ih =>
    rw [List.forIn_cons]
    refine .bind fun step => ?_
    split <;> infer_instance

instance : Steady exportNamed := by
  unfold exportNamed
  refine .bind fun _ => .bind fun _ => .bind fun _ => .ite inferInstance ?_
  exact .bind_of inferInstance inferInstance
instance : Steady (exportDefault p) := by
  unfold exportDefault
  repeat' first | infer_instance | refine .bind fun _ => ?_ | split
instance : Steady (plainDeclaration p) := by
  unfold plainDeclaration
  repeat' first | infer_instance | refine .bind fun _ => ?_ | split
instance : Steady (declared p) := by
  unfold declared
  repeat' first | infer_instance | refine .bind fun _ => ?_ | split
instance : Steady (exportDeclaration p) := by
  unfold exportDeclaration
  repeat' first | infer_instance | refine .bind fun _ => ?_ | split
instance : Steady (isDecoratedExport p) := by unfold isDecoratedExport; infer_instance
instance : Steady (plainStatement p) := by unfold plainStatement; infer_instance
instance : Steady isPlainDeclaration := by unfold isPlainDeclaration; infer_instance
instance : Steady (item p) := by unfold item; infer_instance
instance : Steady (statement p) := by unfold statement; infer_instance


/-! ## Markup -/

theorem leads_closeMarkup {P : Context → Cursor → Prop} {mark : Text} {inChild : Bool} :
    Leads P (closeMarkup mark inChild) (fun _ context cursor => inChild = false → Fresh context cursor) := by
  unfold closeMarkup
  refine leads_isAt.bind fun _ => leads_refuseIf.bind fun _ => .ite (fun hc => ?_) fun _ => ?_
  · refine (leads_bumpInto Lexer.markupChild_ordered).weaken (fun _ _ h => h) fun _ _ _ _ hn => ?_
    simp [hc] at hn
  · exact leads_bump.weaken (fun _ _ h => h) fun _ _ _ h _ => h

/-- A name is taken, so that what follows is an ordinary token again. -/
theorem leads_markupWord {P : Context → Cursor → Prop} : Leads P markupWord (fun _ => Fresh) := by
  unfold markupWord
  refine (leads_anew Lexer.rereads_asMarkupName).bind fun _ => leads_token.bind fun t => ?_
  split
  · exact leads_bump.bind fun _ => .pure fun _ _ h => h
  · exact .fail

instance : Steady markupWord := ⟨leads_markupWord⟩

theorem leads_markupName {P : Context → Cursor → Prop} : Leads P markupName (fun _ => Fresh) := by
  have hgo : ∀ n done, Steady (markupName.go n done) := by
    intro n
    induction n with
    | zero => exact fun done => inferInstanceAs (Steady failure)
    | succ n ih =>
      intro done
      unfold markupName.go
      infer_instance
  unfold markupName
  exact leads_markupWord.bind fun first => leads

theorem leads_markupExpression {inChild : Bool} : Leads Fresh (markupExpression p inChild)
    (fun _ context cursor => inChild = false → Fresh context cursor) := by
  unfold markupExpression
  refine (leads (x := plainExpression p)).bind fun t => (leads (x := flawIf _)).bind fun _ => ?_
  exact leads_closeMarkup.bind fun _ => .pure fun _ _ h => h

theorem leads_markupContainer {inChild : Bool} : Leads Fresh (markupContainer p inChild)
    (fun _ context cursor => inChild = false → Fresh context cursor) := by
  unfold markupContainer
  refine (leads (x := isAt "\x7d")).bind fun _ => .ite (fun _ => ?_) fun _ => leads_markupExpression
  exact leads_closeMarkup.bind fun _ => .pure fun _ _ h => h

theorem leads_attributeValue : Leads Anywhere (attributeValue p) (fun _ => Fresh) := by
  unfold attributeValue
  refine leads_token.bind fun t => ?_
  split
  · exact leads_bump.bind fun _ => .pure fun _ _ h => h
  · refine .ite (fun _ => leads_bump.bind fun _ => ?_) fun _ => leads_refuseIf.bind fun _ => ?_
    · exact leads_markupContainer.weaken (fun _ _ h => h) fun _ _ _ h => h rfl
    · exact (h.markup false).weaken (fun _ _ _ => trivial) fun _ _ _ h => h rfl

instance : Steady (markupAttribute p) := by
  unfold markupAttribute
  refine .bind fun _ => .ite ?_ ?_
  · refine .bind fun _ => ⟨leads_markupExpression.weaken (fun _ _ h => h) fun _ _ _ h => h rfl⟩
  · refine .bind fun _ => .bind fun _ => ?_
    extract_lets valued
    have hv : ∀ r, Steady (valued r) := by
      refine fun _ => .bind fun _ => .ite ?_ inferInstance
      exact ⟨(leads_bumpInto Lexer.markupValue_ordered).bind fun _ => leads_attributeValue⟩
    clear_value valued
    infer_instance

/-- The children end where the word of the closing element stands. -/
theorem leads_children : Leads Anywhere (children p) (fun _ => Fresh) := by
  have hchild : ∀ P, Leads P (p (.markup true)) (fun _ => Anywhere) := fun P =>
    (h.markup true).weaken (fun _ _ _ => trivial) fun _ _ _ _ => trivial
  unfold children
  refine leads_repeatWhile fun done => leads_token.bind fun t => ?_
  split
  · exact (leads_bumpInto Lexer.markupChild_ordered).bind fun _ => .pure fun _ _ h => h
  · refine .ite (fun _ => leads_bump.bind fun _ => leads_eat.bind fun b => ?_) fun _ => ?_
    · cases b
      · exact leads_markupContainer.bind fun _ => .pure fun _ _ _ => trivial
      · exact leads_markupExpression.bind fun _ => .pure fun _ _ _ => trivial
    · refine leads_refuseIf.bind fun _ => leads_looksLike.bind fun _ => .ite (fun _ => ?_) fun _ => ?_
      · exact leads_bump.bind fun _ => leads_bump.bind fun _ => .pure fun _ _ h => h
      · exact (hchild _).bind fun _ => .pure fun _ _ h => h

theorem leads_markup {inChild : Bool} : Leads Anywhere (markup p inChild)
    (fun _ context cursor => inChild = false → Fresh context cursor) := by
  unfold markup
  refine leads_expect.bind fun _ => (leads (x := isAt ">")).bind fun _ => .ite (fun _ => ?_) fun _ => ?_
  · refine (leads_bumpInto Lexer.markupChild_ordered).bind fun _ => leads_children.bind fun _ => ?_
    exact leads_closeMarkup.bind fun _ => .pure fun _ _ h => h
  · refine leads_markupName.bind fun name => (leads (x := typeArguments? p)).bind fun types => ?_
    refine (leads (x := repeatWhile _)).bind fun attributes => (leads (x := eat "/")).bind fun _ => ?_
    refine .ite (fun _ => leads_closeMarkup.bind fun _ => .pure fun _ _ h => h) fun _ => ?_
    refine leads_isAt.bind fun _ => leads_refuseIf.bind fun _ => ?_
    refine (leads_bumpInto Lexer.markupChild_ordered).bind fun _ => leads_children.bind fun _ => ?_
    refine leads_markupName.bind fun closing => leads_refuseIf.bind fun _ => ?_
    exact leads_closeMarkup.bind fun _ => .pure fun _ _ h => h

end Steady

instance steadyRules_rules (depth : Nat) : SteadyRules (rules depth) := by
  induction depth with
  | zero => exact ⟨fun _ _ => inferInstanceAs (Steady failure), fun _ => .fail⟩
  | succ depth ih =>
    refine ⟨fun g hg => ?_, fun _ => Steady.leads_markup⟩
    cases g with
    | markup inChild => exact absurd rfl (hg inChild)
    | _ => simp only [rules, rule]; infer_instance

end Reader
end CjsInterop.Syntax
