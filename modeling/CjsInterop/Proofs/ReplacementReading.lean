import CjsInterop.Proofs.Splicing
import CjsInterop.Proofs.StatementReading

/-! The texts that take the places of imports are read as the statements that they were written for, whatever
stands behind them. -/

namespace CjsInterop

namespace Text

variable {mark : Text}

theorem length_le_join (hm : mark ≠ []) (parts : List Text) : parts.length ≤ (join mark parts).length + 1 := by
  induction parts with
  | nil => simp
  | cons part parts ih =>
    cases parts with
    | nil => simp
    | cons next parts =>
      have hmark := List.length_pos_iff.2 hm
      simp only [join, List.length_append, List.length_cons] at ih ⊢
      omega

theorem length_part_le_join {part : Text} {parts : List Text} (h : part ∈ parts) :
    part.length ≤ (join mark parts).length := by
  induction parts with
  | nil => cases h
  | cons first parts ih =>
    cases parts with
    | nil =>
      obtain rfl := List.mem_singleton.1 h
      rfl
    | cons next parts =>
      simp only [join, List.length_append]
      rcases List.mem_cons.1 h with rfl | h
      · omega
      · have := ih h
        omega

end Text

section Trees

open Syntax

/-- `globalThis.process` -/
def processTree : Tree := .node (.member "process") [.leaf (.identifier "globalThis")]

/-- The expression that yields the value, as a tree. -/
def Target.tree : Target → Tree
  | process => processTree
  | builtin specifier => .node .call [.node (.member "getBuiltinModule") [processTree], .leaf (.string specifier)]
  | require specifier => .node .call [.leaf (.identifier requireName), .leaf (.string specifier)]

/-- The word that the expression begins with. -/
def Target.word : Target → Text
  | require _ => requireName
  | _ => "globalThis"

/-- What the expression goes on with. -/
def Target.behindWord : Target → Text
  | process => ".process"
  | builtin specifier => ".process.getBuiltinModule(" ++ Text.quoted specifier ++ ")"
  | require specifier => "(" ++ Text.quoted specifier ++ ")"

theorem Target.expression_eq (t : Target) : t.expression = t.word ++ t.behindWord := by
  cases t with
  | process => decide
  | builtin specifier =>
    have hcall : "globalThis.process.getBuiltinModule(".toList =
        "globalThis".toList ++ ".process.getBuiltinModule(".toList := by decide
    change "globalThis.process.getBuiltinModule(".toList ++ Text.quoted specifier ++ ")".toList = _
    rw [hcall, List.append_assoc, List.append_assoc]
    rfl
  | require specifier => exact List.append_assoc _ _ _

def Origin.word : Origin → Text
  | target t => t.word
  | name n => n

def Origin.behindWord : Origin → Text
  | target t => t.behindWord
  | name _ => []

theorem Origin.expression_eq (o : Origin) : o.expression = o.word ++ o.behindWord := by
  cases o with
  | target t => exact t.expression_eq
  | name n => exact (List.append_nil n).symm

def Origin.tree : Origin → Tree
  | target t => t.tree
  | name n => .leaf (.identifier n)

def keyTree (imported : Text) : Tree :=
  .leaf (if Text.isName imported then .propertyName imported else .string imported)

/-- A property taken into a name. -/
def patternTree (imported name : Text) : Tree :=
  if imported = name then .leaf (.declared name) else .node .property [keyTree imported, .leaf (.declared name)]

/-- A constant and the value that it is given. -/
def constantTree (target value : Tree) : Tree := .node .declaration [.node .defaulted [target, value]]

def Declaration.tree : Declaration → Tree
  | value name origin => constantTree (.leaf (.declared name)) origin.tree
  | namespaceObject name whole =>
    constantTree (.leaf (.declared name)) (.node .object [.node .spread [.leaf (.identifier whole)],
      .node .property [.leaf (.propertyName "default"), .leaf (.identifier whole)]])
  | pattern named origin =>
    constantTree (.node .pattern (named.map fun (imported, name) => patternTree imported name)) origin.tree

/-- What the declaration goes on with behind `const`. -/
def Declaration.behindConst : Declaration → Text
  | value name origin => " " ++ name ++ " = " ++ origin.expression ++ ";"
  | namespaceObject name whole => " " ++ name ++ " = \x7b ..." ++ whole ++ ", default: " ++ whole ++ " \x7d;"
  | pattern named origin =>
    " \x7b " ++ Text.join ", " (named.map fun (i, l) => patternEntry i l) ++ " \x7d = " ++ origin.expression ++ ";"

theorem Declaration.render_eq (d : Declaration) : d.render = "const".toList ++ d.behindConst := by
  cases d <;> rfl

/-- Variables may have all names in the declaration, and a pattern has a member. -/
def Declaration.IsFree : Declaration → Prop
  | value name origin => Reader.Free name ∧ Reader.Free origin.word
  | namespaceObject name whole => Reader.Free name ∧ Reader.Free whole
  | pattern named origin => named ≠ [] ∧ (∀ entry ∈ named, Reader.Free entry.2) ∧ Reader.Free origin.word

/-- How many names the declaration has at most. -/
def Declaration.width : Declaration → Nat
  | pattern named _ => named.length
  | _ => 0

/-- The statements of a replacement. -/
def Plan.trees : Plan → List Tree
  | remove => []
  | bareRequire specifier => [.node .statement [(Target.require specifier).tree]]
  | bindings shim => shim.declarations.map Declaration.tree

/-- Variables may have all names in a replacement. -/
def Plan.IsFree : Plan → Prop
  | bindings shim => ∀ d ∈ shim.declarations, d.IsFree
  | _ => True

end Trees

namespace Syntax.Reader

open Lexer (Begins)

variable {context : Context} {text rest after last : Text} {depth n : Nat} {result : Tree} {t : Token}

/-! ## Targets -/

theorem free_globalThis : Free "globalThis" := ⟨by decide, by decide, by decide⟩

theorem free_requireName : Free requireName := ⟨by decide, by decide, by decide⟩

/-- A member of an operand, whatever follows it. -/
theorem Suffixed.dot {p : Rules} {name : Text} {o : Tree} (hn : Text.isName name = true)
    (hrest : Lexer.EndsName rest) (h : Suffixed p context n rest (.node (.member name) [o]) result last) :
    Suffixed p context (n + 1) ('.' :: (name ++ rest)) o result last :=
  .member (begins_dot hn rest) (.name hn hrest) h

/-- A call with a quoted argument. -/
theorem Suffixed.quoted {value : Text} {o : Tree} (hl : 1 < context.limit)
    (h : Suffixed (rules (depth + 1)) context n rest (.node .call [o, .leaf (.string value)]) result last) :
    Suffixed (rules (depth + 1)) context (n + 1) ("(".toList ++ (Text.quoted value ++ (")".toList ++ rest))) o result
      last := by
  have hclose := begins_mark (m := ")".toList) (by decide) rest
  have hstring := Begins.quoted value (")".toList ++ rest)
  refine .call (begins_mark (by decide) _) (argumentList_one (begins_mark (by decide) _) hstring rfl rfl ?_ hclose hl) h
  exact assignment_string hstring (by decide) hclose (by simp only; omega)

theorem endsName_dot (rest : Text) : Lexer.EndsName ('.' :: rest) := endsName_cons (by decide) (by decide) rest

theorem endsName_mark {m : Text} (hm : m ∈ plainMarks) (rest : Text) : Lexer.EndsName (m ++ rest) := by
  simp only [plainMarks, List.map_cons, List.map_nil, List.mem_cons, List.not_mem_nil, or_false] at hm
  rcases hm with rfl | rfl | rfl | rfl | rfl | rfl | rfl | rfl <;> exact endsName_cons (by decide) (by decide) rest

/-- An operand that begins with a name, and what follows the name. -/
theorem operand_name {p : Rules} {name m : Text} (hn : Free name) (hy : context.yield = false)
    (h : Begins text (.word name false) rest) (hrest : Begins rest (.mark m) after)
    (hs : Suffixed p context n rest (.leaf (.identifier name)) result last) (hl : n < context.limit) :
    Reads (operand p) context text result last :=
  .bind (memberStart_variable hn hy h hrest) (operandRest_suffixed hs hl)

theorem free_targetWord (t : Target) : Free t.word := by
  cases t
  · exact free_globalThis
  · exact free_globalThis
  · exact free_requireName

/-- A target as an operand, and what follows it. -/
theorem operand_target (t : Target) (hy : context.yield = false)
    (hb : Begins text (.word t.word false) (t.behindWord ++ rest)) (hrest : Lexer.EndsName rest)
    (h : Suffixed (rules (depth + 1)) context n rest t.tree result last) (hl : n + 3 < context.limit) :
    Reads (operand (rules (depth + 1))) context text result last := by
  cases t with
  | process =>
    exact operand_name free_globalThis hy hb (begins_dot (w := "process".toList) (by decide) rest)
      (h.dot (by decide) hrest) (by omega)
  | builtin specifier =>
    have hcall : ".process.getBuiltinModule(".toList =
        '.' :: ("process".toList ++ '.' :: ("getBuiltinModule".toList ++ "(".toList)) := by decide
    have htext : (Target.builtin specifier).behindWord ++ rest = '.' :: ("process".toList ++
        '.' :: ("getBuiltinModule".toList ++ ("(".toList ++ (Text.quoted specifier ++ (")".toList ++ rest))))) := by
      change ".process.getBuiltinModule(".toList ++ Text.quoted specifier ++ ")".toList ++ rest = _
      simp only [hcall, List.append_assoc, List.cons_append]
    rw [htext] at hb
    have hmethod := @Suffixed.dot _ _ _ _ _ _ "getBuiltinModule".toList _ (by decide) (endsName_mark (by decide) _) (h.quoted (by omega))
    exact operand_name free_globalThis hy hb (begins_dot (by decide) _) (hmethod.dot (by decide) (endsName_dot _))
      (by omega)
  | require specifier =>
    have htext : (Target.require specifier).behindWord ++ rest =
        "(".toList ++ (Text.quoted specifier ++ (")".toList ++ rest)) := by
      change "(".toList ++ Text.quoted specifier ++ ")".toList ++ rest = _
      simp only [List.append_assoc]
    rw [htext] at hb
    exact operand_name free_requireName hy hb (begins_mark (by decide) _) (h.quoted (by omega)) (by omega)

theorem begins_semicolon (rest : Text) : Begins (";".toList ++ rest) (.mark ";") rest := begins_mark (by decide) rest

theorem endsName_semicolon (rest : Text) : Lexer.EndsName (";".toList ++ rest) := endsName_mark (by decide) rest

theorem endsName_behindWord (t : Target) (rest : Text) : Lexer.EndsName (t.behindWord ++ rest) := by
  cases t <;> exact endsName_cons (by decide) (by decide) _

theorem begins_origin {o : Origin} (ho : Free o.word) (rest : Text) :
    Begins (o.expression ++ (";".toList ++ rest)) (.word o.word false) (o.behindWord ++ (";".toList ++ rest)) := by
  rw [o.expression_eq, List.append_assoc]
  refine .name ho.isName ?_
  cases o with
  | target t => exact endsName_behindWord t _
  | name n => exact endsName_semicolon rest

/-- An origin in front of a semicolon. -/
theorem assignment_origin {o : Origin} (ho : Free o.word) (hy : context.yield = false) (hl : 3 < context.limit)
    (hb : Begins text (.word o.word false) (o.behindWord ++ (";".toList ++ rest))) :
    Reads (assignment (rules (depth + 1)) true) context text o.tree (";".toList ++ rest) := by
  have hstop := begins_semicolon rest
  cases o with
  | target t =>
    have hplain : ∀ w ∈ ["globalThis".toList, requireName], w ∉ operatorWords := by decide
    have hword : t.word ∈ ["globalThis".toList, requireName] := by cases t <;> simp [Target.word]
    have hoperand := @operand_target context _ _ _ depth _ _ t hy hb (endsName_semicolon rest) (.stop (by decide) hstop) (by omega)
    exact (operandAt_word hb (hplain _ hword)).assignment hoperand (by decide) hstop (by omega)
  | name n => exact assignment_variable ho hy hb (by decide) hstop (by omega)

/-! ## Declarations -/

theorem endsName_space (rest : Text) : Lexer.EndsName (' ' :: rest) := endsName_cons (by decide) (by decide) rest

/-- A member of a pattern, behind a space. -/
theorem patternMember_entry {imported name m : Text} (hn : Free name) (hy : context.yield = false) (hm : m ∈ memberEnds)
    (hends : Lexer.EndsName rest) (hrest : Begins rest (.mark m) after) :
    Reads (patternMember (rules (depth + 1))) context (' ' :: (patternEntry imported name ++ rest))
        (patternTree imported name) rest ∧
      ∃ t first, Begins (' ' :: (patternEntry imported name ++ rest)) t first ∧ t.isMark "\x7d" = false := by
  by_cases he : imported = name
  · have hbegins : Begins (' ' :: (name ++ rest)) (.word name false) rest := (Begins.name hn.isName hends).space
    rw [patternEntry, patternTree, if_pos he, if_pos he]
    exact ⟨patternMember_shorthand hn hy hbegins hm hrest, _, _, hbegins, rfl⟩
  have htext : patternEntry imported name ++ rest =
      Text.propertyKey imported ++ (":".toList ++ (' ' :: (name ++ rest))) := by
    rw [patternEntry, if_neg he]
    simp only [List.append_assoc]
    rfl
  have hcolon := begins_mark (m := ":".toList) (by decide) (' ' :: (name ++ rest))
  have hname : Begins (' ' :: (name ++ rest)) (.word name false) rest := (Begins.name hn.isName hends).space
  have hkey : ∃ t, Begins (' ' :: (Text.propertyKey imported ++ (":".toList ++ (' ' :: (name ++ rest))))) t
      (":".toList ++ (' ' :: (name ++ rest))) ∧ t.isMark "\x7d" = false ∧ t.isMark "..." = false ∧
      Reads (propertyName (rules (depth + 1))) context
        (' ' :: (Text.propertyKey imported ++ (":".toList ++ (' ' :: (name ++ rest))))) (keyTree imported)
        (":".toList ++ (' ' :: (name ++ rest))) := by
    unfold Text.propertyKey keyTree
    split
    · next hi =>
      have hword := (Begins.name hi (endsName_mark (m := ":".toList) (by decide) (' ' :: (name ++ rest)))).space
      exact ⟨_, hword, rfl, rfl, .bind (reads_token hword) (.bind (bump_standing hword) rfl)⟩
    · have hstring := (Begins.quoted imported (":".toList ++ (' ' :: (name ++ rest)))).space
      exact ⟨_, hstring, rfl, rfl, .bind (reads_token hstring) (.bind (bump_standing hstring) rfl)⟩
  obtain ⟨t, hbegins, hclose, hspread, hkey⟩ := hkey
  have hbinding : Reads ((rules (depth + 1)) .binding) context (' ' :: (name ++ rest)) (.leaf (.declared name)) rest :=
    binding_name hn hy hname
  rw [htext, patternTree, if_neg he]
  exact ⟨patternMember_renamed hbegins hspread hkey hcolon hbinding hm hrest, _, _, hbegins, hclose⟩

/-- The members of a pattern, up to its closing brace. -/
theorem patternMembers_listed {named : List (Text × Text)} (hne : named ≠ []) (hn : ∀ entry ∈ named, Free entry.2)
    (hy : context.yield = false) (rest : Text) :
    Listed (patternMember (rules (depth + 1))) context "\x7d".toList
      (' ' :: (Text.join ", " (named.map fun (i, l) => patternEntry i l) ++ (' ' :: ("\x7d".toList ++ rest))))
      (named.map fun (imported, name) => patternTree imported name) rest := by
  induction named with
  | nil => exact absurd rfl hne
  | cons entry named ih =>
    obtain ⟨imported, name⟩ := entry
    have hname : Free name := hn _ List.mem_cons_self
    cases named with
    | nil =>
      have hclose := (begins_mark (m := "\x7d".toList) (by decide) rest).space
      obtain ⟨hread, t, first, hbegins, ht⟩ := @patternMember_entry _ _ _ depth imported _ _ hname hy
        (by decide) (endsName_space _) hclose
      exact .one hbegins ht hread hclose
    | cons next named =>
      have hmore := ih (by simp) fun entry hm => hn entry (List.mem_cons_of_mem _ hm)
      have htext : ∀ tail, Text.join ", " (((imported, name) :: next :: named).map fun (i, l) => patternEntry i l) ++ tail =
          patternEntry imported name ++ (",".toList ++ (' ' :: (Text.join ", "
            ((next :: named).map fun (i, l) => patternEntry i l) ++ tail))) := by
        intro tail
        simp only [List.map_cons, Text.join, List.append_assoc]
        rfl
      rw [htext]
      have hcomma := begins_mark (m := ",".toList) (by decide) (' ' :: (Text.join ", "
        ((next :: named).map fun (i, l) => patternEntry i l) ++ (' ' :: ("\x7d".toList ++ rest))))
      obtain ⟨hread, t, first, hbegins, ht⟩ := @patternMember_entry _ _ _ depth imported _ _ hname hy
        (by decide) (endsName_mark (by decide) _) hcomma
      exact .more hbegins ht hread hcomma hmore

/-- A constant that takes the value of an origin. -/
theorem declarator_origin {o : Origin} {target : Tree} (ho : Free o.word) (hy : context.yield = false)
    (hl : 3 < context.limit)
    (hb : Reads (binding (rules (depth + 1))) context text target
      (' ' :: ("= ".toList ++ (o.expression ++ (";".toList ++ rest))))) :
    Reads (variableStatement (rules (depth + 2)) true) context text (constantTree target o.tree) rest := by
  have hvalue : Reads ((rules (depth + 2)) (.assignment true)) context
      (' ' :: (o.expression ++ (";".toList ++ rest))) o.tree (";".toList ++ rest) :=
    assignment_origin ho hy hl (begins_origin ho rest).space
  exact variableStatement_one (declarator_value hb (begins_equals _).space hvalue true .statement)
    (begins_semicolon rest) (by omega)

/-- `{ ...whole, default: whole }` -/
theorem assignment_namespace {whole m t₁ t₂ t₃ t₄ t₅ t₆ t₇ : Text} (hw : Free whole) (hy : context.yield = false)
    (hl : 2 < context.limit) (hopen : Begins text (.mark "\x7b") t₁) (hspread : Begins t₁ (.mark "...") t₂)
    (hwhole : Begins t₂ (.word whole false) t₃) (hcomma : Begins t₃ (.mark ",") t₄)
    (hdefault : Begins t₄ (.word "default" false) t₅) (hcolon : Begins t₅ (.mark ":") t₆)
    (hvalue : Begins t₆ (.word whole false) t₇) (hclose : Begins t₇ (.mark "\x7d") rest) (hm : m ∈ ends)
    (hrest : Begins rest (.mark m) after) :
    Reads (assignment (rules (depth + 1)) true) context text (.node .object [.node .spread [.leaf (.identifier whole)],
      .node .property [.leaf (.propertyName "default"), .leaf (.identifier whole)]]) rest := by
  refine assignment_object hopen (.bind (expect_standing hopen) ?_) hm hrest (by omega)
  have helements : Reads (elements "\x7d" (objectMember (rules (depth + 1))))
      { context with inOperator := true, decorator := false } t₁ _ rest :=
    elements_two (by decide) hspread rfl
      (objectMember_spread hspread (assignment_variable hw hy hwhole (by decide) hcomma (by simp only; omega)))
      hcomma hdefault rfl
      (objectMember_default hdefault hcolon (assignment_variable hw hy hvalue (by decide) hclose (by simp only; omega)))
      hclose hl
  have hobject : Reads (do return Tree.node .object (← elements "\x7d" (objectMember (rules (depth + 1)))))
      { context with inOperator := true, decorator := false } t₁ _ rest := .bind helements rfl
  exact hobject

/-- A declaration of constants, by whatever blanks it is preceded. -/
theorem item_declaration {d : Declaration} (hd : d.IsFree) (hy : context.yield = false)
    (hl : d.width + 3 < context.limit) (hb : Begins text (.word "const" false) (d.behindConst ++ rest)) :
    Reads ((rules (depth + 3)) .item) context text d.tree rest := by
  suffices h : Reads (variableStatement (rules (depth + 2)) true) context (d.behindConst ++ rest) d.tree rest ∧
      ∃ t first, Begins (d.behindConst ++ rest) t first ∧ t.isWord "enum" = false by
    obtain ⟨hread, t, first, ht, henum⟩ := h
    exact (item_const (at_standing hb _) ht henum).trans hread
  have henum : ∀ {name : Text}, Free name → (Token.word name false).isWord "enum" = false := by
    intro name hn
    rw [Token.isWord_word, beq_eq_false_iff_ne]
    rintro rfl
    exact hn.notReserved (by decide)
  cases d with
  | value name origin =>
    obtain ⟨hn, ho⟩ := hd
    have htext : (Declaration.value name origin).behindConst ++ rest =
        ' ' :: (name ++ (' ' :: ("= ".toList ++ (origin.expression ++ (";".toList ++ rest))))) := by
      change " ".toList ++ name ++ " = ".toList ++ origin.expression ++ ";".toList ++ rest = _
      simp only [List.append_assoc]
      rfl
    rw [htext]
    have hname := (Begins.name hn.isName
      (endsName_space ("= ".toList ++ (origin.expression ++ (";".toList ++ rest))))).space
    exact ⟨declarator_origin ho hy (by omega) (binding_name hn hy hname), _, _, hname, henum hn⟩
  | namespaceObject name whole =>
    obtain ⟨hn, hw⟩ := hd
    have htext : (Declaration.namespaceObject name whole).behindConst ++ rest =
        ' ' :: (name ++ (' ' :: ("= ".toList ++ ("\x7b".toList ++ (' ' :: ("...".toList ++ (whole ++ (",".toList ++
          (' ' :: ("default".toList ++ (":".toList ++ (' ' :: (whole ++ (' ' :: ("\x7d".toList ++
            (";".toList ++ rest)))))))))))))))) := by
      change " ".toList ++ name ++ " = \x7b ...".toList ++ whole ++ ", default: ".toList ++ whole ++ " \x7d;".toList ++
        rest = _
      simp only [List.append_assoc]
      rfl
    rw [htext]
    have hname := fun tail => (Begins.name hn.isName (endsName_space tail)).space
    have hvalue := @assignment_namespace _ _ _ _ depth _ _ _ _ _ _ _ _ _ hw hy (by omega) (begins_mark (by decide) _).space
      (begins_mark (by decide) _).space (.name hw.isName (endsName_mark (by decide) _)) (begins_mark (by decide) _)
      (Begins.name (w := "default".toList) (by decide) (endsName_mark (by decide) _)).space (begins_mark (by decide) _)
      (Begins.name hw.isName (endsName_space _)).space (begins_mark (by decide) _).space (by decide)
      (begins_semicolon rest)
    exact ⟨variableStatement_one (declarator_value (binding_name hn hy (hname _)) (begins_equals _).space hvalue true
      .statement) (begins_semicolon rest) (by omega), _, _, hname _, henum hn⟩
  | pattern named origin =>
    obtain ⟨hne, hn, ho⟩ := hd
    have htext : (Declaration.pattern named origin).behindConst ++ rest = ' ' :: ("\x7b".toList ++
        (' ' :: (Text.join ", " (named.map fun (i, l) => patternEntry i l) ++ (' ' :: ("\x7d".toList ++
          (' ' :: ("= ".toList ++ (origin.expression ++ (";".toList ++ rest))))))))) := by
      change " \x7b ".toList ++ Text.join ", " _ ++ " \x7d = ".toList ++ origin.expression ++ ";".toList ++ rest = _
      simp only [List.append_assoc]
      rfl
    rw [htext]
    have hopen := fun tail => (begins_mark (m := "\x7b".toList) (by decide) tail).space
    have hmembers := @patternMembers_listed { context with inOperator := true } depth _ hne hn hy
      (' ' :: ("= ".toList ++ (origin.expression ++ (";".toList ++ rest))))
    have hpattern := binding_pattern (hopen _) hmembers (by
      rw [List.length_map]
      change named.length + 3 < _ at hl
      omega)
    exact ⟨declarator_origin ho hy (by omega) hpattern, _, _, hopen _, rfl⟩

/-! ## Calls of the function -/

/-- A call of the function by itself. -/
theorem item_bareRequire (specifier : Text) (hy : context.yield = false) (hl : 3 < context.limit)
    (hb : Begins text (.word requireName false) ((Target.require specifier).behindWord ++ (";".toList ++ rest))) :
    Reads ((rules (depth + 4)) .item) context text (.node .statement [(Target.require specifier).tree]) rest := by
  have hwords : ∀ w ∈ declarationWords ++ statementWords, (Token.word requireName false).isWord w = false := by decide
  have hitem : item (rules (depth + 3)) context (standing context.dialect text) =
      expressionStatement (rules (depth + 3)) context (standing context.dialect text) :=
    item_expression (fun w hw => by rw [token_standing hb, hwords w hw]) (fun m _ => by rw [token_standing hb]; rfl)
  refine hitem.trans (expressionStatement_one (expression_one ?_ (by decide) (begins_semicolon rest)) nofun
    (begins_semicolon rest))
  exact assignment_origin (o := .target (.require specifier)) free_requireName hy hl hb

/-! ## Statements -/

/-- Statements are read from a text one behind the other, up to what is left of it. -/
inductive ReadsAll (p : Rules) (context : Context) : Text → List Tree → Text → Prop
  | none {text : Text} : ReadsAll p context text [] text
  | more {text rest last : Text} {tree : Tree} {trees : List Tree}
      (ht : (standing context.dialect text).lexeme.token ≠ .eof) (h : Reads (p .item) context text tree rest)
      (hmore : ReadsAll p context rest trees last) : ReadsAll p context text (tree :: trees) last

namespace ReadsAll

variable {p : Rules}

theorem cons {first : Text} {tree : Tree} {trees : List Tree} (hb : Begins text t first) (ht : t ≠ .eof)
    (h : Reads (p .item) context text tree rest) (hmore : ReadsAll p context rest trees last) :
    ReadsAll p context text (tree :: trees) last :=
  .more (by rwa [token_standing hb]) h hmore

theorem append {a b : List Tree} (ha : ReadsAll p context text a rest) (hb : ReadsAll p context rest b last) :
    ReadsAll p context text (a ++ b) last := by
  induction ha with
  | none => exact hb
  | more ht h _ ih => exact .more ht h (ih hb)

/-- Statements up to the end of a source are a run over it. -/
theorem run {trees : List Tree} (h : ReadsAll p context text trees rest)
    (he : (standing context.dialect rest).lexeme.token = .eof) :
    ∃ items, items.map Item.tree = trees ∧
      ItemRun p context (standing context.dialect text) items (standing context.dialect rest) := by
  induction h with
  | none => exact ⟨[], rfl, .stop he⟩
  | more ht h _ ih =>
    obtain ⟨items, rfl, hrun⟩ := ih he
    exact ⟨_, by rw [List.map_cons], .item ht h hrun⟩

/-- A run over a text that begins with statements takes them first. -/
theorem run_inv {trees : List Tree} (h : ReadsAll p context text trees rest) {items : List Item} {final : Cursor}
    (hrun : ItemRun p context (standing context.dialect text) items final) :
    ∃ taken more, items = taken ++ more ∧ taken.map Item.tree = trees := by
  induction h generalizing items with
  | none => exact ⟨[], items, rfl, rfl⟩
  | more ht h _ ih =>
    cases hrun with
    | stop he => exact absurd he ht
    | item _ hitem hrun =>
      obtain ⟨rfl, rfl⟩ := Prod.mk.inj (Option.some.inj (hitem.symm.trans h))
      obtain ⟨taken, more, rfl, rfl⟩ := ih hrun
      exact ⟨_ :: taken, more, rfl, rfl⟩

end ReadsAll

theorem begins_declaration (d : Declaration) (rest : Text) :
    Begins (d.render ++ rest) (.word "const" false) (d.behindConst ++ rest) := by
  rw [d.render_eq, List.append_assoc]
  refine .name (by decide) ?_
  cases d <;> exact endsName_space _

/-- A declaration behind what is skipped. -/
theorem reads_declaration {d : Declaration} (hd : d.IsFree) (hl : d.width + 3 < context.limit)
    (hy : context.yield = false) {gap : Text} (hg : Lexer.Skipped gap) (rest : Text) :
    Reads ((rules (depth + 4)) .item) context (gap ++ (d.render ++ rest)) d.tree rest :=
  @item_declaration _ _ _ (depth + 1) _ hd hy hl ((begins_declaration d rest).skip hg)

theorem skipped_line : Lexer.Skipped ['\n'] := fun _ _ _ _ => ⟨true, true, rfl⟩

theorem join_declarations (d next : Declaration) (declarations : List Declaration) (rest : Text) :
    Text.join "\n" ((d :: next :: declarations).map Declaration.render) ++ rest =
      d.render ++ (['\n'] ++ (Text.join "\n" ((next :: declarations).map Declaration.render) ++ rest)) := by
  simp only [List.map_cons, Text.join, List.append_assoc]
  rfl

/-- Declarations with line feeds between them. -/
theorem readsAll_declarations {declarations : List Declaration} (hd : ∀ d ∈ declarations, d.IsFree)
    (hl : ∀ d ∈ declarations, d.width + 3 < context.limit) (hy : context.yield = false) {gap : Text}
    (hg : Lexer.Skipped gap) (hne : declarations ≠ []) (rest : Text) :
    ReadsAll (rules (depth + 4)) context (gap ++ (Text.join "\n" (declarations.map Declaration.render) ++ rest))
      (declarations.map Declaration.tree) rest := by
  induction declarations generalizing gap with
  | nil => exact absurd rfl hne
  | cons d declarations ih =>
    have hfirst : ∀ tail, ReadsAll (rules (depth + 4)) context (gap ++ (d.render ++ tail)) [d.tree] tail := fun tail =>
      .cons ((begins_declaration d tail).skip hg) nofun
        (reads_declaration (hd d List.mem_cons_self) (hl d List.mem_cons_self) hy hg tail) .none
    cases declarations with
    | nil => exact hfirst rest
    | cons next declarations =>
      have hmore := ih (fun d hm => hd d (List.mem_cons_of_mem _ hm)) (fun d hm => hl d (List.mem_cons_of_mem _ hm))
        skipped_line (by simp)
      rw [join_declarations]
      exact (hfirst _).append hmore

theorem width_le (d : Declaration) : d.width + 2 ≤ d.render.length := by
  cases d with
  | value name origin =>
    rw [Declaration.render_eq, List.length_append]
    exact Nat.le_add_right_of_le (show 0 + 2 ≤ "const".toList.length by decide)
  | namespaceObject name whole =>
    rw [Declaration.render_eq, List.length_append]
    exact Nat.le_add_right_of_le (show 0 + 2 ≤ "const".toList.length by decide)
  | pattern named origin =>
    have hjoin := @Text.length_le_join ", ".toList (by decide) (named.map fun (i, l) => patternEntry i l)
    rw [List.length_map] at hjoin
    change named.length + 2 ≤ ("const \x7b ".toList ++ Text.join ", ".toList (named.map fun (i, l) => patternEntry i l) ++
      " \x7d = ".toList ++ origin.expression ++ ";".toList).length
    have hopen : 3 ≤ "const \x7b ".toList.length := by decide
    rw [List.length_append, List.length_append, List.length_append, List.length_append]
    omega

theorem width_lt {declarations : List Declaration} {limit : Nat}
    (hl : (Text.join "\n" (declarations.map Declaration.render)).length + 2 ≤ limit) :
    ∀ d ∈ declarations, d.width + 3 < limit := by
  intro d hd
  have hpart := @Text.length_part_le_join "\n".toList _ _ (List.mem_map_of_mem (f := Declaration.render) hd)
  have hw := width_le d
  omega

/-- A replacement is read as its statements, whatever stands behind it. -/
theorem readsAll_plan {plan : Plan} (hp : plan.IsFree) (hl : plan.text.length + 2 ≤ context.limit)
    (hy : context.yield = false) {gap : Text} (hg : Lexer.Skipped gap) (rest : Text) :
    ∃ taken left, gap ++ plan.text = taken ++ left ∧ Lexer.Skipped left ∧
      ReadsAll (rules (depth + 4)) context (gap ++ (plan.text ++ rest)) plan.trees (left ++ rest) := by
  cases plan with
  | remove => exact ⟨[], gap, List.append_nil gap, hg, .none⟩
  | bareRequire specifier =>
    have htext : (Plan.bareRequire specifier).text ++ rest =
        requireName ++ ((Target.require specifier).behindWord ++ (";".toList ++ rest)) := by
      change (Target.require specifier).expression ++ ";".toList ++ rest = _
      rw [Target.expression_eq]
      simp only [List.append_assoc]
      rfl
    have hlong : 3 < context.limit := by
      change (requireName ++ "(".toList ++ Text.quoted specifier ++ ")".toList ++ ";".toList).length + 2 ≤ _ at hl
      have hname : 3 < requireName.length := by decide
      simp only [List.length_append] at hl
      omega
    have hbegins := (Begins.name free_requireName.isName (endsName_behindWord (.require specifier)
      (";".toList ++ rest))).skip hg
    rw [htext]
    exact ⟨_, [], (List.append_nil _).symm, Lexer.skipped_nil,
      .cons hbegins nofun (item_bareRequire specifier hy hlong hbegins) .none⟩
  | bindings shim =>
    by_cases hne : shim.declarations = []
    · have htext : (Plan.bindings shim).text = [] := by
        change Text.join "\n" (shim.declarations.map Declaration.render) = []
        rw [hne]
        rfl
      rw [htext, Plan.trees, hne]
      exact ⟨[], gap, List.append_nil gap, hg, .none⟩
    · exact ⟨_, [], (List.append_nil _).symm, Lexer.skipped_nil, readsAll_declarations hp (width_lt hl) hy hg hne rest⟩

end Syntax.Reader
end CjsInterop
