import CjsInterop.Proofs.ImportSpelling
import CjsInterop.Proofs.RewrittenProgram

/-! No name of a value is lost when an import is replaced: the new text declares the names that the text of the import
introduces by its grammar, except for a default binding called `source`. -/

namespace CjsInterop

namespace Syntax

/-- What the statements at the top of a program declare. -/
def Program.topNames (program : Program) : List Text := program.items.flatMap fun item => item.tree.topNames

namespace Reader

/-! ## Imports of a module -/

/-- Every import declaration among the items was read at a place of the source. -/
theorem ItemRun.importAt {depth : Nat} {context : Context} {cursor final : Cursor} {items : List Item} {source : Text}
    (h : ItemRun (rules (depth + 1)) context cursor items final) (hc : Fresh context cursor)
    (hb : cursor.behind <:+ source) : ∀ i ∈ items, ∀ decl, i.tree.form = .importDeclaration decl →
      ∃ first after, Fresh context first ∧ first.behind <:+ source ∧
        importDeclaration context first = some (i.tree, after) := by
  induction h with
  | stop => exact nofun
  | item ht hitem hrun ih =>
    obtain ⟨-, hon, ha⟩ := Steady.leads (x := rules (depth + 1) .item) _ _ _ _ hc.ordered hc hitem
    intro i hi decl hf
    rcases List.mem_cons.1 hi with rfl | hi
    · exact ⟨_, _, hc, hb, item_importDeclaration hc.ordered hitem hf⟩
    · exact ih ha ((hon.behind hc.ordered).trans hb) i hi decl hf

end Reader

open Reader

/-- In a module, an import of values is spelled as the grammar has it, and has the names that the grammar gives it,
unless it is that of a source that is not named. -/
theorem Program.imports_names {dialect : Dialect} {source : Text} {program : Program} (hs : dialect.script = false)
    (h : ofSource? dialect source = some program) {stmt : ImportStatement} (hm : stmt ∈ program.imports)
    (htype : stmt.isType = false) :
    ∃ front text, source = front ++ text ∧ stmt.span.start = Text.byteLength front ∧
      (∃ tokens names, Imports text tokens ∧ ImportPrefix dialect.typescript tokens names) ∧
      ∀ tokens names, Imports text tokens → ImportPrefix dialect.typescript tokens names →
        if tokens = unnamedSource then stmt.bindings = [] else stmt.valueNames = names := by
  obtain ⟨depth, final, hrun, -⟩ := exists_run h
  obtain ⟨item, hitem, hform⟩ := exists_item hm
  obtain ⟨first, after, hfresh, hbehind, hread⟩ := hrun.importAt (firstCursor_fresh _ _) (withoutHashbang_suffix source)
    item hitem stmt hform
  have hword := importDeclaration_begins hread
  have hbefore := hfresh.before hs (by rw [hword]; exact nofun) (by rw [hword]; exact nofun)
  obtain ⟨front, hfront⟩ := hfresh.ordered.here.trans hbehind
  refine ⟨front, first.lexeme.here, hfront.symm, ?_, ?_, fun tokens names ht hn => ?_⟩
  · rw [importDeclaration_span hread stmt hform]
    change Text.byteLength source - Text.byteLength first.lexeme.here = _
    rw [← hfront, Text.byteLength_append]
    omega
  · exact (importDeclaration_spelled hbefore hread hform).resolve_left (by rw [htype]; exact Bool.false_ne_true)
  · exact (importDeclaration_names hbefore hread hform ht hn).2

/-- A source that is not named is a default binding by its grammar. -/
theorem ImportPrefix.unnamedSource {typescript : Bool} {tokens : List Token} {names : List Text}
    (h : ImportPrefix typescript tokens names) (he : tokens = unnamedSource) : names = ["source".toList] := by
  cases h with
  | @clause tokens _ h =>
    obtain rfl : tokens = [.word "source" false] := List.append_inj_left' he rfl
    cases h with
    | defaultAs h => exact congrArg ([·]) (Option.some.inj (h.symm.trans (by decide)))
  | source => simp [Syntax.unnamedSource] at he
  | _ => cases he

end Syntax

open Syntax Reader

/-! ## Names of a replacement -/

theorem declaredNamesOf_patterns (named : List (Text × Text)) :
    Tree.declaredNamesOf (named.map fun (imported, name) => patternTree imported name) = named.map Prod.snd := by
  induction named with
  | nil => rfl
  | cons entry named ih =>
    obtain ⟨imported, name⟩ := entry
    have hfirst : (patternTree imported name).declaredNames = [name] := by
      unfold patternTree
      split <;> rfl
    rw [List.map_cons, Tree.declaredNamesOf, hfirst, ih]
    rfl

theorem Declaration.topNames_tree (d : Declaration) : d.tree.topNames = d.names := by
  cases d with
  | value name origin => rfl
  | namespaceObject name whole => rfl
  | pattern named origin =>
    change Tree.declaredNamesOf _ ++ [] = named.map Prod.snd
    rw [List.append_nil, declaredNamesOf_patterns]

theorem Syntax.Program.topNames_eq (program : Program) :
    program.topNames = (program.items.map Item.tree).flatMap Tree.topNames := by
  rw [List.flatMap_map]
  rfl

theorem Plan.topNames_trees (plan : Plan) : plan.trees.flatMap Tree.topNames = plan.names := by
  cases plan with
  | remove => rfl
  | bareRequire specifier => rfl
  | bindings shim =>
    change (shim.declarations.map Declaration.tree).flatMap Tree.topNames = shim.declarations.flatMap Declaration.names
    rw [List.flatMap_map]
    exact congrArg (List.flatMap · shim.declarations) (funext Declaration.topNames_tree)

/-- A replacement is a program by itself. -/
theorem Plan.ofSource?_text {dialect : Dialect} (hs : dialect.script = false) {plan : Plan} (hp : plan.IsFree) :
    ∃ replaced left, Program.ofSource? dialect plan.text = some replaced ∧ replaced.items.map Item.tree = plan.trees ∧
      ItemRun (rules (depthBound plan.text)) (Program.topContext dialect plan.text) (standing dialect plan.text)
        replaced.items (standing dialect left) := by
  obtain ⟨depth, hdepth⟩ := exists_depthBound (n := 4) (by decide) plan.text
  obtain ⟨taken, left, -, hleft, hall⟩ := @readsAll_plan (Program.topContext dialect plan.text) depth plan hp le_rfl rfl _
    Lexer.skipped_nil []
  rw [List.nil_append, List.append_nil, List.append_nil, ← hdepth] at hall
  have heof : (standing dialect left).lexeme.token = .eof := by
    have hskip := (Lexer.next_skip hleft false false []).1
    rw [List.append_nil] at hskip
    change (Lexer.next dialect.script false left).token = _
    rw [hs, hskip]
    rfl
  obtain ⟨replaced, hread, htrees, hrun⟩ := hall.program hs heof fun program hprogram => by
    obtain ⟨hexported, hshorthand⟩ := exportedBy_plain plan.isPlain_trees
    rw [← hprogram] at hexported hshorthand
    unfold exportedBy at hexported
    rw [List.flatMap_map] at hexported hshorthand
    exact isSound_eq_true.2 ⟨hshorthand, .inr (by rw [show program.forms.flatMap Form.exported = [] from hexported]; exact .nil)⟩
  exact ⟨replaced, left, hread, htrees, hrun⟩

/-! ## Names of an import and of its replacement -/

theorem ImportStatement.isSideEffectOnly_iff (stmt : ImportStatement) :
    stmt.isSideEffectOnly = true ↔ stmt.valueNames = [] := by
  constructor
  · exact fun h => List.sublist_nil.1 (sortedNames_of_types h ▸ stmt.valueNames_sublist)
  · intro h
    obtain ⟨hfront, hnamed⟩ := List.append_eq_nil_iff.1 h
    obtain ⟨hdefault, hnamespace⟩ := List.append_eq_nil_iff.1 hfront
    rw [Option.toList_eq_nil_iff] at hdefault hnamespace
    refine List.all_eq_true.2 fun b hb => ?_
    cases b with
    | namespaceAs name => exact absurd (List.findSome?_eq_none_iff.1 hnamespace _ hb) nofun
    | defaultAs name => exact absurd (List.findSome?_eq_none_iff.1 hdefault _ hb) nofun
    | named imported name isType =>
      cases isType with
      | true => rfl
      | false => exact absurd (List.filterMap_eq_nil_iff.1 (List.map_eq_nil_iff.1 hnamed) _ hb) nofun

/-- The plans that bind nothing. -/
def Plan.BindsNothing : Plan → Prop
  | bindings _ => False
  | _ => True

theorem Plan.BindsNothing.names {plan : Plan} (h : plan.BindsNothing) : plan.names = [] := by
  cases plan with
  | bindings shim => cases h
  | _ => rfl

theorem ImportStatement.plan_bindsNothing_iff (stmt : ImportStatement) :
    stmt.plan.BindsNothing ↔ stmt.valueNames = [] := by
  rw [← isSideEffectOnly_iff, plan]
  split
  · next h => split <;> exact iff_of_true trivial h
  · next h => exact iff_of_false id h

/-- All the names are declared, and beside them no more than names that are made up for namespaces among them. -/
def DeclaresAll (declared names : List Text) : Prop :=
  ∃ made, declared.Perm (made ++ names) ∧ ∀ name ∈ made, ∃ namespaceName ∈ names, name = Shim.madeUpDefault namespaceName

theorem ImportStatement.plan_declaresAll (stmt : ImportStatement) : DeclaresAll stmt.plan.names stmt.valueNames := by
  refine ⟨_, stmt.plan_names, fun name hname => ?_⟩
  obtain ⟨ns, hns, rfl⟩ := Option.map_eq_some_iff.1 (Option.mem_toList.1 hname)
  exact ⟨ns, stmt.loneNamespace?_sublist.subset (Option.mem_toList.2 hns), rfl⟩

/-- Every import that is rewritten is spelled as the grammar of imports has it, and its replacement is a program that
declares the names that its text introduces for values, unless the text is `import source from` and a string: then the
name is lost. An import is removed or becomes a bare call if and only if it introduces no name, or that one. -/
theorem plannedEdits_keep_names {fileName source : Text} {program : Program}
    (h : Program.ofSource? (.ofFileName fileName) source = some program) (a : Answers) (rewriteBuiltins : Bool)
    (asked : List Text) {span : Span} {plan : Plan}
    (he : (span, plan) ∈ ((plannedEdits a.judges rewriteBuiltins program.imports).run asked).1) :
    ∃ front text replaced, source = front ++ text ∧ span.start = Text.byteLength front ∧
      Program.ofSource? (.ofFileName fileName) plan.text = some replaced ∧
      (∃ tokens names, Imports text tokens ∧ ImportPrefix (Dialect.ofFileName fileName).typescript tokens names) ∧
      ∀ tokens names, Imports text tokens → ImportPrefix (Dialect.ofFileName fileName).typescript tokens names →
        (DeclaresAll replaced.topNames names ↔ tokens ≠ unnamedSource) ∧
          (plan.BindsNothing ↔ names = [] ∨ tokens = unnamedSource) := by
  have hs := ofFileName_script fileName
  rw [Answers.plannedEdits_run] at he
  obtain ⟨stmt, hstmt, heq⟩ := List.mem_map.1 he
  obtain ⟨rfl, rfl⟩ := Prod.mk.inj heq
  have hrewrites : a.Rewrites rewriteBuiltins stmt := by simpa using (List.mem_filter.1 hstmt).2
  have himport := List.mem_of_mem_filter hstmt
  obtain ⟨front, text, hsource, hstart, hspelled, hnames⟩ := Program.imports_names hs h himport hrewrites.1
  obtain ⟨replaced, -, hreplaced, htrees, -⟩ :=
    Plan.ofSource?_text hs (ImportStatement.plan_isFree (Program.imports_free hs h stmt himport))
  have htop : replaced.topNames = stmt.plan.names := by
    rw [replaced.topNames_eq, htrees, stmt.plan.topNames_trees]
  refine ⟨front, text, replaced, hsource, hstart, hreplaced, hspelled, fun tokens names ht hn => ?_⟩
  have hvalues := hnames tokens names ht hn
  rw [htop, stmt.plan_bindsNothing_iff]
  by_cases hlost : tokens = unnamedSource
  · rw [if_pos hlost] at hvalues
    obtain rfl := hn.unnamedSource hlost
    have hnone : stmt.valueNames = [] := by
      simp only [ImportStatement.valueNames, ImportStatement.defaultName?, ImportStatement.namespaceName?,
        ImportStatement.named, hvalues]
      rfl
    refine ⟨iff_of_false ?_ (not_not_intro hlost), iff_of_true hnone (.inr hlost)⟩
    rintro ⟨made, hperm, -⟩
    rw [(stmt.plan_bindsNothing_iff.2 hnone).names] at hperm
    simpa using hperm.length_eq
  · rw [if_neg hlost] at hvalues
    subst hvalues
    exact ⟨iff_of_true stmt.plan_declaresAll hlost, (or_iff_left hlost).symm⟩

/-- Contextual keywords as names, one of them for a type. -/
def contextualChunk : Text := "import source, { type as as, type T, defer } from 'x'"

def contextualTokens : List Token :=
  [.word "source" false, .mark ",", .mark "\x7b", .word "type" false, .word "as" false, .word "as" false, .mark ",",
    .word "type" false, .word "T" false, .mark ",", .word "defer" false, .mark "\x7d", .word "from" false]

theorem imports_contextualChunk : Imports contextualChunk contextualTokens := by
  have h := Spells.spelling 15 contextualChunk
  rw [show (spelling 15 contextualChunk).1 = .word "import" false :: contextualTokens ++ [.string "x" true] by
    decide +kernel] at h
  exact ⟨_, _, _, h⟩

theorem importPrefix_contextualTokens {typescript : Bool} (hts : typescript) :
    ImportPrefix typescript contextualTokens ["source".toList, "as".toList, "defer".toList] :=
  have himported : Reader.isNameToken (.word "type" false) := rfl
  have hclause : ImportClause typescript contextualTokens.dropLast ["source".toList, "as".toList, "defer".toList] :=
    .defaultAndNamed (by decide) (.more (.renamed himported (by decide))
      (.more (.type hts (by decide)) (.last (.plain (by decide)))))
  .clause hclause

theorem plannedEdits_keep_names_contextualChunk : ∃ program span plan replaced,
    Program.ofSource? (.ofFileName "a.ts") contextualChunk = some program ∧
      (span, plan) ∈ ((plannedEdits (Answers.undecided fun _ => true).judges false program.imports).run []).1 ∧
      Program.ofSource? (.ofFileName "a.ts") plan.text = some replaced ∧
      DeclaresAll replaced.topNames ["source".toList, "as".toList, "defer".toList] ∧ ¬plan.BindsNothing := by
  have hread : (Program.ofSource? (.ofFileName "a.ts") contextualChunk).map Program.imports =
      some [⟨⟨0, 53⟩, "x", false, [.defaultAs "source", .named "type" "as" false, .named "T" "T" true,
        .named "defer" "defer" false]⟩] := by decide +kernel
  obtain ⟨program, hp, himports⟩ := Option.map_eq_some_iff.1 hread
  have hplan : (⟨0, 53⟩, .bindings ⟨.require "x", some "source", none, [("type", "as"), ("defer", "defer")]⟩) ∈
      ((plannedEdits (Answers.undecided fun _ => true).judges false program.imports).run []).1 := by
    rw [himports]
    decide +kernel
  have hts : (Dialect.ofFileName "a.ts").typescript = true := by decide +kernel
  obtain ⟨front, text, replaced, hsource, hstart, hreplaced, -, hnames⟩ :=
    plannedEdits_keep_names hp (Answers.undecided fun _ => true) false [] hplan
  obtain ⟨rfl, rfl⟩ := Text.append_inj (a := []) hsource hstart
  obtain ⟨hdeclares, -⟩ := hnames _ _ imports_contextualChunk (importPrefix_contextualTokens hts)
  exact ⟨program, _, _, replaced, hp, hplan, hreplaced, hdeclares.2 (by decide), id⟩

/-- An import of a default binding called `source`. -/
def sourceChunk : Text := "import source from 'x';\n"

theorem plannedEdits_lose_source : ∃ program replaced,
    Program.ofSource? (.ofFileName "a.js") sourceChunk = some program ∧
      Imports sourceChunk unnamedSource ∧
      ImportPrefix (Dialect.ofFileName "a.js").typescript unnamedSource ["source".toList] ∧
      ((plannedEdits (Answers.undecided fun _ => true).judges false program.imports).run []).1 =
        [(⟨0, 23⟩, .bareRequire "x")] ∧
      Program.ofSource? (.ofFileName "a.js") (Plan.bareRequire "x").text = some replaced ∧ replaced.topNames = [] := by
  have hread : (Program.ofSource? (.ofFileName "a.js") sourceChunk).map Program.imports =
      some [⟨⟨0, 23⟩, "x", false, []⟩] := by decide +kernel
  have hreread : (Program.ofSource? (.ofFileName "a.js") (Plan.bareRequire "x").text).map Program.topNames = some [] := by
    decide +kernel
  obtain ⟨program, hp, himports⟩ := Option.map_eq_some_iff.1 hread
  obtain ⟨replaced, hreplaced, hnames⟩ := Option.map_eq_some_iff.1 hreread
  have hspelled := Spells.spelling 4 sourceChunk
  rw [show (spelling 4 sourceChunk).1 = .word "import" false :: unnamedSource ++ [.string "x" true] by decide +kernel]
    at hspelled
  refine ⟨program, replaced, hp, ⟨_, _, _, hspelled⟩, ?_, ?_, hreplaced, hnames⟩
  · have hname : (Token.word "source" false).asVariable? = some "source".toList := by decide
    exact .clause (.defaultAs hname)
  · rw [himports]
    decide +kernel

end CjsInterop
