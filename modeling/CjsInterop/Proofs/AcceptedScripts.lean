import CjsInterop.Proofs.ReadBack

/-! Which texts pass for CommonJS: scripts with no import or export at their top, and with no `import.meta` at any
depth. A declaration inside another statement is not looked for, though a script may not hold one either. -/

namespace CjsInterop

namespace Syntax

/-- The tree itself, or one that stands in it at any depth. -/
inductive Tree.Inside (t : Tree) : Tree → Prop
  | self : Inside t t
  | part {form : Form} {parts : List Tree} {part : Tree} (hp : part ∈ parts) (h : Inside t part) :
      Inside t (.node form parts)

mutual

theorem Tree.mem_subtrees {s : Tree} (t : Tree) : s ∈ t.subtrees ↔ s.Inside t := by
  obtain ⟨f, ps⟩ := t
  rw [subtrees, List.mem_cons, mem_subtreesOf ps]
  constructor
  · rintro (rfl | ⟨p, hp, h⟩)
    · exact .self
    · exact .part hp h
  · rintro (_ | ⟨hp, h⟩)
    · exact .inl rfl
    · exact .inr ⟨_, hp, h⟩

theorem Tree.mem_subtreesOf {s : Tree} (ps : List Tree) : s ∈ subtreesOf ps ↔ ∃ p ∈ ps, s.Inside p := by
  cases ps with
  | nil => simp [subtreesOf]
  | cons p ps => simp [subtreesOf, mem_subtrees p, mem_subtreesOf ps]

end

def Program.Holds (program : Program) (t : Tree) : Prop := ∃ item ∈ program.items, t.Inside item.tree

theorem Program.holds_item {program : Program} {item : Item} (h : item ∈ program.items) : program.Holds item.tree :=
  ⟨item, h, .self⟩

theorem Program.mem_forms_iff {program : Program} {f : Form} :
    f ∈ program.forms ↔ ∃ t, program.Holds t ∧ t.form = f := by
  simp only [forms, ← Tree.forms_subtrees, List.mem_flatMap, List.mem_map, Tree.mem_subtrees, Holds]
  constructor
  · rintro ⟨item, hitem, t, ht, hf⟩
    exact ⟨t, ⟨item, hitem, ht⟩, hf⟩
  · rintro ⟨t, ⟨item, hitem, ht⟩, hf⟩
    exact ⟨item, hitem, t, ht, hf⟩

/-- Imports and exports, which only modules declare. -/
def Form.isModuleDeclaration : Form → Bool
  | .importDeclaration _ => true
  | .exportDeclaration _ => true
  | _ => false

/-- Nothing that only a module may hold stands anywhere in the program. -/
def Program.IsPlainScript (program : Program) : Prop :=
  ∀ t, program.Holds t → ¬t.form.isModuleDeclaration ∧ t.form ≠ .importMeta

theorem Program.isPlainScript_iff {program : Program} :
    program.IsPlainScript ↔ ∀ f ∈ program.forms, ¬f.isModuleDeclaration ∧ f ≠ .importMeta := by
  simp only [IsPlainScript, mem_forms_iff]
  constructor
  · rintro h f ⟨t, ht, rfl⟩
    exact h t ht
  · exact fun h t ht => h t.form ⟨t, ht, rfl⟩

/-- All that only a module may hold are declarations inside other statements. -/
structure Program.HidesDeclaration (program : Program) : Prop where
  top : ∀ item ∈ program.items, ¬item.tree.form.isModuleDeclaration
  inside : ∃ t, program.Holds t ∧ t.form.isModuleDeclaration
  noMeta : ∀ t, program.Holds t → t.form ≠ .importMeta

namespace Reader

variable {p : Rules} {context : Context} {cursor after : Cursor}

/-- The cursor behind the current token. -/
def bumped (context : Context) (cursor : Cursor) : Cursor :=
  { cursor with
    behind := cursor.lexeme.rest
    lexeme := Lexer.next context.dialect.script false cursor.lexeme.rest }

theorem bump_apply : bump context cursor = some ((), bumped context cursor) := rfl

theorem expectWord_inv {w : Text} {u : Unit} {middle : Cursor} (h : expectWord w context cursor = some (u, middle)) :
    middle = bumped context cursor := by
  by_cases hw : cursor.lexeme.token.isWord w
  · simp only [expectWord, eatWord, bind_apply, isAtWord_apply, Option.bind_some, hw, ite_run, if_true, bump_apply,
      pure_apply, Bool.not_true, refuseIf_false, Option.some.injEq, Prod.mk.injEq, true_and] at h
    exact h.symm
  · simp [expectWord, eatWord, hw, refuseIf] at h

theorem eat_not {m : Text} (h : cursor.lexeme.token.isMark m = false) :
    eat m context cursor = some (false, cursor) := by
  simp [eat, h]

/-- In front of a parenthesis `import` begins no declaration. -/
theorem isImportDeclaration_call (hc : (bumped context cursor).lexeme.token.isMark "(" = true) :
    isImportDeclaration context cursor = some (false, cursor) := by
  have hmarks : (bumped context cursor).lexeme.token.isOneOfMarks ["(", "."] = true := by
    rw [eq_of_isMark hc]
    rfl
  have hnext : nextIs (fun t _ => !t.isOneOfMarks ["(", "."]) context cursor = some (false, cursor) := by
    simp [nextIs, looksLike, bump_apply, hmarks]
  simp [isImportDeclaration, hnext]

/-- A call of `import` is no module syntax of its own, only what it is called with can be. -/
theorem importExpression_call {tree : Tree} (hc : (bumped context cursor).lexeme.token.isMark "(" = true)
    (h : importExpression p context cursor = some (tree, after)) : ∃ args, tree = .other args := by
  obtain ⟨_, middle, hword, h⟩ := bind_inv h
  obtain rfl := expectWord_inv hword
  have hdot : eat "." context (bumped context cursor) = some (false, bumped context cursor) :=
    eat_not (by rw [eq_of_isMark hc]; rfl)
  simp only [bind_apply, hdot, Option.bind_some] at h
  obtain ⟨-, _, -, h⟩ := bind_inv h
  rw [within_apply] at h
  obtain ⟨_, _, -, h⟩ := bind_inv h
  obtain ⟨-, _, -, h⟩ := bind_inv h
  obtain ⟨args, _, -, h⟩ := bind_inv h
  obtain ⟨-, _, -, h⟩ := bind_inv h
  exact ⟨args, (Prod.mk.inj (Option.some.inj h)).1.symm⟩

end Reader

end Syntax

open Syntax

theorem moduleSyntax?_eq_none_iff {program : Program} :
    moduleSyntax? program = none ↔ ∀ item ∈ program.items, ¬item.tree.form.isModuleDeclaration := by
  rw [moduleSyntax?, List.findSome?_eq_none_iff]
  refine forall₂_congr fun item _ => ?_
  cases item.tree.form <;> simp [Form.isModuleDeclaration]

/-- When a text passes for CommonJS, and what it then shows. -/
theorem Surface.ofSource_eq_ok_iff {source : Text} {surface : Surface} :
    Surface.ofSource source = .ok surface ↔
      ∃ program, Program.ofSource? commonJsDialect source = some program ∧
        (∀ item ∈ program.items, ¬item.tree.form.isModuleDeclaration) ∧
        (∀ t, program.Holds t → t.form ≠ .importMeta) ∧
        Surface.ofContributions (contributionsOf program.trees) = surface := by
  have hmeta : ∀ program : Program, (program.forms.any fun f => f == .importMeta) = false ↔
      ∀ t, program.Holds t → t.form ≠ .importMeta := by
    intro program
    rw [List.any_eq_false]
    simp only [beq_iff_eq, Program.mem_forms_iff]
    exact ⟨fun h t ht hf => h _ ⟨t, ht, rfl⟩ hf, fun h f ⟨t, ht, hf⟩ he => h t ht (hf.trans he)⟩
  unfold Surface.ofSource
  cases hp : Program.ofSource? commonJsDialect source with
  | none => simp
  | some program =>
    simp only [Option.some.injEq, exists_eq_left']
    rw [← moduleSyntax?_eq_none_iff, ← hmeta]
    cases hm : moduleSyntax? program with
    | some e => simp
    | none =>
      cases ha : program.forms.any fun f => f == .importMeta <;> simp [Program.trees]

/-- A text passes for CommonJS exactly when it is a script with neither an import nor an export at its top, and
with no `import.meta` at any depth. So it passes exactly when it is a plain script, unless a declaration inside
another statement is all that keeps it from being one. A call of `import` does not count: it is read neither as a
declaration nor as `import.meta`. -/
theorem Surface.ofSource_accepts (source : Text) :
    ((∃ surface, Surface.ofSource source = .ok surface) ↔
      ∃ program, Program.ofSource? commonJsDialect source = some program ∧
        (∀ item ∈ program.items, ¬item.tree.form.isModuleDeclaration) ∧
        ∀ t, program.Holds t → t.form ≠ .importMeta) ∧
    (((∃ surface, Surface.ofSource source = .ok surface) ↔
        ∃ program, Program.ofSource? commonJsDialect source = some program ∧ program.IsPlainScript) ↔
      ∀ program, Program.ofSource? commonJsDialect source = some program → ¬program.HidesDeclaration) ∧
    ∀ (p : Rules) (context : Context) (cursor : Cursor), (Reader.bumped context cursor).lexeme.token.isMark "(" →
      Reader.isImportDeclaration context cursor = some (false, cursor) ∧
      ∀ tree after, Reader.importExpression p context cursor = some (tree, after) → ∃ args, tree = .other args := by
  have haccepts : (∃ surface, Surface.ofSource source = .ok surface) ↔
      ∃ program, Program.ofSource? commonJsDialect source = some program ∧
        (∀ item ∈ program.items, ¬item.tree.form.isModuleDeclaration) ∧
        ∀ t, program.Holds t → t.form ≠ .importMeta := by
    constructor
    · rintro ⟨surface, h⟩
      obtain ⟨program, hp, htop, hmeta, -⟩ := ofSource_eq_ok_iff.1 h
      exact ⟨program, hp, htop, hmeta⟩
    · rintro ⟨program, hp, htop, hmeta⟩
      exact ⟨_, ofSource_eq_ok_iff.2 ⟨program, hp, htop, hmeta, rfl⟩⟩
  refine ⟨haccepts, ?_, fun p context cursor hc =>
    ⟨Reader.isImportDeclaration_call hc, fun tree after h => Reader.importExpression_call hc h⟩⟩
  rw [haccepts]
  constructor
  · -- a hidden declaration passes, and is found in the whole tree
    rintro h program hp ⟨htop, ⟨t, ht, hdeclaration⟩, hmeta⟩
    obtain ⟨found, hfound, hplain⟩ := h.1 ⟨program, hp, htop, hmeta⟩
    obtain rfl := Option.some.inj (hp.symm.trans hfound)
    exact (hplain t ht).1 hdeclaration
  · intro h
    constructor
    · rintro ⟨program, hp, htop, hmeta⟩
      refine ⟨program, hp, fun t ht => ⟨fun hdeclaration => ?_, hmeta t ht⟩⟩
      exact h program hp ⟨htop, ⟨t, ht, hdeclaration⟩, hmeta⟩
    · rintro ⟨program, hp, hplain⟩
      exact ⟨program, hp, fun item hitem => (hplain _ (Program.holds_item hitem)).1, fun t ht => (hplain t ht).2⟩

/-- A function that loads a module by a call of `import`, behind a `return`. -/
def lazyScript : Text := "return;function f() \x7breturn import('x')\x7d"

theorem Surface.ofSource_accepts_lazyScript :
    (∃ program, Program.ofSource? commonJsDialect lazyScript = some program ∧ program.IsPlainScript) ∧
      ∃ surface, Surface.ofSource lazyScript = .ok surface := by
  have hforms : (Program.ofSource? commonJsDialect lazyScript).map (fun program =>
      program.forms.all fun f => !f.isModuleDeclaration && f != .importMeta) = some true := by decide +kernel
  obtain ⟨program, hp, hall⟩ := Option.map_eq_some_iff.1 hforms
  have hplain : program.IsPlainScript := Program.isPlainScript_iff.2 fun f hf => by
    simpa using List.all_eq_true.1 hall f hf
  have hhidden : ∀ other, Program.ofSource? commonJsDialect lazyScript = some other → ¬other.HidesDeclaration := by
    rintro other h ⟨-, ⟨t, ht, hdeclaration⟩, -⟩
    obtain rfl := Option.some.inj (hp.symm.trans h)
    exact (hplain t ht).1 hdeclaration
  exact ⟨⟨program, hp, hplain⟩, ((Surface.ofSource_accepts lazyScript).2.1.2 hhidden).2 ⟨program, hp, hplain⟩⟩

set_option maxRecDepth 2000 in
/-- An import inside a block passes. -/
theorem Surface.ofSource_accepts_hidden :
    Surface.ofSource "\x7bimport 'x'\x7d" = .ok ⟨[], []⟩ ∧
      ∃ program, Program.ofSource? commonJsDialect "\x7bimport 'x'\x7d" = some program ∧ ¬program.IsPlainScript := by
  have hp : Program.ofSource? commonJsDialect "\x7bimport 'x'\x7d" =
      some ⟨[⟨⟨0, 12⟩, .node .statement [.leaf (.importDeclaration ⟨⟨1, 11⟩, "x", false, []⟩)]⟩]⟩ := by cbv
  refine ⟨by decide +kernel, _, hp, fun hplain => ?_⟩
  exact (hplain (.leaf (.importDeclaration ⟨⟨1, 11⟩, "x", false, []⟩))
    ⟨_, List.mem_singleton_self _, .part (List.mem_singleton_self _) .self⟩).1 rfl

end CjsInterop
