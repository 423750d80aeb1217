import CjsInterop.Proofs.DefinitionReading
import CjsInterop.Proofs.ImportNames
import CjsInterop.Proofs.PreamblePlace

/-! What the program of a rewritten chunk is: the definition of the function, and then the statements of the
chunk with each import that gave way replaced by its own statements. This takes that the statements that stay
are complete: a statement that ends only because of what stands behind it may go on when that is removed. -/

namespace CjsInterop

/-- Beginnings of one text are told apart by the bytes in them. -/
theorem Text.append_inj {a b c d : Text} (h : a ++ b = c ++ d) (hl : byteLength a = byteLength c) : a = c ∧ b = d := by
  have htotal := congrArg byteLength h
  rw [byteLength_append, byteLength_append] at htotal
  obtain rfl : b = d := eq_of_suffix (List.suffix_append a b) (h ▸ List.suffix_append c d) (by omega)
  exact ⟨List.append_cancel_right h, rfl⟩

namespace Syntax

/-! ## Trees without their places -/

/-- The form without the stretch of the source that it takes. -/
def Form.placeless : Form → Form
  | importDeclaration decl => importDeclaration { decl with span := {} }
  | f => f

namespace Tree

mutual

/-- The tree without the stretches of the source that it takes. -/
def placeless : Tree → Tree
  | node f ps => node f.placeless (placelessOf ps)

def placelessOf : List Tree → List Tree
  | [] => []
  | p :: ps => placeless p :: placelessOf ps

end

mutual

theorem forms_placeless : ∀ t : Tree, t.placeless.forms = t.forms.map Form.placeless
  | node f ps => by rw [placeless, forms, forms, List.map_cons, formsOf_placeless ps]

theorem formsOf_placeless : ∀ ts : List Tree, formsOf (placelessOf ts) = (formsOf ts).map Form.placeless
  | [] => rfl
  | p :: ps => by rw [placelessOf, formsOf, formsOf, List.map_append, forms_placeless p, formsOf_placeless ps]

end

end Tree

theorem Tree.formsOf_eq (ts : List Tree) : formsOf ts = ts.flatMap forms := by
  induction ts with
  | nil => rfl
  | cons t ts ih => rw [formsOf, ih, List.flatMap_cons]

/-- The names that a form exports. -/
def Form.exported : Form → List Text
  | exportDeclaration names => names
  | _ => []

theorem isSound_eq_true {dialect : Dialect} {program : Program} : isSound dialect program = true ↔
    Form.shorthandDefault ∉ program.forms ∧ (dialect.typescript = true ∨ (program.forms.flatMap Form.exported).Nodup) := by
  have hany : (program.forms.any fun f => f == .shorthandDefault) = false ↔ Form.shorthandDefault ∉ program.forms := by
    rw [List.any_eq_false]
    constructor
    · exact fun h hm => h _ hm (beq_self_eq_true _)
    · intro h f hm he
      exact h (eq_of_beq he ▸ hm)
  have hexported : program.exportedNames = program.forms.flatMap Form.exported := by
    unfold Program.exportedNames
    exact congrArg (List.flatMap · program.forms) (funext fun f => by cases f <;> rfl)
  rw [isSound, Bool.and_eq_true, Bool.not_eq_true', hany, hexported, Bool.or_eq_true, decide_eq_true_eq]

/-- A text that is a statement by itself: in every source, whatever blanks stand in front of it and whatever stands
behind it, the statement is read from it and nothing more is. -/
def Complete (dialect : Dialect) (text : Text) (tree : Tree) : Prop :=
  ∀ front gap rest, Lexer.Skipped gap →
    (Reader.standing dialect (gap ++ (text ++ rest))).lexeme.token ≠ .eof ∧
    ∃ read : Tree, read.placeless = tree.placeless ∧
      Reader.Reads (rules (depthBound (front ++ (gap ++ (text ++ rest)))) .item)
        (Program.topContext dialect (front ++ (gap ++ (text ++ rest)))) (gap ++ (text ++ rest)) read rest

/-! ## Statements of a rewritten chunk -/

/-- A form that declares nothing to others and is finished. -/
def Form.IsPlain (f : Form) : Prop := f ≠ shorthandDefault ∧ f.exported = []

def Tree.IsPlain (t : Tree) : Prop := ∀ f ∈ t.forms, f.IsPlain

theorem Tree.isPlain_node {f : Form} {parts : List Tree} (hf : f.IsPlain) (hp : ∀ t ∈ parts, t.IsPlain) :
    (node f parts).IsPlain := by
  intro g hg
  rw [forms, formsOf_eq, List.mem_cons, List.mem_flatMap] at hg
  rcases hg with rfl | ⟨t, ht, hg⟩
  · exact hf
  · exact hp t ht g hg

theorem Tree.isPlain_leaf {f : Form} (hf : f.IsPlain) : (leaf f).IsPlain := isPlain_node hf nofun

theorem Tree.isPlain_one {f : Form} {t : Tree} (hf : f.IsPlain) (ht : t.IsPlain) : (node f [t]).IsPlain :=
  isPlain_node hf (List.forall_mem_singleton.2 ht)

theorem Tree.isPlain_two {f : Form} {t u : Tree} (hf : f.IsPlain) (ht : t.IsPlain) (hu : u.IsPlain) :
    (node f [t, u]).IsPlain := isPlain_node hf (List.forall_mem_cons.2 ⟨ht, List.forall_mem_singleton.2 hu⟩)

end Syntax

open Syntax

theorem isPlain_processTree : processTree.IsPlain :=
  Tree.isPlain_one ⟨nofun, rfl⟩ (Tree.isPlain_leaf ⟨nofun, rfl⟩)

theorem Target.isPlain_tree (t : Target) : t.tree.IsPlain := by
  cases t with
  | process => exact isPlain_processTree
  | builtin specifier =>
    exact Tree.isPlain_two ⟨nofun, rfl⟩ (Tree.isPlain_one ⟨nofun, rfl⟩ isPlain_processTree)
      (Tree.isPlain_leaf ⟨nofun, rfl⟩)
  | require specifier =>
    exact Tree.isPlain_two ⟨nofun, rfl⟩ (Tree.isPlain_leaf ⟨nofun, rfl⟩) (Tree.isPlain_leaf ⟨nofun, rfl⟩)

theorem Origin.isPlain_tree (o : Origin) : o.tree.IsPlain := by
  cases o with
  | target t => exact t.isPlain_tree
  | name n => exact Tree.isPlain_leaf ⟨nofun, rfl⟩

theorem isPlain_constantTree {target value : Tree} (ht : target.IsPlain) (hv : value.IsPlain) :
    (constantTree target value).IsPlain :=
  Tree.isPlain_one ⟨nofun, rfl⟩ (Tree.isPlain_two ⟨nofun, rfl⟩ ht hv)

theorem isPlain_patternTree (imported name : Text) : (patternTree imported name).IsPlain := by
  unfold patternTree
  split
  · exact Tree.isPlain_leaf ⟨nofun, rfl⟩
  · refine Tree.isPlain_two ⟨nofun, rfl⟩ ?_ (Tree.isPlain_leaf ⟨nofun, rfl⟩)
    unfold keyTree
    split <;> exact Tree.isPlain_leaf ⟨nofun, rfl⟩

theorem Declaration.isPlain_tree (d : Declaration) : d.tree.IsPlain := by
  cases d with
  | value name origin => exact isPlain_constantTree (Tree.isPlain_leaf ⟨nofun, rfl⟩) origin.isPlain_tree
  | namespaceObject name whole =>
    exact isPlain_constantTree (Tree.isPlain_leaf ⟨nofun, rfl⟩) (Tree.isPlain_two ⟨nofun, rfl⟩
      (Tree.isPlain_one ⟨nofun, rfl⟩ (Tree.isPlain_leaf ⟨nofun, rfl⟩))
      (Tree.isPlain_two ⟨nofun, rfl⟩ (Tree.isPlain_leaf ⟨nofun, rfl⟩) (Tree.isPlain_leaf ⟨nofun, rfl⟩)))
  | pattern named origin =>
    refine isPlain_constantTree (Tree.isPlain_node ⟨nofun, rfl⟩ ?_) origin.isPlain_tree
    exact List.forall_mem_map.2 fun entry _ => isPlain_patternTree entry.1 entry.2

theorem Plan.isPlain_trees (plan : Plan) : ∀ t ∈ plan.trees, t.IsPlain := by
  cases plan with
  | remove => exact nofun
  | bareRequire specifier =>
    exact List.forall_mem_singleton.2 (Tree.isPlain_one ⟨nofun, rfl⟩ (Target.require specifier).isPlain_tree)
  | bindings shim => exact List.forall_mem_map.2 fun d _ => d.isPlain_tree

/-- The statements that an item of a chunk becomes. -/
def Answers.statements (a : Answers) (rewriteBuiltins : Bool) (item : Item) : List Tree :=
  match item.tree.form with
  | .importDeclaration stmt => if a.Rewrites rewriteBuiltins stmt then stmt.plan.trees else [item.tree]
  | _ => [item.tree]

/-- An item that stays. -/
def Answers.Keeps (a : Answers) (rewriteBuiltins : Bool) (item : Item) : Prop :=
  ∀ stmt, item.tree.form = .importDeclaration stmt → ¬a.Rewrites rewriteBuiltins stmt

variable {a : Answers} {rewriteBuiltins : Bool}

theorem Syntax.Reader.ItemRun.cons_inv {depth : Nat} {dialect : Dialect} {source before : Text} {cursor final : Cursor}
    {item : Item} {items : List Item} (hs : dialect.script = false)
    (h : ItemRun (rules (depth + 1)) (Program.topContext dialect source) cursor (item :: items) final)
    (hc : Fresh (Program.topContext dialect source) cursor) (hf : final.flawed = false)
    (hb : source = before ++ cursor.behind) :
    ∃ gap text after, Lexer.Skipped gap ∧ text ≠ [] ∧ cursor.behind = gap ++ (text ++ after.behind) ∧
      item.span = ⟨Text.byteLength (before ++ gap), Text.byteLength (before ++ gap ++ text)⟩ ∧
      Fresh (Program.topContext dialect source) after ∧
      ItemRun (rules (depth + 1)) (Program.topContext dialect source) after items final := by
  cases h with
  | @item _ after _ tree _ ht hitem hrun =>
    obtain ⟨ha, more, hmore⟩ := ItemRun.moves hs hc ht hitem hrun hf
    have hvalid : cursor.lexeme.token ≠ .invalid := by
      intro hinvalid
      rw [item_invalid depth hinvalid] at hitem
      cases hitem
    obtain ⟨gap, hskipped, hgap⟩ := hc.skipped hs ht hvalid
    obtain ⟨c, rest, hhere⟩ := List.exists_cons_of_ne_nil (hc.here_ne_nil ht)
    rw [hhere, List.tail_cons] at hmore
    have hbehind : cursor.behind = gap ++ ((c :: more) ++ after.behind) := by
      rw [← hgap, hhere, ← hmore]
      simp
    have hplace : ∀ front text, front ++ text = source →
        place (Program.topContext dialect source) text = Text.byteLength front := by
      rintro front text rfl
      change Text.byteLength (front ++ text) - Text.byteLength text = _
      rw [Text.byteLength_append]
      omega
    refine ⟨gap, c :: more, after, hskipped, by simp, hbehind, ?_, ha, hrun⟩
    rw [hplace (before ++ gap) _ (by rw [hb, ← hgap, List.append_assoc]),
      hplace (before ++ gap ++ (c :: more)) _ (by rw [hb, hbehind]; simp)]

theorem Laid.start_le {start : Nat} {text : Text} {spans : List Span} (h : Laid start text spans) :
    ∀ span ∈ spans, start ≤ span.start := by
  induction h with
  | done => exact nofun
  | span hb _ ih =>
    intro span hm
    rcases List.mem_cons.1 hm with rfl | hm
    · exact Nat.le_add_right _ _
    · have := ih span hm
      omega

theorem Laid.length_le {start : Nat} {text : Text} {spans : List Span} (h : Laid start text spans) :
    spans.length ≤ text.length := by
  induction h with
  | done => exact Nat.zero_le _
  | span hb _ ih =>
    have := List.length_pos_iff.2 hb
    simp only [List.length_append, List.length_cons]
    omega

/-- The last statements of a source, from one of its places on, are these up to their own places. -/
def Syntax.Reader.ReadsAllAs (dialect : Dialect) (source text : Text) (statements : List Tree) : Prop :=
  ∃ trees rest, ReadsAll (rules (depthBound source)) (Program.topContext dialect source) text trees rest ∧
    trees.map Tree.placeless = statements.map Tree.placeless ∧ (standing dialect rest).lexeme.token = .eof

namespace Syntax.Reader.ReadsAllAs

variable {dialect : Dialect} {source front gap text code : Text} {statements : List Tree}

/-- A complete statement comes first. -/
theorem complete {tree : Tree} (hc : Complete dialect text tree) (hg : Lexer.Skipped gap)
    (hs : source = front ++ (gap ++ (text ++ code))) (h : ReadsAllAs dialect source code statements) :
    ReadsAllAs dialect source (gap ++ (text ++ code)) (tree :: statements) := by
  obtain ⟨trees, rest, hall, htrees, heof⟩ := h
  obtain ⟨htoken, read, hread, hreads⟩ := hc front gap code hg
  rw [← hs] at hreads
  refine ⟨read :: trees, rest, .more htoken hreads hall, ?_, heof⟩
  rw [List.map_cons, List.map_cons, hread, htrees]

/-- The statements of a replacement come first. Blanks may be left of it, when it is empty. -/
theorem replacement {plan : Plan} (hp : plan.IsFree) (hg : Lexer.Skipped gap)
    (hs : source = front ++ (gap ++ (plan.text ++ code)))
    (h : ∀ taken left, Lexer.Skipped left → source = taken ++ (left ++ code) →
      ReadsAllAs dialect source (left ++ code) statements) :
    ReadsAllAs dialect source (gap ++ (plan.text ++ code)) (plan.trees ++ statements) := by
  have hlimit : plan.text.length + 2 ≤ (Program.topContext dialect source).limit := by
    change _ ≤ source.length + 2
    rw [hs]
    simp only [List.length_append]
    omega
  obtain ⟨depth, hdepth⟩ := exists_depthBound (n := 4) (by decide) source
  obtain ⟨taken, left, htaken, hleft, hplan⟩ := @readsAll_plan _ depth _ hp hlimit rfl _ hg code
  obtain ⟨trees, rest, hall, htrees, heof⟩ := h (front ++ taken) left hleft (by
    rw [hs, ← List.append_assoc gap, htaken, List.append_assoc, List.append_assoc])
  rw [← hdepth] at hplan
  refine ⟨plan.trees ++ trees, rest, hplan.append hall, ?_, heof⟩
  rw [List.map_append, List.map_append, htrees]

end Syntax.Reader.ReadsAllAs

theorem Syntax.Reader.ItemRun.token_ne_invalid {depth : Nat} {context : Syntax.Context} {cursor final : Cursor}
    {items : List Item} (h : ItemRun (rules (depth + 1)) context cursor items final) : cursor.lexeme.token ≠ .invalid := by
  intro hinvalid
  cases h with
  | stop heof =>
    rw [hinvalid] at heof
    cases heof
  | item _ hitem _ =>
    rw [item_invalid depth hinvalid] at hitem
    cases hitem

open Reader in
/-- A text that is read as statements up to its end is a program, if it is sound. -/
theorem Syntax.Reader.ReadsAll.program {dialect : Dialect} {source rest : Text} {trees : List Tree}
    (hs : dialect.script = false)
    (h : ReadsAll (rules (depthBound source)) (Program.topContext dialect source) source trees rest)
    (he : (standing dialect rest).lexeme.token = .eof)
    (hsound : ∀ program : Program, program.items.map Item.tree = trees → isSound dialect program = true) :
    ∃ program, Program.ofSource? dialect source = some program ∧ program.items.map Item.tree = trees ∧
      ItemRun (rules (depthBound source)) (Program.topContext dialect source) (standing dialect source) program.items
        (standing dialect rest) := by
  obtain ⟨items, htrees, hrun⟩ := h.run he
  have hrun : ItemRun (rules (depthBound source)) (Program.topContext dialect source) (standing dialect source) items
      (standing dialect rest) := hrun
  obtain ⟨depth, hdepth⟩ := exists_depthBound (n := 1) (by decide) source
  have hfresh : Fresh (Program.topContext dialect source) (standing dialect source) := ⟨false, rfl⟩
  have hhashbang : withoutHashbang source = source := by
    by_cases hb : ∃ tail, source = '#' :: '!' :: tail
    · obtain ⟨tail, rfl⟩ := hb
      rw [hdepth] at hrun
      refine absurd ?_ hrun.token_ne_invalid
      unfold standing
      rw [hs]
      rfl
    · unfold withoutHashbang
      split
      · exact absurd ⟨_, rfl⟩ hb
      · rfl
  have hfirst : Program.firstCursor dialect source = standing dialect source := by
    have hl := (Program.firstCursor_fresh dialect source).lexeme_eq hs
    unfold Program.firstCursor at hl ⊢
    rw [hhashbang] at hl ⊢
    unfold standing
    rw [hs] at hl ⊢
    exact congrArg (Cursor.mk · source false) hl
  have hlaid := hrun.laid hs rfl hfresh List.suffix_rfl rfl
  have hlength := hlaid.length_le
  rw [List.length_map] at hlength
  refine ⟨⟨items⟩, Program.ofSource?_eq_some_iff.2 ⟨standing dialect rest, ?_, ?_, rfl, hsound ⟨items⟩ htrees⟩, htrees,
    hrun⟩
  · rw [hfirst]
    exact hrun
  · change items.length < source.length + 2
    have : (standing dialect source).behind.length = source.length := rfl
    omega

/-- The names that statements export. -/
def exportedBy (statements : List Tree) : List Text := (statements.flatMap Tree.forms).flatMap Form.exported

theorem exportedBy_plain {statements : List Tree} (h : ∀ t ∈ statements, t.IsPlain) :
    exportedBy statements = [] ∧ Form.shorthandDefault ∉ statements.flatMap Tree.forms := by
  constructor
  · refine List.flatMap_eq_nil_iff.2 fun f hf => ?_
    obtain ⟨t, ht, hf⟩ := List.mem_flatMap.1 hf
    exact (h t ht f hf).2
  · intro hm
    obtain ⟨t, ht, hf⟩ := List.mem_flatMap.1 hm
    exact (h t ht _ hf).1 rfl

/-- The constants that an import gives way to are complete. They stay when a chunk is rewritten that holds them. -/
theorem complete_declaration {d : Declaration} (hd : d.IsFree) (dialect : Dialect) : Complete dialect d.render d.tree := by
  intro front gap rest hg
  have hbegins := (Reader.begins_declaration d rest).skip hg
  have hlimit : d.width + 3 < (Program.topContext dialect (front ++ (gap ++ (d.render ++ rest)))).limit := by
    have hwidth := Reader.width_le d
    change _ < (front ++ (gap ++ (d.render ++ rest))).length + 2
    simp only [List.length_append]
    omega
  obtain ⟨depth, hdepth⟩ := exists_depthBound (n := 4) (by decide) (front ++ (gap ++ (d.render ++ rest)))
  refine ⟨by rw [Reader.token_standing hbegins]; exact nofun, d.tree, rfl, ?_⟩
  rw [hdepth]
  exact Reader.reads_declaration hd hlimit rfl hg rest

end CjsInterop
