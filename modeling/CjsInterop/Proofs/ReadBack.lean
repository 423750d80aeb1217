import CjsInterop.Proofs.KeptNames
import CjsInterop.Proofs.ShimValues
import CjsInterop.Surface

/-! The declarations that stand in for an import are read back as what they were written for: constants with the
names of its bindings, that take the properties it imports from one expression for the module. -/

namespace CjsInterop

namespace Syntax

mutual

/-- The tree and all trees in it, each before its parts. -/
def Tree.subtrees : Tree → List Tree
  | node f ps => node f ps :: subtreesOf ps

def Tree.subtreesOf : List Tree → List Tree
  | [] => []
  | p :: ps => subtrees p ++ subtreesOf ps

end

/-- The text that a call is made with, when that is all it is made with. -/
def Tree.calledWith? : Tree → Option Text
  | node .call [_, node (.string value) _] => some value
  | _ => none

/-- The property that a member of a pattern takes, and its name from then on. -/
def Tree.takenProperty? : Tree → Option (Text × Text)
  | node (.declared name) _ => some (name, name)
  | node .property [key, node (.declared name) _] => (staticName? key).map (·, name)
  | _ => none

/-- The properties that a declaration of one variable takes. -/
def Tree.takenProperties : Tree → List (Text × Text)
  | node .declaration [node .defaulted [node .pattern members, _]] => members.filterMap takenProperty?
  | _ => []

def Program.trees (program : Program) : List Tree := program.items.map Item.tree

end Syntax

open Syntax Reader

/-- The specifier that the expression is written with. -/
def Target.specifier? : Target → Option Text
  | process => none
  | builtin specifier => some specifier
  | require specifier => some specifier

/-- The tree is in the list, and in one place only. -/
def OccursOnce (tree : Tree) (trees : List Tree) : Prop :=
  ∃ before after, trees = before ++ tree :: after ∧ tree ∉ before ∧ tree ∉ after

/-- The program declares by `const` alone what the import bound, and asks once for the module. -/
structure ReadsBack (source : Text) (stmt : ImportStatement) (target : Target) (program : Program) : Prop where
  /-- Every item is a declaration, which begins with `const`. -/
  constants : ∀ item ∈ program.items, item.tree.form = .declaration ∧
    ∃ front behind, source = front ++ "const ".toList ++ behind ∧ item.span.start = Text.byteLength front
  names : program.topNames =
    (stmt.loneNamespace?.map Shim.madeUpDefault).toList ++ stmt.bindings.filterMap Binding.valueName?
  distinct : program.topNames.Nodup
  properties : program.trees.flatMap Tree.takenProperties = stmt.named
  asksOnce : OccursOnce target.tree (Tree.subtreesOf program.trees)
  calls : (Tree.subtreesOf program.trees).filterMap Tree.calledWith? = target.specifier?.toList

/-! ## Where the module is asked for -/

theorem Syntax.Tree.subtreesOf_append (a b : List Tree) : subtreesOf (a ++ b) = subtreesOf a ++ subtreesOf b := by
  induction a with
  | nil => rfl
  | cons t a ih => simp [subtreesOf, ih]

mutual

theorem Syntax.Tree.forms_subtrees (t : Tree) : t.subtrees.map form = t.forms := by
  obtain ⟨f, ps⟩ := t
  rw [subtrees, List.map_cons, forms_subtreesOf ps, forms]
  rfl

theorem Syntax.Tree.forms_subtreesOf (ps : List Tree) : (subtreesOf ps).map form = formsOf ps := by
  cases ps with
  | nil => rfl
  | cons p ps => rw [subtreesOf, List.map_append, forms_subtrees p, forms_subtreesOf ps, formsOf]

end

/-- The form of an expression that can yield a module. -/
def Syntax.Form.Asks : Form → Prop
  | .call => True
  | .member _ => True
  | _ => False

/-- Nothing in the trees asks for a module. -/
def AsksNothing (trees : List Tree) : Prop := ∀ t ∈ Tree.subtreesOf trees, ¬t.form.Asks

theorem asksNothing_iff {trees : List Tree} : AsksNothing trees ↔ ∀ f ∈ Tree.formsOf trees, ¬f.Asks := by
  rw [← Tree.forms_subtreesOf, List.forall_mem_map]
  rfl

theorem Target.asks_form (t : Target) : t.tree.form.Asks := by
  cases t <;> trivial

theorem AsksNothing.notMem {trees : List Tree} (h : AsksNothing trees) (t : Target) : t.tree ∉ Tree.subtreesOf trees :=
  fun hm => h _ hm t.asks_form

theorem calls_eq_nil {trees : List Tree} (h : ∀ t ∈ trees, ¬t.form.Asks) : trees.filterMap Tree.calledWith? = [] := by
  refine List.filterMap_eq_nil_iff.2 fun t ht => ?_
  have hform := h t ht
  unfold Tree.calledWith?
  split
  · exact absurd trivial hform
  · rfl

/-- An expression for a module does not hold another one. -/
theorem Target.subtrees_tree (t : Target) :
    OccursOnce t.tree t.tree.subtrees ∧ t.tree.subtrees.filterMap Tree.calledWith? = t.specifier?.toList := by
  have hinner : t.tree ∉ Tree.subtreesOf t.tree.parts := by
    intro hm
    have hform : t.tree.form ∈ Tree.formsOf t.tree.parts := by
      rw [← Tree.forms_subtreesOf]
      exact List.mem_map_of_mem hm
    cases t <;> simp [tree, processTree, Tree.leaf, Tree.form, Tree.parts, Tree.formsOf, Tree.forms] at hform
  have hsubtrees : t.tree.subtrees = t.tree :: Tree.subtreesOf t.tree.parts := by
    cases t <;> rfl
  refine ⟨⟨[], _, hsubtrees, List.not_mem_nil, hinner⟩, ?_⟩
  cases t <;> rfl

/-- What a declaration reads from. -/
def Declaration.origin? : Declaration → Option Origin
  | value _ origin => some origin
  | namespaceObject _ _ => none
  | pattern _ origin => some origin

def Declaration.Asks (d : Declaration) : Prop := ∃ target, d.origin? = some (.target target)

theorem asksNothing_patterns (named : List (Text × Text)) :
    AsksNothing (named.map fun (imported, name) => patternTree imported name) := by
  refine asksNothing_iff.2 fun f hf => ?_
  rw [Tree.formsOf_eq, List.flatMap_map, List.mem_flatMap] at hf
  obtain ⟨⟨imported, name⟩, -, hf⟩ := hf
  simp only [patternTree, keyTree] at hf
  split at hf
  · simp only [Tree.leaf, Tree.forms, Tree.formsOf, List.mem_singleton] at hf
    subst hf
    exact id
  · simp only [Tree.leaf, Tree.forms, Tree.formsOf, List.append_nil, List.cons_append, List.nil_append, List.mem_cons,
      List.not_mem_nil, or_false] at hf
    rcases hf with rfl | rfl | rfl
    · exact id
    · split <;> exact id
    · exact id

/-- A declaration that reads from a target has its expression as its last part. -/
theorem Declaration.subtrees_tree {d : Declaration} {t : Target} (h : d.origin? = some (.target t)) :
    ∃ front, d.tree.subtrees = front ++ t.tree.subtrees ∧ ∀ u ∈ front, ¬u.form.Asks := by
  have hconstant : ∀ target : Tree, (∀ u ∈ target.subtrees, ¬u.form.Asks) →
      ∃ front, (constantTree target t.tree).subtrees = front ++ t.tree.subtrees ∧ ∀ u ∈ front, ¬u.form.Asks := by
    intro target htarget
    refine ⟨[constantTree target t.tree, .node .defaulted [target, t.tree]] ++ target.subtrees, ?_, ?_⟩
    · simp [constantTree, Tree.subtrees, Tree.subtreesOf]
    · rintro u hu
      rcases List.mem_append.1 hu with hu | hu
      · simp only [List.mem_cons, List.not_mem_nil, or_false] at hu
        rcases hu with rfl | rfl <;> exact id
      · exact htarget u hu
  cases d with
  | namespaceObject name whole => cases h
  | value name origin =>
    obtain rfl := Option.some.inj h
    refine hconstant _ fun u hu => ?_
    obtain rfl := List.mem_singleton.1 hu
    exact id
  | pattern named origin =>
    obtain rfl := Option.some.inj h
    refine hconstant _ fun u hu => ?_
    rw [Tree.subtrees, List.mem_cons] at hu
    rcases hu with rfl | hu
    · exact id
    · exact asksNothing_patterns named u hu

theorem Declaration.asksNothing {d : Declaration} (h : ¬d.Asks) : AsksNothing [d.tree] := by
  have hname : ∀ {origin : Origin}, (∀ t, origin ≠ .target t) → ∃ n, origin = .name n := by
    intro origin ho
    cases origin with
    | target t => exact absurd rfl (ho t)
    | name n => exact ⟨n, rfl⟩
  refine asksNothing_iff.2 fun f hf => ?_
  cases d with
  | namespaceObject name whole =>
    simp only [tree, constantTree, Tree.leaf, Tree.forms, Tree.formsOf, List.append_nil, List.cons_append, List.nil_append,
      List.mem_cons, List.not_mem_nil, or_false] at hf
    rcases hf with rfl | rfl | rfl | rfl | rfl | rfl | rfl | rfl | rfl <;> exact id
  | value name origin =>
    obtain ⟨n, rfl⟩ := hname fun t ho => h ⟨t, congrArg some ho⟩
    simp only [tree, constantTree, Origin.tree, Tree.leaf, Tree.forms, Tree.formsOf, List.append_nil, List.cons_append,
      List.nil_append, List.mem_cons, List.not_mem_nil, or_false] at hf
    rcases hf with rfl | rfl | rfl | rfl <;> exact id
  | pattern named origin =>
    obtain ⟨n, rfl⟩ := hname fun t ho => h ⟨t, congrArg some ho⟩
    have hpatterns := asksNothing_iff.1 (asksNothing_patterns named)
    simp only [tree, constantTree, Origin.tree, Tree.leaf, Tree.forms, Tree.formsOf, List.append_nil, List.cons_append,
      List.mem_cons, List.mem_append, List.not_mem_nil, or_false] at hf
    rcases hf with rfl | rfl | rfl | hf | rfl
    · exact id
    · exact id
    · exact id
    · exact hpatterns f hf
    · exact id

/-- Only the first declaration asks for the module. -/
theorem subtreesOf_declarations {first : Declaration} {declarations : List Declaration} {t : Target}
    (hfirst : first.origin? = some (.target t)) (hrest : ∀ d ∈ declarations, ¬d.Asks) :
    OccursOnce t.tree (Tree.subtreesOf ((first :: declarations).map Declaration.tree)) ∧
      (Tree.subtreesOf ((first :: declarations).map Declaration.tree)).filterMap Tree.calledWith? =
        t.specifier?.toList := by
  have hbehind : AsksNothing (declarations.map Declaration.tree) := by
    induction declarations with
    | nil => exact nofun
    | cons d declarations ih =>
      have hd := (hrest d List.mem_cons_self)
      have hmore := ih fun d hm => hrest d (List.mem_cons_of_mem _ hm)
      intro u hu
      rw [List.map_cons, Tree.subtreesOf, List.mem_append] at hu
      rcases hu with hu | hu
      · exact Declaration.asksNothing hd u (by simpa [Tree.subtreesOf] using hu)
      · exact hmore u hu
  obtain ⟨front, hsubtrees, hfront⟩ := Declaration.subtrees_tree hfirst
  obtain ⟨⟨before, after, htree, hbefore, hafter⟩, hcalls⟩ := t.subtrees_tree
  rw [List.map_cons, Tree.subtreesOf, hsubtrees]
  constructor
  · refine ⟨front ++ before, after ++ Tree.subtreesOf (declarations.map Declaration.tree), by simp [htree], ?_, ?_⟩
    · rw [List.mem_append, not_or]
      exact ⟨fun hm => hfront _ hm t.asks_form, hbefore⟩
    · rw [List.mem_append, not_or]
      exact ⟨hafter, hbehind.notMem t⟩
  · rw [List.filterMap_append, List.filterMap_append, calls_eq_nil hfront, hcalls, calls_eq_nil hbehind]
    simp

/-! ## Where the declarations begin -/

theorem here_declaration {dialect : Dialect} {gap : Text} (hg : Lexer.Skipped gap) (d : Declaration) (rest : Text) :
    (standing dialect (gap ++ (d.render ++ rest))).lexeme.here = d.render ++ rest := by
  have hplace : ∀ lineStart newLine, Lexer.skipBlanks dialect.script .between lineStart newLine (d.render ++ rest) =
      some (newLine, d.render ++ rest) := fun lineStart newLine => by
    rw [d.render_eq, List.append_assoc]
    exact Lexer.skipBlanks_name (by decide) _ _ _ _
  obtain ⟨lineStart, newLine, hskip⟩ := hg dialect.script false false (d.render ++ rest)
  rw [hplace] at hskip
  simp only [standing, Lexer.next, hskip, Lexer.lexemeAt_here]

/-- A text that begins with a declaration begins with `const`. -/
theorem Declaration.render_const (d : Declaration) : ∃ behind, d.render = "const ".toList ++ behind := by
  have hconst : "const ".toList = "const".toList ++ [' '] := by decide
  have hspace : ∃ behind, d.behindConst = ' ' :: behind := by
    cases d <;> exact ⟨_, rfl⟩
  obtain ⟨behind, hbehind⟩ := hspace
  exact ⟨behind, by rw [d.render_eq, hbehind, hconst, List.append_assoc]; rfl⟩

/-- Each of the declarations that a run takes begins with `const`. -/
theorem run_declarations {context : Context} {depth : Nat} {declarations : List Declaration}
    (hd : ∀ d ∈ declarations, d.IsFree) (hl : ∀ d ∈ declarations, d.width + 3 < context.limit)
    (hy : context.yield = false) {gap : Text} (hg : Lexer.Skipped gap) (hne : declarations ≠ []) {rest : Text}
    {items : List Item} {final : Cursor} (hrun : ItemRun (rules (depth + 4)) context
      (standing context.dialect (gap ++ (Text.join "\n" (declarations.map Declaration.render) ++ rest))) items final) :
    ∀ item ∈ items.take declarations.length, ∃ behind, "const ".toList ++ behind <:+
      gap ++ (Text.join "\n" (declarations.map Declaration.render) ++ rest) ∧
        item.span.start = place context ("const ".toList ++ behind) := by
  induction declarations generalizing gap items with
  | nil => exact absurd rfl hne
  | cons d declarations ih =>
    obtain ⟨tail, htail⟩ : ∃ tail, Text.join "\n" ((d :: declarations).map Declaration.render) ++ rest =
        d.render ++ tail := by
      cases declarations with
      | nil => exact ⟨rest, rfl⟩
      | cons next declarations => exact ⟨_, join_declarations d next declarations rest⟩
    obtain ⟨behind, hbehind⟩ := d.render_const
    cases hrun with
    | stop => simp
    | @item _ after _ tree items _ hitem hrun =>
      intro item hm
      rw [List.length_cons, List.take_succ_cons, List.mem_cons] at hm
      rcases hm with rfl | hm
      · refine ⟨behind ++ tail, ?_, ?_⟩
        · rw [htail, hbehind, List.append_assoc]
          exact List.suffix_append _ _
        · dsimp only
          rw [htail, here_declaration hg, hbehind, List.append_assoc]
      · cases declarations with
        | nil => simp at hm
        | cons next declarations =>
          have hreads := @reads_declaration context depth d (hd d List.mem_cons_self) (hl d List.mem_cons_self) hy gap hg
            (['\n'] ++ (Text.join "\n" ((next :: declarations).map Declaration.render) ++ rest))
          rw [join_declarations] at hitem ⊢
          obtain ⟨-, rfl⟩ := Prod.mk.inj (Option.some.inj (hitem.symm.trans hreads))
          obtain ⟨more, hsuffix, hstart⟩ := ih (fun d hm => hd d (List.mem_cons_of_mem _ hm))
            (fun d hm => hl d (List.mem_cons_of_mem _ hm)) skipped_line (by simp) hrun item hm
          refine ⟨more, hsuffix.trans ?_, hstart⟩
          exact (List.suffix_append d.render _).trans (List.suffix_append gap _)

/-- A program that is nothing but declarations. -/
theorem constants_of_run {dialect : Dialect} {shim : Shim} (hfree : (Plan.bindings shim).IsFree)
    (hne : shim.declarations ≠ []) {program : Program} {final : Cursor}
    (htrees : program.trees = shim.declarations.map Declaration.tree)
    (hrun : ItemRun (rules (depthBound shim.render)) (Program.topContext dialect shim.render)
      (standing dialect shim.render) program.items final) :
    ∀ item ∈ program.items, item.tree.form = .declaration ∧
      ∃ front behind, shim.render = front ++ "const ".toList ++ behind ∧ item.span.start = Text.byteLength front := by
  intro item hitem
  have htree : item.tree ∈ shim.declarations.map Declaration.tree := htrees ▸ List.mem_map_of_mem hitem
  obtain ⟨d, -, hd⟩ := List.mem_map.1 htree
  have hlength : program.items.length = shim.declarations.length := by
    simpa [Program.trees] using congrArg List.length htrees
  have htext : shim.render = [] ++ (Text.join "\n" (shim.declarations.map Declaration.render) ++ []) :=
    (List.append_nil _).symm
  obtain ⟨depth, hdepth⟩ := exists_depthBound (n := 4) (by decide) shim.render
  rw [hdepth] at hrun
  have hlimit : ∀ d ∈ shim.declarations, d.width + 3 < (Program.topContext dialect shim.render).limit :=
    width_lt (Nat.le_refl _)
  have hstarts := @run_declarations (Program.topContext dialect shim.render) depth shim.declarations hfree hlimit rfl []
    Lexer.skipped_nil hne [] program.items final (htext ▸ hrun)
  rw [← htext, ← hlength, List.take_length] at hstarts
  obtain ⟨behind, ⟨front, hfront⟩, hstart⟩ := hstarts item hitem
  refine ⟨by rw [← hd]; cases d <;> rfl, front, behind, by rw [List.append_assoc, hfront], ?_⟩
  rw [hstart]
  change Text.byteLength shim.render - _ = _
  rw [← hfront, Text.byteLength_append]
  omega

/-! ## The declarations of an import -/

theorem ImportStatement.isSideEffectOnly_eq_false_iff (stmt : ImportStatement) :
    stmt.isSideEffectOnly = false ↔
      stmt.defaultName?.isSome ∨ stmt.namespaceName?.isSome ∨ stmt.named ≠ [] := by
  rw [← Bool.not_eq_true, stmt.isSideEffectOnly_iff, valueNames, List.append_eq_nil_iff, List.append_eq_nil_iff,
    Option.toList_eq_nil_iff, Option.toList_eq_nil_iff, List.map_eq_nil_iff, and_assoc, not_and_or, not_and_or,
    ← ne_eq, ← ne_eq, Option.ne_none_iff_isSome, Option.ne_none_iff_isSome]

/-- A shim that binds something asks for the module in its first declaration, and there alone. -/
theorem Shim.declarations_ofImport {stmt : ImportStatement} (h : stmt.isSideEffectOnly = false) (target : Target) :
    ∃ first rest, (ofImport stmt target).declarations = first :: rest ∧ first.origin? = some (.target target) ∧
      ∀ d ∈ rest, ¬d.Asks := by
  have hbinds := stmt.isSideEffectOnly_eq_false_iff.1 h
  cases hw : (ofImport stmt target).defaultName? with
  | some whole =>
    refine ⟨.value whole (.target target), (ofImport stmt target).namespaceDeclarations ++
      (ofImport stmt target).namedDeclarations, ?_, rfl, ?_⟩
    · rw [declarations, valueDeclarations, hw]
      rfl
    · intro d hd
      rcases List.mem_append.1 hd with hd | hd
      · unfold namespaceDeclarations at hd
        split at hd
        · obtain rfl := List.mem_singleton.1 hd
          rintro ⟨t, ht⟩
          cases ht
        · cases hd
      · unfold namedDeclarations at hd
        split at hd
        · cases hd
        · obtain rfl := List.mem_singleton.1 hd
          rw [hw]
          rintro ⟨t, ht⟩
          cases ht
  | none =>
    obtain ⟨hdefault, hnamespace⟩ := Option.or_eq_none_iff.1 (show (stmt.defaultName?.or _) = none from hw)
    rw [Option.map_eq_none_iff] at hnamespace
    have hnamed : stmt.named ≠ [] := by simpa [hdefault, hnamespace] using hbinds
    refine ⟨.pattern stmt.named (.target target), [], ?_, rfl, fun d hd => absurd hd List.not_mem_nil⟩
    have hnamed' : (ofImport stmt target).named ≠ [] := hnamed
    rw [declarations, valueDeclarations, namespaceDeclarations, namedDeclarations, hw, if_neg hnamed']
    cases (ofImport stmt target).namespaceName? <;> rfl

theorem staticName?_keyTree (imported : Text) : staticName? (keyTree imported) = some imported := by
  unfold keyTree
  split <;> rfl

/-- The properties that a declaration takes. -/
def Declaration.properties : Declaration → List (Text × Text)
  | pattern named _ => named
  | _ => []

theorem Declaration.takenProperties_tree (d : Declaration) : d.tree.takenProperties = d.properties := by
  have hentry : ∀ imported name, (patternTree imported name).takenProperty? = some (imported, name) := by
    intro imported name
    unfold patternTree
    split
    · next h =>
      subst h
      rfl
    · simp only [Tree.takenProperty?, Tree.leaf, staticName?_keyTree, Option.map_some]
  cases d with
  | value name origin => rfl
  | namespaceObject name whole => rfl
  | pattern named origin =>
    change (named.map fun (imported, name) => patternTree imported name).filterMap Tree.takenProperty? = named
    rw [List.filterMap_map]
    exact (List.filterMap_congr fun entry _ => hentry entry.1 entry.2).trans List.filterMap_some

theorem Shim.properties_declarations (shim : Shim) :
    shim.declarations.flatMap Declaration.properties = shim.named := by
  have hvalue : shim.valueDeclarations.flatMap Declaration.properties = [] := by
    unfold valueDeclarations
    split <;> rfl
  have hnamespace : shim.namespaceDeclarations.flatMap Declaration.properties = [] := by
    unfold namespaceDeclarations
    split <;> rfl
  have hnamed : shim.namedDeclarations.flatMap Declaration.properties = shim.named := by
    unfold namedDeclarations
    split
    · next h => exact h.symm
    · simp [Declaration.properties]
  rw [declarations, List.flatMap_append, List.flatMap_append, hvalue, hnamespace, hnamed]
  rfl

/-- The names are those of the bindings, in their order, behind the one that is made up. -/
theorem names_ofImport {stmt : ImportStatement} (hg : stmt.Grammatical) (target : Target) :
    (Plan.bindings (Shim.ofImport stmt target)).names =
      (stmt.loneNamespace?.map Shim.madeUpDefault).toList ++ stmt.bindings.filterMap Binding.valueName? := by
  obtain ⟨⟨default?, rest, hb, hrest⟩, -⟩ := hg
  rcases hrest with ⟨name, rfl⟩ | hnamed
  · have hshim := ofImport_namespace hb target
    have hdefault : stmt.defaultName? = default? := by
      cases default? <;> simp [ImportStatement.defaultName?, hb, List.findSome?_cons, Binding.defaultName?]
    have hnamespace : stmt.namespaceName? = some name := congrArg Shim.namespaceName? hshim
    rw [hshim, ImportStatement.loneNamespace?, hdefault, hnamespace, hb]
    cases default? <;> rfl
  · have hshim := ofImport_named hb hnamed target
    have hnamespace : stmt.namespaceName? = none := congrArg Shim.namespaceName? hshim
    have hlone : stmt.loneNamespace? = none := by
      simp [ImportStatement.loneNamespace?, hnamespace]
    have hfront : ((default?.map Binding.defaultAs).toList.filterMap Binding.valueName?) = default?.toList := by
      cases default? <;> rfl
    rw [hshim, hlone, hb, List.filterMap_append, hfront, valueName?_named hnamed]
    have hdeclared : ∀ origin, (if rest.filterMap Binding.namedValue? = [] then []
        else [Declaration.pattern (rest.filterMap Binding.namedValue?) origin]).flatMap Declaration.names =
          (rest.filterMap Binding.namedValue?).map Prod.snd := by
      intro origin
      split
      · next h => rw [h]; rfl
      · simp [Declaration.names]
    cases default? with
    | none => exact hdeclared _
    | some d => exact congrArg (d :: ·) (hdeclared _)

theorem names_nodup {stmt : ImportStatement} (hg : stmt.Grammatical) :
    ((stmt.loneNamespace?.map Shim.madeUpDefault).toList ++ stmt.bindings.filterMap Binding.valueName?).Nodup := by
  obtain ⟨⟨default?, rest, hb, hrest⟩, hdistinct⟩ := hg
  cases hlone : stmt.loneNamespace? with
  | none => exact hdistinct
  | some name =>
    -- a namespace without a default is the only binding
    have halone : stmt.bindings.filterMap Binding.valueName? = [name] := by
      unfold ImportStatement.loneNamespace? at hlone
      split at hlone
      · cases hlone
      · next hdefault =>
        rcases hrest with ⟨other, rfl⟩ | hnamed
        · have hshim := ofImport_namespace hb .process
          obtain rfl : other = name :=
            Option.some.inj ((congrArg Shim.namespaceName? hshim).symm.trans hlone)
          cases default? with
          | none => rw [hb]; rfl
          | some d =>
            exact absurd (by simp [ImportStatement.defaultName?, hb, Binding.defaultName?]) hdefault
        · have hnone : stmt.namespaceName? = none := congrArg Shim.namespaceName? (ofImport_named hb hnamed .process)
          rw [hnone] at hlone
          cases hlone
    rw [halone]
    simpa using madeUpDefault_ne name

/-! ## Reading back -/

/-- An import that binds a value, whatever its specifier and the names that it imports are spelled like, is stood in
for by constants with the names of its bindings, which take the properties that it imports; and the module is asked for
in one place, with the specifier. -/
theorem ofImport_readsBack {stmt : ImportStatement} (hg : stmt.Grammatical) (hfree : ∀ b ∈ stmt.bindings, b.IsFree)
    (target : Target) {dialect : Dialect} (hs : dialect.script = false) :
    (stmt.isSideEffectOnly = false ↔
        stmt.defaultName?.isSome ∨ stmt.namespaceName?.isSome ∨ stmt.named ≠ []) ∧
      (stmt.isSideEffectOnly = false → (Shim.ofImport stmt target).render ≠ [] ∧
        ∃ program, Program.ofSource? dialect (Shim.ofImport stmt target).render = some program ∧
          ReadsBack (Shim.ofImport stmt target).render stmt target program) := by
  refine ⟨stmt.isSideEffectOnly_eq_false_iff, fun hbinds => ?_⟩
  set shim := Shim.ofImport stmt target with hshim
  have hplan : (Plan.bindings shim).IsFree := ImportStatement.ofImport_isFree hfree target
  obtain ⟨first, rest, hdeclarations, hfirst, hrest⟩ := Shim.declarations_ofImport hbinds target
  rw [← hshim] at hdeclarations
  have hne : shim.declarations ≠ [] := by simp [hdeclarations]
  obtain ⟨program, left, hread, htrees, hrun⟩ := Plan.ofSource?_text hs hplan
  change program.trees = shim.declarations.map Declaration.tree at htrees
  have hnames : program.topNames = (Plan.bindings shim).names := by
    rw [program.topNames_eq]
    exact (congrArg (List.flatMap Tree.topNames) htrees).trans (Plan.bindings shim).topNames_trees
  have htext : (Plan.bindings shim).text = shim.render := rfl
  rw [htext] at hread hrun
  refine ⟨?_, program, hread, ?_, ?_, ?_, ?_, ?_, ?_⟩
  · have hpart := @Text.length_part_le_join "\n".toList _ _
      (List.mem_map_of_mem (f := Declaration.render) (hdeclarations ▸ List.mem_cons_self : first ∈ shim.declarations))
    have hwidth := width_le first
    intro hnil
    change first.render.length ≤ shim.render.length at hpart
    rw [hnil, List.length_nil] at hpart
    omega
  · exact constants_of_run hplan hne htrees hrun
  · rw [hnames, names_ofImport hg]
  · rw [hnames, names_ofImport hg]
    exact names_nodup hg
  · rw [htrees, List.flatMap_map]
    exact (congrArg (List.flatMap · shim.declarations) (funext Declaration.takenProperties_tree)).trans
      shim.properties_declarations
  · rw [htrees, hdeclarations]
    exact (subtreesOf_declarations hfirst hrest).1
  · rw [htrees, hdeclarations]
    exact (subtreesOf_declarations hfirst hrest).2

/-- An import that no name in it, nor its specifier, makes easy: a quote, a backslash and a reserved word among them. -/
def hostileImport : ImportStatement where
  source := "\"); b(\\\u2028"
  bindings := [.defaultAs "d", .named "x\ny" "x" false, .named "T" "T" true, .named "default" "e" false]

theorem ofImport_readsBack_hostileImport :
    hostileImport.Grammatical ∧ (∀ b ∈ hostileImport.bindings, b.IsFree) ∧ ∃ program,
      Program.ofSource? {} (Shim.ofImport hostileImport (.require hostileImport.source)).render = some program ∧
        program.topNames = ["d".toList, "x".toList, "e".toList] ∧
        program.trees.flatMap Tree.takenProperties = [("x\ny".toList, "x".toList), ("default".toList, "e".toList)] ∧
        (Tree.subtreesOf program.trees).filterMap Tree.calledWith? = ["\"); b(\\\u2028".toList] := by
  have hg : hostileImport.Grammatical :=
    ⟨⟨some "d", [.named "x\ny" "x" false, .named "T" "T" true, .named "default" "e" false], rfl, .inr (by simp)⟩,
      by decide⟩
  have hfree : ∀ b ∈ hostileImport.bindings, b.IsFree := by
    have hname : Free "d" ∧ Free "x" ∧ Free "T" ∧ Free "e" := by
      refine ⟨?_, ?_, ?_, ?_⟩ <;> exact ⟨by decide, by decide, by decide⟩
    simpa [hostileImport, Binding.IsFree] using hname
  obtain ⟨-, hreads⟩ := ofImport_readsBack hg hfree (.require hostileImport.source)
    (show ({} : Dialect).script = false from rfl)
  obtain ⟨-, program, hprogram, hback⟩ := hreads rfl
  exact ⟨hg, hfree, program, hprogram, hback.names, hback.properties, hback.calls⟩

end CjsInterop
