import CjsInterop.Proofs.ChunkDecision
import CjsInterop.Proofs.ReplacementReading

/-! The names that the imports of a module declare are names that variables may have, and so are those that a
rewriting declares in their place. -/

namespace CjsInterop

namespace Syntax.Reader

/-! ## Unless a flaw was met -/

/-- An ordinary token of a module; `φ` holds unless a flaw was met. -/
def Unless (φ : Prop) (context : Context) (cursor : Cursor) : Prop :=
  Fresh context cursor ∧ context.await = true ∧ (cursor.flawed = false → φ)

/-- What holds of the results of a reader unless it meets a flaw. -/
def Yields {α : Type} (x : Reader α) (ψ : α → Prop) : Prop :=
  ∀ φ : Prop, Leads (Unless φ) x fun a => Unless (φ ∧ ψ a)

namespace Yields

variable {α β : Type} {x y : Reader α} {ψ ψ' : α → Prop} {ρ : β → Prop}

theorem of_leads [hx : Steady x]
    (h : ∀ context cursor a after, Fresh context cursor → context.await = true → x context cursor = some (a, after) →
      after.flawed = false → ψ a) : Yields x ψ := by
  intro φ context cursor a after ho hc hrun
  obtain ⟨hfresh, hawait, hφ⟩ := hc
  obtain ⟨hoa, hon, hfa⟩ := hx.leads context cursor a after ho hfresh hrun
  refine ⟨hoa, hon, hfa, hawait, fun hf => ⟨hφ ?_, h context cursor a after hfresh hawait hrun hf⟩⟩
  by_contra hflawed
  rw [hon.flawed (by simpa using hflawed)] at hf
  cases hf

theorem skip [Steady x] : Yields x fun _ => True := of_leads fun _ _ _ _ _ _ _ _ => trivial

theorem weaken (h : Yields x ψ) (hψ : ∀ a, ψ a → ψ' a) : Yields x ψ' := fun φ =>
  (h φ).weaken (fun _ _ h => h) fun _ _ _ h => ⟨h.1, h.2.1, fun hf => (h.2.2 hf).imp_right (hψ _)⟩

theorem bind {f : α → Reader β} (hx : Yields x ψ) (hf : ∀ a, Yields (f a) fun b => ψ a → ρ b) : Yields (x >>= f) ρ := by
  intro φ
  refine (hx φ).bind fun a => ((hf a) (φ ∧ ψ a)).weaken (fun _ _ h => h) fun b context cursor h => ?_
  exact ⟨h.1, h.2.1, fun hflawed => ⟨(h.2.2 hflawed).1.1, (h.2.2 hflawed).2 (h.2.2 hflawed).1.2⟩⟩

/-- Nothing of the first result is needed. -/
theorem next {f : α → Reader β} [Steady x] (hf : ∀ a, Yields (f a) ρ) : Yields (x >>= f) ρ :=
  skip.bind fun a => (hf a).weaken fun _ h _ => h

theorem pure {a : α} (h : ψ a) : Yields (pure a : Reader α) ψ := fun _ =>
  .pure fun _ _ hc => ⟨hc.1, hc.2.1, fun hf => ⟨hc.2.2 hf, h⟩⟩

theorem fail : Yields (failure : Reader α) ψ := fun _ => .fail

theorem ite {c : Prop} [Decidable c] (hx : Yields x ψ) (hy : Yields y ψ) : Yields (if c then x else y) ψ := fun φ =>
  .ite (fun _ => hx φ) fun _ => hy φ

end Yields

/-! ## Names -/

/-- A token that a source has is a word only if it is a name. -/
theorem Fresh.isName {context : Context} {cursor : Cursor} {name : Text} {escaped : Bool} (h : Fresh context cursor)
    (ht : cursor.lexeme.token = .word name escaped) : Text.isName name = true := by
  obtain ⟨atStart, h⟩ := h
  rw [h, Lexer.next] at ht
  split at ht
  · next onNewLine here _ =>
    cases hf : Lexer.token here with
    | none =>
      rw [hf] at ht
      cases ht
    | some found =>
      obtain ⟨t, rest⟩ := found
      rw [hf] at ht
      obtain rfl : t = .word name escaped := ht
      exact Lexer.isName_of_token hf
  · cases ht

theorem asVariable?_eq_some {t : Token} {name : Text} (h : t.asVariable? = some name) :
    ∃ escaped, t = .word name escaped ∧ name ∉ reservedWords := by
  unfold Token.asVariable? at h
  split at h
  · next n escaped =>
    split at h
    · cases h
    · next hn =>
      obtain rfl := Option.some.inj h
      exact ⟨escaped, rfl, hn⟩
  · cases h

/-- A checked name is no `await` unless a flaw was met. -/
theorem yields_checkName (name : Text) : Yields (checkName name) fun _ => name ≠ "await".toList := by
  refine .of_leads fun context cursor _ after _ hawait hrun hf he => ?_
  have hflaw : checkName name context cursor =
      (flawIf (context.yield && name == "yield")) context { cursor with flawed := true } := by
    simp only [checkName, bind_apply, read_apply, Option.bind_some, hawait, he, BEq.rfl, Bool.and_self]
    rfl
  rw [hflaw] at hrun
  have hstill : after.flawed = true := by
    cases hy : (context.yield && name == "yield".toList) <;> rw [hy] at hrun <;> cases hrun <;> rfl
  rw [hstill] at hf
  cases hf

theorem yields_bindingName : Yields bindingName Free := by
  have htoken : Yields token fun t => ∀ name escaped, t = .word name escaped → Text.isName name = true :=
    .of_leads fun context cursor t after hc _ hrun _ name escaped ht => by
      obtain ⟨rfl, -⟩ := Prod.mk.inj (Option.some.inj hrun)
      exact hc.isName ht
  refine htoken.bind fun t => ?_
  split
  · exact .fail
  · next name hv =>
    obtain ⟨escaped, rfl, hr⟩ := asVariable?_eq_some hv
    exact (yields_checkName name).bind fun _ => .next fun _ => .pure fun hawait ht => ⟨ht _ _ rfl, hr, hawait⟩

/-- What is known of a name that an import spells. -/
def ModuleName.IsVariable (name : ModuleName) : Prop :=
  name.isVariable = true → Text.isName name.text = true ∧ name.text ∉ reservedWords

theorem yields_moduleName : Yields moduleName ModuleName.IsVariable := by
  refine .of_leads fun context cursor name after hc _ hrun _ hv => ?_
  unfold moduleName at hrun
  cases ht : cursor.lexeme.token with
  | word n escaped =>
    simp only [bind_apply, token_apply, Option.bind_some, ht] at hrun
    obtain ⟨⟨_, middle⟩, -, hrun⟩ := Option.bind_eq_some_iff.1 hrun
    obtain ⟨rfl, -⟩ := Prod.mk.inj (Option.some.inj hrun)
    obtain ⟨w, hw⟩ := Option.isSome_iff_exists.1 hv
    obtain ⟨_, he, hr⟩ := asVariable?_eq_some hw
    cases he
    exact ⟨hc.isName ht, hr⟩
  | string value wellFormed =>
    simp only [bind_apply, token_apply, Option.bind_some, ht] at hrun
    obtain ⟨⟨_, middle⟩, -, hrun⟩ := Option.bind_eq_some_iff.1 hrun
    obtain ⟨⟨_, middle⟩, -, hrun⟩ := Option.bind_eq_some_iff.1 hrun
    obtain ⟨rfl, -⟩ := Prod.mk.inj (Option.some.inj hrun)
    cases hv
  | _ =>
    simp only [bind_apply, token_apply, Option.bind_some, ht] at hrun
    cases hrun

theorem yields_localName (name : ModuleName) : Yields (localName name) fun text => name.IsVariable → Free text := by
  have hrefuse : ∀ b, Yields (refuseIf b) fun _ => b = false := by
    intro b
    cases b
    · exact .pure rfl
    · exact .fail
  refine (hrefuse _).bind fun _ => (yields_checkName _).bind fun _ => .next fun _ => .pure fun hawait hb hv => ?_
  rw [Bool.or_eq_false_iff, Bool.not_eq_false'] at hb
  exact ⟨(hv hb.1).1, (hv hb.1).2, hawait⟩

/-- The name that a member of the braces declares. -/
def ModuleSpecifier.local (s : ModuleSpecifier) : ModuleName := s.inner.getD s.outer

theorem yields_moduleSpecifier : Yields moduleSpecifier fun s => s.local.IsVariable := by
  have has : ModuleName.IsVariable ⟨"as", true, false⟩ := fun _ => ⟨by decide, by decide⟩
  unfold moduleSpecifier
  refine .next fun _ => yields_moduleName.bind fun first => .next fun _ => .next fun _ => .ite ?_ ?_
  · refine .next fun _ => .ite ?_ (yields_moduleName.bind fun outer => .next fun _ => .ite ?_ ?_)
    · refine .next fun _ => .ite ?_ (.next fun _ => .ite ?_ ?_)
      · refine yields_moduleName.bind fun second => .next fun _ => .ite (yields_moduleName.bind fun inner => ?_) ?_
        · exact .pure fun h _ _ => h
        · exact .pure fun h _ => h
      · exact yields_moduleName.bind fun inner => .pure fun h _ => h
      · exact .pure fun _ => has
    · exact yields_moduleName.bind fun inner => .pure fun h _ _ => h
    · exact .pure fun h _ => h
  · refine .next fun _ => .ite ?_ ?_
    · exact yields_moduleName.bind fun inner => .pure fun h _ => h
    · exact .pure fun h => h

theorem yields_collectUntil {α : Type} {close : Text} {item : Reader α} {ψ : α → Prop} (h : Yields item ψ) :
    Yields (collectUntil close item) fun l => ∀ a ∈ l, ψ a := by
  have hgo : ∀ n done, Yields (collectUntil.go close item n done) fun l => (∀ a ∈ done, ψ a) → ∀ a ∈ l, ψ a := by
    intro n
    induction n with
    | zero => exact fun done => .fail
    | succ n ih =>
      intro done
      refine .next fun _ => .ite ?_ (h.bind fun a => .next fun _ => .ite ?_ (.next fun _ => ?_))
      · exact .pure fun hd a ha => hd a (List.mem_reverse.1 ha)
      · refine .pure fun ha hd b hb => ?_
        rcases List.mem_cons.1 (List.mem_reverse.1 hb) with rfl | hb
        · exact ha
        · exact hd b hb
      · exact (ih (a :: done)).weaken fun l hl ha hd => hl (by simpa using ⟨ha, hd⟩)
  exact .next fun _ => (hgo _ []).weaken fun _ hl => hl nofun

end Syntax.Reader

/-- A variable may have the name that is bound. -/
def Binding.IsFree : Binding → Prop
  | namespaceAs name => Syntax.Reader.Free name
  | defaultAs name => Syntax.Reader.Free name
  | named _ name _ => Syntax.Reader.Free name

namespace Syntax.Reader

theorem yields_namedBindings : Yields namedBindings fun l => ∀ b ∈ l, b.IsFree :=
  .next fun _ => yields_collectUntil (yields_moduleSpecifier.bind fun _ => (yields_localName _).bind fun _ =>
    .pure fun hfree hs => hfree hs)

theorem yields_namespaceBinding : Yields namespaceBinding Binding.IsFree :=
  .next fun _ => .next fun _ => yields_bindingName.bind fun _ => .pure id

theorem yields_importClause (first : Option Text) :
    Yields (importClause first) fun l => (∀ name, first = some name → Free name) → ∀ b ∈ l, b.IsFree := by
  cases first with
  | some name =>
    refine .next (x := eat ",") fun _ => .ite (.next fun _ => .ite ?_ ?_) ?_
    · refine yields_namespaceBinding.bind fun binding => .pure fun hb hn => ?_
      exact List.forall_mem_cons.2 ⟨hn name rfl, List.forall_mem_singleton.2 hb⟩
    · exact yields_namedBindings.bind fun l => .pure fun hl hn => List.forall_mem_cons.2 ⟨hn name rfl, hl⟩
    · exact .pure fun hn => List.forall_mem_singleton.2 (hn name rfl)
  | none =>
    refine .next (x := isAt "*") fun _ => .ite ?_ (yields_namedBindings.weaken fun l hl _ => hl)
    exact yields_namespaceBinding.bind fun binding => .pure fun hb _ => List.forall_mem_singleton.2 hb

theorem yields_firstName {α : Type} {f : Option Text → Reader α} {ρ : α → Prop} (c : Bool)
    (hf : ∀ first, Yields (f first) fun a => (∀ name, first = some name → Free name) → ρ a) :
    Yields (if c then do f (← pure (some (← bindingName))) else do f (← pure none)) ρ := by
  refine .ite (yields_bindingName.bind fun name => ?_) ((hf none).weaken fun _ h => h nofun)
  exact (hf (some name)).weaken fun _ h hn => h fun _ he => Option.some.inj he ▸ hn

theorem yields_importHead : Yields importHead fun head => ∀ b ∈ head.bindings, b.IsFree := by
  have hclause : ∀ (first : Option Text) (isType : Bool), Yields (do
      let bindings ← importClause first
      expectWord "from"
      return ⟨isType, bindings⟩ : Reader ImportHead) fun head =>
        (∀ name, first = some name → Free name) → ∀ b ∈ head.bindings, b.IsFree := fun first isType =>
    (yields_importClause first).bind fun l => .next fun _ => .pure fun hl hf => hl hf
  unfold importHead
  refine .next fun _ => .ite (.next fun _ => .next fun _ => ?_) (.next fun _ => .ite ?_ ?_)
  · exact yields_firstName _ fun first => hclause first true
  · refine .next fun _ => .next fun _ => .next fun _ => .ite (.next fun _ => .pure nofun) ?_
    exact yields_bindingName.bind fun name => (hclause (some name) false).weaken fun _ h hn =>
      h fun _ he => Option.some.inj he ▸ hn
  · refine .next fun _ => .next fun _ => .ite ?_ (.next fun _ => .next fun _ => .next fun _ => ?_)
    · refine .next fun _ => yields_namespaceBinding.bind fun b => .next fun _ => .pure fun hb => ?_
      exact List.forall_mem_singleton.2 hb
    · refine yields_firstName _ fun first => .next fun _ => .ite ?_ (hclause first false)
      refine .pure fun hf b hb => ?_
      cases first with
      | none => cases hb
      | some name =>
        obtain rfl := List.mem_singleton.1 hb
        exact hf name rfl

/-- An import declaration binds free names. -/
def BindsFree (tree : Tree) : Prop := ∀ decl, tree.form = .importDeclaration decl → ∀ b ∈ decl.bindings, b.IsFree

theorem yields_importDeclaration : Yields importDeclaration BindsFree := by
  have hstatement : Yields (pure (.leaf .statement)) BindsFree := .pure fun decl hf => by cases hf
  have hend : ∀ start source isType bindings, Yields (do
      let stop ← Reader.behind
      pure (.leaf (.importDeclaration ⟨⟨start, stop⟩, source, isType, bindings⟩)))
        fun tree => (∀ b ∈ bindings, b.IsFree) → BindsFree tree := fun start source isType bindings =>
    .next fun _ => .pure fun hb decl hf => by
      cases hf
      exact hb
  refine .next fun _ => .next fun _ => .next fun _ => .ite ?_ ?_
  · refine .next fun _ => .next fun _ => ?_
    split
    · exact .next fun _ => .next fun _ => hstatement
    · exact .next fun _ => hstatement
  · refine .next fun t => ?_
    split
    · have hnone : Yields (pure ⟨false, []⟩ : Reader ImportHead) fun head => ∀ b ∈ head.bindings, b.IsFree :=
        .pure fun b hb => absurd hb List.not_mem_nil
      exact hnone.bind fun head => .next fun _ => .next fun _ => .next fun _ => hend _ _ _ _
    · exact yields_importHead.bind fun head => .next fun _ => .next fun _ => .next fun _ => hend _ _ _ _

theorem yields_item {p : Rules} [SteadyRules p] : Yields (item p) BindsFree := by
  rw [item_eq]
  refine .next fun _ => .ite yields_importDeclaration (.of_leads fun context cursor tree after _ _ hrun _ decl hf => ?_)
  exact absurd hf (Ordinary.gives (x := otherItem p) _ _ _ _ hrun decl)

theorem ItemRun.bindsFree {p : Rules} [SteadyRules p] {context : Context} {cursor final : Cursor} {items : List Item}
    (hitem : Yields (p .item) BindsFree) (h : ItemRun p context cursor items final) (hc : Fresh context cursor)
    (hw : context.await = true) (hf : final.flawed = false) : ∀ i ∈ items, BindsFree i.tree := by
  induction h with
  | stop => exact nofun
  | @item cursor after final tree items _ hread hrun ih =>
    obtain ⟨-, -, ha⟩ := Steady.leads (x := p .item) _ _ _ _ hc.ordered hc hread
    obtain ⟨-, -, -, -, hfree⟩ := hitem True _ _ _ _ hc.ordered ⟨hc, hw, fun _ => trivial⟩ hread
    intro i hi
    rcases List.mem_cons.1 hi with rfl | hi
    · exact (hfree (hrun.unflawed ha hf)).2
    · exact ih ha hf i hi

end Syntax.Reader

/-- The imports of a module bind free names. -/
theorem Syntax.Program.imports_free {dialect : Syntax.Dialect} {source : Text} {program : Syntax.Program}
    (hs : dialect.script = false) (h : ofSource? dialect source = some program) :
    ∀ stmt ∈ program.imports, ∀ b ∈ stmt.bindings, b.IsFree := by
  obtain ⟨depth, final, hrun, hf⟩ := exists_run h
  have hfree := hrun.bindsFree (Syntax.Reader.yields_item (p := Syntax.rules depth)) (firstCursor_fresh _ _)
    (by simp [topContext, hs]) hf
  intro stmt hstmt
  obtain ⟨item, hitem, hform⟩ := exists_item hstmt
  exact hfree item hitem stmt hform

/-! ## Names of replacements -/

namespace ImportStatement

open Syntax.Reader (Free)

variable {stmt : ImportStatement}

theorem free_madeUpDefault {name : Text} (h : Free name) : Free (Shim.madeUpDefault name) := by
  have hhead : ∀ w ∈ Syntax.reservedWords, w.head? ≠ some '_' := by decide
  obtain ⟨c, more, rfl, hstart⟩ := Syntax.Lexer.exists_start h.isName
  have hmore : more.all Text.isNamePart = true := by
    have hname := h.isName
    simp only [Text.isName, Bool.and_eq_true] at hname
    exact hname.2
  have hall : ("_cjs_".toList ++ (c :: more) ++ "_default".toList).all Text.isNamePart = true := by
    have hfront : "_cjs_".toList.all Text.isNamePart = true := by decide
    have hback : "_default".toList.all Text.isNamePart = true := by decide
    rw [List.all_append, List.all_append, hfront, hback, List.all_cons, Text.isNamePart_of_isNameStart hstart, hmore]
    rfl
  refine ⟨?_, fun hw => hhead _ hw rfl, fun he => ?_⟩
  · change (Text.isNameStart '_' && ("_cjs_".toList ++ (c :: more) ++ "_default".toList).all Text.isNamePart) = true
    rw [hall]
    rfl
  · have hfirst : some '_' = some 'a' := congrArg List.head? he
    exact absurd hfirst (by decide)

theorem free_default (h : ∀ b ∈ stmt.bindings, b.IsFree) {name : Text} (hn : stmt.defaultName? = some name) :
    Free name := by
  obtain ⟨b, hb, he⟩ := List.exists_of_findSome?_eq_some hn
  cases b <;> cases he
  exact h _ hb

theorem free_namespace (h : ∀ b ∈ stmt.bindings, b.IsFree) {name : Text} (hn : stmt.namespaceName? = some name) :
    Free name := by
  obtain ⟨b, hb, he⟩ := List.exists_of_findSome?_eq_some hn
  cases b <;> cases he
  exact h _ hb

theorem free_named (h : ∀ b ∈ stmt.bindings, b.IsFree) : ∀ entry ∈ stmt.named, Free entry.2 := by
  intro entry hm
  obtain ⟨b, hb, he⟩ := List.mem_filterMap.1 hm
  cases b with
  | named imported name isType =>
    cases isType <;> cases he
    exact h _ hb
  | _ => cases he

/-- Variables may have all names in the declarations that stand in for free names. -/
theorem ofImport_isFree (h : ∀ b ∈ stmt.bindings, b.IsFree) (target : Target) :
    (Plan.bindings (Shim.ofImport stmt target)).IsFree := by
  intro d hd
  have hwhole : ∀ name, (Shim.ofImport stmt target).defaultName? = some name → Free name := by
    intro name hn
    rcases Option.or_eq_some_iff.1 hn with hn | ⟨-, hn⟩
    · exact free_default h hn
    · obtain ⟨ns, hns, rfl⟩ := Option.map_eq_some_iff.1 hn
      exact free_madeUpDefault (free_namespace h hns)
  rw [Shim.declarations, List.mem_append, List.mem_append] at hd
  rcases hd with (hd | hd) | hd
  · unfold Shim.valueDeclarations at hd
    split at hd
    · next whole hw =>
      obtain rfl := List.mem_singleton.1 hd
      exact ⟨hwhole whole hw, Syntax.Reader.free_targetWord _⟩
    · cases hd
  · unfold Shim.namespaceDeclarations at hd
    split at hd
    · next name whole hn hw =>
      obtain rfl := List.mem_singleton.1 hd
      exact ⟨free_namespace h hn, hwhole whole hw⟩
    · cases hd
  · unfold Shim.namedDeclarations at hd
    split at hd
    · cases hd
    · next hne =>
      obtain rfl := List.mem_singleton.1 hd
      refine ⟨hne, free_named h, ?_⟩
      cases hw : (Shim.ofImport stmt target).defaultName? with
      | none => exact Syntax.Reader.free_targetWord _
      | some whole => exact hwhole whole hw

theorem plan_isFree (h : ∀ b ∈ stmt.bindings, b.IsFree) : stmt.plan.IsFree := by
  unfold plan
  split
  · split <;> trivial
  · exact ofImport_isFree h _

end ImportStatement
end CjsInterop
