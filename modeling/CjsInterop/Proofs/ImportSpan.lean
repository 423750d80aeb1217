import CjsInterop.Proofs.SteadyRules

/-! An import declaration knows its own stretch of the source, and no other item is one. -/

namespace CjsInterop.Syntax.Reader

/-- What holds of every result that a reader comes to. -/
def Gives {α : Type} (x : Reader α) (Q : α → Context → Cursor → Prop) : Prop :=
  ∀ context cursor a after, x context cursor = some (a, after) → Q a context after

namespace Gives

variable {α β : Type} {x y : Reader α} {f : α → Reader β} {Q : β → Context → Cursor → Prop}

theorem bind (h : ∀ a, Gives (f a) Q) : Gives (x >>= f) Q := by
  intro context cursor b after hx
  obtain ⟨⟨a, middle⟩, -, hrest⟩ := Option.bind_eq_some_iff.1 hx
  exact h a context middle b after hrest

theorem ite {c : Prop} [Decidable c] {x y : Reader β} (hx : Gives x Q) (hy : Gives y Q) :
    Gives (if c then x else y) Q := by
  split
  · exact hx
  · exact hy

theorem pure {b : β} (h : ∀ context cursor, Q b context cursor) : Gives (pure b : Reader β) Q := by
  intro context cursor a after hx
  obtain ⟨rfl, rfl⟩ := Prod.mk.inj (Option.some.inj hx)
  exact h _ _

theorem fail : Gives (failure : Reader β) Q := by
  intro context cursor a after hx
  cases hx

end Gives

/-! ## Import declarations -/

/-- A reader whose tree is no import declaration. -/
class Ordinary (x : Reader Tree) : Prop where
  gives : Gives x fun t _ _ => ∀ decl, t.form ≠ .importDeclaration decl

namespace Ordinary

variable {α : Type} {p : Rules}

instance {x : Reader α} {f : α → Reader Tree} [h : ∀ a, Ordinary (f a)] : Ordinary (x >>= f) :=
  ⟨.bind fun a => (h a).gives⟩

theorem bind {x : Reader α} {f : α → Reader Tree} (h : ∀ a, Ordinary (f a)) : Ordinary (x >>= f) := inferInstance

instance {c : Prop} [Decidable c] {x y : Reader Tree} [hx : Ordinary x] [hy : Ordinary y] :
    Ordinary (if c then x else y) := ⟨.ite hx.gives hy.gives⟩

theorem ite {c : Prop} [Decidable c] {x y : Reader Tree} (hx : Ordinary x) (hy : Ordinary y) :
    Ordinary (if c then x else y) := inferInstance

instance : Ordinary failure := ⟨.fail⟩

instance {change : Context → Context} {x : Reader Tree} [hx : Ordinary x] : Ordinary (within change x) :=
  ⟨fun context cursor a after h => hx.gives (change context) cursor a after h⟩

instance {parts : List Tree} : Ordinary (pure (.node .statement parts)) := ⟨.pure fun _ _ => nofun⟩
instance {parts : List Tree} : Ordinary (pure (.node .declaration parts)) := ⟨.pure fun _ _ => nofun⟩
instance {parts : List Tree} : Ordinary (pure (.node .function parts)) := ⟨.pure fun _ _ => nofun⟩
instance {parts : List Tree} : Ordinary (pure (.node .classBody parts)) := ⟨.pure fun _ _ => nofun⟩
instance {names : List Text} {parts : List Tree} : Ordinary (pure (exportNode names parts)) :=
  ⟨.pure fun _ _ => nofun⟩
instance : Ordinary (pure (.leaf .statement)) := ⟨.pure fun _ _ => nofun⟩

instance : Ordinary (block p) := by unfold block; infer_instance
instance : Ordinary (ifStatement p) := by unfold ifStatement; infer_instance
instance : Ordinary (whileStatement p) := by unfold whileStatement; infer_instance
instance : Ordinary (doStatement p) := by unfold doStatement; infer_instance
instance {first : List Tree} : Ordinary (counterLoop p first) := by
  unfold counterLoop
  repeat' first | infer_instance | refine .bind fun _ => ?_
instance {awaits : Bool} {target : List Tree} : Ordinary (memberLoop p awaits target) := by
  unfold memberLoop
  infer_instance
instance : Ordinary (forStatement p) := by
  unfold forStatement
  repeat' first | infer_instance | refine .bind fun _ => ?_ | refine .ite ?_ ?_ | split
instance : Ordinary jumpStatement := by unfold jumpStatement; infer_instance
instance : Ordinary (returnStatement p) := by unfold returnStatement; infer_instance
instance : Ordinary (throwStatement p) := by unfold throwStatement; infer_instance
instance : Ordinary (switchStatement p) := by unfold switchStatement; infer_instance
instance : Ordinary (tryStatement p) := by
  unfold tryStatement
  repeat' first | infer_instance | refine .bind fun _ => ?_
instance : Ordinary (expressionStatement p) := by
  unfold expressionStatement
  refine .bind fun t => ?_
  split <;> infer_instance
instance : Ordinary (plainStatement p) := by unfold plainStatement; infer_instance

instance {needed : Bool} : Ordinary (functionDeclaration p needed) := by unfold functionDeclaration; infer_instance
instance {constant : Bool} : Ordinary (variableStatement p constant) := by unfold variableStatement; infer_instance
instance : Ordinary (typeAlias p) := by unfold typeAlias; infer_instance
instance : Ordinary (interfaceDeclaration p) := by unfold interfaceDeclaration; infer_instance
instance : Ordinary (enumDeclaration p) := by unfold enumDeclaration; infer_instance
instance : Ordinary (moduleDeclaration p) := by
  unfold moduleDeclaration
  repeat' first | infer_instance | refine .bind fun _ => ?_ | refine .ite ?_ ?_ | split
instance : Ordinary (typeDeclaration p) := by
  unfold typeDeclaration
  repeat' first | infer_instance | refine .bind fun _ => ?_
instance : Ordinary (plainDeclaration p) := by
  unfold plainDeclaration
  refine .bind fun _ => .ite inferInstance (.bind fun _ => .bind fun _ => .ite inferInstance (.bind fun _ => ?_))
  split <;> infer_instance
instance : Ordinary (declared p) := by
  unfold declared
  repeat' first | infer_instance | refine .bind fun _ => ?_ | refine .ite ?_ ?_

instance : Ordinary exportAll := by
  unfold exportAll
  repeat' first | infer_instance | refine .bind fun _ => ?_
instance : Ordinary exportNamed := by unfold exportNamed; infer_instance
instance : Ordinary (exportDefault p) := by
  unfold exportDefault
  repeat' first | infer_instance | refine .bind fun _ => ?_
instance : Ordinary (exportDeclaration p) := by
  unfold exportDeclaration
  repeat' first | infer_instance | refine .bind fun _ => ?_ | refine .ite ?_ ?_

end Ordinary

/-- The byte of the source at which an end of it begins. -/
def place (context : Context) (text : Text) : Nat :=
  context.size - Text.byteLength text

theorem leads_isImportDeclaration {P : Context → Cursor → Prop} : Leads P isImportDeclaration (fun _ => P) := by
  unfold isImportDeclaration
  refine (Leads.stay fun _ _ _ _ h => (Prod.mk.inj (Option.some.inj h)).2.symm).bind fun _ => ?_
  exact .ite (fun _ => leads_looksLike) fun _ => .pure fun _ _ h => h

/-- If the tree is an import declaration, then its stretch is what was read from byte `start` on. -/
def SpansFrom (start : Nat) (tree : Tree) (context : Context) (after : Cursor) : Prop :=
  ∀ decl, tree.form = .importDeclaration decl → decl.span = ⟨start, place context after.behind⟩

theorem importDeclaration_span {context : Context} {cursor after : Cursor} {tree : Tree}
    (h : importDeclaration context cursor = some (tree, after)) :
    SpansFrom (place context cursor.lexeme.here) tree context after := by
  have hstatement : ∀ start, Gives (pure (.leaf .statement)) (SpansFrom start) :=
    fun _ => .pure fun _ _ => nofun
  have hend : ∀ start source isType bindings, Gives (do
      let stop ← Reader.behind
      pure (.leaf (.importDeclaration ⟨⟨start, stop⟩, source, isType, bindings⟩))) (SpansFrom start) := by
    intro start source isType bindings context cursor tree after h decl hf
    obtain ⟨rfl, rfl⟩ := Prod.mk.inj (Option.some.inj h)
    cases hf
    rfl
  -- the first step only notes where the declaration begins
  obtain ⟨⟨_, middle⟩, -, h⟩ := Option.bind_eq_some_iff.1 h
  refine Gives.bind (fun _ => .ite ?_ ?_) context middle tree after h
  · refine .bind fun _ => .bind fun _ => ?_
    split
    · exact .bind fun _ => .bind fun _ => hstatement _
    · exact .bind fun _ => hstatement _
  · refine .bind fun t => ?_
    split
    · exact .bind fun _ => .bind fun _ => .bind fun _ => .bind fun _ => hend _ _ _ _
    · exact .bind fun _ => .bind fun _ => .bind fun _ => .bind fun _ => hend _ _ _ _

/-- What an item is that is no import declaration. -/
def otherItem (p : Rules) : Reader Tree := do
  if (← isAtWord "export") || (← isDecoratedExport p) then exportDeclaration p
  else if (← isPlainDeclaration) || (← isTypeDeclaration) || (← isDeclare) then declared p
  else plainStatement p

theorem item_eq (p : Rules) : item p = (do if ← isImportDeclaration then importDeclaration else otherItem p) := rfl

instance {p : Rules} : Ordinary (otherItem p) := by unfold otherItem; infer_instance
instance {p : Rules} [SteadyRules p] : Steady (otherItem p) := by unfold otherItem; infer_instance

/-- An item that is an import declaration is read as one. -/
theorem item_importDeclaration {p : Rules} {context : Context} {cursor after : Cursor} {tree : Tree}
    {decl : ImportStatement} (ho : Ordered cursor) (h : item p context cursor = some (tree, after))
    (hf : tree.form = .importDeclaration decl) : importDeclaration context cursor = some (tree, after) := by
  rw [item_eq] at h
  obtain ⟨⟨isImport, middle⟩, hlook, h⟩ := Option.bind_eq_some_iff.1 h
  obtain ⟨-, -, rfl⟩ := leads_isImportDeclaration (P := fun _ c => c = cursor) _ _ _ _ ho rfl hlook
  cases isImport with
  | true => exact h
  | false => exact absurd hf (Ordinary.gives (x := otherItem p) _ _ _ _ h decl)

theorem item_span {p : Rules} {context : Context} {cursor after : Cursor} {tree : Tree} (ho : Ordered cursor)
    (h : item p context cursor = some (tree, after)) :
    SpansFrom (place context cursor.lexeme.here) tree context after :=
  fun decl hf => importDeclaration_span (item_importDeclaration ho h hf) decl hf

end CjsInterop.Syntax.Reader
