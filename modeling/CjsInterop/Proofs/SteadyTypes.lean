import CjsInterop.Proofs.Steady
import CjsInterop.Syntax.Grammar.Function

/-! Patterns, types, functions and classes are steady, as far as the goals inside them are. -/

namespace CjsInterop.Syntax.Reader

/-- Readers for the goals of the grammar that are steady. Inside of markup tokens are read in a way of
their own, so that only markup in ordinary source ends at an ordinary token. -/
class SteadyRules (p : Rules) : Prop where
  goal : ∀ g, (∀ inChild, g ≠ .markup inChild) → Steady (p g)
  markup : ∀ inChild, Leads Anywhere (p (.markup inChild))
    (fun _ context cursor => inChild = false → Fresh context cursor)

namespace Steady

variable {p : Rules} [h : SteadyRules p]

instance : Steady (p .expression) := h.goal _ (by simp)
instance {b : Bool} : Steady (p (.assignment b)) := h.goal _ (by simp)
instance : Steady (p .unary) := h.goal _ (by simp)
instance : Steady (p .operand) := h.goal _ (by simp)
instance : Steady (p .callee) := h.goal _ (by simp)
instance : Steady (p .binding) := h.goal _ (by simp)
instance : Steady (p .item) := h.goal _ (by simp)
instance : Steady (p .statement) := h.goal _ (by simp)
instance : Steady (p .functionBody) := h.goal _ (by simp)
instance : Steady (p .classExpression) := h.goal _ (by simp)
instance : Steady (p .type) := h.goal _ (by simp)

instance : Steady (p (.markup false)) :=
  ⟨(h.markup false).weaken (fun _ _ _ => trivial) fun _ _ _ hf => hf rfl⟩

/-! ## Patterns -/

instance : Steady (plainExpression p) := by unfold plainExpression; infer_instance
instance : Steady (plainAssignment p) := by unfold plainAssignment; infer_instance
instance : Steady (initializer? p) := by unfold initializer?; infer_instance
instance {target : Tree} : Steady (withDefault p target) := by
  unfold withDefault
  exact .bind fun _ => by split <;> infer_instance
instance : Steady (annotation? p) := by unfold annotation?; infer_instance
instance : Steady (propertyName p) := by
  unfold propertyName
  exact .bind fun _ => by split <;> infer_instance
instance : Steady (bindingElement p) := by unfold bindingElement; infer_instance
instance {close : Text} {t : Tree} : Steady (lastBefore close t) := by unfold lastBefore; infer_instance
instance : Steady (arrayPattern p) := by unfold arrayPattern; infer_instance
instance : Steady (objectPattern p) := by
  unfold objectPattern
  repeat' first | infer_instance | refine .bind fun _ => ?_
instance : Steady (binding p) := by unfold binding; infer_instance
instance : Steady (decorators p) := by unfold decorators; infer_instance
instance : Steady parameterModifiers := by unfold parameterModifiers; infer_instance
instance : Steady (parameter p) := by
  unfold parameter
  repeat' first | infer_instance | refine .bind fun _ => ?_ | split
instance : Steady (parameters p) := by unfold parameters; infer_instance

/-! ## Types -/

instance : Steady openAngle := by
  unfold openAngle
  refine .bind fun _ => ?_
  split
  · exact ⟨(leads_anew Lexer.rereads_asSingleAngle).bind fun _ => leads_expect⟩
  · infer_instance
instance : Steady isAtAngle := by unfold isAtAngle; infer_instance
instance : Steady (typeArguments p) := by unfold typeArguments; infer_instance
instance : Steady (typeArguments? p) := by unfold typeArguments?; infer_instance
instance : Steady (typeParameter p) := by
  unfold typeParameter
  refine .bind fun _ => .bind fun _ => .bind fun _ => ?_
  split <;> infer_instance
instance : Steady (typeParameters p) := by unfold typeParameters; infer_instance
instance : Steady (typeParameters? p) := by unfold typeParameters?; infer_instance
instance : Steady (returnType p) := by
  unfold returnType
  refine .bind fun _ => .bind fun _ => ?_
  split <;> infer_instance
instance : Steady (returnType? p) := by unfold returnType?; infer_instance
instance : Steady (signature p) := by unfold signature; infer_instance
instance : Steady (functionType p) := by unfold functionType; infer_instance
instance : Steady isFunctionTypeStart := by unfold isFunctionTypeStart; infer_instance
instance : Steady (isPatternFunctionTypeStart p) := by unfold isPatternFunctionTypeStart; infer_instance
instance : Steady memberEnd := by unfold memberEnd; infer_instance
instance : Steady (indexSignature p) := by
  unfold indexSignature
  repeat' first | infer_instance | refine .bind fun _ => ?_
instance : Steady isIndexSignature := by unfold isIndexSignature; infer_instance
instance : Steady (typeMember p) := by
  unfold typeMember
  refine .bind fun _ => .bind fun _ => .bind fun _ => .bind fun _ => ?_
  extract_lets isConstruct named plain
  have hn : ∀ r, Steady (named r) := fun r => by
    unfold named
    infer_instance
  clear_value named
  have hp : ∀ r, Steady (plain r) := fun r => by
    unfold plain
    infer_instance
  clear_value plain
  infer_instance
instance : Steady (typeMembers p) := by unfold typeMembers; infer_instance
instance : Steady isMappedType := by unfold isMappedType; infer_instance
instance : Steady (mappedType p) := by
  unfold mappedType
  refine .bind fun _ => .within_of ?_
  repeat' first | infer_instance | refine .bind fun _ => ?_ | split
instance : Steady (tupleElement p) := by
  unfold tupleElement
  refine .bind fun _ => .bind fun _ => ?_
  split <;> infer_instance
instance : Steady entityName := by
  unfold entityName
  have hstep : Steady (repeatWhile fun _ => do
      if ← eat "." then
        match ← token with
        | .privateName _ => bump
        | _ => discard wordName
        return some []
      else return none) := by
    refine .repeatWhile_of fun _ => .bind fun _ => .ite (.bind fun _ => ?_) inferInstance
    split <;> infer_instance
  infer_instance
instance : Steady (typeReference p) := by unfold typeReference; infer_instance
instance : Steady (importType p) := by
  unfold importType
  repeat' first | infer_instance | refine .bind fun _ => ?_ | split
instance : Steady (templateType p) := by
  unfold templateType
  extract_lets stretch
  have hs : ∀ P, Leads P stretch (fun _ => P) := by
    intro P
    refine (leads_token (P := P)).bind fun t => ?_
    split
    · exact .pure fun _ _ h => h.1
    · exact .fail
  have : Steady stretch := ⟨hs _⟩
  refine .bind fun _ => .bind fun _ => .ite inferInstance ?_
  refine .bind_of (.repeatWhile_of fun done => ?_) inferInstance
  split
  · infer_instance
  · refine .bind fun _ => .bind fun _ => .bind fun _ => ?_
    refine ⟨(leads_anew Lexer.rereads_asTemplate).bind fun _ => ?_⟩
    exact (hs _).bind fun _ => leads_bump.bind fun _ => .pure fun _ _ h => h

instance : Steady (primaryType p) := by
  unfold primaryType
  repeat' first | infer_instance | refine .bind fun _ => ?_ | split
instance : Steady (postfixType p) := by
  unfold postfixType
  refine .bind fun _ => .bind_of (.repeatWhile_of fun _ => .bind fun _ => .bind fun _ => ?_) inferInstance
  infer_instance
instance : Steady (inferType p) := by
  unfold inferType
  repeat' first | infer_instance | refine .bind fun _ => ?_
instance : Steady (operatorType p) := by unfold operatorType; infer_instance
instance : Steady (unionType p) := by unfold unionType; infer_instance
instance : Steady (type p) := by
  unfold type
  repeat' first | infer_instance | refine .bind fun _ => ?_ | split

/-! ## Functions, classes and objects -/

instance {async generator : Bool} : KeepsDialect (Context.inFunction async generator) := ⟨fun _ => rfl⟩
instance {async generator : Bool} {size limit : Context → Nat} {f g h i j k l : Context → Bool} :
    KeepsDialect fun c =>
      ⟨(Context.inFunction async generator c).dialect, size c, limit c, f c, g c, h c, i c, j c, k c, l c⟩ :=
  ⟨fun _ => rfl⟩

instance : Steady (functionBody p) := by unfold functionBody; infer_instance
instance : Steady (optionalBody p) := by unfold optionalBody; infer_instance
instance {async generator bodyNeeded : Bool} : Steady (functionRest p async generator bodyNeeded) := by
  unfold functionRest
  infer_instance
instance : Steady (functionExpression p) := by
  unfold functionExpression
  infer_instance
instance {nameNeeded : Bool} : Steady (functionDeclaration p nameNeeded) := by
  unfold functionDeclaration
  repeat' first | infer_instance | refine .bind fun _ => ?_
instance {async generator bodyNeeded : Bool} {accessor : Option Text} :
    Steady (methodRest p async generator bodyNeeded accessor) := by
  unfold methodRest
  repeat' first | infer_instance | refine .bind fun _ => ?_ | split
instance {name : Text} {sameLine : Bool} : Steady (isModifier name sameLine) := by
  unfold isModifier
  infer_instance
instance {name : Text} : Steady (isAccessor name) := by unfold isAccessor; infer_instance
instance : Steady (objectMember p) := by
  unfold objectMember
  repeat' first | infer_instance | refine .bind fun _ => ?_ | refine .ite ?_ ?_ | split
instance {close : Text} {item : Reader Tree} [Steady item] : Steady (elements close item) := by
  unfold elements
  infer_instance
instance : Steady (objectLiteral p) := by unfold objectLiteral; infer_instance
instance : Steady (arrayLiteral p) := by unfold arrayLiteral; infer_instance
instance : Steady classModifier? := by
  unfold classModifier?
  exact .bind fun _ => by split <;> infer_instance
instance : Steady classModifiers := by
  unfold classModifiers
  have hgo : ∀ n done, Steady (classModifiers.go n done) := by
    intro n
    induction n with
    | zero => exact fun done => inferInstanceAs (Steady failure)
    | succ n ih =>
      intro done
      unfold classModifiers.go
      refine .bind fun r => ?_
      split <;> infer_instance
  infer_instance
instance : Steady (classKey p) := by
  unfold classKey
  exact .bind fun _ => by split <;> infer_instance
instance : Steady (classMember p) := by
  unfold classMember
  repeat' first | infer_instance | refine .bind fun _ => ?_ | refine .ite ?_ ?_
instance : Steady (classMembers p) := by unfold classMembers; infer_instance
instance {nameNeeded : Bool} : Steady (classRest p nameNeeded) := by
  unfold classRest
  repeat' first | infer_instance | refine .bind fun _ => ?_ | refine .ite ?_ ?_
instance : Steady (classExpression p) := by unfold classExpression; infer_instance

end Steady
end CjsInterop.Syntax.Reader
