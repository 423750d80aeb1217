import CjsInterop.Syntax.Grammar.Basic

/-! Binding patterns, property names and the parameters of functions. Readers take `p` for every goal
of the grammar that they lead back to. -/

namespace CjsInterop.Syntax

/-- The parts of the grammar that contain each other. -/
inductive Goal where
  | expression
  /-- An expression without commas. An arrow function may state its return type, unless a colon must
  still follow it. -/
  | assignment (returnType : Bool)
  | unary
  /-- Members and calls. -/
  | operand
  /-- What follows `new`: members without calls. -/
  | callee
  /-- A name or pattern that is declared. -/
  | binding
  /-- A statement or declaration in a list of them. -/
  | item
  /-- The only statement of a loop or condition. -/
  | statement
  | functionBody
  | classExpression
  | type
  | markup (inChild : Bool)
  deriving DecidableEq, Repr

abbrev Rules := Goal → Reader Tree

namespace Reader

def plainExpression (p : Rules) : Reader Tree :=
  within (fun c => { c with inOperator := true, decorator := false }) (p .expression)

def plainAssignment (p : Rules) : Reader Tree :=
  within (fun c => { c with inOperator := true, decorator := false }) (p (.assignment true))

/-- `= value`, if there is one. -/
def initializer? (p : Rules) : Reader (Option Tree) := do
  if ← eat "=" then return some (← p (.assignment true)) else return none

def withDefault (p : Rules) (target : Tree) : Reader Tree := do
  match ← initializer? p with
  | some value => return .node .defaulted [target, value]
  | none => return target

/-- `: type`, if there is one; only in a language with types. -/
def annotation? (p : Rules) : Reader (List Tree) := do
  if (← isTypescript) && (← isAt ":") then
    bump
    return [← within (fun c => { c with plainTypes := false }) (p .type)]
  else return []

/-- The name of a property, `#name` aside. -/
def propertyName (p : Rules) : Reader Tree := do
  match ← token with
  | .word name _ => bump; return .leaf (.propertyName name)
  | .string value _ => bump; return .leaf (.string value)
  | .number spelling => bump; return .leaf (.number spelling)
  | .bigint spelling => bump; return .leaf (.bigint spelling)
  | _ =>
    expect "["
    let key ← plainAssignment p
    expect "]"
    return key

def bindingElement (p : Rules) : Reader Tree := do
  withDefault p (← p .binding)

/-- A rest element must be the last and have no comma behind it. -/
def lastBefore (close : Text) (t : Tree) : Reader Tree := do
  refuseIf !(← isAt close)
  return .node .rest [t]

def arrayPattern (p : Rules) : Reader Tree := do
  expect "["
  let elements ← commasUntil "]" do
    if ← isAt "," then return .leaf .hole
    else if ← eat "..." then lastBefore "]" (← p .binding)
    else bindingElement p
  return .node .pattern elements

def objectPattern (p : Rules) : Reader Tree := do
  expect "\x7b"
  let members ← commasUntil "\x7d" do
    if ← eat "..." then lastBefore "\x7d" (← declaredName)
    else
      let shorthand ← nextIs fun t _ => t.isOneOfMarks [",", "=", "\x7d"]
      if (← token).isAnyWord && shorthand then
        let name ← declaredName
        withDefault p name
      else
        let key ← propertyName p
        expect ":"
        return .node .property [key, ← bindingElement p]
  return .node .pattern members

def binding (p : Rules) : Reader Tree := do
  if ← isAt "[" then within (fun c => { c with inOperator := true }) (arrayPattern p)
  else if ← isAt "\x7b" then within (fun c => { c with inOperator := true }) (objectPattern p)
  else declaredName

/-! ## Parameters -/

/-- `@expression`, any number of them. -/
def decorators (p : Rules) : Reader (List Tree) :=
  repeatWhile fun done => do
    if ← eat "@" then
      let t ← within (fun c => { c with decorator := true }) (p .operand)
      return some (t :: done)
    else return none

def isParameterStart (t : Token) : Bool :=
  t.isAnyWord || t.isOneOfMarks ["\x7b", "["]

/-- Words before a parameter that make it a member of the object. -/
def parameterModifiers : Reader Unit := do
  discard <| repeatWhile fun _ => do
    let isModifier := (← token).isOneOfWords
      ["public", "private", "protected", "readonly", "override"]
    if (← isTypescript) && isModifier && (← nextIs fun t _ => isParameterStart t) then
      bump
      return some []
    else return none

def parameter (p : Rules) : Reader Tree := do
  let decorators ← decorators p
  parameterModifiers
  if (← isTypescript) && (← isAtWord "this") then
    bump
    return .other (decorators ++ (← annotation? p))
  else if ← eat "..." then
    let target ← p .binding
    if ← isTypescript then discard (eat "?")
    let type ← annotation? p
    refuseIf !(← isAt ")")
    return .node .rest (decorators ++ target :: type)
  else
    let target ← p .binding
    if ← isTypescript then discard (eat "?")
    let type ← annotation? p
    let t ← withDefault p target
    return .other (decorators ++ t :: type)

def parameters (p : Rules) : Reader (List Tree) := do
  expect "("
  within (fun c => { c with inOperator := true, decorator := false, plainTypes := false })
    (commasUntil ")" (parameter p))

end Reader
end CjsInterop.Syntax
