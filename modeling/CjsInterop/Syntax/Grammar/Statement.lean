import CjsInterop.Syntax.Grammar.Expression

/-! Statements and declarations, imports and exports aside. -/

namespace CjsInterop.Syntax.Reader

def block (p : Rules) : Reader Tree := do
  expect "\x7b"
  return .node .statement (← untilMark "\x7d" (p .item))

/-! ## Variables -/

/-- Where declarations of variables stand. -/
inductive VariablePlace where
  | statement
  | loopHead

/-- One variable. Outside of loop heads a constant needs a value, and so does a pattern. -/
def declarator (p : Rules) (constant : Bool) (place : VariablePlace) : Reader Tree := do
  let target ← p .binding
  if (← isTypescript) && (← isAt "!") && !(← onNewLine) then bump
  let type ← annotation? p
  let value ← initializer? p
  let isPattern := match target with
    | .node .pattern _ => true
    | _ => false
  match place with
  | .statement =>
    let context ← read
    flawIf (value.isNone && (constant || isPattern) && !context.ambient)
  | .loopHead => pure ()
  match value with
  | some v => return .node .defaulted (target :: v :: type)
  | none => return if type.isEmpty then target else .node .defaulted (target :: type)

def declarators (p : Rules) (constant : Bool) (place : VariablePlace) :
    Reader (List Tree) := do
  let first ← declarator p constant place
  let more ← repeatWhile fun done => do
    if ← eat "," then return some ((← declarator p constant place) :: done)
    else return none
  return first :: more

/-- `var`, `let` and `const` declarations, the word taken. -/
def variableStatement (p : Rules) (constant : Bool) : Reader Tree := do
  let parts ← declarators p constant .statement
  semicolon
  return .node .declaration parts

/-- `let` begins a declaration, and is not a variable of that name. -/
def isLetDeclaration : Reader Bool := do
  if ← isAtWord "let" then
    nextIs fun t _ => (t.isAnyWord && !t.isWord "in") || t.isOneOfMarks ["\x7b", "["]
  else return false

/-- `using name` and `await using name` on one line. -/
def isUsingDeclaration : Reader Bool := do
  let isName (t : Token) (newLine : Bool) : Bool := t.isVariable && !newLine
  if ← isAtWord "using" then
    looksLike do
      bump
      refuseIf !isName (← token) (← onNewLine)
      if ← isAtWord "of" then
        bump
        return (← token).isOneOfMarks ["=", ";", ":", ","]
      else return true
  else if ← isAtWord "await" then
    looksLike do
      bump
      refuseIf (← onNewLine)
      expectWord "using"
      return isName (← token) (← onNewLine)
  else return false

/-- The words of a declaration, if one begins here: whether it is a constant. -/
def variableWord? : Reader (Option Bool) := do
  if ← isAtWord "var" then bump; return some false
  else if ← isAtWord "const" then bump; return some true
  else if ← isLetDeclaration then bump; return some false
  else if ← isUsingDeclaration then
    discard (eatWord "await")
    bump
    return some true
  else return none

/-! ## Control flow -/

def condition (p : Rules) : Reader Tree := do
  expect "("
  let t ← plainExpression p
  expect ")"
  return t

def ifStatement (p : Rules) : Reader Tree := do
  bump
  let test ← condition p
  let yes ← p .statement
  let no ← if ← eatWord "else" then pure [← p .statement] else pure []
  return .node .statement (test :: yes :: no)

def whileStatement (p : Rules) : Reader Tree := do
  bump
  let test ← condition p
  return .node .statement [test, ← p .statement]

/-- A semicolon after the condition is optional, on any line. -/
def doStatement (p : Rules) : Reader Tree := do
  bump
  let body ← p .statement
  expectWord "while"
  let test ← condition p
  discard (eat ";")
  return .node .statement [body, test]

/-- What follows the first part of a loop over a counter. -/
def counterLoop (p : Rules) (first : List Tree) : Reader Tree := do
  expect ";"
  let test ← if ← isAt ";" then pure [] else pure [← plainExpression p]
  expect ";"
  let update ← if ← isAt ")" then pure [] else pure [← plainExpression p]
  expect ")"
  return .node .statement (first ++ test ++ update ++ [← p .statement])

/-- What follows the target of a loop over values or keys. -/
def memberLoop (p : Rules) (awaits : Bool) (target : List Tree) : Reader Tree := do
  let values ← isAtWord "of"
  refuseIf (awaits && !values)
  bump
  let source ← if values then plainAssignment p else plainExpression p
  expect ")"
  return .node .statement (target ++ [source, ← p .statement])

def isMemberLoop : Reader Bool := return (← token).isOneOfWords ["of", "in"]

def forStatement (p : Rules) : Reader Tree := do
  bump
  let awaits ← eatWord "await"
  flawIf (awaits && !(← read).await)
  expect "("
  if ← isAt ";" then
    refuseIf awaits
    counterLoop p []
  else
    let startsAsync := (← isAtWord "async") && (← nextIs fun t _ => t.isWord "of")
    let startsLet ← isAtWord "let"
    match ← within (fun c => { c with inOperator := false }) variableWord? with
    | some constant =>
      let parts ←
        within (fun c => { c with inOperator := false }) (declarators p constant .loopHead)
      if ← isMemberLoop then memberLoop p awaits parts
      else
        refuseIf awaits
        let needsValue := parts.any fun
          | .node .pattern _ => true
          | .node (.declared _) _ => constant
          | _ => false
        flawIf needsValue
        counterLoop p parts
    | none =>
      let first ← within (fun c => { c with inOperator := false }) (p .expression)
      if ← isMemberLoop then
        flawIf ((← isAtWord "of") && (startsLet || (startsAsync && !awaits)))
        match first.toTarget? with
        | none => failure
        | some target => memberLoop p awaits [target]
      else
        refuseIf awaits
        counterLoop p [first]

/-- `break` and `continue`, with a label on the same line. -/
def jumpStatement : Reader Tree := do
  bump
  if !(← onNewLine) && (← token).isVariable then bump
  semicolon
  return .node .statement []

def returnStatement (p : Rules) : Reader Tree := do
  flawIf !(← read).returning
  bump
  if ← isAtStatementEnd then
    semicolon
    return .node .statement []
  else
    let t ← plainExpression p
    semicolon
    return .node .statement [t]

def throwStatement (p : Rules) : Reader Tree := do
  bump
  refuseIf (← onNewLine)
  let t ← plainExpression p
  semicolon
  return .node .statement [t]

def switchCase (p : Rules) : Reader Tree := do
  let test ←
    if ← eatWord "default" then pure []
    else
      expectWord "case"
      pure [← plainExpression p]
  expect ":"
  let body ← repeatWhile fun done => do
    if (← token).isOneOfWords ["case", "default"] || (← isAt "\x7d") then return none
    else return some ((← p .item) :: done)
  return .node .statement (test ++ body)

def switchStatement (p : Rules) : Reader Tree := do
  bump
  let value ← condition p
  expect "\x7b"
  let cases ← untilMark "\x7d" (switchCase p)
  return .node .statement (value :: cases)

def catchClause (p : Rules) : Reader Tree := do
  let param ←
    if ← eat "(" then
      let t ← p .binding
      let type ← annotation? p
      expect ")"
      pure (t :: type)
    else pure []
  return .node .statement (param ++ [← block p])

def tryStatement (p : Rules) : Reader Tree := do
  bump
  let body ← block p
  let handler ← if ← eatWord "catch" then pure [← catchClause p] else pure []
  let final ← if ← eatWord "finally" then pure [← block p] else pure []
  flawIf (handler.isEmpty && final.isEmpty)
  return .node .statement (body :: handler ++ final)

/-- An expression as a statement, or a label and the statement that it names. -/
def expressionStatement (p : Rules) : Reader Tree := do
  let t ← plainExpression p
  match t with
  | .node (.identifier _) _ =>
    if ← eat ":" then return .node .statement [← p .statement]
  | _ => pure ()
  semicolon
  return .node .statement [t]

/-! ## Declarations of types -/

def typeAlias (p : Rules) : Reader Tree := do
  expectWord "type"
  let name ← declaredName
  let types ← typeParameters? p
  expect "="
  let t ← p .type
  semicolon
  return .node .statement (name :: types ++ [t])

def interfaceDeclaration (p : Rules) : Reader Tree := do
  expectWord "interface"
  let name ← declaredName
  let types ← typeParameters? p
  let bases ← if ← eatWord "extends" then separatedBy "," (typeReference p) else pure []
  return .node .statement (name :: types ++ bases ++ (← typeMembers p))

def enumMember (p : Rules) : Reader Tree := do
  let key ← propertyName p
  let value ← initializer? p
  return .other (key :: value.toList)

def enumDeclaration (p : Rules) : Reader Tree := do
  expectWord "enum"
  let name ← declaredName
  expect "\x7b"
  return .node .statement (name :: (← commasUntil "\x7d" (enumMember p)))

/-- `namespace a.b { … }`, `module 'a' { … }`, `global { … }` -/
def moduleDeclaration (p : Rules) : Reader Tree := do
  if !(← eatWord "global") then
    bump
    match ← token with
    | .string _ _ => bump
    | _ => entityName
  if ← isAt "\x7b" then block p
  else
    semicolon
    return .node .statement []

/-- A word of a declaration of types stands here, with what it declares on the same line. -/
def isTypeDeclaration : Reader Bool := do
  if !(← isTypescript) then return false
  else if (← token).isOneOfWords ["type", "interface"] then
    nextIs fun t newLine => t.isVariable && !newLine
  else if (← token).isOneOfWords ["namespace", "module"] then
    nextIs fun t newLine => !newLine && (t.isVariable || match t with
      | .string _ _ => true
      | _ => false)
  else if ← isAtWord "global" then nextIs fun t _ => t.isMark "\x7b"
  else if ← isAtWord "abstract" then nextIs fun t newLine => t.isWord "class" && !newLine
  else isAtWord "enum"

def typeDeclaration (p : Rules) : Reader Tree := do
  if ← isAtWord "type" then typeAlias p
  else if ← isAtWord "interface" then interfaceDeclaration p
  else if ← isAtWord "enum" then enumDeclaration p
  else if ← eatWord "abstract" then
    expectWord "class"
    return .node .classBody (← classRest p true)
  else moduleDeclaration p

/-- `declare` before a declaration. -/
def isDeclare : Reader Bool := do
  if (← isTypescript) && (← isAtWord "declare") then
    nextIs fun t newLine => !newLine && t.isOneOfWords ["var", "let", "const", "function", "class",
      "abstract", "interface", "type", "enum", "namespace", "module", "global", "async", "import",
      "using"]
  else return false

end CjsInterop.Syntax.Reader
