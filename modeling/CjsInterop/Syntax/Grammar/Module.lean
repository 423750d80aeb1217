import CjsInterop.Syntax.Grammar.Statement

/-! Imports and exports. -/

namespace CjsInterop.Syntax.Reader

/-! ## Imports -/

/-- A name as an import or export spells it: any word, or a well-formed string. -/
structure ModuleName where
  text : Text
  /-- The name is the name of a variable as well. -/
  isVariable : Bool
  isString : Bool

def moduleName : Reader ModuleName := do
  match ← token with
  | .word name _ =>
    let isVariable := (← token).isVariable
    bump
    return ⟨name, isVariable, false⟩
  | .string value wellFormed =>
    flawIf !wellFormed
    bump
    return ⟨value, false, true⟩
  | _ => failure

/-- The names of one member of the braces of an import or export, and whether it is marked as a type. -/
structure ModuleSpecifier where
  outer : ModuleName
  inner : Option ModuleName
  isType : Bool

def isNameToken (t : Token) : Bool :=
  t.isAnyWord || match t with
    | .string _ _ => true
    | _ => false

/-- `name as name`, with `type` before it where types exist. `type` and `as` are also names; `type as
as` renames `type`, `type as as as` renames the type `as`. -/
def moduleSpecifier : Reader ModuleSpecifier := do
  let startsWithType ← isAtWord "type"
  let first ← moduleName
  if startsWithType && (← isTypescript) && isNameToken (← token) then
    if ← eatWord "as" then
      if ← isAtWord "as" then
        let second ← moduleName
        if isNameToken (← token) then return ⟨⟨"as", true, false⟩, some (← moduleName), true⟩
        else return ⟨first, some second, false⟩
      else if isNameToken (← token) then return ⟨first, some (← moduleName), false⟩
      else return ⟨⟨"as", true, false⟩, none, true⟩
    else
      let outer ← moduleName
      if ← eatWord "as" then return ⟨outer, some (← moduleName), true⟩
      else return ⟨outer, none, true⟩
  else if ← eatWord "as" then return ⟨first, some (← moduleName), false⟩
  else return ⟨first, none, false⟩

/-- Items of a kind that has no tree. -/
def collectUntil {α : Type} (close : Text) (item : Reader α) : Reader (List α) := do
  let rec go : Nat → List α → Reader (List α)
    | 0, _ => failure
    | n + 1, done => do
      if ← eat close then return done.reverse
      else
        let a ← item
        if ← eat close then return (a :: done).reverse
        else
          expect ","
          go n (a :: done)
  go (← read).limit []

/-- A local name: that of a variable. -/
def localName (name : ModuleName) : Reader Text := do
  refuseIf (!name.isVariable || name.isString)
  checkName name.text
  flawIf (name.text == "yield" || name.text == "await")
  return name.text

def namedBindings : Reader (List Binding) := do
  expect "\x7b"
  collectUntil "\x7d" do
    let s ← moduleSpecifier
    let name ← localName (s.inner.getD s.outer)
    return .named s.outer.text name s.isType

def bindingName : Reader Text := do
  match (← token).asVariable? with
  | none => failure
  | some name =>
    checkName name
    bump
    return name

def namespaceBinding : Reader Binding := do
  expect "*"
  expectWord "as"
  return .namespaceAs (← bindingName)

/-- The bindings behind a default binding, if there is one. -/
def importClause (first : Option Text) : Reader (List Binding) := do
  match first with
  | some name =>
    if ← eat "," then
      if ← isAt "*" then return [.defaultAs name, ← namespaceBinding]
      else return .defaultAs name :: (← namedBindings)
    else return [.defaultAs name]
  | none =>
    if ← isAt "*" then return [← namespaceBinding]
    else namedBindings

def moduleString : Reader Text := do
  match ← token with
  | .string value _ =>
    bump
    return value
  | _ => failure

/-- `with { key: 'value' }`; no key may be repeated. -/
def importAttributes : Reader Unit := do
  let isStart := (← isAtWord "with") || ((← isAtWord "assert") && !(← onNewLine))
  if isStart then
    bump
    expect "\x7b"
    let keys ← collectUntil "\x7d" do
      let key ← moduleName
      expect ":"
      discard moduleString
      return key.text
    flawIf (!keys.Nodup)

/-- `name = require('x')`, `name = a.b` -/
def importEquals : Reader Unit := do
  discard bindingName
  expect "="
  if (← isAtWord "require") && (← nextIs fun t _ => t.isMark "(") then
    bump
    bump
    discard moduleString
    expect ")"
  else entityName
  semicolon

/-- What stands between `import` and the source of the module. -/
structure ImportHead where
  isType : Bool := false
  bindings : List Binding

/-- `type` marks the whole import when a binding other than a default named `from` follows it. -/
def isTypeImport : Reader Bool := do
  if (← isTypescript) && (← isAtWord "type") then
    looksLike do
      bump
      let t ← token
      if t.isOneOfMarks ["*", "\x7b"] then return true
      else if t.isWord "from" then
        bump
        let t ← token
        return t.isWord "from" || t.isMark "="
      else return t.isVariable
  else return false

/-- `source` before a name, which may be `from` and is then the word before the module's string: then
nothing is bound. -/
def isSourceImport : Reader Bool := do
  if ← isAtWord "source" then nextIs fun t _ => t.isVariable else return false

def importHead : Reader ImportHead := do
  if ← isTypeImport then
    bump
    let first ← if (← token).isVariable then pure (some (← bindingName)) else pure none
    let bindings ← importClause first
    expectWord "from"
    return ⟨true, bindings⟩
  else if ← isSourceImport then
    bump
    if (← isAtWord "from") && !(← nextIs fun t _ => t.isWord "from") then
      bump
      return ⟨false, []⟩
    else
      let bindings ← importClause (some (← bindingName))
      expectWord "from"
      return ⟨false, bindings⟩
  else if (← isAtWord "defer") && (← nextIs fun t _ => t.isMark "*") then
    bump
    let binding ← namespaceBinding
    expectWord "from"
    return ⟨false, [binding]⟩
  else
    let startsWithType := (← isTypescript) && (← isAtWord "type")
    let first ← if (← token).isVariable then pure (some (← bindingName)) else pure none
    if startsWithType && (match ← token with | .string _ _ => true | _ => false) then
      return ⟨false, (first.map Binding.defaultAs).toList⟩
    else
      let bindings ← importClause first
      expectWord "from"
      return ⟨false, bindings⟩

def isImportEquals : Reader Bool := do
  if ← isTypescript then
    looksLike do
      if (← isAtWord "type") && (← nextIs fun t _ => t.isVariable) then bump
      refuseIf !(← token).isVariable
      bump
      isAt "="
  else return false

def importDeclaration : Reader Tree := do
  let start ← here
  expectWord "import"
  if ← isImportEquals then
    if (← isAtWord "type") && (← nextIs fun t _ => t.isVariable) then bump
    importEquals
    return .leaf .statement
  else
    let head ←
      match ← token with
      | .string _ _ => pure ⟨false, []⟩
      | _ => importHead
    let source ← moduleString
    importAttributes
    semicolon
    return .leaf (.importDeclaration ⟨⟨start, ← behind⟩, source, head.isType, head.bindings⟩)

/-- `import` begins a declaration here, and not an expression. -/
def isImportDeclaration : Reader Bool := do
  if ← isAtWord "import" then nextIs fun t _ => !t.isOneOfMarks ["(", "."] else return false

/-! ## Exports -/

def exportNode (names : List Text) (parts : List Tree) : Tree :=
  .node (.exportDeclaration names) parts

/-- `export * from 'x'`, `export * as name from 'x'` -/
def exportAll : Reader Tree := do
  expect "*"
  let names ← if ← eatWord "as" then pure [(← moduleName).text] else pure []
  expectWord "from"
  discard moduleString
  importAttributes
  semicolon
  return exportNode names []

/-- `export { a, b as c }`. Without a module to export from, the inner names are variables. -/
def exportNamed : Reader Tree := do
  expect "\x7b"
  let specifiers ← collectUntil "\x7d" moduleSpecifier
  if ← eatWord "from" then
    discard moduleString
    importAttributes
  else
    for s in specifiers do
      flawIf (s.outer.isString || !s.outer.isVariable)
  semicolon
  return exportNode (specifiers.map fun s => (s.inner.getD s.outer).text) []

/-- `export default` with a function, a class or an expression. -/
def exportDefault (p : Rules) : Reader Tree := do
  expectWord "default"
  let names : List Text := ["default"]
  if ← isFunctionStart then return exportNode names [← functionDeclaration p false]
  else if (← isAtWord "class") || (← isAt "@") then
    return exportNode names [← p .classExpression]
  else if (← isTypescript) && (← isAtWord "abstract") &&
      (← nextIs fun t newLine => t.isWord "class" && !newLine) then
    bump
    return exportNode names [← p .classExpression]
  else if (← isTypescript) && (← isAtWord "interface") &&
      (← nextIs fun t newLine => t.isVariable && !newLine) then
    return exportNode [] [← interfaceDeclaration p]
  else
    let t ← plainAssignment p
    semicolon
    return exportNode names [t]

/-- The names that a declaration declares. -/
def declarationNames : Tree → List Text
  | .node .declaration parts => Tree.declaredNamesOf parts
  | .node .function (.node (.declared n) _ :: _) => [n]
  | .node .classBody parts =>
    (parts.findSome? fun
      | .node (.declared n) _ => some n
      | _ => none).toList
  | _ => []

/-- A declaration of variables, a function or a class. -/
def plainDeclaration (p : Rules) : Reader Tree := do
  if ← isFunctionStart then functionDeclaration p true
  else if (← isAtWord "class") || (← isAt "@") then
    let decorators ← decorators p
    expectWord "class"
    return .node .classBody (decorators ++ (← classRest p true))
  else
    match ← variableWord? with
    | some constant => variableStatement p constant
    | none => failure

def declared (p : Rules) : Reader Tree := do
  if ← isTypeDeclaration then typeDeclaration p
  else if (← isAtWord "const") && (← isTypescript) && (← nextIs fun t _ => t.isWord "enum") then
    bump
    enumDeclaration p
  else if ← isDeclare then
    bump
    within (fun c => { c with ambient := true }) do
      if ← isTypeDeclaration then typeDeclaration p
      else if (← isAtWord "const") && (← nextIs fun t _ => t.isWord "enum") then
        bump
        enumDeclaration p
      else plainDeclaration p
  else plainDeclaration p

def exportDeclaration (p : Rules) : Reader Tree := do
  let before ← decorators p
  expectWord "export"
  let typescript ← isTypescript
  if ← isAt "*" then exportAll
  else if ← isAt "\x7b" then exportNamed
  else if ← isAtWord "default" then exportDefault p
  else if typescript && (← isAt "=") then
    bump
    let t ← plainExpression p
    semicolon
    return exportNode [] [t]
  else if typescript && (← isAtWord "as") && (← nextIs fun t _ => t.isWord "namespace") then
    bump
    bump
    discard bindingName
    semicolon
    return exportNode [] []
  else if typescript && (← isAtWord "import") then
    bump
    if (← isAtWord "type") && (← nextIs fun t _ => t.isVariable) then bump
    importEquals
    return exportNode [] []
  else if typescript && (← isAtWord "type") &&
      (← nextIs fun t _ => t.isOneOfMarks ["\x7b", "*"]) then
    bump
    if ← isAt "*" then exportAll else exportNamed
  else
    let t ← declared p
    return exportNode (declarationNames t) (before ++ [t])

/-! ## Items -/

/-- A decorator stands before a class, or before the export of one. -/
def isDecoratedExport (p : Rules) : Reader Bool := do
  if ← isAt "@" then
    looksLike do
      discard (decorators p)
      isAtWord "export"
  else return false

/-- A statement that is no declaration of variables, functions or classes. -/
def plainStatement (p : Rules) : Reader Tree := do
  let t ← token
  if t.isMark "\x7b" then block p
  else if t.isMark ";" then bump; return .leaf .statement
  else if t.isWord "if" then ifStatement p
  else if t.isWord "for" then forStatement p
  else if t.isWord "while" then whileStatement p
  else if t.isWord "do" then doStatement p
  else if t.isOneOfWords ["break", "continue"] then jumpStatement
  else if t.isWord "return" then returnStatement p
  else if t.isWord "with" then whileStatement p
  else if t.isWord "switch" then switchStatement p
  else if t.isWord "throw" then throwStatement p
  else if t.isWord "try" then tryStatement p
  else if t.isWord "debugger" then
    bump
    semicolon
    return .leaf .statement
  else expressionStatement p

/-- A variable, function or class is declared here. -/
def isPlainDeclaration : Reader Bool := do
  let t ← token
  if t.isOneOfWords ["var", "const", "class"] || t.isMark "@" then return true
  else if ← isFunctionStart then return true
  else if ← isLetDeclaration then return true
  else isUsingDeclaration

def item (p : Rules) : Reader Tree := do
  if ← isImportDeclaration then importDeclaration
  else if (← isAtWord "export") || (← isDecoratedExport p) then exportDeclaration p
  else if (← isPlainDeclaration) || (← isTypeDeclaration) || (← isDeclare) then declared p
  else plainStatement p

/-- The only statement of a loop or condition. Classes, lexical variables and functions that are more
than plain have no place there. -/
def statement (p : Rules) : Reader Tree := do
  let t ← token
  let lexical := t.isOneOfWords ["const", "class"] || (← isLetDeclaration) || (← isUsingDeclaration)
  let special := (← isFunctionStart) &&
    ((← isAtWord "async") || (← nextIs fun t _ => t.isMark "*"))
  flawIf (lexical || special)
  item p

end CjsInterop.Syntax.Reader
