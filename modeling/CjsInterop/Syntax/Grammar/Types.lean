import CjsInterop.Syntax.Grammar.Pattern

/-! Types. They bind and export nothing that matters here, so that a type is a node without further
meaning. -/

namespace CjsInterop.Syntax.Reader

def typeNode (parts : List Tree) : Tree := .other parts

/-! ## Arguments and parameters of types -/

/-- An opening angle bracket, also the first of two. -/
def openAngle : Reader Unit := do
  if ← isAt "<<" then reread Lexer.asSingleAngle
  expect "<"

def isAtAngle : Reader Bool := do
  if ← isAt "<" then return true else isAt "<<"

def typeArguments (p : Rules) : Reader (List Tree) := do
  openAngle
  within (fun c => { c with plainTypes := false }) do
    let first ← p .type
    let more ← repeatWhile fun done => do
      if ← eat "," then return some ((← p .type) :: done) else return none
    expect ">"
    return first :: more

def typeArguments? (p : Rules) : Reader (List Tree) := do
  if (← isTypescript) && (← isAtAngle) then typeArguments p else return []

def typeParameter (p : Rules) : Reader Tree := do
  discard <| repeatWhile fun _ => do
    if (← token).isOneOfWords ["const", "in", "out"] &&
        (← nextIs fun t _ => t.isVariable || t.isOneOfWords ["in"]) then
      bump
      return some []
    else return none
  let name ← declaredName
  let bound ← if ← eatWord "extends" then pure [← p .type] else pure []
  let default ← if ← eat "=" then pure [← p .type] else pure []
  return .other (name :: bound ++ default)

def typeParameters (p : Rules) : Reader (List Tree) := do
  openAngle
  within (fun c => { c with plainTypes := false }) do
    refuseIf (← isAt ">")
    commasUntil ">" (typeParameter p)

def typeParameters? (p : Rules) : Reader (List Tree) := do
  if (← isTypescript) && (← isAtAngle) then typeParameters p else return []

/-! ## Functions -/

/-- A type, or a statement about a parameter: `x is T`, `asserts x`, `asserts x is T`. -/
def returnType (p : Rules) : Reader Tree := do
  let isSubject (t : Token) : Bool := t.isVariable || t.isWord "this"
  if (← isAtWord "asserts") && (← nextIs fun t newLine => isSubject t && !newLine) then
    bump
    bump
    if ← eatWord "is" then return typeNode [← p .type] else return typeNode []
  else if isSubject (← token) && (← nextIs fun t newLine => t.isWord "is" && !newLine) then
    bump
    bump
    return typeNode [← p .type]
  else p .type

def returnType? (p : Rules) : Reader (List Tree) := do
  if (← isTypescript) && (← isAt ":") then
    bump
    return [← within (fun c => { c with plainTypes := false }) (returnType p)]
  else return []

/-- `(parameters) : type` of a member or declaration. -/
def signature (p : Rules) : Reader (List Tree) := do
  let types ← typeParameters? p
  let params ← parameters p
  let result ← returnType? p
  return types ++ params ++ result

/-- `(parameters) => type` -/
def functionType (p : Rules) : Reader Tree := do
  discard (eatWord "abstract")
  discard (eatWord "new")
  let types ← typeParameters? p
  let params ← parameters p
  expect "=>"
  return typeNode (types ++ params ++ [← returnType p])

/-- A parenthesis here begins parameters, and not a type. -/
def isFunctionTypeStart : Reader Bool := do
  if (← isAt "<") || (← isAtWord "new") then return true
  else if (← isAtWord "abstract") && (← nextIs fun t _ => t.isWord "new") then return true
  else if ← isAt "(" then
    looksLike do
      bump
      if (← isAt ")") || (← isAt "...") then return true
      else
        parameterModifiers
        let t ← token
        if t.isVariable || t.isWord "this" then bump else failure
        if (← token).isOneOfMarks [":", ",", "?", "="] then return true
        else if ← eat ")" then isAt "=>"
        else return false
  else return false

/-- As `isFunctionTypeStart`, where the first parameter is a pattern. -/
def isPatternFunctionTypeStart (p : Rules) : Reader Bool :=
  looksLike do
    expect "("
    refuseIf !(← token).isOneOfMarks ["[", "\x7b"]
    discard (binding p)
    if (← token).isOneOfMarks [":", ",", "?", "="] then return true
    else if ← eat ")" then isAt "=>"
    else return false

/-! ## Members of object types -/

def memberEnd : Reader Unit := do
  if ← eat "," then pure () else semicolon

def indexSignature (p : Rules) : Reader Tree := do
  expect "["
  discard declaredName
  expect ":"
  let key ← p .type
  expect "]"
  let value ← annotation? p
  return typeNode (key :: value)

def isIndexSignature : Reader Bool :=
  looksLike do
    expect "["
    refuseIf !(← token).isVariable
    bump
    isAt ":"

def isNameStart (t : Token) : Bool :=
  t.isAnyWord || t.isMark "[" ||
    match t with
    | .string _ _ => true
    | .number _ => true
    | .bigint _ => true
    | .privateName _ => true
    | _ => false

def typeMember (p : Rules) : Reader Tree := do
  let isCall := (← isAt "(") || (← isAtAngle)
  let isConstruct := (← isAtWord "new") &&
    (← nextIs fun t _ => t.isOneOfMarks ["(", "<"])
  if isCall || isConstruct then
    discard (eatWord "new")
    let t ← signature p
    memberEnd
    return typeNode t
  else
    if (← isAtWord "readonly") && (← nextIs fun t _ => isNameStart t) then bump
    if ← isIndexSignature then
      let t ← indexSignature p
      memberEnd
      return t
    else
      if (← token).isOneOfWords ["get", "set"] && (← nextIs fun t _ => isNameStart t) then bump
      let key ← propertyName p
      discard (eat "?")
      let rest ←
        if (← isAt "(") || (← isAtAngle) then signature p else annotation? p
      memberEnd
      return typeNode (key :: rest)

def typeMembers (p : Rules) : Reader (List Tree) := do
  expect "\x7b"
  within (fun c => { c with plainTypes := false }) (untilMark "\x7d" (typeMember p))

/-- `{ [K in T]: U }`, with modifiers. -/
def isMappedType : Reader Bool :=
  looksLike do
    expect "\x7b"
    if ← eat "+" <||> eat "-" then return ← isAtWord "readonly"
    discard (eatWord "readonly")
    expect "["
    refuseIf !(← token).isVariable
    bump
    isAtWord "in"

def mappedType (p : Rules) : Reader Tree := do
  expect "\x7b"
  within (fun c => { c with plainTypes := false }) do
    if ← eat "+" <||> eat "-" then expectWord "readonly" else discard (eatWord "readonly")
    expect "["
    discard declaredName
    expectWord "in"
    let key ← p .type
    let renamed ← if ← eatWord "as" then pure [← p .type] else pure []
    expect "]"
    if ← eat "+" <||> eat "-" then expect "?" else discard (eat "?")
    let value ← annotation? p
    discard (eat ";" <||> eat ",")
    expect "\x7d"
    return typeNode (key :: renamed ++ value)

/-! ## Types -/

def tupleElement (p : Rules) : Reader Tree := do
  discard (eat "...")
  let isNamed ← looksLike do
    refuseIf !(← token).isAnyWord
    bump
    if ← eat ":" then return true
    else if ← eat "?" then isAt ":"
    else return false
  if isNamed then
    bump
    discard (eat "?")
    expect ":"
    p .type
  else
    let t ← p .type
    discard (eat "?")
    return t

/-- Names with dots between them. -/
def entityName : Reader Unit := do
  refuseIf !((← token).isVariable || (← isAtWord "this"))
  bump
  discard <| repeatWhile fun _ => do
    if ← eat "." then
      match ← token with
      | .privateName _ => bump
      | _ => discard wordName
      return some []
    else return none

def typeReference (p : Rules) : Reader Tree := do
  entityName
  if !(← onNewLine) && (← isAtAngle) then return typeNode (← typeArguments p)
  else return typeNode []

/-- `import('x').name<T>` -/
def importType (p : Rules) : Reader Tree := do
  expectWord "import"
  expect "("
  let source ← p .type
  let options ← if ← eat "," then
      if ← isAt ")" then pure [] else pure [← plainAssignment p]
    else pure []
  discard (eat ",")
  expect ")"
  if ← eat "." then entityName
  let args ← if !(← onNewLine) && (← isAtAngle) then typeArguments p else pure []
  return typeNode (source :: options ++ args)

def templateType (p : Rules) : Reader Tree := do
  let stretch : Reader Bool := do
    match ← token with
    | .template (some _) isLast => return isLast
    | _ => failure
  let isLast ← stretch
  bump
  if isLast then return typeNode []
  else
    let parts ← repeatWhile fun done => do
      match done with
      | .node .trailingComma _ :: _ => return none
      | _ =>
        let t ← p .type
        refuseIf !(← isAt "\x7d")
        reread Lexer.asTemplate
        let isLast ← stretch
        bump
        return some (if isLast then .leaf .trailingComma :: t :: done else t :: done)
    return typeNode parts

def primaryType (p : Rules) : Reader Tree := do
  match ← token with
  | .string _ _ => bump; return typeNode []
  | .number _ => bump; return typeNode []
  | .bigint _ => bump; return typeNode []
  | .template _ _ => templateType p
  | .mark m =>
    if m = "-" then
      bump
      match ← token with
      | .number _ => bump; return typeNode []
      | .bigint _ => bump; return typeNode []
      | _ => failure
    else if m = "(" then
      bump
      let t ← within (fun c => { c with plainTypes := false }) (p .type)
      expect ")"
      return t
    else if m = "[" then
      bump
      within (fun c => { c with plainTypes := false }) do
        return typeNode (← commasUntil "]" (tupleElement p))
    else if m = "\x7b" then
      if ← isMappedType then mappedType p else return typeNode (← typeMembers p)
    else failure
  | t =>
    if t.isOneOfWords ["true", "false", "null", "void", "this"] then
      bump
      return typeNode []
    else if t.isWord "typeof" then
      bump
      if ← isAtWord "import" then importType p else typeReference p
    else if t.isWord "import" then importType p
    else typeReference p

/-- `T[]`, `T[K]`, any number of them. -/
def postfixType (p : Rules) : Reader Tree := do
  let t ← primaryType p
  let more ← repeatWhile fun done => do
    if !(← onNewLine) && (← isAt "[") then
      bump
      if ← eat "]" then return some (typeNode [] :: done)
      else
        let index ← within (fun c => { c with plainTypes := false }) (p .type)
        expect "]"
        return some (index :: done)
    else return none
  return typeNode (t :: more)

/-- `infer T`, with a bound unless that would be read as a condition. -/
def inferType (p : Rules) : Reader Tree := do
  bump
  let name ← declaredName
  let plain := (← read).plainTypes
  let bound ← attempt do
    expectWord "extends"
    let t ← within (fun c => { c with plainTypes := true }) (p .type)
    refuseIf (!plain && (← isAt "?"))
    return t
  return typeNode (name :: bound.toList)

def operatorType (p : Rules) : Reader Tree := do
  discard <| repeatWhile fun _ => do
    if (← token).isOneOfWords ["keyof", "unique", "readonly"] &&
        !(← nextIs fun t _ => t.isOneOfMarks [",", ";", ")", "]", "\x7d", ">", "=", "|", "&", "?", ":",
          ".", "=>", "<"] || t == .eof) then
      bump
      return some []
    else return none
  if (← isAtWord "infer") && (← nextIs fun t _ => t.isVariable) then inferType p
  else postfixType p

def unionType (p : Rules) : Reader Tree := do
  let member : Reader Tree := do
    if (← isFunctionTypeStart) || (← isPatternFunctionTypeStart p) then functionType p
    else operatorType p
  let intersection : Reader Tree := do
    discard (eat "&")
    return typeNode (← separatedBy "&" member)
  discard (eat "|")
  return typeNode (← separatedBy "|" intersection)

def type (p : Rules) : Reader Tree := do
  if (← isFunctionTypeStart) || (← isPatternFunctionTypeStart p) then functionType p
  else
    let t ← unionType p
    if !(← read).plainTypes && !(← onNewLine) && (← isAtWord "extends") then
      bump
      let bound ← within (fun c => { c with plainTypes := true }) (p .type)
      expect "?"
      let yes ← within (fun c => { c with plainTypes := false }) (p .type)
      expect ":"
      let no ← within (fun c => { c with plainTypes := false }) (p .type)
      return typeNode [t, bound, yes, no]
    else return t

end CjsInterop.Syntax.Reader
