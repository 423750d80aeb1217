import CjsInterop.Syntax.Grammar.Types

/-! Functions, classes and the members of objects. -/

namespace CjsInterop.Syntax.Reader

/-- The context inside a function. -/
def Context.inFunction (async generator : Bool) (c : Context) : Context :=
  { c with
    await := async
    yield := generator
    inOperator := true
    decorator := false
    plainTypes := false }

/-- The statements of a function, in braces. -/
def functionBody (p : Rules) : Reader Tree := do
  expect "\x7b"
  within (fun c => { c with returning := true, inOperator := true, decorator := false }) do
    return .node .statement (← untilMark "\x7d" (p .item))

/-- The body, which a declaration of a typed language may leave out. -/
def optionalBody (p : Rules) : Reader (List Tree) := do
  if ← isAt "\x7b" then return [← p .functionBody]
  else
    refuseIf !(← isTypescript)
    semicolon
    return []

/-- Parameters and body of a function whose name has been read. -/
def functionRest (p : Rules) (async generator bodyNeeded : Bool) : Reader (List Tree) := do
  let types ← typeParameters? p
  within (Context.inFunction async generator) do
    let params ← parameters p
    let result ← returnType? p
    let body ← if bodyNeeded then pure [← p .functionBody] else optionalBody p
    return types ++ params ++ result ++ body

/-- `async function* name(parameters) { body }` as an expression. -/
def functionExpression (p : Rules) : Reader Tree := do
  let async ← eatWord "async"
  expectWord "function"
  let generator ← eat "*"
  let name ←
    within (Context.inFunction async generator) do
      if (← token).isVariable then return [← declaredName] else return []
  return .node .function (name ++ (← functionRest p async generator true))

/-- As a declaration; a default export needs no name. -/
def functionDeclaration (p : Rules) (nameNeeded : Bool) : Reader Tree := do
  let async ← eatWord "async"
  expectWord "function"
  let generator ← eat "*"
  let name ←
    if (← token).isVariable then pure [← declaredName]
    else
      refuseIf nameNeeded
      pure []
  return .node .function (name ++ (← functionRest p async generator false))

/-! ## Methods -/

/-- A getter has no parameters, a setter has one that is no rest parameter. -/
def accessorFlaw (kind : Text) (params : List Tree) : Bool :=
  if kind = "get" then !params.isEmpty
  else
    match params with
    | [.node .rest _] => true
    | [_] => false
    | _ => true

def methodRest (p : Rules) (async generator bodyNeeded : Bool) (accessor : Option Text) :
    Reader Tree := do
  let types ← typeParameters? p
  within (Context.inFunction async generator) do
    let params ← parameters p
    match accessor with
    | some kind => flawIf (accessorFlaw kind params)
    | none => pure ()
    let result ← returnType? p
    let body ← if bodyNeeded then pure [← p .functionBody] else optionalBody p
    return .node .function (types ++ params ++ result ++ body)

/-- A modifier is meant, and not a name: something to modify follows it. -/
def isModifier (name : Text) (sameLine : Bool) : Reader Bool := do
  if ← isAtWord name then
    nextIs fun t newLine => (isNameStart t || t.isMark "*") && !(sameLine && newLine)
  else return false

def isAccessor (name : Text) : Reader Bool := do
  if ← isAtWord name then nextIs fun t _ => isNameStart t else return false

/-! ## Objects -/

def objectMember (p : Rules) : Reader Tree := do
  if ← eat "..." then
    let t ← p (.assignment true)
    return .node .spread [t]
  else
    let async ← isModifier "async" true
    if async then bump
    let generator ← eat "*"
    let getter ← if async || generator then pure false else isAccessor "get"
    let setter ← if async || generator then pure false else isAccessor "set"
    if getter || setter then
      bump
      let key ← propertyName p
      let f ← methodRest p false false true (some (if getter then "get" else "set"))
      return .node .property [key, f]
    else
      let t ← token
      let isShorthand := t.isAnyWord && !async && !generator &&
        (← nextIs fun t _ => t.isOneOfMarks [",", "\x7d", "="])
      if isShorthand then
        match t.asVariable? with
        | none => failure
        | some name =>
          let value ← variableName
          if ← eat "=" then
            let d ← plainAssignment p
            return .node .shorthandDefault [value, d]
          else return .node .property [.leaf (.propertyName name), value]
      else
        let key ← propertyName p
        if async || generator || (← isAt "(") || ((← isTypescript) && (← isAtAngle)) then
          let f ← methodRest p async generator true none
          return .node .property [key, f]
        else
          expect ":"
          let value ← p (.assignment true)
          return .node .property [key, value]

/-- A comma behind a last spread element is kept as a part. -/
def markTrailing (items : List Tree) (comma : Bool) : List Tree :=
  match items.getLast? with
  | some (.node .spread _) => if comma then items ++ [.leaf .trailingComma] else items
  | _ => items

/-- Elements with commas between them; says whether a comma follows the last. -/
def elements (close : Text) (item : Reader Tree) : Reader (List Tree) := do
  let items ← repeatWhile fun done => do
    if ← isAt close then return none
    else
      let t ← item
      if ← isAt close then return some (t :: done)
      else
        expect ","
        let comma ← isAt close
        return some ((markTrailing [t] comma).reverse ++ done)
  expect close
  return items

def objectLiteral (p : Rules) : Reader Tree := do
  expect "\x7b"
  within (fun c => { c with inOperator := true, decorator := false }) do
    return .node .object (← elements "\x7d" (objectMember p))

def arrayLiteral (p : Rules) : Reader Tree := do
  expect "["
  within (fun c => { c with inOperator := true, decorator := false }) do
    let items ← elements "]" do
      if ← isAt "," then return .leaf .hole
      else if ← eat "..." then return .node .spread [← p (.assignment true)]
      else p (.assignment true)
    return .node .array items

/-! ## Classes -/

def memberModifiers : List String :=
  ["static", "public", "private", "protected", "override", "abstract", "readonly", "declare",
    "accessor", "async"]

/-- A word before a member that modifies it; words of types only in a language with types. -/
def classModifier? : Reader (Option Text) := do
  match ← token with
  | .word name false =>
    let known := if ← isTypescript then memberModifiers else ["static", "accessor", "async"]
    if known.any fun k => name = k.toList then
      let sameLine := name ≠ "static" && name ≠ "public" && name ≠ "private" && name ≠ "protected"
      let modifies ← nextIs fun t newLine =>
        (isNameStart t || t.isMark "*" || (name == "static" && t.isMark "\x7b")) &&
          !(sameLine && newLine)
      return if modifies then some name else none
    else return none
  | _ => return none

/-- Such a modifier, after those given last first, would stand there again or behind one that it has to
precede; so it is the name of the member. -/
def isOutOfPlace (name : Text) (done : List Text) : Bool :=
  done.contains name ||
    (name == "static" && (done.contains "async".toList || done.contains "accessor".toList))

def classModifiers : Reader (List Text) := do
  let rec go : Nat → List Text → Reader (List Text)
    | 0, _ => failure
    | n + 1, done => do
      match ← classModifier? with
      | none => return done
      | some name =>
        if name = "static" then
          if ← nextIs fun t _ => t.isMark "\x7b" then return done
        if isOutOfPlace name done then return done
        bump
        go n (name :: done)
  go (← read).limit []

def classKey (p : Rules) : Reader Tree := do
  match ← token with
  | .privateName name =>
    flawIf (name == "constructor")
    bump
    return .other []
  | _ => propertyName p

/-- The name that a member has when it is written plainly or as a string. -/
def plainKey (computed : Bool) : Tree → Option Text
  | .node (.propertyName n) _ => some n
  | .node (.string n) _ => if computed then none else some n
  | _ => none

def classMember (p : Rules) : Reader Tree := do
  let decorators ← decorators p
  let modifiers ← classModifiers
  let isStatic := "static".toList ∈ modifiers
  let async := "async".toList ∈ modifiers
  if modifiers.isEmpty && (← isAtWord "static") && (← nextIs fun t _ => t.isMark "\x7b") then
    bump
    let body ← within (fun c => { Context.inFunction true false c with returning := false })
      do
        expect "\x7b"
        untilMark "\x7d" (p .item)
    return .node .statement body
  else
    let indexed ← if ← isTypescript then isIndexSignature else pure false
    if indexed then
      let t ← indexSignature p
      memberEnd
      return t
    else
      let generator ← eat "*"
      let getter ← if async || generator then pure false else isAccessor "get"
      let setter ← if async || generator then pure false else isAccessor "set"
      if getter || setter then bump
      let computed ← isAt "["
      let key ← classKey p
      let name := plainKey computed key
      flawIf (isStatic && name == some "prototype")
      if ← isTypescript then
        if ← isAt "?" then bump
        else if (← isAt "!") && !(← onNewLine) then bump
      let isConstructor := !isStatic && name == some "constructor"
      if getter || setter || generator || async || (← isAt "(") ||
          ((← isTypescript) && (← isAtAngle)) then
        flawIf (isConstructor && (getter || setter || generator || async))
        let accessor := if getter then some "get".toList else if setter then some "set".toList else none
        let f ← methodRest p async generator false accessor
        return .node .method (decorators ++ [key, f])
      else
        flawIf (name == some "constructor")
        let type ← annotation? p
        let value ←
          within (fun c => { Context.inFunction false false c with returning := false })
            (initializer? p)
        semicolon
        return .node .method (decorators ++ key :: type ++ value.toList)

def classMembers (p : Rules) : Reader (List Tree) := do
  expect "\x7b"
  repeatWhile fun done => do
    if ← eat "\x7d" then return none
    else if ← eat ";" then return some done
    else return some ((← classMember p) :: done)

/-- What follows the word `class`. -/
def classRest (p : Rules) (nameNeeded : Bool) : Reader (List Tree) := do
  let isName := (← token).isVariable &&
    !((← isTypescript) && (← isAtWord "implements") && (← nextIs fun t _ => t.isAnyWord))
  let name ← if isName then pure [← declaredName] else
    refuseIf nameNeeded
    pure []
  let types ← typeParameters? p
  let base ←
    if ← eatWord "extends" then
      let t ← p .operand
      pure (t :: (← typeArguments? p))
    else pure []
  let interfaces ←
    if ← isTypescript <&&> eatWord "implements" then separatedBy "," (typeReference p)
    else pure []
  let members ← within (fun c => { c with inOperator := true, decorator := false }) (classMembers p)
  return name ++ types ++ base ++ interfaces ++ members

def classExpression (p : Rules) : Reader Tree := do
  let decorators ← decorators p
  expectWord "class"
  return .node .classBody (decorators ++ (← classRest p false))

end CjsInterop.Syntax.Reader
