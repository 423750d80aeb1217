import CjsInterop.Syntax.Grammar.Function

/-! Expressions. -/

namespace CjsInterop.Syntax.Reader

/-! ## Operands -/

def argumentList (p : Rules) : Reader (List Tree) := do
  expect "("
  within (fun c => { c with inOperator := true, decorator := false }) do
    commasUntil ")" do
      if ← eat "..." then return .node .spread [← p (.assignment true)]
      else p (.assignment true)

/-- A template, with substitutions or without. Only behind a tag may its escapes mean nothing. -/
def templateLiteral (p : Rules) (tagged : Bool) : Reader Tree := do
  let stretch : Reader (Option Text × Bool) := do
    match ← token with
    | .template value isLast =>
      refuseIf (value.isNone && !tagged)
      return (value, isLast)
    | _ => failure
  let (value, isLast) ← stretch
  bump
  if isLast then return .leaf (.template (value.getD []))
  else
    let parts ← repeatWhile fun done => do
      match done with
      | .node .trailingComma _ :: _ => return none
      | _ =>
        let t ← plainExpression p
        refuseIf !(← isAt "\x7d")
        reread Lexer.asTemplate
        let (_, isLast) ← stretch
        bump
        return some (if isLast then .leaf .trailingComma :: t :: done else t :: done)
    return .other parts

def parenthesizedExpression (p : Rules) : Reader Tree := do
  expect "("
  let t ← plainExpression p
  expect ")"
  return .node .parenthesized [t]

/-- `import(source, options)`, `import.meta`, `import.source(...)`, `import.defer(...)` -/
def importExpression (p : Rules) : Reader Tree := do
  expectWord "import"
  if ← eat "." then
    if ← eatWord "meta" then return .leaf .importMeta
    else
      refuseIf !(← eatWord "source" <||> eatWord "defer")
      refuseIf !(← isAt "(")
  expect "("
  within (fun c => { c with inOperator := true, decorator := false }) do
    refuseIf (← isAt ")")
    let args ← commasUntil ")" (p (.assignment true))
    refuseIf (2 < args.length)
    return .other args

def superExpression : Reader Tree := do
  expectWord "super"
  refuseIf !(← token).isOneOfMarks ["(", ".", "["]
  return .other []

/-- The token is read again as the regular expression that its slash begins. -/
def regexLiteral : Reader Tree := do
  reread Lexer.asRegex
  match ← token with
  | .regex pattern flags =>
    bump
    return .leaf (.regex pattern flags)
  | _ => failure

def isFunctionStart : Reader Bool := do
  if ← isAtWord "function" then return true
  else if ← isAtWord "async" then nextIs fun t newLine => t.isWord "function" && !newLine
  else return false

def wordExpression (p : Rules) : Reader Tree := do
  let t ← token
  if ← isFunctionStart then functionExpression p
  else if t.isWord "this" then bump; return .other []
  else if t.isWord "null" then bump; return .leaf .null
  else if t.isOneOfWords ["true", "false"] then bump; return .other []
  else if t.isWord "class" then p .classExpression
  else if t.isWord "super" then superExpression
  else if t.isWord "import" then importExpression p
  else variableName

def primary (p : Rules) : Reader Tree := do
  match ← token with
  | .word _ _ => wordExpression p
  | .string value _ => bump; return .leaf (.string value)
  | .number spelling => bump; return .leaf (.number spelling)
  | .bigint spelling => bump; return .leaf (.bigint spelling)
  | .template _ _ => templateLiteral p false
  | .mark m =>
    if m = "(" then parenthesizedExpression p
    else if m = "[" then arrayLiteral p
    else if m = "\x7b" then objectLiteral p
    else if m = "/" ∨ m = "/=" then regexLiteral
    else if m = "@" then p .classExpression
    else if m = "<" then
      refuseIf !(← read).dialect.markup
      p (.markup false)
    else failure
  | _ => failure

/-- The name behind a dot. -/
def memberOf (object : Tree) : Reader Tree := do
  match ← token with
  | .privateName _ => bump; return .node .privateMember [object]
  | .word name _ => bump; return .node (.member name) [object]
  | _ => failure

/-- An expression may begin with the token. -/
def isExpressionStart (t : Token) : Bool :=
  match t with
  | .word n escaped =>
    t.isVariable || (!escaped && ["this", "null", "true", "false", "function", "class", "super",
      "import", "new", "delete", "void", "typeof"].any fun w => n = w.toList)
  | .mark _ => t.isOneOfMarks ["(", "[", "\x7b", "/", "/=", "<", "+", "-", "!", "~", "++", "--", "@"]
  | .privateName _ => true
  | .eof => false
  | .invalid => false
  | _ => true

/-- What may follow type arguments for them not to be comparisons. -/
def mayFollowTypeArguments : Reader Bool := do
  let t ← token
  match t with
  | .template _ _ => return true
  | _ =>
    if t.isMark "(" then return true
    else if t.isOneOfMarks ["<", ">", "+", "-"] then return false
    else
      let isBinary := t.isOneOfMarks ["??", "||", "&&", "|", "^", "&", "==", "!=", "===", "!==",
        "<=", "<<", "*", "/", "%", "**"] || t.isOneOfWords ["in", "instanceof", "as", "satisfies"]
      return (← onNewLine) || isBinary || !isExpressionStart t

def typeArgumentsInExpression? (p : Rules) : Reader (Option (List Tree)) := do
  if (← isTypescript) && (← isAtAngle) then
    attempt do
      let args ← typeArguments p
      refuseIf !(← mayFollowTypeArguments)
      return args
  else return none

/-- Members, calls and templates behind an operand. A chain is wrapped as a whole. -/
structure Operand where
  tree : Tree
  isChain : Bool := false

def operandStep (p : Rules) (calls : Bool) (o : Operand) : Reader (Option Operand) := do
  if ← eat "." then return some { o with tree := ← memberOf o.tree }
  else if (← isAt "[") && !(← read).decorator then
    bump
    let key ← plainExpression p
    expect "]"
    return some { o with tree := .node .index [o.tree, key] }
  else if ← isAt "?." then
    refuseIf !calls
    bump
    match ← token with
    | .template _ _ => failure
    | _ =>
      if ← eat "[" then
        let key ← plainExpression p
        expect "]"
        return some ⟨.node .index [o.tree, key], true⟩
      else if ← isAt "(" then
        return some ⟨.node .call (o.tree :: (← argumentList p)), true⟩
      else
        match ← typeArgumentsInExpression? p with
        | some types =>
          return some ⟨.node .call (o.tree :: types ++ (← argumentList p)), true⟩
        | none => return some ⟨← memberOf o.tree, true⟩
  else if (← isTypescript) && (← isAt "!") && !(← onNewLine) then
    bump
    return some { o with tree := .node .typed [o.tree] }
  else
    match ← token with
    | .template _ _ =>
      refuseIf o.isChain
      let t ← templateLiteral p true
      return some { o with tree := .other [o.tree, t] }
    | _ =>
      if calls && (← isAt "(") then
        return some { o with tree := .node .call (o.tree :: (← argumentList p)) }
      else
        match ← typeArgumentsInExpression? p with
        | none => return none
        | some types =>
          match ← token with
          | .template _ _ =>
            refuseIf o.isChain
            let t ← templateLiteral p true
            return some { o with tree := .other (o.tree :: types ++ [t]) }
          | _ =>
            if calls && (← isAt "(") then
              return some { o with
                tree := .node .call (o.tree :: (← argumentList p) ++ types) }
            else return some { o with tree := .node .typed (o.tree :: types) }

def operandRest (p : Rules) (calls : Bool) (first : Tree) : Reader Tree := do
  let rec go : Nat → Operand → Reader Operand
    | 0, _ => failure
    | n + 1, o => do
      match ← operandStep p calls o with
      | some o => go n o
      | none => return o
  let o ← go (← read).limit ⟨first, false⟩
  return if o.isChain then .node .chain [o.tree] else o.tree

/-- `new callee(arguments)`, `new.target` -/
def newExpression (p : Rules) : Reader Tree := do
  expectWord "new"
  if ← eat "." then
    expectWord "target"
    return .other []
  else
    refuseIf ((← isAtWord "import") && !(← nextIs fun t _ => t.isMark "."))
    let callee ← p .callee
    refuseIf (← isAt "?.")
    let args ← if ← isAt "(" then argumentList p else pure []
    return .other (callee :: args)

def memberStart (p : Rules) : Reader Tree := do
  if ← isAtWord "new" then newExpression p else primary p

def callee (p : Rules) : Reader Tree := do
  operandRest p false (← memberStart p)

def operand (p : Rules) : Reader Tree := do
  operandRest p true (← memberStart p)

/-! ## Unary and binary operators -/

/-- A word or literal follows on the same line, so that `await` or `yield` is meant as an operator. -/
def isOperandNext : Reader Bool :=
  nextIs fun t newLine => !newLine &&
    match t with
    | .word _ _ => true
    | .number _ => true
    | .bigint _ => true
    | .string _ _ => true
    | _ => false

def isAwait : Reader Bool := do
  if ← isAtWord "await" then
    if (← read).await then return true else isOperandNext
  else return false

def isYield : Reader Bool := do
  if ← isAtWord "yield" then
    if (← read).yield then return true else isOperandNext
  else return false

def updateOperand (t : Tree) : Reader Tree := do
  refuseIf !t.isSimpleTarget
  return .other [t.bare]

def postfixExpression (p : Rules) : Reader Tree := do
  let t ← operand p
  if (← token).isOneOfMarks ["++", "--"] && !(← onNewLine) then
    bump
    updateOperand t
  else return t

def unary (p : Rules) : Reader Tree := do
  let t ← token
  if t.isOneOfMarks ["++", "--"] then
    bump
    updateOperand (← p .unary)
  else if t.isOneOfMarks ["+", "-", "!", "~"] || t.isOneOfWords ["delete", "void", "typeof"] then
    bump
    return .node .unary [← p .unary]
  else if ← isAwait then
    flawIf !(← read).await
    bump
    return .node .awaiting [← p .unary]
  else if (← isAtAngle) && (← isTypescript) && !(← read).dialect.markup then
    openAngle
    let type ← within (fun c => { c with plainTypes := false }) (p .type)
    expect ">"
    let value ← p .unary
    return .node .typed [value, type]
  else postfixExpression p

/-- How tightly each operator binds. -/
def precedences : List (String × Nat) := [
  ("??", 1), ("||", 2), ("&&", 3), ("|", 4), ("^", 5), ("&", 6), ("==", 7), ("!=", 7), ("===", 7),
  ("!==", 7), ("<", 8), (">", 8), ("<=", 8), (">=", 8), ("<<", 9), (">>", 9), (">>>", 9), ("+", 10),
  ("-", 10), ("*", 11), ("/", 11), ("%", 11), ("**", 12)]

def relationalPrecedence : Nat := 8

def markPrecedence? (spelling : Text) : Option Nat :=
  precedences.findSome? fun (op, n) => if spelling = op.toList then some n else none

/-- The binary operator here, if one is. -/
def operator? : Reader (Option (Text × Nat)) := do
  if ← isAt ">" then reread Lexer.asAngle
  match ← token with
  | .mark m => return (markPrecedence? m).map fun n => (m, n)
  | .word name false =>
    if name = "instanceof" ∨ (name = "in" ∧ (← read).inOperator) then
      return some (name, relationalPrecedence)
    else if (name = "as" ∨ name = "satisfies") ∧ (← isTypescript) ∧ ¬ (← onNewLine) then
      return some (name, relationalPrecedence)
    else return none
  | _ => return none

/-- `??` does not mix with `||` and `&&` without parentheses. -/
def mixes (operator : Text) : Tree → Bool
  | .node (.binary inner) _ =>
    if operator = "??" then inner = "||" ∨ inner = "&&"
    else (operator = "||" ∨ operator = "&&") ∧ inner = "??"
  | _ => false

def isUnaryNode : Tree → Bool
  | .node .unary _ => true
  | .node .awaiting _ => true
  | _ => false

/-- `#name in`, which only the check for a private member begins with. -/
def privateIn : Reader Unit := do
  bump
  refuseIf !(← isAtWord "in")
  refuseIf !(← read).inOperator
  bump

/-- The operators that bind tighter than `floor`, and their operands. -/
def binaryRest (p : Rules) : Nat → Nat → Tree → Reader Tree
  | 0, _, _ => failure
  | n + 1, floor, left => do
    match ← operator? with
    | none => return left
    | some (op, level) =>
      if level < floor ∨ (level = floor ∧ op ≠ "**") ∨ level = 0 then return left
      else
        bump
        if op = "as" ∨ op = "satisfies" then
          let type ←
            if op = "as" ∧ (← isAtWord "const") then
              bump
              pure (Tree.other [])
            else within (fun c => { c with plainTypes := false }) (p .type)
          binaryRest p n floor (.node .typed [left, type])
        else
          flawIf (op = "**" ∧ isUnaryNode left)
          let first ← unary p
          let right ← binaryRest p n level first
          flawIf (mixes op left || mixes op right)
          binaryRest p n floor (.node (.binary op) [left, right])

def binaryExpression (p : Rules) : Reader Tree := do
  let limit := (← read).limit
  match ← token with
  | .privateName _ =>
    privateIn
    let first ← unary p
    let right ← binaryRest p limit relationalPrecedence first
    binaryRest p limit 0 (.node (.binary "in") [right])
  | _ => binaryRest p limit 0 (← unary p)

/-! ## Arrow functions -/

/-- How sure it is that an arrow function begins here. -/
inductive Likeness where
  | yes
  | maybe
  | no

def arrowLikeness : Reader Likeness := fun context cursor =>
  let look : Reader Likeness := do
    if ← eatWord "async" then
      if ← onNewLine then return .no
      refuseIf !(← token).isOneOfMarks ["(", "<"]
    let typescript ← isTypescript
    if ← eat "(" then
      let second ← token
      if second.isMark ")" then
        bump
        let third ← token
        return if third.isMark "=>" || third.isMark "\x7b" then .yes
          else if third.isMark ":" && typescript then .maybe else .no
      else if second.isOneOfMarks ["[", "\x7b"] then return .maybe
      else if second.isMark "..." then
        bump
        let third ← token
        return if third.isVariable then .yes
          else if third.isOneOfMarks ["[", "\x7b"] then .maybe else .no
      else if second.isMark "@" then return .maybe
      else
        bump
        let third ← token
        let isModifier := typescript && second.isOneOfWords
          ["public", "private", "protected", "readonly", "override"]
        if isModifier && third.isVariable && !third.isWord "as" && !third.isWord "satisfies" then
          return .yes
        else if !(second.isVariable || second.isWord "this") then return .no
        else if third.isMark ":" then return if typescript then .yes else .no
        else if third.isMark "?" then
          bump
          return if (← token).isOneOfMarks [":", ",", "=", ")"] then .yes else .no
        else return if third.isOneOfMarks [",", "=", ")"] then .maybe else .no
    else if ← eat "<" then
      refuseIf !typescript
      let second ← token
      refuseIf !(second.isVariable || second.isWord "const")
      if context.dialect.markup then
        if second.isWord "const" then bump
        bump
        let third ← token
        if third.isWord "extends" then
          bump
          return if (← token).isOneOfMarks ["=", ">", "/"] then .no else .yes
        else return if third.isOneOfMarks [",", "="] then .yes else .no
      else return .maybe
    else return .no
  match look context cursor with
  | some (likeness, _) => some (likeness, cursor)
  | none => some (.no, cursor)

/-- The body of an arrow function: statements in braces, or an expression. -/
def arrowBody (p : Rules) (async : Bool) (returnType : Bool) : Reader Tree := do
  within (fun c => { c with await := async, yield := false, decorator := false }) do
    if ← isAt "\x7b" then p .functionBody else p (.assignment returnType)

/-- A parenthesized arrow function. With `certain` it is one; else it is one only if an arrow follows
the parameters. -/
def parenthesizedArrow (p : Rules) (certain returnType : Bool) : Reader Tree := do
  let async ← eatWord "async"
  let types ← typeParameters? p
  let params ← within (fun c => { c with await := async || c.await }) (parameters p)
  let typed ← isAt ":"
  let result ← returnType? p
  refuseIf !(← isAt "=>")
  if certain then flawIf (← onNewLine) else refuseIf (← onNewLine)
  bump
  let body ← arrowBody p async returnType
  refuseIf (!returnType && typed && !certain && !(← isAt ":"))
  return .node .arrow (types ++ params ++ result ++ [body])

def parenthesizedArrow? (p : Rules) (returnType : Bool) : Reader (Option Tree) := do
  if (← token).isOneOfMarks ["(", "<"] || (← isAtWord "async") then
    match ← arrowLikeness with
    | .no => return none
    | .yes => return some (← parenthesizedArrow p true returnType)
    | .maybe => attempt (parenthesizedArrow p false returnType)
  else return none

/-- `async name => body` -/
def isAsyncArrow : Reader Bool := do
  if ← isAtWord "async" then
    looksLike do
      bump
      refuseIf ((← onNewLine) || !(← token).isVariable)
      bump
      isAt "=>"
  else return false

def simpleArrow (p : Rules) (param : Tree) (async returnType : Bool) : Reader Tree := do
  flawIf (← onNewLine)
  expect "=>"
  let body ← arrowBody p async returnType
  return .node .arrow [param, body]

/-! ## Assignments -/

def yieldExpression (p : Rules) : Reader Tree := do
  flawIf !(← read).yield
  expectWord "yield"
  if ← onNewLine then return .other []
  else if ← eat "*" then return .other [← p (.assignment true)]
  else
    let t ← token
    if t.isOneOfMarks [")", "]", "\x7d", ",", ";", ":"] || t == .eof || t.isWord "in" ||
        t.isWord "of" then
      return .other []
    else return .other [← p (.assignment true)]

def assignmentMarks : List String :=
  ["+=", "-=", "*=", "/=", "%=", "**=", "<<=", ">>=", ">>>=", "&=", "|=", "^=", "&&=", "||=", "??="]

def conditionalRest (p : Rules) (test : Tree) (returnType : Bool) : Reader Tree := do
  if ← eat "?" then
    let yes ← within (fun c => { c with inOperator := true }) (p (.assignment false))
    expect ":"
    let no ← p (.assignment returnType)
    return .node .conditional [test, yes, no]
  else return test

/-- A shorthand with a default is an expression only as long as it may still be a target. -/
def assignment (p : Rules) (returnType : Bool) : Reader Tree := do
  if ← isYield then yieldExpression p
  else
    match ← parenthesizedArrow? p returnType with
    | some t => return t
    | none =>
      if ← isAsyncArrow then
        bump
        let param ← within (fun c => { c with await := true }) declaredName
        simpleArrow p param true returnType
      else
        let left ← binaryExpression p
        let t ← token
        match left with
        | .node (.identifier name) _ =>
          if t.isMark "=>" then return ← simpleArrow p (.leaf (.declared name)) false returnType
        | _ => pure ()
        if t.isMark "=" then
          match left.toTarget? with
          | none => failure
          | some target =>
            bump
            return .node (.assignment "=") [target, ← p (.assignment returnType)]
        else
          match assignmentMarks.find? fun (mark : String) => t.isMark mark with
          | some operator =>
            refuseIf !left.isSimpleTarget
            bump
            return .node (.assignment operator) [left.bare, ← p (.assignment returnType)]
          | none => conditionalRest p left returnType

def expression (p : Rules) : Reader Tree := do
  let first ← p (.assignment true)
  if ← isAt "," then
    let more ← repeatWhile fun done => do
      if ← eat "," then return some ((← p (.assignment true)) :: done)
      else return none
    return .node .sequence (first :: more)
  else return first

end CjsInterop.Syntax.Reader
