import CjsInterop.Syntax.Grammar.Expression

/-! Markup elements inside expressions. -/

namespace CjsInterop.Syntax.Reader

/-- Takes a closing bracket. What follows it is a child of the element around, or ordinary source. -/
def closeMarkup (mark : Text) (inChild : Bool) : Reader Unit := do
  refuseIf !(← isAt mark)
  if inChild then bumpInto Lexer.markupChild else bump

def markupWord : Reader Text := do
  reread Lexer.asMarkupName
  wordName

/-- The name of an element, with a colon or dots in it. -/
def markupName : Reader Text := do
  let first ← markupWord
  if ← eat ":" then return first ++ ":" ++ (← markupWord)
  else
    let rec go : Nat → Text → Reader Text
      | 0, _ => failure
      | n + 1, done => do
        if ← eat "." then go n (done ++ "." ++ (← markupWord)) else return done
    go (← read).limit first

/-- `expression }`, where a comma has no place outside of parentheses. -/
def markupExpression (p : Rules) (inChild : Bool) : Reader Tree := do
  let t ← plainExpression p
  flawIf (t.form == .sequence)
  closeMarkup "\x7d" inChild
  return t

/-- `{ expression }` or `{ }`, its opening brace taken. -/
def markupContainer (p : Rules) (inChild : Bool) : Reader Tree := do
  if ← isAt "\x7d" then
    closeMarkup "\x7d" inChild
    return .other []
  else markupExpression p inChild

def attributeValue (p : Rules) : Reader Tree := do
  match ← token with
  | .string value _ => bump; return .leaf (.string value)
  | t =>
    if t.isMark "\x7b" then
      bump
      markupContainer p false
    else
      refuseIf !(t.isMark "<")
      p (.markup false)

def markupAttribute (p : Rules) : Reader Tree := do
  if ← eat "\x7b" then
    expect "..."
    markupExpression p false
  else
    discard markupWord
    if ← eat ":" then discard markupWord
    if ← isAt "=" then
      bumpInto Lexer.markupValue
      attributeValue p
    else return .other []

/-- The children up to the closing element, of which the opening bracket and slash are taken. -/
def children (p : Rules) : Reader (List Tree) :=
  repeatWhile fun done => do
    match ← token with
    | .markupText =>
      bumpInto Lexer.markupChild
      return some done
    | t =>
      if t.isMark "\x7b" then
        bump
        if ← eat "..." then return some ((← markupExpression p true) :: done)
        else return some ((← markupContainer p true) :: done)
      else
        refuseIf !(t.isMark "<")
        if ← nextIs fun t _ => t.isMark "/" then
          bump
          bump
          return none
        else return some ((← p (.markup true)) :: done)

/-- An element or fragment. The closing name must be spelled like the opening one. -/
def markup (p : Rules) (inChild : Bool) : Reader Tree := do
  expect "<"
  if ← isAt ">" then
    bumpInto Lexer.markupChild
    let parts ← children p
    closeMarkup ">" inChild
    return .other parts
  else
    let name ← markupName
    let types ← typeArguments? p
    let attributes ← repeatWhile fun done => do
      if (← isAt ">") || (← isAt "/") then return none
      else return some ((← markupAttribute p) :: done)
    if ← eat "/" then
      closeMarkup ">" inChild
      return .other (types ++ attributes)
    else
      refuseIf !(← isAt ">")
      bumpInto Lexer.markupChild
      let parts ← children p
      let closing ← markupName
      refuseIf (closing ≠ name)
      closeMarkup ">" inChild
      return .other (types ++ attributes ++ parts)

end CjsInterop.Syntax.Reader
