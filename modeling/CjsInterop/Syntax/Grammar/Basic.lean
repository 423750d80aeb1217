import CjsInterop.Syntax.Lexer
import CjsInterop.Syntax.Tree

/-! Reading a grammar from a source, token by token. A reader either fails or goes on; a flaw is an
error that does not stop it, and is forgotten with everything else when an attempt is given up. -/

namespace CjsInterop.Syntax

/-- The language that a source is written in. -/
structure Dialect where
  typescript : Bool := false
  markup : Bool := false
  /-- A file of declarations only. -/
  ambient : Bool := false
  /-- A script and not a module: `await` is a name at its top, and markup comments are comments. -/
  script : Bool := false
  /-- `return` may stand outside of functions. -/
  topLevelReturn : Bool := false
  deriving DecidableEq, Repr

/-- What the place in the grammar allows. -/
structure Context where
  dialect : Dialect
  /-- The bytes of the source. -/
  size : Nat
  /-- More than the number of tokens: bounds every repetition. -/
  limit : Nat
  await : Bool := false
  yield : Bool := false
  returning : Bool := false
  /-- `in` is an operator. -/
  inOperator : Bool := true
  /-- Declarations only: values and bodies may be missing. -/
  ambient : Bool := false
  /-- The expression of a decorator: a bracket after it begins the member's name. -/
  decorator : Bool := false
  /-- A question mark after a type does not make it conditional. -/
  plainTypes : Bool := false
  deriving Repr

structure Cursor where
  lexeme : Lexeme
  /-- The source behind the token before. -/
  behind : Text
  flawed : Bool := false
  deriving Repr

abbrev Reader := ReaderT Context (StateT Cursor Option)

namespace Reader

/-! ## Looking -/

def token : Reader Token := return (← get).lexeme.token

def onNewLine : Reader Bool := return (← get).lexeme.onNewLine

def isAt (spelling : Text) : Reader Bool := return (← token).isMark spelling

def isAtWord (name : Text) : Reader Bool := return (← token).isWord name

def isAtEnd : Reader Bool := return (← token) == .eof

def isTypescript : Reader Bool := return (← read).dialect.typescript

/-- The byte at which the current token begins. -/
def here : Reader Nat :=
  return (← read).size - Text.byteLength (← get).lexeme.here

/-- The byte after the token before. -/
def behind : Reader Nat :=
  return (← read).size - Text.byteLength (← get).behind

/-! ## Moving -/

/-- Takes the current token. -/
def bump : Reader Unit := do
  let html := (← read).dialect.script
  modify fun c => { c with
    behind := c.lexeme.rest
    lexeme := Lexer.next html false c.lexeme.rest }

/-- Takes the current token; what follows is read by `lex`. -/
def bumpInto (lex : Text → Lexeme) : Reader Unit :=
  modify fun c => { c with behind := c.lexeme.rest, lexeme := lex c.lexeme.rest }

/-- Reads the current token anew. -/
def reread (lex : Lexeme → Lexeme) : Reader Unit :=
  modify fun c => { c with lexeme := lex c.lexeme }

def flaw : Reader Unit := modify fun c => { c with flawed := true }

def flawIf (p : Bool) : Reader Unit := if p then flaw else pure ()

def refuseIf (p : Bool) : Reader Unit := if p then failure else pure ()

/-- Runs `p` and goes back to where it began, whatever came of it. A failure answers no. -/
def looksLike (p : Reader Bool) : Reader Bool := fun context cursor =>
  match p context cursor with
  | some (b, _) => some (b, cursor)
  | none => some (false, cursor)

/-- Runs `p`, or nothing when it fails. -/
def attempt {α : Type} (p : Reader α) : Reader (Option α) := fun context cursor =>
  match p context cursor with
  | some (a, cursor) => some (some a, cursor)
  | none => some (none, cursor)

def within {α : Type} (change : Context → Context) (p : Reader α) : Reader α :=
  withReader change p

/-! ## Small pieces -/

def eat (spelling : Text) : Reader Bool := do
  if ← isAt spelling then
    bump
    return true
  else return false

def eatWord (name : Text) : Reader Bool := do
  if ← isAtWord name then
    bump
    return true
  else return false

def expect (spelling : Text) : Reader Unit := do
  refuseIf !(← eat spelling)

def expectWord (name : Text) : Reader Unit := do
  refuseIf !(← eatWord name)

/-- The token after the current one satisfies `p`; the flag says whether a line ends before it. -/
def nextIs (p : Token → Bool → Bool) : Reader Bool :=
  looksLike do
    bump
    return p (← token) (← onNewLine)

/-- A statement ends here: with a semicolon, before a closing brace, at a line end, or with the
source. -/
def isAtStatementEnd : Reader Bool := do
  if ← isAt ";" then return true
  else if ← isAt "\x7d" then return true
  else if ← isAtEnd then return true
  else onNewLine

def semicolon : Reader Unit := do
  refuseIf !(← isAtStatementEnd)
  discard (eat ";")

/-- `step` again and again while it answers that there is more. -/
def repeatWhile (step : List Tree → Reader (Option (List Tree))) : Reader (List Tree) := do
  let rec go : Nat → List Tree → Reader (List Tree)
    | 0, _ => failure
    | n + 1, done => do
      match ← step done with
      | some done => go n done
      | none => return done.reverse
  go (← read).limit []

/-- Items up to a closing mark, which is taken too. -/
def untilMark (close : Text) (item : Reader Tree) : Reader (List Tree) :=
  repeatWhile fun done => do
    if ← eat close then return none
    else return some ((← item) :: done)

/-- Items with commas between them up to a closing mark, which is taken too. A comma may follow the
last item. -/
def commasUntil (close : Text) (item : Reader Tree) : Reader (List Tree) := do
  let items ← repeatWhile fun done => do
    if ← isAt close then return none
    else
      let t ← item
      if ← isAt close then return some (t :: done)
      else
        expect ","
        return some (t :: done)
  expect close
  return items

/-- One item or more with a mark between them. -/
def separatedBy (mark : Text) (item : Reader Tree) : Reader (List Tree) := do
  let first ← item
  let more ← repeatWhile fun done => do
    if ← eat mark then return some ((← item) :: done)
    else return none
  return first :: more

/-! ## Names -/

/-- Whether a word may name a variable here. `await` and `yield` are flawed where they are operators. -/
def checkName (name : Text) : Reader Unit := do
  let context ← read
  flawIf (context.await && name == "await")
  flawIf (context.yield && name == "yield")

/-- A name that is declared. -/
def declaredName : Reader Tree := do
  match (← token).asVariable? with
  | none => failure
  | some name =>
    checkName name
    bump
    return .leaf (.declared name)

/-- A variable in an expression. -/
def variableName : Reader Tree := do
  match (← token).asVariable? with
  | none => failure
  | some name =>
    checkName name
    bump
    return .leaf (.identifier name)

/-- Any word, as the name of a property. -/
def wordName : Reader Text := do
  match ← token with
  | .word name _ =>
    bump
    return name
  | _ => failure

end Reader
end CjsInterop.Syntax
