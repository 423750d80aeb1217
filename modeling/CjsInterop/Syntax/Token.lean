import CjsInterop.Text.Identifier

/-! Tokens of ECMAScript. Keywords are words, so that each of them can also be the name of a property;
operators and brackets are marks, named by their spelling. -/

namespace CjsInterop.Syntax

inductive Token where
  /-- An identifier or keyword. One that was written with an escape is never a keyword. -/
  | word (name : Text) (escaped : Bool)
  | privateName (name : Text)
  | mark (spelling : Text)
  | number (spelling : Text)
  | bigint (spelling : Text)
  /-- A string; it is not well formed when a surrogate in it has no other half. -/
  | string (value : Text) (wellFormed : Bool)
  /-- A stretch of a template up to a substitution or its end. Without a value its escapes mean
  nothing, which only a tag may see. -/
  | template (value : Option Text) (isLast : Bool)
  | regex (pattern flags : Text)
  | markupText
  | invalid
  | eof
  deriving DecidableEq, Repr, Inhabited

/-- A token in its place. Positions are kept as what is left of the source. -/
structure Lexeme where
  token : Token
  /-- A line ends between the token before and this one. -/
  onNewLine : Bool
  /-- The source from the token on. -/
  here : Text
  /-- The source behind the token. -/
  rest : Text
  deriving Repr, Inhabited

/-- Words that are never names of variables. -/
def reservedWords : List Text := List.map String.toList [
  "break", "case", "catch", "class", "const", "continue", "debugger", "default", "delete", "do",
  "else", "enum", "export", "extends", "false", "finally", "for", "function", "if", "import", "in",
  "instanceof", "new", "null", "return", "super", "switch", "this", "throw", "true", "try",
  "typeof", "var", "void", "while", "with"]

namespace Token

def isMark (t : Token) (spelling : Text) : Bool :=
  match t with
  | mark s => s == spelling
  | _ => false

/-- The word itself, not an escaped spelling of it. -/
def isWord (t : Token) (name : Text) : Bool :=
  match t with
  | word n false => n == name
  | _ => false

def isAnyWord : Token → Bool
  | word _ _ => true
  | _ => false

def isOneOfWords (t : Token) (names : List String) : Bool :=
  match t with
  | word n false => names.any fun name => n == name.toList
  | _ => false

def isOneOfMarks (t : Token) (spellings : List String) : Bool :=
  match t with
  | mark s => spellings.any fun spelling => s == spelling.toList
  | _ => false

/-- The name, if the word may name a variable. -/
def asVariable? : Token → Option Text
  | word n _ => if n ∈ reservedWords then none else some n
  | _ => none

def isVariable (t : Token) : Bool := (asVariable? t).isSome

end Token
end CjsInterop.Syntax
