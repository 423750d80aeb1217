import CjsInterop.Text.Identifier

/-! Quoted text. The double-quoted form is a JSON string and an ECMAScript string literal at once:
the quote, the backslash and the control characters below the space are escaped, nothing else is. -/

namespace CjsInterop.Text

/-- The spelling of one character between the quotes. -/
def quotedChar (c : Char) : Text :=
  match c with
  | '"' => ['\\', '"']
  | '\\' => ['\\', '\\']
  | '\x08' => ['\\', 'b']
  | '\x0c' => ['\\', 'f']
  | '\n' => ['\\', 'n']
  | '\r' => ['\\', 'r']
  | '\t' => ['\\', 't']
  | c => if c.toNat < 0x20 then ['\\', 'u'] ++ hex 4 c.toNat else [c]

def quoted (text : Text) : Text :=
  '"' :: text.flatMap quotedChar ++ ['"']

/-- A key of an object literal or pattern: bare when the name allows it, else quoted. -/
def propertyKey (name : Text) : Text :=
  if isName name then name else quoted name

end CjsInterop.Text
