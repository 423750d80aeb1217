import CjsInterop.Options
import CjsInterop.Text.ShapelessTable

/-! Options as a text for debugging: every field by name, what is not given as `None`, what is given
as `Some(...)`. -/

namespace CjsInterop.Describe

def isShapeless (c : Char) : Bool :=
  c.toNat < 0x20 || c.toNat == 0x7F ||
    (128 ≤ c.toNat && Text.shapelessRanges.any fun (low, high) => low ≤ c.toNat && c.toNat ≤ high)

/-- One character in quotes; `quotes` are the quote characters that are escaped. -/
def quotedChar (quotes : Text) (c : Char) : Text :=
  if c = '\x00' then "\\0"
  else if c = '\t' then "\\t"
  else if c = '\n' then "\\n"
  else if c = '\r' then "\\r"
  else if c = '\\' ∨ c ∈ quotes then ['\\', c]
  else if isShapeless c then "\\u\x7b".toList ++ Text.hex 1 c.toNat ++ "\x7d"
  else [c]

def quoted (quotes text : Text) : Text :=
  '"' :: text.flatMap (quotedChar quotes) ++ ['"']

def text : Text → Text := quoted "\""

/-- A path escapes both kinds of quotes. -/
def path : Path → Text := quoted "\"'"

def texts (items : List Text) : Text :=
  "[".toList ++ Text.join ", " (items.map text) ++ "]"

def order : HookOrder → Text
  | .pre => "Pre"
  | .post => "Post"

def flag : Bool → Text
  | true => "true"
  | false => "false"

def given {α : Type} (describe : α → Text) : Option α → Text
  | none => "None"
  | some a => "Some(".toList ++ describe a ++ ")"

def fields (items : List (Text × Text)) : Text :=
  Text.join ", " (items.map fun (name, value) => name ++ ": " ++ value)

end Describe

def Options.describe (o : Options) : Text :=
  "RequireCjsOptions \x7b ".toList ++ Describe.fields [
    ("include", Describe.given Describe.texts o.includes),
    ("exclude", Describe.given Describe.texts o.excludes),
    ("order", Describe.given Describe.order o.order),
    ("builtin_node_modules", Describe.given Describe.flag o.rewriteBuiltins),
    ("cwd", Describe.given Describe.path o.cwd),
    ("should_transform", "None")] ++ " \x7d"

def Settings.describe (s : Settings) : Text :=
  "NormalizedRequireCjsOptions \x7b ".toList ++ Describe.fields [
    ("include", Describe.texts s.includes),
    ("exclude", Describe.texts s.excludes),
    ("order", Describe.order s.order),
    ("builtin_node_modules", Describe.flag s.rewriteBuiltins),
    ("cwd", Describe.given Describe.path s.cwd)] ++ ", .. \x7d"

end CjsInterop
