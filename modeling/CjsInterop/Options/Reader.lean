import CjsInterop.Json.Reader
import CjsInterop.Options

/-! Options read from a JSON text: an object with some of the five members, each at most once and no
other, or an array of all five values in order. A null stands for a value that is not given. -/

namespace CjsInterop.Options

/-- Reads a value unless it is null. The outer answer says whether the value was fit. -/
def optional {α : Type} (read : Json → Option α) : Json → Option (Option α)
  | .null => some none
  | value => (read value).map some

def readText : Json → Option Text
  | .string s => s
  | _ => none

def readTexts : Json → Option (List Text)
  | .array items => items.mapM readText
  | _ => none

def readBool : Json → Option Bool
  | .bool b => some b
  | _ => none

def orderOfName (name : Text) : Option HookOrder :=
  if name = "pre" then some .pre else if name = "post" then some .post else none

/-- A name, or an object whose only member has that name and the value null. -/
def readOrder : Json → Option HookOrder
  | .string (some name) => orderOfName name
  | .object [(some name, .null)] => orderOfName name
  | _ => none

/-- The value of the member `key`: null when there is none, nothing when there are several. -/
def memberOf (key : Text) (members : List (Option Text × Json)) : Option Json :=
  match Json.valuesOf key members with
  | [] => some .null
  | [value] => some value
  | _ => none

def keys : List Text :=
  List.map String.toList ["include", "exclude", "order", "builtinNodeModules", "cwd"]

def ofValues (includes excludes order rewriteBuiltins cwd : Json) : Option Options := do
  pure {
    includes := ← optional readTexts includes
    excludes := ← optional readTexts excludes
    order := ← optional readOrder order
    rewriteBuiltins := ← optional readBool rewriteBuiltins
    cwd := ← optional readText cwd }

def ofJson? : Json → Option Options
  | .array [includes, excludes, order, rewriteBuiltins, cwd] =>
    ofValues includes excludes order rewriteBuiltins cwd
  | .object members => do
    if members.any fun (key, _) => !keys.any fun k => key = some k then none
    ofValues (← memberOf "include" members) (← memberOf "exclude" members)
      (← memberOf "order" members) (← memberOf "builtinNodeModules" members)
      (← memberOf "cwd" members)
  | _ => none

def ofText? (text : Text) : Option Options :=
  (Json.ofText? text).bind ofJson?

end CjsInterop.Options
