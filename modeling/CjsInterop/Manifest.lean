import CjsInterop.Json.Exact
import CjsInterop.Json.Reader
import CjsInterop.Path

/-! The part of a `package.json` that says which module system the `.js` files below it are written
for. -/

namespace CjsInterop

inductive ModuleSystem where
  | esModule
  | commonJs
  deriving DecidableEq, Repr

/-- A manifest and the text of its `type` member, if that is a text. -/
structure Manifest where
  path : Path
  type? : Option Text := none
  deriving DecidableEq, Repr

namespace Manifest

/-- The module system declared, if the type is one of the two that have a meaning. -/
def system? (manifest : Manifest) : Option ModuleSystem :=
  match manifest.type? with
  | some t =>
    if t = "module" then some .esModule else if t = "commonjs" then some .commonJs else none
  | none => none

/-- The containers that may stand inside each other in the value of `type`. -/
def typeDepth : Nat := 126

def ofTypeValue (path : Path) (value : Json) : Option Manifest :=
  if value.isExact typeDepth then
    match value with
    | .string t => some ⟨path, t⟩
    | _ => some ⟨path, none⟩
  else none

/-- A manifest is an object with at most one `type`, whose other values are free, or an array that
holds nothing but the type. -/
def ofJson? (path : Path) : Json → Option Manifest
  | .array [value] => ofTypeValue path value
  | .object members =>
    if members.any fun (key, _) => key.isNone then none
    else
      match Json.valuesOf "type" members with
      | [] => some ⟨path, none⟩
      | [value] => ofTypeValue path value
      | _ => none
  | _ => none

def ofText? (path : Path) (text : Text) : Option Manifest :=
  (Json.ofText? text).bind (ofJson? path)

end Manifest
end CjsInterop
