import CjsInterop.Json.Exact
import CjsInterop.Json.Reader
import CjsInterop.Path

/-! The part of a `package.json` that says which files its specifiers name. -/

namespace CjsInterop

/-- What a member of `exports` or `imports` stands for. -/
inductive ExportTarget where
  | path (text : Text)
  /-- The first condition that holds, and comes to a file, decides. -/
  | conditions (entries : List (Text × ExportTarget))
  | alternatives (targets : List ExportTarget)
  | nothing
  deriving Repr, Inhabited

/-- Each key with its last value, where the key first appears. -/
def lastValues {α : Type} (entries : List (Text × α)) : List (Text × α) :=
  entries.foldl
    (fun done (key, value) =>
      if done.any fun e => e.1 == key then
        done.map fun e => if e.1 == key then (key, value) else e
      else done ++ [(key, value)])
    []

namespace ExportTarget

mutual

def ofJson : Json → ExportTarget
  | .string (some text) => .path text
  | .array items => .alternatives (ofItems items)
  | .object members => .conditions (lastValues (ofMembers members))
  | _ => .nothing

def ofItems : List Json → List ExportTarget
  | [] => []
  | item :: items => ofJson item :: ofItems items

def ofMembers : List (Option Text × Json) → List (Text × ExportTarget)
  | [] => []
  | (some key, value) :: members => (key, ofJson value) :: ofMembers members
  | (none, _) :: members => ofMembers members

end

end ExportTarget

structure Package where
  name? : Option Text := none
  main? : Option Text := none
  browser? : Option Text := none
  exports? : Option ExportTarget := none
  imports? : Option (List (Text × ExportTarget)) := none
  deriving Repr, Inhabited

namespace Package

def text? : Json → Option Text
  | .string value => value
  | _ => none

def ofMembers (members : List (Option Text × Json)) : Package :=
  let last? (key : Text) : Option Json := (Json.valuesOf key members).getLast?
  { name? := (last? "name").bind text?
    main? := (last? "main").bind text?
    browser? := (last? "browser").bind text?
    exports? := (last? "exports").map ExportTarget.ofJson
    imports? :=
      match (last? "imports").map ExportTarget.ofJson with
      | some (.conditions entries) => some entries
      | _ => none }

/-- A value that is no object declares nothing. -/
def ofJson : Json → Package
  | .object members => ofMembers members
  | _ => {}

/-- How many containers may stand inside each other. -/
def depthLimit : Nat := 127

def ofText? (text : Text) : Option Package :=
  (Json.ofText? text).bind fun value => if value.isExact depthLimit then some (ofJson value) else none

end Package
end CjsInterop
