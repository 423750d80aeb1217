import CjsInterop.Package

/-! Which entry of `exports` or `imports` a key falls under: the entry of that name, or else the most
specific pattern or directory that covers it. -/

namespace CjsInterop

/-- An entry chosen for a key, and what stands for the star or below the directory. -/
structure Chosen where
  key : Text
  target : ExportTarget
  matched? : Option Text
  deriving Repr

namespace Chosen

/-- What is before and after the first star. -/
def cutStar (key : Text) : Option (Text × Text) :=
  match key.dropWhile (· ≠ '*') with
  | [] => none
  | _ :: after => some (key.takeWhile (· ≠ '*'), after)

/-- How much of a key is fixed: up to the star, counted in characters, or all of it, in bytes. -/
def fixedLength (key : Text) : Nat :=
  match cutStar key with
  | some (base, _) => base.length + 1
  | none => Text.byteLength key

/-- `key` is more specific than `best`; every key is more specific than the empty one. -/
def isMoreSpecific (key best : Text) : Bool :=
  if best = [] then true
  else if fixedLength key ≠ fixedLength best then fixedLength best < fixedLength key
  else if '*' ∉ best then true
  else if '*' ∉ key then false
  else Text.byteLength best < Text.byteLength key

def dropEnd? (tail text : Text) : Option Text :=
  (Text.dropStart? tail.reverse text.reverse).map List.reverse

/-- What of `name` is covered by the variable part of a pattern or directory. -/
def cover? (key name : Text) : Option Text :=
  if (Text.dropStart? "./" key).isSome ∨ key.head? = some '#' then
    match cutStar key with
    | some (base, tail) => do
      let rest ← Text.dropStart? base name
      if '*' ∈ tail then none
      else if tail = [] then some rest
      else if Text.byteLength key ≤ Text.byteLength name then dropEnd? tail rest
      else none
    | none => if key.getLast? = some '/' then Text.dropStart? key name else none
  else none

def better (name : Text) (best : Option Chosen) : Text × ExportTarget → Option Chosen
  | (key, target) =>
    match cover? key name with
    | some rest =>
      if isMoreSpecific key ((best.map Chosen.key).getD []) then some ⟨key, target, rest⟩ else best
    | none => best

/-- The entry for `name`. A directory has none. -/
def ofEntries? (entries : List (Text × ExportTarget)) (name : Text) : Option Chosen :=
  if name.getLast? = some '/' then none
  else
    match if '*' ∈ name then none else entries.find? fun e => e.1 == name with
    | some (key, target) => some ⟨key, target, none⟩
    | none => entries.foldl (better name) none

/-- The text of a target with the matched part put into it, unless the two do not go together. -/
def fill? (chosen : Chosen) (text : Text) : Option Text :=
  match chosen.matched? with
  | none => some text
  | some rest =>
    if '*' ∈ chosen.key ∨ '*' ∈ text then
      some (text.flatMap fun c => if c = '*' then rest else [c])
    else if chosen.key.getLast? = some '/' ∧ text.getLast? = some '/' then some (text ++ rest)
    else none

end Chosen

/-- A target leads out of its package, or into another. -/
def isForbiddenTarget (target : Path) : Bool :=
  let forbidden : Path.Part → Bool
    | .up => true
    | .name n => n.map Char.toLower == "node_modules"
    | _ => false
  (Path.parts target).any forbidden

end CjsInterop
