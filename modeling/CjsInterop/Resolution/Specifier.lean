import CjsInterop.Path

/-! The parts of a module specifier. -/

namespace CjsInterop

structure Specifier where
  path : Text
  /-- From the question mark on. -/
  query? : Option Text := none
  /-- From the hash on. -/
  fragment? : Option Text := none
  deriving DecidableEq, Repr

namespace Specifier

/-- Cuts at the first hash. One with NUL before it is no cut. -/
def cutFragment (before : Char) : Text → Text × Option Text
  | [] => ([], none)
  | c :: rest =>
    if c = '#' ∧ before ≠ '\x00' then ([], some (c :: rest))
    else
      let (path, fragment?) := cutFragment c rest
      (c :: path, fragment?)

def cutQuery (text : Text) : Text × Option Text :=
  let query := text.dropWhile (· ≠ '?')
  (text.takeWhile (· ≠ '?'), if query = [] then none else some query)

/-- The bytes before each NUL that protects a hash. -/
def protections (offset : Nat) : Text → List Nat
  | [] => []
  | c :: rest =>
    let later := protections (offset + c.utf8Size) rest
    if c = '\x00' ∧ rest.head? = some '#' then offset :: later else later

/-- The path without what protected its hashes. Behind characters of several bytes the count of bytes
has run ahead of the characters, and another one is dropped. -/
def unprotect (path : Text) : Text :=
  let dropped := protections 0 path
  (path.zipIdx.filter fun (_, i) => i ∉ dropped).map Prod.fst

/-- A first slash, dot or hash is never a cut. -/
def lead : Text → Text × Text
  | c :: rest => if c = '/' ∨ c = '.' ∨ c = '#' then ([c], rest) else ([], c :: rest)
  | [] => ([], [])

def ofText? (text : Text) : Option Specifier :=
  match text with
  | [] => none
  | first :: _ =>
    let (start, rest) := lead text
    let (rest, fragment?) := cutFragment first rest
    let (rest, query?) := cutQuery rest
    let path := start ++ rest
    if path = [] then none else some ⟨unprotect path, query?, fragment?⟩

/-- The package that a bare specifier names, and the path inside it, which begins with a slash unless
it is empty. A scope belongs to the name. -/
def splitPackage (path : Text) : Text × Text :=
  let name := path.takeWhile (· ≠ '/')
  let rest := path.dropWhile (· ≠ '/')
  if path.head? = some '@' then
    match rest with
    | slash :: rest => (name ++ slash :: rest.takeWhile (· ≠ '/'), rest.dropWhile (· ≠ '/'))
    | [] => (name, [])
  else (name, rest)

end Specifier
end CjsInterop
