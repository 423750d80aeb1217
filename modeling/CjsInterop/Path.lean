import CjsInterop.Text

/-! Slash-separated paths, read lexically: nothing here looks at a disk. A path keeps the spelling it
was given, repeated slashes included; `parts` is what it means. -/

namespace CjsInterop

abbrev Path := Text

namespace Path

/-- One step of a path. `here` is a leading dot; later dots and empty segments are no steps. -/
inductive Part where
  | root
  | here
  | up
  | name (n : Text)
  deriving DecidableEq, Repr

def Part.text : Part → Text
  | root => "/"
  | here => "."
  | up => ".."
  | name n => n

def step? (segment : Text) : Option Part :=
  if segment = [] ∨ segment = "." then none
  else if segment = ".." then some .up
  else some (.name segment)

/-- A path taken apart: what it starts from, and its segments as they are spelled. -/
def segments : Path → List Part × List Text
  | '/' :: rest => ([.root], Text.splitAt '/' rest)
  | path =>
    match Text.splitAt '/' path with
    | ['.'] :: rest => ([.here], rest)
    | all => ([], all)

def parts (path : Path) : List Part :=
  let (start, rest) := segments path
  start ++ rest.filterMap step?

def isAbsolute (path : Path) : Bool :=
  path.head? == some '/'

/-- The spelling of a start and the segments after it. -/
def spell : List Part → List Text → Path
  | [.root], rest => '/' :: Text.join "/" rest
  | [.here], [] => "."
  | [.here], rest => '.' :: '/' :: Text.join "/" rest
  | _, rest => Text.join "/" rest

def dropIdle (reversed : List Text) : List Text :=
  reversed.dropWhile fun segment => (step? segment).isNone

/-- The path without its last step, spelled as before up to there. The root has none, and the empty
path has none. -/
def parent? (path : Path) : Option Path :=
  let (start, rest) := segments path
  match dropIdle rest.reverse with
  | _ :: before => some (spell start (dropIdle before).reverse)
  | [] => if start = [.here] then some [] else none

/-- The last step, when it is a name. -/
def fileName? (path : Path) : Option Text :=
  match (parts path).getLast? with
  | some (.name n) => some n
  | _ => none

/-- A name cut at its last dot: what is before it and what is after it. -/
def cutAtLastDot (name : Text) : Option (Text × Text) :=
  let after := name.reverse.takeWhile (· ≠ '.')
  match name.reverse.dropWhile (· ≠ '.') with
  | _ :: before => some (before.reverse, after.reverse)
  | [] => none

/-- What follows the last dot of the file name. A name that only starts with a dot has none. -/
def extension? (path : Path) : Option Text := do
  let name ← fileName? path
  let (before, after) ← cutAtLastDot name
  if before = [] then none else some after

/-- `other` as seen from `path`. -/
def join (path other : Path) : Path :=
  if isAbsolute other then other
  else if path = [] ∨ path.getLast? = some '/' then path ++ other
  else path ++ '/' :: other

/-- Adds a step to a normal path held in reverse. Above the root is the root. -/
def push : List Part → Part → List Part
  | done, .here => done
  | .name _ :: done, .up => done
  | [.root], .up => [.root]
  | done, part => part :: done

/-- The spelling of steps, the empty path being a dot. -/
def ofParts : List Part → Path
  | [] => "."
  | .root :: rest => '/' :: Text.join "/" (rest.map Part.text)
  | parts => Text.join "/" (parts.map Part.text)

/-- The same path without dots, without repeated slashes, and without any `..` that follows a name
or the root. -/
def normalize (path : Path) : Path :=
  ofParts ((parts path).foldl push []).reverse

/-- `path` read in the directory `cwd` unless it is absolute, in normal form. -/
def absolutize (cwd path : Path) : Path :=
  normalize (if isAbsolute path then path else join cwd path)

/-- The steps of `path` below `dir`, spelled. -/
def below? (dir path : Path) : Option Path :=
  let dir := parts dir
  if dir.isPrefixOf (parts path) then
    some (Text.join "/" (((parts path).drop dir.length).map Part.text))
  else none

/-- `path` and what `parent?` finds above it, at most `n` paths. -/
def ancestorsWithin : Nat → Path → List Path
  | 0, _ => []
  | n + 1, path => path :: ((parent? path).map (ancestorsWithin n)).getD []

/-- The path and all paths above it. A parent is shorter, so its length bounds their number. -/
def ancestors (path : Path) : List Path := ancestorsWithin (path.length + 1) path

/-- Where the steps of `other` lead from `path`, each `..` taking away a step. A path without steps,
or one from the root, stays what it is. -/
def descend (path other : Path) : Path :=
  if isAbsolute other ∨ other = [] then other
  else
    (parts other).foldl
      (fun path part =>
        match part with
        | .name n => join path n
        | .up => (parent? path).getD path
        | _ => path)
      path

end Path
end CjsInterop
