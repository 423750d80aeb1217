import CjsInterop.Files

/-! A file tree in memory. A location is the names that lead to it from the root, the last one first.
Paths are followed a step at a time, so that links and missing directories are met where they stand. -/

namespace CjsInterop

abbrev Location := List Text

inductive Node where
  /-- A file, without a content when its bytes are no text. -/
  | file (content : Option Text)
  | directory
  | link (target : Path)
  deriving DecidableEq, Repr

structure Disk where
  nodes : List (Location × Node) := [([], .directory)]
  /-- Where relative paths start, if they lead anywhere. -/
  workingDirectory : Path := []
  deriving Repr

namespace Disk

def find? (disk : Disk) (location : Location) : Option Node :=
  (disk.nodes.find? fun entry => entry.1 == location).map Prod.snd

/-- The tree with `node` at a location, whatever stood there. -/
def put (disk : Disk) (location : Location) (node : Node) : Disk :=
  { disk with nodes := (location, node) :: disk.nodes.filter fun entry => entry.1 != location }

/-- The tree without what stands at a location or below it. -/
def erase (disk : Disk) (location : Location) : Disk :=
  { disk with nodes := disk.nodes.filter fun entry => !location.isSuffixOf entry.1 }

/-! ## Following paths -/

def nameLimit : Nat := 255

/-- Goes from a directory through `steps`. Links are left to `onLink`, and `mayBeNew` allows the last
step to name nothing yet. -/
def follow (disk : Disk) (mayBeNew : Bool) (onLink : Location → List Text → Except FileError Location) :
    Location → List Text → Except FileError Location
  | location, [] => .ok location
  | location, step :: rest =>
    match disk.find? location with
    | some .directory =>
      if step = [] ∨ step = "." then follow disk mayBeNew onLink location rest
      else if step = ".." then follow disk mayBeNew onLink location.tail rest
      else if nameLimit < Text.byteLength step then .error .nameTooLong
      else
        match disk.find? (step :: location) with
        | some (.link target) =>
          onLink (if Path.isAbsolute target then [] else location) (Text.splitAt '/' target ++ rest)
        | some _ => follow disk mayBeNew onLink (step :: location) rest
        | none => if mayBeNew ∧ rest = [] then .ok (step :: location) else .error .notFound
    | some _ => .error .notDirectory
    | none => .error .notFound

/-- Goes through `steps` and fewer than `links` links. -/
def walk (disk : Disk) (mayBeNew : Bool) : Nat → Location → List Text → Except FileError Location
  | 0 => fun _ _ => .error .linkLoop
  | links + 1 => follow disk mayBeNew (walk disk mayBeNew links)

def linkLimit : Nat := 40

/-- The location that a path leads to. -/
def locate (disk : Disk) (mayBeNew : Bool) (path : Path) : Except FileError Location :=
  if path = [] then .error .notFound
  else
    match Path.join disk.workingDirectory path with
    | '/' :: steps => walk disk mayBeNew (linkLimit + 1) [] (Text.splitAt '/' steps)
    | _ => .error .notFound

def kind? (disk : Disk) (path : Path) : Option FileKind :=
  match (disk.locate false path).toOption.bind disk.find? with
  | some (.file _) => some .file
  | some .directory => some .directory
  | _ => none

def read (disk : Disk) (path : Path) : Except FileError Text := do
  match disk.find? (← disk.locate false path) with
  | some (.file (some content)) => pure content
  | some (.file none) => throw .notText
  | some .directory => throw .isDirectory
  | _ => throw .notFound

def write (disk : Disk) (path : Path) (content : Text) : Except FileError Disk := do
  let location ← disk.locate true path
  match disk.find? location with
  | some .directory => throw .isDirectory
  | _ => pure (disk.put location (.file (some content)))

/-! ## Names without links -/

/-- The names that a link in `location` leads through; `..` takes away the name before it. -/
def linkNames (location : Location) (target : Path) : List Text :=
  ((Path.parts target).foldl
    (fun names part =>
      match part with
      | .name n => n :: names
      | .up => names.tail
      | .root => []
      | .here => names)
    location).reverse

/-- Adds names to a location that has no links in it. -/
def settle (disk : Disk) (onLink : List Text → Option Location) : Location → List Path.Part → Option Location
  | location, [] => some location
  | location, .name n :: rest =>
    match disk.find? (n :: location) with
    | some (.link target) => do settle disk onLink (← onLink (linkNames location target)) rest
    | _ => settle disk onLink (n :: location) rest
  | location, .up :: rest => settle disk onLink location.tail rest
  | location, _ :: rest => settle disk onLink location rest

def realLocation? (disk : Disk) : Nat → List Path.Part → Option Location
  | 0, _ => none
  | links + 1, parts => settle disk (fun names => realLocation? disk links (names.map .name)) [] parts

def Location.path (location : Location) : Path := '/' :: Text.join "/" location.reverse

def realPath? (disk : Disk) (path : Path) : Option Path :=
  if Path.isAbsolute path then
    (disk.realLocation? (linkLimit + 1) (Path.parts path)).map Location.path
  else some path

/-! ## Building -/

/-- The tree with directories at a location and above it, where nothing stood. -/
def addDirectories (disk : Disk) : Location → Disk
  | [] => disk
  | name :: above =>
    let disk := disk.addDirectories above
    if (disk.find? (name :: above)).isSome then disk else disk.put (name :: above) .directory

/-- The tree with `node` at an absolute path, and with the directories that lead there. -/
def add (disk : Disk) (path : Path) (node : Node) : Disk :=
  let location : Location := linkNames [] path |>.reverse
  let disk := disk.addDirectories location.tail
  match disk.locate true path, node with
  | .ok location, .file _ => disk.put location node
  | _, _ => if (disk.find? location).isSome ∧ node = .directory then disk else disk.put location node

/-- All files, each with its content. -/
def files (disk : Disk) : List (Path × Option Text) :=
  disk.nodes.filterMap fun
    | (location, .file content) => some (Location.path location, content)
    | _ => none

/-- The operations on a tree that is the state. -/
def fileSystem : FileSystem (StateM Disk) where
  kind? path := return (← get).kind? path
  read path := return (← get).read path
  realPath? path := return (← get).realPath? path
  write path content := do
    match (← get).write path content with
    | .ok disk =>
      set disk
      return .ok ()
    | .error e => return .error e

end Disk
end CjsInterop
