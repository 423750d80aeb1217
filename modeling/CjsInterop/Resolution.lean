import CjsInterop.Builtin
import CjsInterop.Files
import CjsInterop.Platform
import CjsInterop.Resolution.Pattern
import CjsInterop.Resolution.Specifier

/-! Finding the file that a specifier names, by the rules for imports or by those for calls of
`require`. What is learned about a path is remembered, so that every later question about the same
path gets the same answer. -/

namespace CjsInterop

/-- A file that was found. -/
structure Resolved where
  path : Path
  query? : Option Text := none
  fragment? : Option Text := none
  deriving DecidableEq, Repr

/-- The specifier names nothing but a file in a known place. -/
def Resolved.isPlainFile (r : Resolved) : Bool :=
  r.query?.isNone && r.fragment?.isNone && Path.isAbsolute r.path

/-- What has been learned about paths. -/
structure Memory where
  kinds : List (Path × Option FileKind) := []
  packages : List (Path × Option Package) := []
  realPaths : List (Path × Option Path) := []

inductive Unresolved where
  | emptySpecifier
  | builtin
  | notFound
  | malformedPackage
  /-- An `exports` object has both paths and conditions for its keys. -/
  | mixedKeys
  | forbiddenTarget
  | notExported
  | notImported
  | linkLoop
  deriving DecidableEq, Repr

/-- What changes on the way from a specifier to a file. -/
structure Lookup where
  query? : Option Text := none
  fragment? : Option Text := none
  /-- A path has to name its file in full. -/
  inFull : Bool

namespace Resolution

abbrev Finder (m : Type → Type) := ExceptT Unresolved (StateT Lookup (StateT Memory m))

/-- The rules of a loader on a file system. -/
structure Rules (m : Type → Type) where
  files : FileSystem m
  platform : Platform
  loader : Loader

variable {m : Type → Type} [Monad m]

/-! ## What is known of a path -/

def consult {α : Type} (known : Memory → List (Path × α)) (path : Path)
    (learn : Memory → Path × α → Memory) (ask : m α) : StateT Memory m α := do
  match (known (← get)).find? fun entry => entry.1 == path with
  | some (_, answer) => return answer
  | none =>
    let answer ← ask
    modify fun memory => learn memory (path, answer)
    return answer

def kind? (r : Rules m) (path : Path) : StateT Memory m (Option FileKind) :=
  consult Memory.kinds path (fun memory e => { memory with kinds := e :: memory.kinds })
    (r.files.kind? path)

def realPath? (r : Rules m) (path : Path) : StateT Memory m (Option Path) :=
  consult Memory.realPaths path (fun memory e => { memory with realPaths := e :: memory.realPaths })
    (r.files.realPath? path)

def isFile (r : Rules m) (path : Path) : Finder m Bool :=
  return (← kind? r path) = some .file

def isDirectory (r : Rules m) (path : Path) : Finder m Bool :=
  return (← kind? r path) = some .directory

/-- The `package.json` in a directory. One that cannot be read is none, one that cannot be understood
is an error, and a new one each time. -/
def package? (r : Rules m) (dir : Path) : Finder m (Option Package) := do
  let learn (package? : Option Package) : Finder m Unit :=
    modifyThe Memory fun memory => { memory with packages := (dir, package?) :: memory.packages }
  match (← getThe Memory).packages.find? fun entry => entry.1 == dir with
  | some (_, package?) => return package?
  | none =>
    match ← liftM (r.files.read (Path.join dir "package.json")) with
    | .error _ =>
      learn none
      return none
    | .ok content =>
      match Package.ofText? content with
      | none => throw .malformedPackage
      | some package =>
        learn (some package)
        return some package

/-! ## Alternatives -/

/-- The first answer that the steps give. -/
def firstOf {α β : Type} (step : α → Finder m (Option β)) : List α → Finder m (Option β)
  | [] => return none
  | a :: rest => do
    match ← step a with
    | some b => return some b
    | none => firstOf step rest

/-- Runs `p`, an error being no answer. -/
def attempt {α : Type} (p : Finder m (Option α)) : Finder m (Option α) :=
  tryCatch p fun _ => return none

def orNotFound (found : Option Path) : Finder m Path :=
  match found with
  | some path => return path
  | none => throw .notFound

/-! ## Files and directories -/

def fileIfAny (r : Rules m) (path : Path) : Finder m (Option Path) := do
  if ← isFile r path then return some path else return none

def extensions : List Text := List.map String.toList [".js", ".json", ".node"]

def withExtension (r : Rules m) (path : Path) : Finder m (Option Path) := do
  if (← getThe Lookup).inFull then return none
  else firstOf (fun extension => fileIfAny r (path ++ extension)) extensions

def asFile (r : Rules m) (path : Path) : Finder m (Option Path) :=
  firstOf id [fileIfAny r path, withExtension r path]

def asIndex (r : Rules m) (dir : Path) : Finder m (Option Path) :=
  asFile r (Path.descend dir "index")

/-- The files that a package names as its main ones. -/
def mains (platform : Platform) (package : Package) : List Text :=
  match platform with
  | .browser => package.browser?.toList ++ package.main?.toList
  | _ => package.main?.toList

/-- A path that begins with a dot and means the same from inside the directory. -/
def dotted (path : Text) : Text :=
  if (Text.dropStart? "./" path).isSome ∨ (Text.dropStart? "../" path).isSome then path
  else "./".toList ++ path

def asDirectory (r : Rules m) (dir : Path) : Finder m (Option Path) := do
  let package? ← package? r dir
  let mains := (package?.map (mains r.platform)).getD []
  let found ← firstOf
    (fun main =>
      let path := Path.descend dir (dotted main)
      firstOf id [asFile r path, asIndex r path])
    mains
  match found with
  | some path => return some path
  | none => asIndex r dir

/-- The file or directory at `path`. A specifier that ends in a slash asks for a directory. -/
def asFileOrDirectory (r : Rules m) (path : Path) (specifier : Text) : Finder m (Option Path) := do
  let file ← if specifier.getLast? = some '/' then pure none else asFile r path
  match file with
  | some path => return some path
  | none => if ← isDirectory r path then asDirectory r path else return none

/-! ## Packages -/

/-- The nearest package at a directory or above it, with its directory. -/
def packageAbove (r : Rules m) (path : Path) : Finder m (Option (Path × Package)) := do
  let rec skip : List Path → Finder m (List Path)
    | [] => return []
    | [last] => return [last]
    | dir :: above => do if ← isDirectory r dir then return dir :: above else skip above
  firstOf
    (fun dir => do return (← package? r dir).map fun package => (dir, package))
    (← skip (Path.ancestors path))

/-- Every file that is found belongs to a package: inside `node_modules` all packages up to there are
read, elsewhere the nearest. They are only read for their errors. -/
def checkPackages (r : Rules m) (path : Path) : Finder m Unit := do
  let dirs := Path.ancestors path
  let isModules (dir : Path) : Bool := Path.fileName? dir == some "node_modules".toList
  if dirs.any isModules then
    for dir in dirs.takeWhile (fun dir => !isModules dir) do
      if ← isDirectory r dir then discard (package? r dir)
  else discard (packageAbove r path)

mutual

/-- The path that a target comes to from the directory of its package. A path that does not begin
with `./` is left to `outside`. -/
def targetPath (r : Rules m) (dir : Path) (outside : Text → Finder m (Option Path)) (chosen : Chosen) :
    ExportTarget → Finder m (Option Path)
  | .nothing => return none
  | .path text =>
    if (Text.dropStart? "./" text).isNone then
      outside text
    else
      match chosen.fill? text with
      | none => throw .forbiddenTarget
      | some target =>
        if isForbiddenTarget target then throw .forbiddenTarget
        else return some (Path.descend dir target)
  | .conditions entries => conditionsPath r dir outside chosen entries
  | .alternatives [] => throw .notExported
  | .alternatives targets => alternativesPath r dir outside chosen targets

def conditionsPath (r : Rules m) (dir : Path) (outside : Text → Finder m (Option Path))
    (chosen : Chosen) : List (Text × ExportTarget) → Finder m (Option Path)
  | [] => return none
  | (condition, target) :: rest => do
    if condition ∈ conditions r.platform r.loader then
      match ← targetPath r dir outside chosen target with
      | some path => return some path
      | none => conditionsPath r dir outside chosen rest
    else conditionsPath r dir outside chosen rest

def alternativesPath (r : Rules m) (dir : Path) (outside : Text → Finder m (Option Path))
    (chosen : Chosen) : List ExportTarget → Finder m (Option Path)
  | [] => return none
  | target :: rest => do
    match ← attempt (targetPath r dir outside chosen target) with
    | some path => return some path
    | none => alternativesPath r dir outside chosen rest

end

def entryPath (r : Rules m) (dir : Path) (outside : Text → Finder m (Option Path))
    (entries : List (Text × ExportTarget)) (name : Text) : Finder m (Option Path) :=
  match Chosen.ofEntries? entries name with
  | some chosen => targetPath r dir outside chosen chosen.target
  | none => return none

def isPathKey (key : Text) : Bool := key.head? = some '.' || key.head? = some '#'

/-- What a package exports under its own name: the entry for `.`, or all of `exports` when it has no
paths for its keys. -/
def mainExport? : ExportTarget → Option ExportTarget
  | .conditions entries =>
    match entries.find? fun e => e.1 == ".".toList with
    | some (_, target) => some target
    | none =>
      if entries.any fun (key, _) => (Text.dropStart? "./" key).isSome ∨ key.head? = some '#' then none
      else some (.conditions entries)
  | .nothing => none
  | target => some target

/-- The path that a package exports as `.` followed by `subpath`. -/
def exported (r : Rules m) (dir : Path) (exports : ExportTarget) (subpath : Text) :
    Finder m (Option Path) := do
  let entries :=
    match exports with
    | .conditions entries => entries
    | _ => []
  if entries.any (isPathKey ·.1) ∧ entries.any (fun e => !isPathKey e.1) then throw .mixedKeys
  let outside : Text → Finder m (Option Path) := fun _ => throw .forbiddenTarget
  let name : Text := '.' :: subpath
  let main ←
    if subpath = [] then do
      let lookup ← getThe Lookup
      if lookup.query?.isSome ∨ lookup.fragment?.isSome then throw .notExported
      match mainExport? exports with
      | some target => targetPath r dir outside ⟨name, target, none⟩ target
      | none => pure none
    else pure none
  match main with
  | some path => return some path
  | none =>
    match ← entryPath r dir outside entries name with
    | some path => return some path
    | none => throw .notExported

/-- A file that a package points to has to be there. -/
def settled (r : Rules m) (path : Path) : Finder m Path := do
  orNotFound (← asFileOrDirectory r path [])

def fromExports (r : Rules m) (dir : Path) (package : Package) (subpath : Text) :
    Finder m (Option Path) := do
  match package.exports? with
  | none => return none
  | some exports =>
    match ← exported r dir exports subpath with
    | some path => return some (← settled r path)
    | none => return none

/-- A package may name itself, if it says what it exports. -/
def fromOwnPackage (r : Rules m) (dir : Path) (specifier : Text) : Finder m (Option Path) := do
  match ← packageAbove r dir with
  | none => return none
  | some (packageDir, package) =>
    match package.name?.bind fun name => Text.dropStart? name specifier with
    | none => return none
    | some subpath =>
      if subpath = [] ∨ subpath.head? = some '/' then fromExports r packageDir package subpath
      else return none

/-- The `node_modules` in a directory. -/
def modulesIn (r : Rules m) (dir : Path) : Finder m (Option Path) := do
  let modules := Path.join dir "node_modules"
  if ← isDirectory r modules then return some modules else return none

/-- Looks for a specifier in one `node_modules`. -/
def fromModules (r : Rules m) (modules : Path) (specifier name subpath : Text) :
    Finder m (Option Path) := do
  let plain := asFileOrDirectory r (Path.descend modules specifier) specifier
  if name = [] then plain
  else
    let dir := Path.descend modules name
    if ← isDirectory r dir then
      let found ←
        match ← package? r dir with
        | some package => fromExports r dir package subpath
        | none => pure none
      match found with
      | some path => return some path
      | none => plain
    else if subpath ≠ [] then return none
    else if name.head? = some '@' then
      match Path.parent? dir with
      | some above => if ← isDirectory r above then plain else return none
      | none => plain
    else plain

def fromPackages (r : Rules m) (dir : Path) (specifier : Text) : Finder m Path := do
  let (name, subpath) := Specifier.splitPackage specifier
  if subpath = [] then modifyThe Lookup fun lookup => { lookup with inFull := false }
  match ← fromOwnPackage r dir specifier with
  | some path => return path
  | none =>
    orNotFound (← firstOf
      (fun dir => do
        if ← isDirectory r dir then
          match ← modulesIn r dir with
          | some modules => fromModules r modules specifier name subpath
          | none => return none
        else return none)
      (Path.ancestors dir))

/-! ## Specifiers -/

/-- Reads a specifier and goes on with its path. What follows a hash may also be a part of the path,
which is tried first. -/
def withSpecifier (specifier : Text) (go : Text → Finder m Path) : Finder m Path := do
  match Specifier.ofText? specifier with
  | none => throw .emptySpecifier
  | some parsed =>
    modifyThe Lookup fun lookup => { lookup with
      query? := parsed.query? <|> lookup.query?
      fragment? := parsed.fragment? <|> lookup.fragment? }
    let lookup ← getThe Lookup
    match lookup.query?, lookup.fragment? with
    | none, some fragment =>
      modifyThe Lookup fun lookup => { lookup with fragment? := none }
      match ← attempt (return some (← go (parsed.path ++ fragment))) with
      | some path => return path
      | none =>
        modifyThe Lookup fun lookup => { lookup with fragment? := some fragment }
        go parsed.path
    | _, _ => go parsed.path

def fromDirectory (r : Rules m) (dir : Path) (specifier : Text) : Finder m Path := do
  orNotFound (← asFileOrDirectory r (Path.descend dir specifier)
    (if specifier = "." then "./" else specifier))

def refuseBuiltin (r : Rules m) (specifier : Text) : Finder m Unit :=
  if r.platform = .node ∧
      ((Text.dropStart? "node:" specifier).isSome ∨ specifier ∈ Builtin.names) then
    throw .builtin
  else return

/-- The path that a target of `imports` comes to when it names another package. -/
def fromOtherPackage (r : Rules m) (dir : Path) (specifier : Text) : Finder m (Option Path) := do
  let (name, subpath) := Specifier.splitPackage specifier
  refuseBuiltin r name
  let found ← firstOf
    (fun above => do
      match ← modulesIn r above with
      | none => return none
      | some modules =>
        let dir := Path.descend modules name
        if ← isDirectory r dir then
          let exports? := (← package? r dir).bind Package.exports?
          let found ←
            match exports? with
            | some exports => exported r dir exports subpath
            | none => pure none
          match found with
          | some path => return some path
          | none =>
            modifyThe Lookup fun lookup => { lookup with inFull := false }
            return some (← withSpecifier ('.' :: subpath) (fromDirectory r dir))
        else return none)
    (Path.ancestors dir)
  return some (← orNotFound found)

def fromImports (r : Rules m) (dir : Path) (specifier : Text) : Finder m (Option Path) := do
  match ← packageAbove r dir with
  | none => return none
  | some (packageDir, package) =>
    match package.imports? with
    | none => return none
    | some entries =>
      if specifier = "#" ∨ (Text.dropStart? "#/" specifier).isSome then throw .notImported
      let packageDir := (← realPath? r packageDir).getD packageDir
      match Chosen.ofEntries? entries specifier with
      | none => throw .notImported
      | some chosen =>
        let outside (text : Text) : Finder m (Option Path) :=
          if (Text.dropStart? "../" text).isSome ∨ text.head? = some '/' then throw .forbiddenTarget
          else
            match chosen.fill? text with
            | some target => fromOtherPackage r packageDir target
            | none => throw .forbiddenTarget
        match ← targetPath r packageDir outside chosen chosen.target with
        | some path => return some (← settled r path)
        | none => throw .notImported

/-- Finds the file for the path of a specifier, by how the path begins. -/
def find (r : Rules m) (dir : Path) (specifier : Text) : Finder m Path :=
  match (Path.parts specifier).head? with
  | some .root => do orNotFound (← asFileOrDirectory r specifier specifier)
  | some .here => fromDirectory r dir specifier
  | some .up => fromDirectory r dir specifier
  | _ => do
    if specifier.head? = some '#' then
      match ← fromImports r dir specifier with
      | some path => return path
      | none => fromPackages r dir specifier
    else
      refuseBuiltin r specifier
      fromPackages r dir specifier

def findReal (r : Rules m) (dir : Path) (specifier : Text) : Finder m Path := do
  let path ← withSpecifier specifier (find r dir)
  match ← realPath? r path with
  | none => throw .linkLoop
  | some real =>
    checkPackages r path
    return real

/-- The file that a specifier names when it is asked for from a file in `dir`. -/
def resolve (r : Rules m) (dir : Path) (specifier : Text) : StateT Memory m (Except Unresolved Resolved) := do
  let (result, lookup) ← (findReal r dir specifier).run.run { inFull := r.loader = .importing }
  return result.map fun path => ⟨path, lookup.query?, lookup.fragment?⟩

end Resolution

/-- The directory that a file's specifiers start from. A file that has no directory of its own is
taken to be in `cwd`. -/
def startDirectory (cwd importer : Path) : Path :=
  let dir :=
    match Path.parent? importer with
    | some dir => if Path.parts dir = [] then cwd else dir
    | none => cwd
  Path.absolutize cwd dir

end CjsInterop
