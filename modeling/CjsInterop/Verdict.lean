import CjsInterop.Builtin
import CjsInterop.Manifest.Nearest
import CjsInterop.Resolution
import CjsInterop.Surface

/-! Whether an import can become a call of `require` without loading another file or another kind of
module. The answer is yes only when all of it can be shown. -/

namespace CjsInterop

/-- The reader of module contents, which is made when it is first needed. Until making it succeeds,
every need is a new try. -/
structure Inspector where
  tries : Nat := 0
  ready : Bool := false
  deriving DecidableEq, Repr

/-- Makes the reader if there is none. -/
def Inspector.acquire (succeeds : Nat → Bool) (i : Inspector) : Inspector :=
  if i.ready then i else ⟨i.tries + 1, succeeds i.tries⟩

/-- What earlier verdicts leave behind. -/
structure Session where
  manifests : ManifestCache := []
  inspector : Inspector := {}

/-- What a verdict is based on. -/
structure Grounds (m : Type → Type) where
  view : FileView m
  /-- The file that a specifier names for a loader when it stands in the file `importer`. -/
  resolve : Loader → (importer : Path) → (specifier : Text) → m (Option Resolved)
  /-- Whether the try of that number, from zero, makes the reader. -/
  succeeds : Nat → Bool := fun _ => true

/-- How far a verdict gets without reading a module. -/
inductive Finding where
  | decided (isCommonJs : Bool)
  | content (source : Text)
  deriving DecidableEq, Repr

namespace Verdict

variable {m : Type → Type} [Monad m]

/-- The file that both loaders take a specifier for, if there is one and it is a plain file. -/
def commonFile? (g : Grounds m) (specifier : Text) (importer : Path) : m (Option Path) := do
  match ← g.resolve .importing importer specifier with
  | none => return none
  | some imported =>
    if !imported.isPlainFile then return none
    else if !(← g.view.isFile imported.path) then return none
    else
      match ← g.resolve .requiring importer specifier with
      | none => return none
      | some required =>
        return if Path.parts imported.path = Path.parts required.path then some imported.path else none

/-- What the name of a file and the manifest that governs it say. -/
def findingFor (g : Grounds m) (path : Path) : StateT ManifestCache m Finding := do
  match Path.extension? path with
  | some extension =>
    if extension = "cjs" then return .decided true
    else if extension = "js" then
      match (← Manifest.nearest g.view path).bind Manifest.system? with
      | some .esModule => return .decided false
      | some .commonJs => return .decided true
      | none =>
        match ← g.view.read path with
        | .ok source => return .content source
        | .error _ => return .decided false
    else return .decided false
  | none => return .decided false

def finding (g : Grounds m) (specifier : Text) (importer : Path) : StateT ManifestCache m Finding := do
  if Builtin.isBuiltin specifier then return .decided false
  else
    match ← liftM (commonFile? g specifier importer) with
    | some path => findingFor g path
    | none => return .decided false

/-- The verdict on a module's content, by an inspector that is ready. -/
def ofContent (source : Text) : Bool := (Surface.ofSource source).isOk

/-- The module that `specifier` names in `importer` certainly is CommonJS. -/
def isCommonJs (g : Grounds m) (specifier : Text) (importer : Path) : StateT Session m Bool := do
  let (found, manifests) ← finding g specifier importer |>.run (← get).manifests
  modify fun session => { session with manifests := manifests }
  match found with
  | .decided answer => return answer
  | .content source =>
    let inspector := (← get).inspector.acquire g.succeeds
    modify fun session => { session with inspector := inspector }
    return inspector.ready && ofContent source

end Verdict
end CjsInterop
