import CjsInterop.Files
import CjsInterop.Manifest

/-! The manifest that governs a file: the first one above it, within the package that it belongs to.
What was found for a directory is kept, however the directory is spelled. -/

namespace CjsInterop

/-- For each directory asked about, the manifest that governs its files. -/
abbrev ManifestCache := List (Path × Option Manifest)

namespace Manifest

variable {m : Type → Type} [Monad m]

/-- The manifest in a file. One that cannot be read or understood declares no type. -/
def readFrom (view : FileView m) (path : Path) : m Manifest := do
  match ← view.read path with
  | .ok content => return (ofText? path content).getD ⟨path, none⟩
  | .error _ => return ⟨path, none⟩

def isModulesDirectory (dir : Path) : Bool := Path.fileName? dir == some "node_modules".toList

/-- The manifest for files in the first of `dirs`, each the parent of the one before. A directory
called `node_modules` ends the search: what is above it belongs to another package. -/
def nearestIn (view : FileView m) : List Path → StateT ManifestCache m (Option Manifest)
  | [] => return none
  | dir :: above => do
    match (← get).find? fun entry => Path.parts entry.1 == Path.parts dir with
    | some (_, found) => return found
    | none =>
      let file := Path.join dir "package.json"
      let found ←
        if isModulesDirectory dir then pure none
        else if ← view.isFile file then pure (some (← liftM (readFrom view file)))
        else nearestIn view above
      modify ((dir, found) :: ·)
      return found

def nearest (view : FileView m) (path : Path) : StateT ManifestCache m (Option Manifest) :=
  match Path.parent? path with
  | some dir => nearestIn view (Path.ancestors dir)
  | none => return none

end Manifest
end CjsInterop
