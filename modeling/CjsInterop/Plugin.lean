import CjsInterop.Bundle.Render
import CjsInterop.Verdict

/-! The rewriting as a step of a bundler: options and a bundle in, chunks out. What is learned about
modules is kept from chunk to chunk. -/

namespace CjsInterop

structure Plugin where
  settings : Settings
  bundle : Bundle
  deriving DecidableEq, Repr

namespace Plugin

def name : Text := "requirify:require-cjs"

/-- The directory that everything relative starts from. -/
def cwd (plugin : Plugin) : Path := plugin.settings.cwd.getD plugin.bundle.cwd

/-- Where a chunk will be on the disk, which is what its imports are resolved against. -/
def importerPath (plugin : Plugin) (fileName : Text) : Path :=
  plugin.bundle.chunkPath plugin.cwd fileName

variable {m : Type → Type} [Monad m]

/-- Modules are judged by the file system, with the rules of the bundle's platform. -/
def grounds (plugin : Plugin) (files : FileSystem m) : Grounds (StateT Memory m) where
  view := files.view.lift
  resolve loader importer specifier := do
    let dir := startDirectory plugin.cwd importer
    return (← Resolution.resolve ⟨files, plugin.bundle.platform, loader⟩ dir specifier).toOption

/-- A user's word on a specifier in an importer. -/
abbrev Override (m : Type → Type) := (specifier : Text) → (importer : Path) → m (Option Bool)

def noOverride : Override m := fun _ _ => return none

def judges (plugin : Plugin) (files : FileSystem m) (override : Override m) (importer : Path) :
    Judges (StateT Session (StateT Memory m)) where
  override specifier := liftM (liftM (override specifier importer) : StateT Memory m (Option Bool))
  isCommonJs specifier := Verdict.isCommonJs (plugin.grounds files) specifier importer

def render (plugin : Plugin) (files : FileSystem m) (override : Override m) (fileName source : Text) :
    StateT Session (StateT Memory m) (Except RenderError (Option Output)) :=
  plugin.settings.render (plugin.judges files override (plugin.importerPath fileName))
    plugin.bundle.wantMap fileName source

end Plugin
end CjsInterop
