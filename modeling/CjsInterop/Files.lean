import CjsInterop.Path

/-! What is asked of a file system, and what is done to one, in any monad that answers. -/

namespace CjsInterop

inductive FileKind where
  | file
  | directory
  deriving DecidableEq, Repr

/-- Why a file cannot be read or written. -/
inductive FileError where
  | notFound
  | notDirectory
  | isDirectory
  | linkLoop
  | nameTooLong
  /-- The bytes are no UTF-8 text. -/
  | notText
  | other (message : Text)
  deriving DecidableEq, Repr

/-- The wording of the system, with its number for the error. -/
def FileError.message : FileError → Text
  | notFound => "No such file or directory (os error 2)"
  | notDirectory => "Not a directory (os error 20)"
  | isDirectory => "Is a directory (os error 21)"
  | linkLoop => "Too many levels of symbolic links (os error 40)"
  | nameTooLong => "File name too long (os error 36)"
  | notText => "stream did not contain valid UTF-8"
  | other message => message

structure FileSystem (m : Type → Type) where
  /-- What a path leads to, links followed. -/
  kind? : Path → m (Option FileKind)
  read : Path → m (Except FileError Text)
  /-- The name that the file has without links. A relative path stays relative. -/
  realPath? : Path → m (Option Path)
  write : Path → Text → m (Except FileError Unit)

/-- The part of a file system that inspecting a module needs. -/
structure FileView (m : Type → Type) where
  isFile : Path → m Bool
  read : Path → m (Except FileError Text)

def FileSystem.view {m : Type → Type} [Monad m] (files : FileSystem m) : FileView m where
  isFile path := return (← files.kind? path) = some .file
  read := files.read

/-- The same operations in a larger monad. -/
def FileSystem.lift {m n : Type → Type} [MonadLiftT m n] (files : FileSystem m) : FileSystem n where
  kind? path := files.kind? path
  read path := files.read path
  realPath? path := files.realPath? path
  write path content := files.write path content

def FileView.lift {m n : Type → Type} [MonadLiftT m n] (view : FileView m) : FileView n where
  isFile path := view.isFile path
  read path := view.read path

end CjsInterop
