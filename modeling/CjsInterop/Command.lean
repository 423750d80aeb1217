import CjsInterop.Command.Arguments
import CjsInterop.Command.Report
import CjsInterop.Options.Reader
import CjsInterop.Plugin

/-! The command: rewrites files in place, one after the other. A file that fails does not keep the
others from being rewritten. -/

namespace CjsInterop.Command

variable {m : Type → Type} [Monad m]

/-- What came of a file. -/
inductive FileOutcome where
  | done (report : Report)
  | failed (failure : FileFailure)
  /-- An edit did not fit, which ends the run. -/
  | broken
  deriving DecidableEq, Repr

/-- The name of a chunk: its path below the output directory, or all of it. -/
def chunkName (file dir : Path) : Text := (Path.below? dir file).getD file

def mapPath (file : Path) : Path := file ++ ".map".toList

abbrev Run (m : Type → Type) := StateT Session (StateT Memory m)

def liftRun {α : Type} (p : m α) : Run m α := liftM (liftM p : StateT Memory m α)

/-- Writes a rewritten file, and its source map if there is one. -/
def writeOutput (files : FileSystem m) (file : Path) (output : Output) : m (Option FileFailure) := do
  match ← files.write file output.code with
  | .error e => return some (.unwritten e)
  | .ok () =>
    match output.map with
    | none => return none
    | some map =>
      match ← files.write (mapPath file) map with
      | .error e => return some (.mapUnwritten e)
      | .ok () => return none

def rewriteFile (plugin : Plugin) (files : FileSystem m) (dir file : Path) : Run m FileOutcome := do
  let name := chunkName file dir
  match ← liftRun (files.read file) with
  | .error e => return .failed (.unread e)
  | .ok source =>
    match ← plugin.render files Plugin.noOverride name source with
    | .error .unreadable => return .failed .noModule
    | .error .misplacedEdit => return .broken
    | .ok none => return .done ⟨name, Text.byteLength source, false⟩
    | .ok (some output) =>
      match ← liftRun (writeOutput files file output) with
      | some failure => return .failed failure
      | none => return .done ⟨name, Text.byteLength output.code, true⟩

/-- The outcomes of the files, in order, up to one that ends the run. -/
def rewriteFiles (plugin : Plugin) (files : FileSystem m) (dir : Path) :
    List Path → Run m (List (Path × FileOutcome))
  | [] => return []
  | file :: rest => do
    match ← rewriteFile plugin files dir file with
    | .broken => return [(file, .broken)]
    | outcome => return (file, outcome) :: (← rewriteFiles plugin files dir rest)

/-- What came of a run. -/
inductive Outcome where
  | finished (reports : List Report)
  | failed (errors : List RunError)
  | broken
  deriving DecidableEq, Repr

def Outcome.ofFiles (outcomes : List (Path × FileOutcome)) : Outcome :=
  let errors := outcomes.filterMap fun
    | (file, .failed failure) => some (.file file failure)
    | _ => none
  let reports := outcomes.filterMap fun
    | (_, .done report) => some report
    | _ => none
  if outcomes.any fun e => e.2 = .broken then .broken
  else if errors = [] then .finished reports
  else .failed errors

/-- The options of a configuration file, or the defaults when there is none. -/
def configuration (files : FileSystem m) : Option Path → m (Except RunError Options)
  | none => return .ok {}
  | some file => do
    match ← files.read file with
    | .error e => return .error (.unreadConfig file e)
    | .ok content =>
      match Options.ofText? content with
      | some options => return .ok options
      | none => return .error (.invalidConfig file)

/-- The bundle that the arguments describe. `here` is the directory that the command runs in. -/
def Arguments.bundle (a : Arguments) (here : Path) : Bundle where
  cwd := a.cwd?.getD here
  platform := a.platform?.getD .node
  format := a.format?.getD .esm
  dir? := some (a.dir?.getD ".")
  wantMap := a.wantMap

def run (files : FileSystem m) (here : Path) (a : Arguments) : m Outcome := do
  let bundle := a.bundle here
  match ← configuration files a.config? with
  | .error e => return .failed [e]
  | .ok options =>
    let plugin : Plugin := ⟨(a.override options).settings, bundle⟩
    match bundle.check with
    | .error e => return .failed [.bundle e]
    | .ok () =>
      let dir := Path.absolutize bundle.cwd (a.dir?.getD ".")
      let outcomes ← rewriteFiles plugin files dir (a.files.map (Path.absolutize bundle.cwd))
        |>.run' {} |>.run' {}
      return .ofFiles outcomes

/-! ## What is seen of a run -/

def versionText : Text := "requirify_cli 0.1.0"

/-- What is printed, what is printed as an error, and the exit code. -/
structure Display where
  output : List Text := []
  errors : List Text := []
  exit : Nat
  deriving DecidableEq, Repr

def RunError.isConfiguration : RunError → Bool
  | .bundle _ => true
  | _ => false

def Outcome.display (outcome : Outcome) (silent : Bool) (elapsed : Text) : Display :=
  match outcome with
  | .finished reports =>
    { output := if silent then [] else reportLines reports elapsed
      exit := 0 }
  | .failed errors =>
    { errors := errors.map RunError.line
      exit := if errors.any RunError.isConfiguration then 2 else 1 }
  | .broken => { exit := 101 }

def Stop.display : Stop → Display
  | .help => { exit := 0 }
  | .version =>
    { output := [versionText]
      exit := 0 }
  | .misuse => { exit := 2 }

end CjsInterop.Command
