import CjsInterop.Command

/-! The command on the real file system. -/

namespace CjsInterop

/-- The number that the system gives an error. -/
def systemErrorCode? : IO.Error → Option UInt32
  | .noFileOrDirectory _ code _ => some code
  | .inappropriateType _ code _ => some code
  | .invalidArgument _ code _ => some code
  | .resourceExhausted _ code _ => some code
  | .permissionDenied _ code _ => some code
  | .otherError code _ => some code
  | _ => none

/-- Some operations give the number of an error with its sign turned. -/
def unsigned (code : UInt32) : UInt32 := if code < 0x80000000 then code else 0 - code

def FileError.ofSystem (e : IO.Error) : FileError :=
  match (systemErrorCode? e).map unsigned with
  | some 2 => .notFound
  | some 20 => .notDirectory
  | some 21 => .isDirectory
  | some 36 => .nameTooLong
  | some 40 => .linkLoop
  | _ => .other (toString e).toList

def systemName (path : Path) : String := String.ofList path

/-- Tells a directory from a file by reading a byte of it. -/
def kindOf (handle : IO.FS.Handle) : IO FileKind := do
  try
    discard (handle.read 1)
    return .file
  catch e =>
    if FileError.ofSystem e = .isDirectory then return .directory else throw e

/-- The file system of the machine. -/
def machine : FileSystem IO where
  kind? path := do
    try
      return some (← kindOf (← IO.FS.Handle.mk (systemName path) .read))
    catch _ => return none
  read path := do
    try
      let bytes ← IO.FS.readBinFile (systemName path)
      match String.fromUTF8? bytes with
      | some text => return .ok text.toList
      | none => return .error .notText
    catch e => return .error (.ofSystem e)
  realPath? path := do
    if Path.isAbsolute path then
      try
        return some (← IO.FS.realPath (systemName path)).toString.toList
      catch _ => return none
    else return some path
  write path content := do
    try
      IO.FS.writeFile (systemName path) (String.ofList content)
      return .ok ()
    catch e => return .error (.ofSystem e)

def usage : Text :=
  "Load CommonJS dependencies of ESM output with `require`\n\nUsage: requirify [OPTIONS] <FILES>...\n\nOptions:\n      --cwd <CWD>\n  -d, --dir <DIR>\n  -p, --platform <PLATFORM>\n      --format <FORMAT>\n  -c, --config <CONFIG>\n      --include <INCLUDE>\n      --exclude <EXCLUDE>\n      --builtin-node-modules <true|false>\n  -s, --sourcemap\n      --silent\n  -h, --help\n  -V, --version"

def elapsedText (milliseconds : Nat) : Text :=
  Command.painted "1;37" (Nat.toDigits 10 milliseconds ++ ".00 ms".toList)

def Command.Display.show (d : Command.Display) : IO UInt32 := do
  for line in d.output do
    IO.println (String.ofList line)
  for line in d.errors do
    IO.eprintln (String.ofList line)
  return d.exit.toUInt32

def Command.program (args : List Text) : IO UInt32 := do
  let start ← IO.monoMsNow
  match Command.Arguments.ofList args with
  | .error stop =>
    match stop with
    | .help => IO.println (String.ofList usage)
    | .misuse => IO.eprintln (String.ofList usage)
    | .version => pure ()
    stop.display.show
  | .ok a =>
    let here ← IO.currentDir
    let outcome ← Command.run machine here.toString.toList a
    let stop ← IO.monoMsNow
    (outcome.display a.silent (elapsedText (stop - start))).show

end CjsInterop

def main (args : List String) : IO UInt32 :=
  CjsInterop.Command.program (args.map String.toList)
