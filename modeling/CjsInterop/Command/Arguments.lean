import CjsInterop.Bundle
import CjsInterop.Options

/-! The arguments of the command line. -/

namespace CjsInterop.Command

structure Arguments where
  files : List Path := []
  cwd? : Option Path := none
  dir? : Option Path := none
  platform? : Option Platform := none
  format? : Option OutputFormat := none
  config? : Option Path := none
  includes? : Option (List Text) := none
  excludes? : Option (List Text) := none
  rewriteBuiltins? : Option Bool := none
  wantMap : Bool := false
  silent : Bool := false
  deriving DecidableEq, Repr

/-- Arguments that do not ask for a run. -/
inductive Stop where
  | help
  | version
  /-- They are no arguments of this command. -/
  | misuse
  deriving DecidableEq, Repr

/-- Options that come with a value. -/
inductive ValueOption where
  | cwd
  | dir
  | platform
  | format
  | config
  | includes
  | excludes
  | rewriteBuiltins
  deriving DecidableEq, Repr

inductive Flag where
  | wantMap
  | silent
  | help
  | version
  deriving DecidableEq, Repr

def longOptions : List (String × (ValueOption ⊕ Flag)) := [
  ("cwd", .inl .cwd), ("dir", .inl .dir), ("platform", .inl .platform), ("format", .inl .format),
  ("config", .inl .config), ("include", .inl .includes), ("exclude", .inl .excludes),
  ("builtin-node-modules", .inl .rewriteBuiltins), ("sourcemap", .inr .wantMap),
  ("silent", .inr .silent), ("help", .inr .help), ("version", .inr .version)]

def shortOptions : List (Char × (ValueOption ⊕ Flag)) := [
  ('d', .inl .dir), ('p', .inl .platform), ('c', .inl .config), ('s', .inr .wantMap),
  ('h', .inr .help), ('V', .inr .version)]

/-! ## Values -/

def misused {α : Type} : Except Stop α := .error .misuse

def orMisused {α : Type} : Option α → Except Stop α
  | some a => .ok a
  | none => misused

/-- A value that is given once. -/
def once {α : Type} (given : Option α) (value : Except Stop α) : Except Stop (Option α) :=
  if given.isSome then misused else some <$> value

def path (value : Text) : Except Stop Path := if value = [] then misused else .ok value

def platformOf? (value : Text) : Option Platform :=
  [Platform.node, .browser, .neutral].find? fun p => p.name == value

def formatOf? (value : Text) : Option OutputFormat :=
  [OutputFormat.esm, .cjs, .iife].find? fun f => f.name == value

def boolOf? (value : Text) : Option Bool :=
  if value = "true" then some true else if value = "false" then some false else none

namespace Arguments

def addFile (a : Arguments) (file : Text) : Except Stop Arguments := do
  return { a with files := a.files ++ [← path file] }

def addValue (a : Arguments) (option : ValueOption) (value : Text) : Except Stop Arguments := do
  match option with
  | .cwd => return { a with cwd? := ← once a.cwd? (path value) }
  | .dir => return { a with dir? := ← once a.dir? (.ok value) }
  | .platform => return { a with platform? := ← once a.platform? (orMisused (platformOf? value)) }
  | .format => return { a with format? := ← once a.format? (orMisused (formatOf? value)) }
  | .config => return { a with config? := ← once a.config? (path value) }
  | .includes => return { a with includes? := some (a.includes?.getD [] ++ [value]) }
  | .excludes => return { a with excludes? := some (a.excludes?.getD [] ++ [value]) }
  | .rewriteBuiltins =>
    return { a with rewriteBuiltins? := ← once a.rewriteBuiltins? (orMisused (boolOf? value)) }

def addFlag (a : Arguments) : Flag → Except Stop Arguments
  | .wantMap => if a.wantMap then misused else .ok { a with wantMap := true }
  | .silent => if a.silent then misused else .ok { a with silent := true }
  | .help => .error .help
  | .version => .error .version

/-! ## Reading -/

/-- Reads letters after one dash. The last may be an option whose value comes next. -/
def addLetters (a : Arguments) : Text → Except Stop (Arguments × Option ValueOption)
  | [] => .ok (a, none)
  | letter :: rest =>
    match (shortOptions.find? fun e => e.1 == letter).map Prod.snd with
    | some (.inr flag) => do addLetters (← a.addFlag flag) rest
    | some (.inl option) =>
      match rest with
      | [] => .ok (a, some option)
      | '=' :: value => return (← a.addValue option value, none)
      | value => return (← a.addValue option value, none)
    | none => misused

/-- Reads a name after two dashes. It may be an option whose value comes next. -/
def addName (a : Arguments) (text : Text) : Except Stop (Arguments × Option ValueOption) := do
  let name := text.takeWhile (· ≠ '=')
  let value? := (text.dropWhile (· ≠ '=')).tail?
  match (longOptions.find? fun e => e.1.toList == name).map Prod.snd, value? with
  | some (.inl option), some value => return (← a.addValue option value, none)
  | some (.inl option), none => return (a, some option)
  | some (.inr flag), none => return (← a.addFlag flag, none)
  | _, _ => misused

def isDashed (arg : Text) : Bool := arg.head? == some '-' && arg != ['-']

/-- Reads arguments; `waiting` is an option that still needs its value. After two dashes all are
files. -/
def read (a : Arguments) (waiting : Option ValueOption) : List Text → Except Stop Arguments
  | [] => if waiting.isSome then misused else .ok a
  | arg :: rest =>
    match waiting with
    | some option => do if isDashed arg then misused else (← a.addValue option arg).read none rest
    | none =>
      match arg with
      | ['-', '-'] => rest.foldlM addFile a
      | '-' :: '-' :: name => do
        let (a, waiting) ← a.addName name
        a.read waiting rest
      | ['-'] => do (← a.addFile arg).read none rest
      | '-' :: letters => do
        let (a, waiting) ← a.addLetters letters
        a.read waiting rest
      | file => do (← a.addFile file).read none rest

/-- The arguments of a run, which needs a file. -/
def ofList (args : List Text) : Except Stop Arguments := do
  let a ← read {} none args
  if a.files = [] then misused else return a

/-- Options on the command line go before those of a configuration. -/
def override (a : Arguments) (options : Options) : Options :=
  { options with
    includes := a.includes?.or options.includes
    excludes := a.excludes?.or options.excludes
    rewriteBuiltins := a.rewriteBuiltins?.or options.rewriteBuiltins }

end Arguments
end CjsInterop.Command
