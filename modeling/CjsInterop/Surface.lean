import CjsInterop.Binary64
import CjsInterop.Syntax.Program

/-! What a CommonJS module shows of its exports without being run: the names that it assigns to its
exports object, and the modules whose exports it passes on. A text with module syntax is no CommonJS
module. -/

namespace CjsInterop

open Syntax

/-- Why a text is not CommonJS. -/
inductive SurfaceError where
  | unreadable
  | importStatement
  | exportStatement
  | importMeta
  deriving DecidableEq, Repr

def SurfaceError.message : SurfaceError → Text
  | unreadable => "Failed to parse as CommonJS"
  | importStatement => "Unexpected import statement in CJS module."
  | exportStatement => "Unexpected export statement in CJS module."
  | importMeta => "Unexpected import.meta in CJS module."

/-- Exported names, and specifiers of modules that are exported as a whole; neither repeats. -/
structure Surface where
  exports : List Text
  reexports : List Text
  deriving DecidableEq, Repr

/-- One thing that a node adds to the surface. -/
inductive Contribution where
  | exported (name : Text)
  | reexport (specifier : Text)
  deriving DecidableEq, Repr

/-! ## Names of properties -/

/-- Digits in a base. -/
def digitsValue (base : Nat) (text : Text) : Nat :=
  text.foldl (fun n c => n * base + ((Lexer.hexValue? c).getD 0)) 0

/-- Digits in a base that is a power of two, in a word when they fit one and else rounded after each. -/
def roundedValue (base wordDigits : Nat) (text : Text) : Option Binary64 :=
  let n :=
    if text.length ≤ wordDigits then roundToDouble (digitsValue base text)
    else text.foldl (fun n c => roundToDouble (n * base + ((Lexer.hexValue? c).getD 0))) 0
  if n < overflowBound then Binary64.ofFraction n 1 else none

def decimalValue (text : Text) : Option Binary64 :=
  let mantissa := text.takeWhile fun c => c ≠ 'e' ∧ c ≠ 'E'
  let exponent := (text.dropWhile fun c => c ≠ 'e' ∧ c ≠ 'E').drop 1
  let whole := mantissa.takeWhile (· ≠ '.')
  let fraction := (mantissa.dropWhile (· ≠ '.')).drop 1
  let size := digitsValue 10 (exponent.filter Char.isDigit)
  let shift : Int := if exponent.head? = some '-' then -(size : Int) else size
  Binary64.ofDecimal (digitsValue 10 (whole ++ fraction)) (shift - fraction.length)

/-- The value of a number literal; none when it is infinite. -/
def numberValue (spelling : Text) : Option Binary64 :=
  let text := spelling.filter (· ≠ '_')
  match text with
  | '0' :: c :: digits =>
    if c = 'x' ∨ c = 'X' then roundedValue 16 16 digits
    else if c = 'o' ∨ c = 'O' then roundedValue 8 21 digits
    else if c = 'b' ∨ c = 'B' then roundedValue 2 64 digits
    else if (c :: digits).all Lexer.octal then roundedValue 8 21 (c :: digits)
    else decimalValue text
  | _ => decimalValue text

def numberName (spelling : Text) : Text :=
  match numberValue spelling with
  | some x => x.display
  | none => "inf"

/-- The name that a property key is known to have. A big number is written as it stands, and the flags
of a regular expression in alphabetical order. -/
def staticName? : Tree → Option Text
  | .node (.propertyName n) _ => some n
  | .node (.string s) _ => some s
  | .node (.number n) _ => some (numberName n)
  | .node (.bigint n) _ => some n
  | .node .null _ => some "null"
  | .node (.template t) _ => some t
  | .node (.regex pattern flags) _ => some ('/' :: pattern ++ '/' :: flags.mergeSort)
  | _ => none

/-! ## Recognized nodes -/

def isIdentifier (name : Text) : Tree → Bool
  | .node (.identifier n) _ => n == name
  | _ => false

/-- `exports` or `module.exports` -/
def isExportsObject : Tree → Bool
  | .node (.identifier n) _ => n == "exports"
  | .node (.member n) [object] => n == "exports" && isIdentifier "module" object
  | _ => false

/-- The specifier of `require('x')`. -/
def requireCall? : Tree → Option Text
  | .node .call [callee, .node (.string s) _] =>
    if isIdentifier "require" callee then some s else none
  | _ => none

/-- What a member of an object that is assigned to the exports adds. -/
def memberContribution : Tree → List Contribution
  | .node .property (key :: _) => ((staticName? key).map .exported).toList
  | .node .spread [t] => ((requireCall? t).map .reexport).toList
  | _ => []

/-- What a value assigned to `module.exports` adds. -/
def valueContributions : Tree → List Contribution
  | .node .object members => members.flatMap memberContribution
  | t => ((requireCall? t).map .reexport).toList

/-- What assigning `value` to the property `name` of `object` adds. -/
def assignmentContributions (object : Tree) (name : Text) (value : Tree) : List Contribution :=
  if isExportsObject object then [.exported name]
  else if name = "exports" ∧ isIdentifier "module" object then valueContributions value
  else []

def callContributions (callee : Tree) (args : List Tree) : List Contribution :=
  match callee with
  | .node (.member n) [object] =>
    if n = "defineProperty" ∧ isIdentifier "Object" object then
      match args with
      | target :: .node (.string name) _ :: _ => if isExportsObject target then [.exported name] else []
      | _ => []
    else []
  | .node (.identifier n) _ =>
    if n = "__exportStar" ∨ n = "__export" then
      ((args.head?.bind requireCall?).map .reexport).toList
    else []
  | _ => []

/-- What a node adds of itself, its parts aside. -/
def ownContributions : Tree → List Contribution
  | .node (.assignment _) [.node (.member n) [object], value] => assignmentContributions object n value
  | .node (.assignment _) [.node .index [object, .node (.string n) _], value] =>
    assignmentContributions object n value
  | .node .call (callee :: args) => callContributions callee args
  | _ => []

mutual

/-- What a tree adds: each node before its parts, the parts in order. -/
def contributions : Tree → List Contribution
  | .node f ps => ownContributions (.node f ps) ++ contributionsOf ps

def contributionsOf : List Tree → List Contribution
  | [] => []
  | p :: ps => contributions p ++ contributionsOf ps

end

def Surface.ofContributions (l : List Contribution) : Surface where
  exports := Text.distinct (l.filterMap fun
    | .exported n => some n
    | .reexport _ => none)
  reexports := Text.distinct (l.filterMap fun
    | .reexport s => some s
    | .exported _ => none)

/-! ## Texts -/

/-- CommonJS runs inside a function, so `return` may stand anywhere. -/
def commonJsDialect : Dialect := { script := true, topLevelReturn := true }

def moduleSyntax? (program : Program) : Option SurfaceError :=
  program.items.findSome? fun item =>
    match item.tree.form with
    | .importDeclaration _ => some .importStatement
    | .exportDeclaration _ => some .exportStatement
    | _ => none

/-- The surface of a text, if it is CommonJS. -/
def Surface.ofSource (source : Text) : Except SurfaceError Surface :=
  match Program.ofSource? commonJsDialect source with
  | none => .error .unreadable
  | some program =>
    match moduleSyntax? program with
    | some e => .error e
    | none =>
      if program.forms.any (fun f => f == .importMeta) then .error .importMeta
      else .ok (Surface.ofContributions (contributionsOf (program.items.map Item.tree)))

end CjsInterop
