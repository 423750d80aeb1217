import CjsInterop.Builtin
import CjsInterop.Import
import CjsInterop.Text.Literal

/-! What takes the place of an import declaration that is rewritten. -/

namespace CjsInterop

/-- The name of the function that rewritten imports call. -/
def requireName : Text := "__cjs_require"

/-- Where the value of a module comes from at run time. -/
inductive Target where
  | process
  | builtin (specifier : Text)
  | require (specifier : Text)
  deriving DecidableEq, Repr

namespace Target

def ofSpecifier (specifier : Text) (isBuiltin : Bool) : Target :=
  if !isBuiltin then require specifier
  else if Builtin.isProcess specifier then process
  else builtin specifier

def usesRequire : Target → Bool
  | require _ => true
  | _ => false

/-- The expression that yields the value. -/
def expression : Target → Text
  | process => "globalThis.process"
  | builtin specifier =>
    "globalThis.process.getBuiltinModule(" ++ Text.quoted specifier ++ ")"
  | require specifier => requireName ++ "(" ++ Text.quoted specifier ++ ")"

end Target

/-- What a declaration reads from: the module itself, or a name that already holds it. -/
inductive Origin where
  | target (target : Target)
  | name (name : Text)
  deriving DecidableEq, Repr

def Origin.expression : Origin → Text
  | target t => t.expression
  | name n => n

/-- One `const` declaration of a replacement. -/
inductive Declaration where
  /-- `name` is the module's value. -/
  | value (name : Text) (origin : Origin)
  /-- `name` holds the properties of the value called `whole`, and that value under `default`. -/
  | namespaceObject (name whole : Text)
  /-- Each pair takes the property of its first name into its second. -/
  | pattern (named : List (Text × Text)) (origin : Origin)
  deriving DecidableEq, Repr

/-- A property taken into a name. The key is left out when it is spelled like the name. -/
def patternEntry (imported name : Text) : Text :=
  if imported = name then name else Text.propertyKey imported ++ ": " ++ name

def Declaration.render : Declaration → Text
  | value name origin => "const " ++ name ++ " = " ++ origin.expression ++ ";"
  | namespaceObject name whole =>
    "const " ++ name ++ " = \x7b ..." ++ whole ++ ", default: " ++ whole ++ " \x7d;"
  | pattern named origin =>
    "const \x7b " ++ Text.join ", " (named.map fun (i, l) => patternEntry i l) ++ " \x7d = " ++
      origin.expression ++ ";"

/-- The bindings that stand in for those of an import. -/
structure Shim where
  target : Target
  /-- The default binding, or a name made up for it when there is a namespace to build. -/
  defaultName? : Option Text
  namespaceName? : Option Text
  /-- Imported and local names. -/
  named : List (Text × Text)
  deriving DecidableEq, Repr

namespace Shim

/-- The name that holds the module when only its namespace is asked for. -/
def madeUpDefault (namespaceName : Text) : Text :=
  "__cjs_" ++ namespaceName ++ "_default"

def ofImport (stmt : ImportStatement) (target : Target) : Shim where
  target := target
  defaultName? := stmt.defaultName?.or (stmt.namespaceName?.map madeUpDefault)
  namespaceName? := stmt.namespaceName?
  named := stmt.named

def valueDeclarations (shim : Shim) : List Declaration :=
  match shim.defaultName? with
  | some whole => [.value whole (.target shim.target)]
  | none => []

def namespaceDeclarations (shim : Shim) : List Declaration :=
  match shim.namespaceName?, shim.defaultName? with
  | some name, some whole => [.namespaceObject name whole]
  | _, _ => []

/-- Named bindings read from the default when there is one, so that the module is asked for once. -/
def namedDeclarations (shim : Shim) : List Declaration :=
  if shim.named = [] then []
  else [.pattern shim.named ((shim.defaultName?.map Origin.name).getD (.target shim.target))]

def declarations (shim : Shim) : List Declaration :=
  shim.valueDeclarations ++ shim.namespaceDeclarations ++ shim.namedDeclarations

def render (shim : Shim) : Text :=
  Text.join "\n" (shim.declarations.map Declaration.render)

end Shim

/-- What happens to one import declaration that is rewritten. -/
inductive Plan where
  | remove
  /-- The module is only run. -/
  | bareRequire (specifier : Text)
  | bindings (shim : Shim)
  deriving DecidableEq, Repr

namespace Plan

def usesRequire : Plan → Bool
  | remove => false
  | bareRequire _ => true
  | bindings shim => shim.target.usesRequire

/-- The replacement text; none removes the declaration. -/
def render : Plan → Option Text
  | remove => none
  | bareRequire specifier => some ((Target.require specifier).expression ++ ";")
  | bindings shim => some shim.render

end Plan
end CjsInterop
