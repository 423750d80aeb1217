import CjsInterop.Text

/-! Import declarations at the top level of a chunk. -/

namespace CjsInterop

/-- A stretch of a source, in bytes. -/
structure Span where
  start : Nat := 0
  stop : Nat := 0
  deriving DecidableEq, Repr, Inhabited

/-- One name that an import declares. -/
inductive Binding where
  /-- `* as name` -/
  | namespaceAs (name : Text)
  /-- `name`, for the default export -/
  | defaultAs (name : Text)
  /-- `imported as name`, possibly marked as a type -/
  | named (imported name : Text) (isType : Bool)
  deriving DecidableEq, Repr

structure ImportStatement where
  span : Span := {}
  source : Text
  /-- The whole declaration is about types. -/
  isType : Bool := false
  bindings : List Binding
  deriving DecidableEq, Repr

namespace Binding

def isTypeOnly : Binding → Bool
  | named _ _ isType => isType
  | _ => false

def namespaceName? : Binding → Option Text
  | namespaceAs name => some name
  | _ => none

def defaultName? : Binding → Option Text
  | defaultAs name => some name
  | _ => none

def namedValue? : Binding → Option (Text × Text)
  | named imported name false => some (imported, name)
  | _ => none

end Binding

namespace ImportStatement

/-- No value is bound: the module is only run. -/
def isSideEffectOnly (stmt : ImportStatement) : Bool :=
  stmt.bindings.all Binding.isTypeOnly

def namespaceName? (stmt : ImportStatement) : Option Text :=
  stmt.bindings.findSome? Binding.namespaceName?

def defaultName? (stmt : ImportStatement) : Option Text :=
  stmt.bindings.findSome? Binding.defaultName?

/-- The named bindings of values, each as its imported and its local name. -/
def named (stmt : ImportStatement) : List (Text × Text) :=
  stmt.bindings.filterMap Binding.namedValue?

end ImportStatement
end CjsInterop
