import CjsInterop.Import

/-! Syntax trees. A node is a form with parts, the parts in the order of the source. Forms are told
apart as far as something here depends on them: what imports bind, what is assigned to what, and which
expressions may be assigned to. -/

namespace CjsInterop.Syntax

inductive Form where
  | identifier (name : Text)
  | string (value : Text)
  | number (spelling : Text)
  | bigint (spelling : Text)
  | null
  | regex (pattern flags : Text)
  /-- A template without substitutions. -/
  | template (value : Text)
  | parenthesized
  /-- `object.name` -/
  | member (name : Text)
  /-- `object[key]` -/
  | index
  /-- `object.#name` -/
  | privateMember
  /-- The callee, then the arguments. -/
  | call
  /-- A chain of members and calls with `?.` in it. -/
  | chain
  /-- A target and the value assigned to it, with `=` or an operator that combines it with the old one. -/
  | assignment (operator : String)
  | array
  /-- A missing element. -/
  | hole
  /-- A comma behind the last spread element, where no target may have one. -/
  | trailingComma
  | object
  /-- A key and a value; the key is a `propertyName` unless it is computed or a literal. -/
  | property
  /-- `{ name = value }`, which only a destructuring target may hold. -/
  | shorthandDefault
  | method
  | propertyName (name : Text)
  | spread
  | importMeta
  | unary
  | awaiting
  | binary (operator : Text)
  | conditional
  | sequence
  | arrow
  | function
  | classBody
  /-- A target of a destructuring: an array or object of targets, or a target with a default. -/
  | pattern
  | defaulted
  | rest
  /-- A name that is declared. -/
  | declared (name : Text)
  /-- An expression with a type, `expression as T` or `expression!`. -/
  | typed
  | statement
  | declaration
  | importDeclaration (decl : ImportStatement)
  /-- An export declaration and the names it exports. -/
  | exportDeclaration (names : List Text)
  | other
  deriving DecidableEq, Repr, Inhabited

inductive Tree where
  | node (form : Form) (parts : List Tree)
  deriving Repr, Inhabited

namespace Tree

def form : Tree → Form
  | node f _ => f

def parts : Tree → List Tree
  | node _ ps => ps

def leaf (f : Form) : Tree := node f []

def other (parts : List Tree) : Tree := node .other parts

mutual

/-- The forms in the tree, each before those of its parts, the parts in order. -/
def forms : Tree → List Form
  | node f ps => f :: formsOf ps

def formsOf : List Tree → List Form
  | [] => []
  | p :: ps => forms p ++ formsOf ps

end

mutual

/-- The names that a binding target declares, in order. Keys and default values declare none. -/
def declaredNames : Tree → List Text
  | node (.declared n) _ => [n]
  | node .pattern ps => declaredNamesOf ps
  | node .rest ps => declaredNamesOf ps
  | node .defaulted (t :: _) => declaredNames t
  | node .property (_ :: t :: _) => declaredNames t
  | node .declaration ps => declaredNamesOf ps
  | _ => []

def declaredNamesOf : List Tree → List Text
  | [] => []
  | p :: ps => declaredNames p ++ declaredNamesOf ps

end

/-- Expressions that one value can be assigned to, parentheses around them aside. -/
def isSimpleTarget : Tree → Bool
  | node (.identifier _) _ => true
  | node (.member _) _ => true
  | node .index _ => true
  | node .privateMember _ => true
  | node .parenthesized [t] => isSimpleTarget t
  | node .typed (t :: _) => isSimpleTarget t
  | _ => false

/-- A simple target without its parentheses. -/
def bare : Tree → Tree
  | node .parenthesized [t] => bare t
  | t => t

/-- An assignment read as a target with a default; what it assigns to is a target already. -/
def asDefaulted? : Tree → Option Tree
  | node (.assignment operator) [t, value] =>
    if operator = "=" then some (node .defaulted [t, value]) else none
  | _ => none

mutual

/-- The destructuring target that an expression turns out to be when it is assigned to. Arrays and
objects in parentheses are none, and nothing may follow a rest element. -/
def toTarget? : Tree → Option Tree
  | node .array ps => (elementsToTarget? ps).map (node .pattern)
  | node .object ps => (membersToTarget? ps).map (node .pattern)
  | node .pattern ps => some (node .pattern ps)
  | t => if isSimpleTarget t then some (bare t) else none

def elementsToTarget? : List Tree → Option (List Tree)
  | [] => some []
  | [node .spread [t]] => (toTarget? t).map fun t => [node .rest [t]]
  | node .spread _ :: _ => none
  | node .hole ps :: more => (elementsToTarget? more).map (node .hole ps :: ·)
  | t :: more => do
    let t ← asDefaulted? t <|> toTarget? t
    let more ← elementsToTarget? more
    pure (t :: more)

def membersToTarget? : List Tree → Option (List Tree)
  | [] => some []
  | [node .spread [t]] => if isSimpleTarget t then some [node .rest [bare t]] else none
  | node .spread _ :: _ => none
  | node .property [key, value] :: more => do
    let value ← asDefaulted? value <|> toTarget? value
    let more ← membersToTarget? more
    pure (node .property [key, value] :: more)
  | node .shorthandDefault [name, value] :: more => do
    let more ← membersToTarget? more
    pure (node .defaulted [name, value] :: more)
  | _ :: _ => none

end

end Tree
end CjsInterop.Syntax
