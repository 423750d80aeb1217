import CjsInterop.Syntax.Grammar.Markup
import CjsInterop.Syntax.Grammar.Module

/-! Whole sources. -/

namespace CjsInterop.Syntax

/-- What each goal is read by, given readers for the goals inside it. -/
def rule (p : Rules) : Rules
  | .expression => Reader.expression p
  | .assignment returnType => Reader.assignment p returnType
  | .unary => Reader.unary p
  | .operand => Reader.operand p
  | .callee => Reader.callee p
  | .binding => Reader.binding p
  | .item => Reader.item p
  | .statement => Reader.statement p
  | .functionBody => Reader.functionBody p
  | .classExpression => Reader.classExpression p
  | .type => Reader.type p
  | .markup inChild => Reader.markup p inChild

/-- The readers of all goals, down to a nesting of `depth` goals inside each other. -/
def rules : Nat → Rules
  | 0 => fun _ => failure
  | depth + 1 => rule (rules depth)

/-- A statement or declaration at the top of a source. -/
structure Item where
  span : Span
  tree : Tree
  deriving Repr

structure Program where
  items : List Item
  deriving Repr

namespace Program

def forms (program : Program) : List Form :=
  program.items.flatMap fun i => i.tree.forms

/-- The import declarations at the top of the source, in order. -/
def imports (program : Program) : List ImportStatement :=
  program.items.filterMap fun i =>
    match i.tree.form with
    | .importDeclaration decl => some decl
    | _ => none

/-- The names that the source exports. -/
def exportedNames (program : Program) : List Text :=
  program.forms.flatMap fun
    | .exportDeclaration names => names
    | _ => []

end Program

/-- Items up to the end of the source. -/
def readItems (p : Rules) : Nat → List Item → Reader (List Item)
  | 0, _ => failure
  | n + 1, done => do
    if ← Reader.isAtEnd then return done.reverse
    else
      let start ← Reader.here
      let tree ← p .item
      let stop ← Reader.behind
      readItems p n (⟨⟨start, stop⟩, tree⟩ :: done)

/-- A first line that begins with `#!` is a comment. -/
def withoutHashbang : Text → Text
  | '#' :: '!' :: rest => rest.dropWhile fun c => !Lexer.isLineEnd c
  | source => source

/-- Each goal inside another takes a token or is one of a few that begin with the same token. -/
def depthBound (source : Text) : Nat := 16 * (source.length + 4)

/-- A few goals inside each other are always in reach. -/
theorem exists_depthBound {n : Nat} (hn : n ≤ 64) (source : Text) : ∃ depth, depthBound source = depth + n :=
  ⟨depthBound source - n, by
    unfold depthBound
    omega⟩

/-- Errors that only a whole program shows: a shorthand with a default that never became a target,
and, where values alone are exported, a name that is exported twice. -/
def isSound (dialect : Dialect) (program : Program) : Bool :=
  !program.forms.any (fun f => f == .shorthandDefault) &&
    (dialect.typescript || program.exportedNames.Nodup)

/-- The program that a source is, if it is one without any error. -/
def Program.ofSource? (dialect : Dialect) (source : Text) : Option Program :=
  let context : Context := {
    dialect := dialect
    size := Text.byteLength source
    limit := source.length + 2
    await := !dialect.script
    returning := dialect.topLevelReturn
    ambient := dialect.ambient }
  let start := withoutHashbang source
  let cursor : Cursor := {
    lexeme := Lexer.next dialect.script true start
    behind := start }
  match readItems (rules (depthBound source)) (source.length + 2) [] context cursor with
  | some (items, cursor) =>
    let program : Program := ⟨items⟩
    if !cursor.flawed && isSound dialect program then some program else none
  | none => none

end CjsInterop.Syntax
