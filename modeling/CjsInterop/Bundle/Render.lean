import CjsInterop.Bundle
import CjsInterop.Bundle.Decision
import CjsInterop.Options
import CjsInterop.Rewrite.Chunk
import CjsInterop.Syntax.Program

/-! Rewriting the chunks of a bundle. -/

namespace CjsInterop

/-- The language that a file name announces. Every chunk is a module. -/
def Syntax.Dialect.ofFileName (fileName : Text) : Syntax.Dialect :=
  let name := (Path.fileName? fileName).getD []
  let parts := (Text.splitAt '.' name).reverse.drop 1
  match Path.extension? fileName with
  | none => {}
  | some extension =>
    if extension = "jsx" then { markup := true }
    else if extension = "tsx" then { typescript := true, markup := true }
    else if extension = "ts" then
      { typescript := true, ambient := (parts.take 2).contains "d".toList }
    else if extension = "mts" ∨ extension = "cts" then
      { typescript := true, ambient := (parts.take 1).contains "d".toList }
    else {}

inductive RenderError where
  /-- The chunk is no module. -/
  | unreadable
  /-- An edit does not fit the chunk. -/
  | misplacedEdit
  deriving DecidableEq, Repr

/-- The edits of a chunk: the imports that have a plan, each with its plan. -/
def plannedEdits {m : Type → Type} [Monad m] (j : Judges m) (rewriteBuiltins : Bool) :
    List ImportStatement → m (List (Span × Plan))
  | [] => return []
  | stmt :: rest => do
    let plan? ← stmt.decide j rewriteBuiltins
    let later ← plannedEdits j rewriteBuiltins rest
    return (plan?.map fun plan => (stmt.span, plan)).toList ++ later

/-- The chunk with its edits made, and the function that they call defined if one of them calls it. -/
def Rewriting.edit (r : Rewriting) (edits : List (Span × Plan)) (rewriteBuiltins : Bool) :
    Option Rewriting := do
  let r ← edits.foldlM (fun r (span, plan) => r.apply span plan) r
  if r.usesRequire then r.insertPreamble rewriteBuiltins else pure r

/-- The chunk as it is written after the edits. -/
def editedChunk (source : Text) (edits : List (Span × Plan)) (rewriteBuiltins : Bool)
    (fileName : Text) (wantMap : Bool) : Option Output := do
  let r ← (Rewriting.ofSource source).edit edits rewriteBuiltins
  r.finish fileName wantMap

/-- The rewritten chunk, or none if it stays as it is. -/
def Settings.render {m : Type → Type} [Monad m] (settings : Settings) (j : Judges m) (wantMap : Bool)
    (fileName source : Text) : m (Except RenderError (Option Output)) := do
  if !settings.covers fileName then return .ok none
  else
    match Syntax.Program.ofSource? (.ofFileName fileName) source with
    | none => return .error .unreadable
    | some program =>
      let edits ← plannedEdits j settings.rewriteBuiltins program.imports
      if edits = [] then return .ok none
      else
        match editedChunk source edits settings.rewriteBuiltins fileName wantMap with
        | some output => return .ok (some output)
        | none => return .error .misplacedEdit

end CjsInterop
