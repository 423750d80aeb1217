import CjsInterop.Rewrite.Plan
import CjsInterop.Rewrite.SourceMap

/-! Rewriting one chunk: plans are applied to spans of its source, and the function that they call is
defined once, in front. -/

namespace CjsInterop

/-- A chunk between its first edit and its result. -/
structure Rewriting where
  buffer : Buffer
  usesRequire : Bool := false
  changed : Bool := false
  deriving DecidableEq, Repr

/-- A rewritten chunk. -/
structure Output where
  code : Text
  map : Option Text
  deriving DecidableEq, Repr

/-- Defines the function by an import of the module that makes it. -/
def importedPreamble : Text :=
  "import \x7b createRequire as __cjs_createRequire \x7d from \"node:module\";\nconst __cjs_require = __cjs_createRequire(import.meta.url);\n"

/-- Defines the function without any import. -/
def builtinPreamble : Text :=
  "const __cjs_require = globalThis.process.getBuiltinModule(\"module\").createRequire(import.meta.url);\n"

def preamble (rewriteBuiltins : Bool) : Text :=
  if rewriteBuiltins then builtinPreamble else importedPreamble

namespace Rewriting

def ofSource (source : Text) : Rewriting where
  buffer := Buffer.ofSource source

def apply (r : Rewriting) (span : Span) (plan : Plan) : Option Rewriting := do
  let buffer ←
    match plan.render with
    | some text => r.buffer.update span text
    | none => r.buffer.remove span
  pure ⟨buffer, r.usesRequire || plan.usesRequire, true⟩

/-- The bytes of the first line, its line feed included. -/
def firstLineLength (source : Text) : Option Nat :=
  if '\n' ∈ source then some (Text.byteLength (source.takeWhile (· ≠ '\n')) + 1) else none

/-- Defines the function that replacements call. When the source starts with `#`, its first line
stays in front. -/
def insertPreamble (r : Rewriting) (rewriteBuiltins : Bool) : Option Rewriting := do
  let text := preamble rewriteBuiltins
  let buffer ←
    if r.buffer.source.head? = some '#' then
      match firstLineLength r.buffer.source with
      | some n => r.buffer.insertBehind n text
      | none => some (r.buffer.append ('\n' :: text))
    else some (r.buffer.prepend text)
  pure { r with buffer := buffer, changed := true }

/-- The result, with a source map if one is wanted. -/
def finish (r : Rewriting) (fileName : Text) (wantMap : Bool) : Option Output := do
  let stretches ← r.buffer.stretches?
  let map ←
    if wantMap then
      (SourceMap.segments? r.buffer stretches).map fun segments =>
        some (SourceMap.render fileName r.buffer.source segments)
    else some none
  pure ⟨r.buffer.render stretches, map⟩

end Rewriting
end CjsInterop
