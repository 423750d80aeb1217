import CjsInterop.Builtin
import CjsInterop.Rewrite.Plan

/-! What becomes of one import declaration of a chunk. -/

namespace CjsInterop

/-- Who is asked about a module that an import names. -/
structure Judges (m : Type → Type) where
  /-- A user's word, which goes before everything else; there may be none. -/
  override : (specifier : Text) → m (Option Bool)
  /-- The module certainly is CommonJS. -/
  isCommonJs : (specifier : Text) → m Bool

variable {m : Type → Type} [Monad m]

/-- The user's word if there is one, and else what `otherwise` finds. -/
def Judges.ruling (j : Judges m) (specifier : Text) (otherwise : m Bool) : m Bool := do
  match ← j.override specifier with
  | some verdict => return verdict
  | none => otherwise

/-- The plan for an import, or none if it stays as it is. Types are gone when the program runs, and
running a builtin module by itself does nothing. -/
def ImportStatement.decide (stmt : ImportStatement) (j : Judges m) (rewriteBuiltins : Bool) :
    m (Option Plan) := do
  let builtin := Builtin.isBuiltin stmt.source
  if stmt.isType then return none
  else if stmt.isSideEffectOnly then
    if builtin then return some .remove
    else
      let verdict ← j.ruling stmt.source (j.isCommonJs stmt.source)
      return if verdict then some (.bareRequire stmt.source) else none
  else
    let verdict ← j.ruling stmt.source
      (if builtin then pure rewriteBuiltins else j.isCommonJs stmt.source)
    return if verdict then some (.bindings (Shim.ofImport stmt (Target.ofSpecifier stmt.source builtin)))
      else none

end CjsInterop
