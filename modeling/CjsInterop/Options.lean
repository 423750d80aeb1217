import CjsInterop.Glob
import CjsInterop.Path

/-! What can be configured, and which chunks the configuration covers. -/

namespace CjsInterop

/-- Where the rewriting runs among the other steps that see a chunk. -/
inductive HookOrder where
  | pre
  | post
  deriving DecidableEq, Repr

/-- Options as they are given; what is left out takes its default. -/
structure Options where
  includes : Option (List Text) := none
  excludes : Option (List Text) := none
  order : Option HookOrder := none
  rewriteBuiltins : Option Bool := none
  cwd : Option Path := none
  deriving DecidableEq, Repr

/-- Options with every default filled in. -/
structure Settings where
  includes : List Text
  excludes : List Text
  order : HookOrder
  rewriteBuiltins : Bool
  cwd : Option Path
  deriving DecidableEq, Repr

/-- Every JavaScript file is covered unless something else is asked for. -/
def Options.settings (options : Options) : Settings where
  includes := options.includes.getD ["**/*.js", "**/*.mjs"]
  excludes := options.excludes.getD []
  order := options.order.getD .post
  rewriteBuiltins := options.rewriteBuiltins.getD false
  cwd := options.cwd

/-- A file name without the `./`s in front of it. -/
def stripDots : Text → Text
  | '.' :: '/' :: rest => stripDots rest
  | name => name

/-- Whether the chunk of that name is looked at. An exclusion wins over an inclusion. -/
def Settings.covers (settings : Settings) (fileName : Text) : Bool :=
  let name := stripDots fileName
  !settings.excludes.any (Glob.isMatch · name) && settings.includes.any (Glob.isMatch · name)

end CjsInterop
