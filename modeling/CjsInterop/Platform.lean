import CjsInterop.Text

/-! What a bundle is built for. -/

namespace CjsInterop

inductive Platform where
  | node
  | browser
  | neutral
  deriving DecidableEq, Repr

def Platform.name : Platform → Text
  | node => "node"
  | browser => "browser"
  | neutral => "neutral"

/-- How a module is asked for: by an `import` or by a call of `require`. -/
inductive Loader where
  | importing
  | requiring
  deriving DecidableEq, Repr

/-- The conditions of an export that hold. -/
def conditions (platform : Platform) (loader : Loader) : List Text :=
  let first : Text :=
    match loader with
    | .importing => "import"
    | .requiring => "require"
  let last : List Text :=
    match platform with
    | .node => ["node"]
    | .browser => ["browser"]
    | .neutral => []
  first :: "default" :: last

end CjsInterop
