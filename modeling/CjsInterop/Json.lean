import CjsInterop.Text

/-! JSON as it was written: numbers keep their spelling, members keep their order and their
repetitions, and a string holds no text when its escapes leave a surrogate without its other half. -/

namespace CjsInterop

inductive Json where
  | null
  | bool (b : Bool)
  | number (spelling : Text)
  | string (value : Option Text)
  | array (items : List Json)
  | object (members : List (Option Text × Json))
  deriving Repr, Inhabited

namespace Json

/-- The values of the members called `key`, in order. -/
def valuesOf (key : Text) (members : List (Option Text × Json)) : List Json :=
  members.filterMap fun (k, v) => if k = some key then some v else none

end Json
end CjsInterop
