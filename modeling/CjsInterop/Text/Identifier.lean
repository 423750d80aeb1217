import CjsInterop.Text
import CjsInterop.Text.IdentifierTable

/-! Names as ECMAScript spells them, with no escape in them: a start character, then start or
continue characters. `$` and `_` may start a name, the two joiners U+200C and U+200D may only
continue one. -/

namespace CjsInterop.Text

def within (ranges : List (Nat × Nat)) (n : Nat) : Bool :=
  ranges.any fun (low, high) => low ≤ n && n ≤ high

def isNameStart (c : Char) : Bool :=
  if c.toNat < 128 then c.isAlpha || c == '$' || c == '_' else within startRanges c.toNat

def isNamePart (c : Char) : Bool :=
  if c.toNat < 128 then c.isAlphanum || c == '$' || c == '_'
  else c.toNat == 0x200C || c.toNat == 0x200D || within startRanges c.toNat ||
    within continueRanges c.toNat

def isName : Text → Bool
  | [] => false
  | c :: rest => isNameStart c && rest.all isNamePart

/-- A character that may start a name may also continue one. -/
theorem isNamePart_of_isNameStart {c : Char} (h : isNameStart c = true) : isNamePart c = true := by
  unfold isNameStart at h
  unfold isNamePart
  split at h
  · next hc =>
    rw [if_pos hc]
    simp only [Char.isAlphanum, Bool.or_eq_true] at h ⊢
    exact h.imp_left (Or.imp_left Or.inl)
  · next hc =>
    rw [if_neg hc]
    simp [h]

end CjsInterop.Text
