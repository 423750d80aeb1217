/-! Text is a list of characters: everything here reads it from the front and cuts it at a character.
Positions in a source count the bytes of its UTF-8 form; columns of a source map count UTF-16 units. -/

namespace CjsInterop

abbrev Text := List Char

instance : Coe String Text := ⟨String.toList⟩

namespace Text

/-- Whether a text is in a list is decided by one procedure everywhere. -/
instance decidableMem (text : Text) (list : List Text) : Decidable (text ∈ list) := inferInstance

/-- The number of bytes of the UTF-8 form. -/
def byteLength : Text → Nat
  | [] => 0
  | c :: rest => c.utf8Size + byteLength rest

/-- The number of UTF-16 units. A character beyond the basic plane takes two. -/
def unitLength : Text → Nat
  | [] => 0
  | c :: rest => (if c.toNat < 0x10000 then 1 else 2) + unitLength rest

/-- Cuts after `n` bytes. There is no answer when byte `n` is inside a character or past the end. -/
def splitAtByte? : Nat → Text → Option (Text × Text)
  | 0, text => some ([], text)
  | _ + 1, [] => none
  | n + 1, c :: rest =>
    if c.utf8Size ≤ n + 1 then
      (splitAtByte? (n + 1 - c.utf8Size) rest).map fun (a, b) => (c :: a, b)
    else none

/-- What follows `start`, when the text begins with it. -/
def dropStart? : (start text : Text) → Option Text
  | [], text => some text
  | _ :: _, [] => none
  | s :: start, c :: text => if s = c then dropStart? start text else none

/-- The maximal parts between the occurrences of `mark`; `n` marks give `n + 1` parts. -/
def splitAt (mark : Char) : Text → List Text
  | [] => [[]]
  | c :: rest =>
    if c = mark then [] :: splitAt mark rest
    else
      match splitAt mark rest with
      | [] => [[c]]
      | part :: parts => (c :: part) :: parts

/-- The parts with `mark` between them. -/
def join (mark : Text) : List Text → Text
  | [] => []
  | [part] => part
  | part :: parts => part ++ mark ++ join mark parts

/-- Lower-case hexadecimal digits of `n`, at least `width` of them. -/
def hex (width n : Nat) : Text :=
  let digits := Nat.toDigits 16 n
  List.replicate (width - digits.length) '0' ++ digits

/-- The elements of `l` without repetition, each where it first appears. -/
def distinct (l : List Text) : List Text :=
  (l.foldl (fun seen x => if x ∈ seen then seen else x :: seen) []).reverse

@[simp] theorem byteLength_nil : byteLength [] = 0 := rfl

@[simp] theorem byteLength_append (a b : Text) : byteLength (a ++ b) = byteLength a + byteLength b := by
  induction a with
  | nil => simp
  | cons c a ih => simp [byteLength, ih, Nat.add_assoc]

/-- The cut is a cut: both halves together are the text, and the first has the bytes asked for. -/
theorem splitAtByte?_eq_some {n : Nat} {text a b : Text} (h : splitAtByte? n text = some (a, b)) :
    a ++ b = text ∧ byteLength a = n := by
  induction text generalizing n a b with
  | nil =>
    cases n with
    | zero => simp_all [splitAtByte?]
    | succ n => simp [splitAtByte?] at h
  | cons c rest ih =>
    cases n with
    | zero =>
      simp only [splitAtByte?, Option.some.injEq, Prod.mk.injEq] at h
      obtain ⟨rfl, rfl⟩ := h
      simp
    | succ n =>
      simp only [splitAtByte?] at h
      split at h
      · next hc =>
        obtain ⟨⟨a', b'⟩, hs, he⟩ := Option.map_eq_some_iff.1 h
        simp only [Prod.mk.injEq] at he
        obtain ⟨rfl, rfl⟩ := he
        obtain ⟨rfl, hl⟩ := ih hs
        refine ⟨rfl, ?_⟩
        simp only [byteLength, hl]
        omega
      · simp at h

theorem dropStart?_eq_some {start text rest : Text} (h : dropStart? start text = some rest) :
    text = start ++ rest := by
  induction start generalizing text with
  | nil => simp_all [dropStart?]
  | cons s start ih =>
    cases text with
    | nil => simp [dropStart?] at h
    | cons c text =>
      simp only [dropStart?] at h
      split at h
      · next hc => simp [hc, ih h]
      · simp at h

end Text
end CjsInterop
