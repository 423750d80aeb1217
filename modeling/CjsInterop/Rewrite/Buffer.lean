import CjsInterop.Import

/-! A source under edit: its stretches in order, each as it was or replaced, with texts added behind
a stretch or around the whole. An edit that is impossible has no result. -/

namespace CjsInterop

/-- A stretch of the source from byte `start` to byte `stop`. -/
structure Piece where
  start : Nat
  stop : Nat
  replacement : Option Text := none
  /-- Added behind the stretch. -/
  after : Text := []
  deriving DecidableEq, Repr

structure Buffer where
  source : Text
  pieces : List Piece
  before : Text := []
  after : Text := []
  deriving DecidableEq, Repr

namespace Buffer

def ofSource (source : Text) : Buffer where
  source := source
  pieces := [⟨0, Text.byteLength source, none, []⟩]

/-- Makes byte `i` the end of a stretch. A stretch already replaced cannot be cut. -/
def cut (i : Nat) : List Piece → Option (List Piece)
  | [] => some []
  | piece :: rest =>
    if piece.stop ≤ i then (cut i rest).map (piece :: ·)
    else if i ≤ piece.start then some (piece :: rest)
    else if piece.replacement.isSome then none
    else some ({ piece with stop := i, after := [] } :: { piece with start := i } :: rest)

/-- Replaces the stretches between two cuts: the first by `text`, the others by nothing. -/
def fill (span : Span) (text : Text) (clear : Bool) : List Piece → List Piece
  | [] => []
  | piece :: rest =>
    if span.start ≤ piece.start ∧ piece.stop ≤ span.stop then
      if piece.start = span.start then
        { piece with replacement := some text, after := if clear then [] else piece.after } ::
          fill span text clear rest
      else { piece with replacement := some [] } :: fill span text clear rest
    else piece :: fill span text clear rest

/-- Puts `text` in the place of a span. With `clear`, what was added behind its first stretch goes
too. -/
def replace (buffer : Buffer) (span : Span) (text : Text) (clear : Bool) : Option Buffer :=
  if span.start < span.stop ∧ span.stop ≤ Text.byteLength buffer.source then do
    let pieces ← cut span.start buffer.pieces
    let pieces ← cut span.stop pieces
    pure { buffer with pieces := fill span text clear pieces }
  else none

def update (buffer : Buffer) (span : Span) (text : Text) : Option Buffer :=
  buffer.replace span text false

def remove (buffer : Buffer) (span : Span) : Option Buffer :=
  buffer.replace span [] true

/-- Adds `text` behind the stretch that ends at byte `i`. -/
def insertBehind (buffer : Buffer) (i : Nat) (text : Text) : Option Buffer := do
  let pieces ← cut i buffer.pieces
  pure { buffer with
    pieces := pieces.map fun piece =>
      if piece.stop = i then { piece with after := piece.after ++ text } else piece }

def prepend (buffer : Buffer) (text : Text) : Buffer :=
  { buffer with before := text ++ buffer.before }

def append (buffer : Buffer) (text : Text) : Buffer :=
  { buffer with after := buffer.after ++ text }

/-- A stretch with what it now holds: its original text, or what replaces it. -/
structure Stretch where
  start : Nat
  original : Bool
  text : Text
  after : Text
  deriving DecidableEq, Repr

/-- Reads the pieces off the source, which begins where the first of them does. A piece that begins
or ends inside a character has no text of its own. -/
def stretchesFrom (source : Text) (piece : Piece) : Option Stretch :=
  match piece.replacement with
  | some text => some ⟨piece.start, false, text, piece.after⟩
  | none => do
    let (_, rest) ← Text.splitAtByte? piece.start source
    let (text, _) ← Text.splitAtByte? (piece.stop - piece.start) rest
    pure ⟨piece.start, true, text, piece.after⟩

def stretches? (buffer : Buffer) : Option (List Stretch) :=
  buffer.pieces.mapM (stretchesFrom buffer.source)

def render (buffer : Buffer) (stretches : List Stretch) : Text :=
  buffer.before ++ stretches.flatMap (fun s => s.text ++ s.after) ++ buffer.after

end Buffer
end CjsInterop
