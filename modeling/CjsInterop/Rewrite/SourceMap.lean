import CjsInterop.Rewrite.Buffer
import CjsInterop.Text.Literal

/-! The source map of an edited source, at the resolution of stretches and lines: a segment where a
replacement begins, and where a stretch of original text or a line inside it begins, unless that line
ends at once. Texts added around stretches have no segment. -/

namespace CjsInterop

/-- A line, ended by a line feed, and a column in UTF-16 units, both from zero. -/
structure Place where
  line : Nat := 0
  column : Nat := 0
  deriving DecidableEq, Repr

/-- The place after `text`. -/
def Place.advance (p : Place) : Text → Place
  | [] => p
  | '\n' :: rest => Place.advance ⟨p.line + 1, 0⟩ rest
  | c :: rest => Place.advance ⟨p.line, p.column + Text.unitLength [c]⟩ rest

/-- A place of the result and the place of the source that it came from. -/
structure Segment where
  generated : Place
  original : Place
  deriving DecidableEq, Repr

namespace SourceMap

/-- Segments inside original text: one before the first character of a line that is not empty. -/
def originalSegments (lineStart : Bool) (generated original : Place) : Text → List Segment
  | [] => []
  | c :: rest =>
    let here := if lineStart && c != '\n' then [⟨generated, original⟩] else []
    here ++ originalSegments (c == '\n') (generated.advance [c]) (original.advance [c]) rest

def stretchSegments (generated original : Place) (s : Buffer.Stretch) : List Segment :=
  if s.original then originalSegments true generated original s.text
  else if s.text = [] then [] else [⟨generated, original⟩]

/-- The segments of the stretches, the first of which lands at `generated`. -/
def segmentsFrom (source : Text) (generated : Place) : List Buffer.Stretch → Option (List Segment)
  | [] => some []
  | s :: rest => do
    let (behind, _) ← Text.splitAtByte? s.start source
    let here := stretchSegments generated (Place.advance {} behind) s
    let more ← segmentsFrom source ((generated.advance s.text).advance s.after) rest
    pure (here ++ more)

def segments? (buffer : Buffer) (stretches : List Buffer.Stretch) : Option (List Segment) :=
  segmentsFrom buffer.source (Place.advance {} buffer.before) stretches

def base64 : Text := "ABCDEFGHIJKLMNOPQRSTUVWXYZabcdefghijklmnopqrstuvwxyz0123456789+/"

/-- Base-32 digits of `n`, lowest first, each but the last marked as continued. -/
def vlqDigits : Nat → Nat → Text
  | 0, _ => []
  | fuel + 1, n =>
    if n < 32 then [base64.getD n 'A']
    else base64.getD (n % 32 + 32) 'A' :: vlqDigits fuel (n / 32)

/-- A difference: the sign is the lowest bit. -/
def vlq (n : Int) : Text :=
  let magnitude := 2 * n.natAbs + (if n < 0 then 1 else 0)
  vlqDigits (magnitude + 1) magnitude

/-- One segment as its differences to the one before; the only source stays the same. -/
def encodeSegment (before : Segment) (columnBefore : Nat) (s : Segment) : Text :=
  vlq (s.generated.column - columnBefore) ++ vlq 0 ++
    vlq (s.original.line - before.original.line) ++ vlq (s.original.column - before.original.column)

/-- Segments in order: semicolons between lines, commas inside them. -/
def encodeFrom (before : Segment) (lineStart : Bool) : List Segment → Text
  | [] => []
  | s :: rest =>
    let lines := s.generated.line - before.generated.line
    let columnBefore := if lines = 0 then before.generated.column else 0
    let mark : Text := if lines = 0 ∧ ¬ lineStart then "," else []
    List.replicate lines ';' ++ mark ++ encodeSegment before columnBefore s ++
      encodeFrom s false rest

def encode (segments : List Segment) : Text :=
  encodeFrom ⟨{}, {}⟩ true segments

/-- The map as JSON text, the source's own text included. -/
def render (fileName source : Text) (segments : List Segment) : Text :=
  "\x7b\"version\":3,\"names\":[],\"sources\":[" ++ Text.quoted fileName ++
    "],\"sourcesContent\":[" ++ Text.quoted source ++ "],\"mappings\":\"" ++ encode segments ++
    "\"\x7d"

end SourceMap
end CjsInterop
