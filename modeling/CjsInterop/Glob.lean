import CjsInterop.Text

/-! Glob patterns over file names, byte by byte. `*` stays inside a segment, `**` as a whole segment
crosses them, `?` and `[...]` take one byte, `{a,b}` tries each branch with what follows the brace,
and leading `!`s negate. The matcher is a machine with two places to fall back to: the last star, and
the last `**`, which becomes the last star again whenever a slash has been matched. -/

namespace CjsInterop.Glob

abbrev Bytes := List UInt8

def bytesOf (text : Text) : Bytes :=
  text.flatMap String.utf8EncodeChar

def byte (c : Char) : UInt8 := c.toUInt8

/-- A place to try again from: a star of the pattern, the next byte of the name it may swallow up to,
and how deep in braces the star is. -/
structure Retry where
  glob : Nat := 0
  path : Nat := 0
  depth : Nat := 0
  deriving DecidableEq, Repr

structure State where
  /-- Where the pattern was entered: its start, or the branch of a brace. -/
  entry : Nat := 0
  glob : Nat := 0
  path : Nat := 0
  depth : Nat := 0
  star : Retry := {}
  deepStar : Retry := {}
  deriving DecidableEq, Repr

/-- What the branches of a brace have in common: where the brace opens, and the branch chosen. -/
abbrev Choices := List (Nat × Nat)

/-- The byte at `i` with a backslash before it taken away, and the index of its last byte. A
backslash at the very end means nothing. -/
def unescape? (glob : Bytes) (i : Nat) : Option (UInt8 × Nat) :=
  match glob[i]? with
  | none => none
  | some b =>
    if b = byte '\\' then
      match glob[i + 1]? with
      | none => none
      | some e =>
        let value :=
          if e = byte 'a' then byte 'a'
          else if e = byte 'b' then 8
          else if e = byte 'n' then byte '\n'
          else if e = byte 'r' then byte '\r'
          else if e = byte 't' then byte '\t'
          else e
        some (value, i + 1)
    else some (b, i)

/-- Runs of `**` segments count as one: the index of the last of them. -/
def skipRepeated (glob : Bytes) : Nat → Nat → Nat
  | 0, i => i
  | fuel + 1, i =>
    let rest := glob.drop i
    if rest.take 4 = bytesOf "/**/" then skipRepeated glob fuel (i + 3)
    else if rest = bytesOf "/**" then i + 3
    else i

/-- Where the segment that starts at `i` ends. -/
def segmentEnd (path : Bytes) (i : Nat) : Nat :=
  i + ((path.drop i).takeWhile (· ≠ byte '/')).length

/-- Reads a star. A `**` that fills its segment starts at the next segment of the name, so its place
to try again is behind the next slash. -/
def readStar (glob path : Bytes) (s : State) : State :=
  let doubled := glob[s.glob + 1]? = some (byte '*')
  let last := if doubled then skipRepeated glob glob.length (s.glob + 2) - 2 else s.glob
  let star : Retry := ⟨last, s.path + 1, s.depth⟩
  let next := if doubled then last + 2 else last + 1
  let more := next ≠ glob.length
  if doubled ∧ (next < s.entry + 3 ∨ glob[next - 3]? = some (byte '/')) ∧
      (¬ more ∨ glob[next]? = some (byte '/')) then
    let next := if more then next + 1 else next
    if s.path = path.length then
      { s with glob := next, star := { star with path := star.path + 1 } }
    else
      let stop := segmentEnd path s.path
      let stop := if more ∨ stop ≠ path.length then stop + 1 else stop
      let star := { star with path := stop }
      { s with glob := next, star := star, deepStar := star }
  else if path[s.path]? = some (byte '/') then { s with glob := next, star := s.deepStar }
  else { s with glob := next, star := star }

/-- Whether a class holds `b`, its opening bracket and negation read, and the index after it. -/
def readClass (glob : Bytes) (b : UInt8) : Nat → Bool → Bool → Nat → Option (Bool × Nat)
  | 0, _, _, _ => none
  | fuel + 1, isFirst, found, i =>
    match glob[i]? with
    | none => none
    | some c =>
      if c = byte ']' ∧ ¬ isFirst then some (found, i + 1)
      else
        match unescape? glob i with
        | none => none
        | some (low, j) =>
          if glob[j + 1]? = some (byte '-') ∧ j + 2 < glob.length ∧ glob[j + 2]? ≠ some (byte ']') then
            match unescape? glob (j + 2) with
            | none => none
            | some (high, k) =>
              readClass glob b fuel false (found || (low ≤ b && b ≤ high)) (k + 1)
          else readClass glob b fuel false (found || low == b) (j + 1)

/-- The indices at which the branches of the brace at `i` begin, as far as each of them ends. -/
def branches (glob : Bytes) : Nat → Nat → Nat → Bool → Nat → List Nat
  | 0, _, _, _, _ => []
  | fuel + 1, i, depth, inClass, start =>
    match glob[i]? with
    | none => []
    | some c =>
      let keep := branches glob fuel
      if c = byte '{' ∧ ¬ inClass then
        keep (i + 1) (depth + 1) inClass (if depth = 0 then i + 1 else start)
      else if c = byte '}' ∧ ¬ inClass then
        if depth = 1 then [start] else keep (i + 1) (depth - 1) inClass start
      else if c = byte ',' ∧ depth = 1 then start :: keep (i + 1) depth inClass (i + 1)
      else if c = byte '[' ∧ ¬ inClass then keep (i + 1) depth true start
      else if c = byte ']' then keep (i + 1) depth false start
      else if c = byte '\\' then keep (i + 2) depth inClass start
      else keep (i + 1) depth inClass start

/-- Skips the other branches: the index and depth after the brace that closes this one. -/
def skipBranch (glob : Bytes) (target : Nat) : Nat → Nat → Nat → Bool → Nat × Nat
  | 0, i, depth, _ => (i, depth)
  | fuel + 1, i, depth, inClass =>
    match glob[i]? with
    | none => (i, depth)
    | some c =>
      let keep := skipBranch glob target fuel
      if c = byte '{' ∧ ¬ inClass then keep (i + 1) (depth + 1) inClass
      else if c = byte '}' ∧ ¬ inClass then
        if depth - 1 = target then (i + 1, depth - 1) else keep (i + 1) (depth - 1) inClass
      else if c = byte '[' ∧ ¬ inClass then keep (i + 1) depth true
      else if c = byte ']' then keep (i + 1) depth false
      else if c = byte '\\' then keep (i + 2) depth inClass
      else keep (i + 1) depth inClass

/-- What one step of the machine comes to. -/
inductive Step where
  | go (s : State)
  /-- The pattern cannot go on here: fall back to the star. -/
  | stuck
  /-- The pattern is malformed from here on and matches nothing. -/
  | fail
  /-- Try the branches that begin at these indices, in order. -/
  | fork (opening : Nat) (starts : List Nat)

/-- Reads a byte that stands for itself. -/
def readPlain (glob path : Bytes) (s : State) : Step :=
  match path[s.path]? with
  | none => .stuck
  | some b =>
    match unescape? glob s.glob with
    | none => .fail
    | some (c, i) =>
      if b = c then
        let next := { s with glob := i + 1, path := s.path + 1 }
        .go (if c = byte '/' then { next with star := s.deepStar } else next)
      else .stuck

def step (glob path : Bytes) (choices : Choices) (s : State) : Step :=
  match glob[s.glob]? with
  | none => .stuck
  | some c =>
    let inPath := s.path < path.length
    if c = byte '*' then .go (readStar glob path s)
    else if c = byte '?' ∧ inPath then
      if path[s.path]? = some (byte '/') then .stuck
      else .go { s with glob := s.glob + 1, path := s.path + 1 }
    else if c = byte '[' ∧ inPath then
      let negated := glob[s.glob + 1]? = some (byte '^') ∨ glob[s.glob + 1]? = some (byte '!')
      let start := if negated then s.glob + 2 else s.glob + 1
      match readClass glob (path.getD s.path 0) glob.length true false start with
      | none => .fail
      | some (found, next) =>
        if found ≠ decide negated then .go { s with glob := next, path := s.path + 1 } else .stuck
    else if c = byte '{' then
      match choices.find? (·.1 = s.glob) with
      | some (_, start) => .go { s with glob := start, depth := s.depth + 1 }
      | none => .fork s.glob (branches glob (glob.length + 1) s.glob 0 false 0)
    else if (c = byte ',' ∨ c = byte '}') ∧ 0 < s.depth then
      let (next, depth) := skipBranch glob (s.depth - 1) (glob.length + 1) s.glob s.depth false
      .go { s with glob := next, depth := depth }
    else readPlain glob path s

/-- Falls back to the star, one byte of the name further. -/
def retry (path : Bytes) (s : State) : Option State :=
  if 0 < s.star.path ∧ s.star.path ≤ path.length then
    some { s with glob := s.star.glob, path := s.star.path, depth := s.star.depth }
  else none

/-- Runs the machine until pattern and name are both used up. -/
def run (glob path : Bytes) : Nat → Choices → State → Bool
  | 0, _, _ => false
  | fuel + 1, choices, s =>
    if glob.length ≤ s.glob ∧ path.length ≤ s.path then true
    else
      match step glob path choices s with
      | .go next => run glob path fuel choices next
      | .fail => false
      | .fork opening starts =>
        starts.any fun start =>
          run glob path fuel (choices ++ [(opening, start)])
            { s with entry := start, glob := start, depth := choices.length + 1 }
      | .stuck =>
        match retry path s with
        | some next => run glob path fuel choices next
        | none => false

/-- Between two falls back the machine reads the pattern once and the name once; it falls back to
each of two places at most once for each byte of the name. -/
def bound (glob path : Bytes) : Nat :=
  (glob.length + path.length + 2) * (glob.length + 2) * (path.length + 2) * (path.length + 2)

def isMatch (glob path : Text) : Bool :=
  let glob := bytesOf glob
  let path := bytesOf path
  let negations := (glob.takeWhile (· = byte '!')).length
  let found := run glob path (bound glob path) [] { glob := negations }
  if negations % 2 = 0 then found else !found

end CjsInterop.Glob
