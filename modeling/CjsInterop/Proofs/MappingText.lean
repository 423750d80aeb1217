import CjsInterop.Json.Reader
import CjsInterop.Proofs.PathSteps
import CjsInterop.Rewrite.SourceMap

/-! The mappings of a source map are read back: numbers in base 64, four of them in a field, the fields of a line
between commas and the lines between semicolons. Each field tells how far its segment is from the one before. -/

namespace CjsInterop

namespace Text

theorem splitAt_part_append {mark : Char} {part rest first : Text} {parts : List Text} (h : mark ∉ part)
    (hs : splitAt mark rest = first :: parts) : splitAt mark (part ++ rest) = (part ++ first) :: parts := by
  induction part with
  | nil => exact hs
  | cons c part ih =>
    simp only [List.mem_cons, not_or] at h
    simp [splitAt, Ne.symm h.1, ih h.2]

theorem splitAt_replicate_append (mark : Char) (n : Nat) (rest : Text) :
    splitAt mark (List.replicate n mark ++ rest) = List.replicate n [] ++ splitAt mark rest := by
  induction n with
  | zero => rfl
  | succ n ih => simp [List.replicate_succ, splitAt, ih]

theorem splitAt_flatMap_cons {mark : Char} {part : Text} {parts : List Text} (h : mark ∉ part)
    (hs : ∀ p ∈ parts, mark ∉ p) : splitAt mark (part ++ parts.flatMap (mark :: ·)) = part :: parts := by
  induction parts generalizing part with
  | nil => simpa using splitAt_of_not_mem h
  | cons next parts ih =>
    rw [List.flatMap_cons, List.cons_append, splitAt_append_cons h,
      ih (hs next List.mem_cons_self) fun p hp => hs p (List.mem_cons_of_mem _ hp)]

end Text

namespace SourceMap

/-! ## Reading mappings -/

def digitValue? (c : Char) : Option Nat := base64.findIdx? (· == c)

/-- The number whose sign is the lowest bit. -/
def signed (magnitude : Nat) : Int :=
  if magnitude % 2 = 1 then -(magnitude / 2 : Nat) else (magnitude / 2 : Nat)

/-- The numbers that a text spells, when `magnitude` is read of the first and its next digit has `weight`. The text
may not end inside a number. -/
def numbersFrom? (weight magnitude : Nat) : Text → Option (List Int)
  | [] => if weight = 1 then some [] else none
  | c :: rest => do
    let digit ← digitValue? c
    let magnitude := magnitude + weight * (digit % 32)
    if 32 ≤ digit then numbersFrom? (weight * 32) magnitude rest
    else (numbersFrom? 1 0 rest).map (signed magnitude :: ·)

/-- The number that is so far from `base`, if it is one from zero on. -/
def moved? (base : Nat) (distance : Int) : Option Nat := (base + distance).toNat?

/-- A field of four numbers, for a map with one source: how far the segment is from the one before. -/
def readField? (before : Segment) (field : Text) : Option Segment := do
  match ← numbersFrom? 1 0 field with
  | [column, 0, line, sourceColumn] =>
    let column ← moved? before.generated.column column
    let line ← moved? before.original.line line
    let sourceColumn ← moved? before.original.column sourceColumn
    pure ⟨⟨before.generated.line, column⟩, ⟨line, sourceColumn⟩⟩
  | _ => none

def readFields? (before : Segment) : List Text → Option (List Segment)
  | [] => some []
  | field :: fields => do
    let s ← readField? before field
    let more ← readFields? s fields
    pure (s :: more)

/-- The place that the next segment of the source is told from. -/
def lastOriginal (before : Place) (segments : List Segment) : Place :=
  (segments.getLast?.map Segment.original).getD before

/-- Lines from number `line` on. Columns of the result begin anew in each, places of the source do not. -/
def readLines? (line : Nat) (original : Place) : List Text → Option (List Segment)
  | [] => some []
  | text :: lines => do
    let here ← readFields? ⟨⟨line, 0⟩, original⟩ (if text = [] then [] else Text.splitAt ',' text)
    let more ← readLines? (line + 1) (lastOriginal original here) lines
    pure (here ++ more)

/-- The segments that mappings spell. -/
def readMappings? (mappings : Text) : Option (List Segment) :=
  readLines? 0 {} (Text.splitAt ';' mappings)

/-! ## Numbers -/

theorem digitValue?_getD : ∀ n < 64, digitValue? (base64.getD n 'A') = some n := by decide

theorem mem_base64_getD (n : Nat) : base64.getD n 'A' ∈ base64 := by
  rw [List.getD_eq_getElem?_getD]
  cases h : base64[n]? with
  | none => decide
  | some c => exact List.mem_of_getElem? h

theorem mem_base64_vlqDigits {fuel n : Nat} : ∀ c ∈ vlqDigits fuel n, c ∈ base64 := by
  induction fuel generalizing n with
  | zero => exact nofun
  | succ fuel ih =>
    intro c hc
    rw [vlqDigits] at hc
    split at hc
    · obtain rfl := List.mem_singleton.1 hc
      exact mem_base64_getD n
    · rcases List.mem_cons.1 hc with rfl | hc
      · exact mem_base64_getD _
      · exact ih c hc

theorem numbersFrom?_vlqDigits {fuel n : Nat} (h : n < fuel) (weight magnitude : Nat) (rest : Text) :
    numbersFrom? weight magnitude (vlqDigits fuel n ++ rest) =
      (numbersFrom? 1 0 rest).map (signed (magnitude + weight * n) :: ·) := by
  induction fuel generalizing n weight magnitude with
  | zero => omega
  | succ fuel ih =>
    rw [vlqDigits]
    split
    · next hn =>
      have hdigit := digitValue?_getD n (by omega)
      rw [List.singleton_append, numbersFrom?, hdigit]
      simp only [Option.bind_eq_bind, Option.bind_some]
      rw [if_neg (by omega), Nat.mod_eq_of_lt hn]
    · next hn =>
      have hdigit := digitValue?_getD (n % 32 + 32) (by omega)
      have hsum : magnitude + weight * ((n % 32 + 32) % 32) + weight * 32 * (n / 32) = magnitude + weight * n := by
        rw [Nat.add_mod_right, Nat.mod_mod, Nat.mul_assoc, Nat.add_assoc, ← Nat.mul_add, Nat.mod_add_div]
      rw [List.cons_append, numbersFrom?, hdigit]
      simp only [Option.bind_eq_bind, Option.bind_some]
      rw [if_pos (by omega), ih (by omega), hsum]

theorem signed_magnitude (n : Int) : signed (2 * n.natAbs + if n < 0 then 1 else 0) = n := by
  unfold signed
  split <;> split <;> omega

theorem numbersFrom?_vlq (n : Int) (rest : Text) :
    numbersFrom? 1 0 (vlq n ++ rest) = (numbersFrom? 1 0 rest).map (n :: ·) := by
  rw [vlq, numbersFrom?_vlqDigits (Nat.lt_succ_self _), Nat.zero_add, Nat.one_mul, signed_magnitude]

/-! ## Fields -/

variable {before s : Segment} {columnBefore : Nat}

theorem mem_base64_encodeSegment : ∀ c ∈ encodeSegment before columnBefore s, c ∈ base64 := by
  intro c hc
  simp only [encodeSegment, List.mem_append] at hc
  rcases hc with ((hc | hc) | hc) | hc <;> exact mem_base64_vlqDigits c hc

theorem notMem_encodeSegment {mark : Char} (h : mark ∉ base64) : mark ∉ encodeSegment before columnBefore s :=
  fun hm => h (mem_base64_encodeSegment mark hm)

theorem encodeSegment_ne_nil : encodeSegment before columnBefore s ≠ [] := by
  have hdigits : ∀ fuel n, vlqDigits (fuel + 1) n ≠ [] := by
    intro fuel n
    rw [vlqDigits]
    split <;> exact List.cons_ne_nil _ _
  simp [encodeSegment, vlq, hdigits]

theorem moved?_sub (base n : Nat) : moved? base (n - base) = some n := by
  rw [moved?, show (base : Int) + (n - base) = (n : Nat) by omega]
  rfl

/-- A field is read back by who knows the segment before, and the column from which the new one is told. -/
theorem readField?_encodeSegment {last : Segment} (ho : last.original = before.original)
    (hl : last.generated.line = s.generated.line) :
    readField? last (encodeSegment before last.generated.column s) = some s := by
  have hnumbers : numbersFrom? 1 0 (encodeSegment before last.generated.column s) =
      some [(s.generated.column : Int) - last.generated.column, 0, (s.original.line : Int) - before.original.line,
        (s.original.column : Int) - before.original.column] := by
    rw [← List.append_nil (encodeSegment before last.generated.column s)]
    simp only [encodeSegment, List.append_assoc, numbersFrom?_vlq]
    rfl
  simp only [readField?, hnumbers, Option.bind_eq_bind, Option.bind_some, ho, hl, moved?_sub]
  rfl

/-! ## Lines -/

theorem readFields?_cons {last : Segment} {field : Text} {fields : List Text} {here : List Segment}
    (h : readField? last field = some s) (hs : readFields? s fields = some here) :
    readFields? last (field :: fields) = some (s :: here) := by
  simp [readFields?, h, hs]

theorem lastOriginal_cons (place : Place) (here : List Segment) :
    lastOriginal place (s :: here) = lastOriginal s.original here := by
  cases h : here.getLast? with
  | none => simp [List.getLast?_eq_none_iff.1 h, lastOriginal]
  | some last => simp [lastOriginal, List.getLast?_cons, h]

theorem readLines?_replicate_nil (n line : Nat) (original : Place) (lines : List Text) :
    readLines? line original (List.replicate n [] ++ lines) = readLines? (line + n) original lines := by
  induction n generalizing line with
  | zero => rfl
  | succ n ih =>
    rw [List.replicate_succ, List.cons_append, readLines?]
    simp [readFields?, lastOriginal, ih, Nat.add_assoc, Nat.add_comm 1]

/-- What follows the segment `before` in the mappings spells `segments`: more fields of its line, each behind a comma,
then other lines. -/
def Follows (before : Segment) (text : Text) (segments : List Segment) : Prop :=
  ∃ fields lines here later, Text.splitAt ';' text = fields.flatMap (',' :: ·) :: lines ∧
    (∀ field ∈ fields, ',' ∉ field) ∧ readFields? before fields = some here ∧
    readLines? (before.generated.line + 1) (lastOriginal before.original here) lines = some later ∧
    here ++ later = segments

theorem Follows.readLines {text : Text} {segments : List Segment} (h : Follows s text segments)
    (before : Segment) (line lines : Nat) (hl : s.generated.line = line + lines) :
    readLines? line before.original
      (Text.splitAt ';' (List.replicate lines ';' ++ encodeSegment before 0 s ++ text)) = some (s :: segments) := by
  obtain ⟨fields, later, here, more, hsplit, hfields, hhere, hmore, rfl⟩ := h
  have hfirst : readField? ⟨⟨s.generated.line, 0⟩, before.original⟩ (encodeSegment before 0 s) = some s :=
    readField?_encodeSegment rfl rfl
  rw [List.append_assoc, Text.splitAt_replicate_append, readLines?_replicate_nil, ← hl,
    Text.splitAt_part_append (notMem_encodeSegment (by decide)) hsplit, readLines?,
    if_neg (by simp [encodeSegment_ne_nil]), Text.splitAt_flatMap_cons (notMem_encodeSegment (by decide)) hfields,
    readFields?_cons hfirst hhere]
  simp [lastOriginal_cons, hmore]

def Descends (segments : List Segment) : Prop := segments.Pairwise fun a b => a.generated.line ≤ b.generated.line

theorem follows_encodeFrom {segments : List Segment} (h : Descends (before :: segments)) :
    Follows before (encodeFrom before false segments) segments := by
  induction segments generalizing before with
  | nil => exact ⟨[], [], [], [], rfl, by simp, rfl, rfl, rfl⟩
  | cons s segments ih =>
    obtain ⟨hbefore, hrest⟩ := List.pairwise_cons.1 h
    have hle : before.generated.line ≤ s.generated.line := hbefore s List.mem_cons_self
    have hmore := ih hrest
    rw [encodeFrom]
    by_cases hline : s.generated.line - before.generated.line = 0
    · -- one more field of the line
      obtain ⟨fields, lines, here, later, hsplit, hfields, hhere, hlater, rfl⟩ := hmore
      have hsame : before.generated.line = s.generated.line := by omega
      refine ⟨encodeSegment before before.generated.column s :: fields, lines, s :: here, later, ?_, ?_,
        readFields?_cons (readField?_encodeSegment rfl hsame) hhere, ?_, rfl⟩
      · have hmark : ';' ∉ ',' :: encodeSegment before before.generated.column s := by
          rw [List.mem_cons, not_or]
          exact ⟨by decide, notMem_encodeSegment (by decide)⟩
        simpa [hline] using Text.splitAt_part_append hmark hsplit
      · exact List.forall_mem_cons.2 ⟨notMem_encodeSegment (by decide), hfields⟩
      · rw [lastOriginal_cons, hsame, hlater]
    · -- the first field of a later line
      obtain ⟨lines, hlines⟩ := Nat.exists_eq_succ_of_ne_zero hline
      have hread := hmore.readLines before (before.generated.line + 1) lines (by omega)
      refine ⟨[], _, [], _, ?_, by simp, rfl, hread, rfl⟩
      simp [hlines, List.replicate_succ, Text.splitAt]

/-- Mappings are read back as the segments that they were written for. -/
theorem readMappings?_encode {segments : List Segment} (h : Descends segments) :
    readMappings? (encode segments) = some segments := by
  cases segments with
  | nil => rfl
  | cons s segments =>
    have hread := (follows_encodeFrom h).readLines ⟨{}, {}⟩ 0 s.generated.line (by simp)
    simpa [readMappings?, encode, encodeFrom] using hread

end SourceMap

end CjsInterop
