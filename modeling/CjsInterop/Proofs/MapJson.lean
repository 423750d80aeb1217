import CjsInterop.Proofs.MappingText
import Mathlib.Tactic.IntervalCases

/-! A source map is JSON text: quoted texts are strings of JSON, and its segments are found where a reader of source
maps looks for them. -/

namespace CjsInterop

namespace Json

open Text (quotedChar quoted hex)

/-- A code below the surrogates stands for its character, whatever follows. -/
theorem decode_code {n : Nat} (h : n < 0xD800) (pieces : List Piece) :
    decode (.code n :: pieces) = (decode pieces).map (Char.ofNat n :: ·) := by
  have hsurrogate : ¬(0xD800 ≤ n ∧ n < 0xE000) := by omega
  cases pieces with
  | nil => simp [decode, hsurrogate]
  | cons p pieces =>
    cases p with
    | char c => simp [decode, hsurrogate]
    | code low => rw [decode, if_neg (by omega), if_neg (by omega)]

theorem hexCode?_control {n : Nat} (h : n < 0x20) :
    ∃ a b c d, hex 4 n = [a, b, c, d] ∧ hexCode? a b c d = some n := by
  interval_cases n <;> exact ⟨_, _, _, _, rfl, rfl⟩

/-- The spelling of a character is read as that character. -/
theorem readPieces_quotedChar (c : Char) (text : Text) :
    ∃ p, readPieces (quotedChar c ++ text) = (readPieces text).map (fun (pieces, rest) => (p :: pieces, rest)) ∧
      ∀ pieces, decode (p :: pieces) = (decode pieces).map (c :: ·) := by
  unfold quotedChar
  split
  iterate 7 exact ⟨.char _, by simp [readPieces, simpleEscape?, Option.map_eq_bind], fun _ => rfl⟩
  · next hquote hslash _ _ _ _ _ =>
    by_cases hc : c.toNat < 0x20
    · obtain ⟨x, y, z, w, hhex, hcode⟩ := hexCode?_control hc
      refine ⟨.code c.toNat, ?_, fun pieces => by rw [decode_code (by omega), Char.ofNat_toNat]⟩
      rw [if_pos hc, hhex]
      simp [readPieces, hcode, Option.map_eq_bind]
    · refine ⟨.char c, ?_, fun _ => rfl⟩
      rw [if_neg hc, List.singleton_append, readPieces, if_neg hc, Option.map_eq_bind]
      · rfl
      · exact hquote
      · exact fun _ _ _ _ _ h _ => hslash h
      · exact fun _ _ h _ => hslash h

theorem readString_quoted (text rest : Text) :
    readString (text.flatMap quotedChar ++ '"' :: rest) = some (some text, rest) := by
  have hpieces : ∃ pieces, readPieces (text.flatMap quotedChar ++ '"' :: rest) = some (pieces, rest) ∧
      decode pieces = some text := by
    induction text with
    | nil => exact ⟨[], rfl, rfl⟩
    | cons c text ih =>
      obtain ⟨pieces, hread, hdecode⟩ := ih
      obtain ⟨p, hp, hpc⟩ := readPieces_quotedChar c (text.flatMap quotedChar ++ '"' :: rest)
      refine ⟨p :: pieces, ?_, by rw [hpc, hdecode]; rfl⟩
      rw [List.flatMap_cons, List.append_assoc, hp, hread]
      rfl
  obtain ⟨pieces, hread, hdecode⟩ := hpieces
  simp only [readString, hread, Option.map_some, hdecode]

theorem readValue_quoted (fuel : Nat) (text rest : Text) :
    readValue (fuel + 1) (quoted text ++ rest) = some (.string (some text), rest) := by
  simp [readValue, quoted, skipBlanks, isBlank, readString_quoted]

theorem readValue_three (fuel : Nat) (rest : Text) :
    readValue (fuel + 1) ('3' :: ',' :: rest) = some (.number "3", ',' :: rest) := rfl

theorem readValue_nil (fuel : Nat) (rest : Text) :
    readValue (fuel + 1) ('[' :: ']' :: rest) = some (.array [], rest) := rfl

theorem readValue_quotedList (fuel : Nat) (text rest : Text) :
    readValue (fuel + 3) ('[' :: (quoted text ++ ']' :: rest)) = some (.array [.string (some text)], rest) := by
  have hitems : readItems (fuel + 2) (quoted text ++ ']' :: rest) = some ([.string (some text)], rest) := by
    simp [readItems, readValue_quoted, skipBlanks, isBlank]
  simp only [quoted, List.cons_append, List.append_assoc, List.nil_append] at hitems ⊢
  simp [readValue, skipBlanks, isBlank, hitems]

theorem readMembers_quoted {fuel : Nat} {key text rest : Text} {value : Json} {more : List (Option Text × Json)}
    (h : readValue fuel text = some (value, ',' :: rest)) (hmore : readMembers fuel rest = some (more, [])) :
    readMembers (fuel + 1) (quoted key ++ ':' :: text) = some ((some key, value) :: more, []) := by
  simp [readMembers, quoted, skipBlanks, isBlank, readString_quoted, h, hmore]

theorem readMembers_last {fuel : Nat} {key text rest : Text} {value : Json}
    (h : readValue fuel text = some (value, '\x7d' :: rest)) :
    readMembers (fuel + 1) (quoted key ++ ':' :: text) = some ([(some key, value)], rest) := by
  simp [readMembers, quoted, skipBlanks, isBlank, readString_quoted, h]

theorem readValue_object {fuel : Nat} {key text rest : Text} {members : List (Option Text × Json)}
    (h : readMembers fuel (quoted key ++ text) = some (members, rest)) :
    readValue (fuel + 1) ('\x7b' :: (quoted key ++ text)) = some (.object members, rest) := by
  simp only [quoted, List.cons_append, List.append_assoc, List.nil_append] at h ⊢
  simp [readValue, skipBlanks, isBlank, h]

end Json

namespace SourceMap

open Text (quotedChar quoted)

theorem mem_encodeFrom {before : Segment} {lineStart : Bool} {segments : List Segment} :
    ∀ c ∈ encodeFrom before lineStart segments, c ∈ ';' :: ',' :: base64 := by
  induction segments generalizing before lineStart with
  | nil => exact nofun
  | cons s segments ih =>
    intro c hc
    simp only [encodeFrom, List.mem_append] at hc
    rcases hc with ((hc | hc) | hc) | hc
    · simp [List.eq_of_mem_replicate hc]
    · split at hc
      · obtain rfl := List.mem_singleton.1 hc
        decide
      · cases hc
    · exact List.mem_cons_of_mem _ (List.mem_cons_of_mem _ (mem_base64_encodeSegment c hc))
    · exact ih c hc

/-- Nothing in mappings needs an escape. -/
theorem quoted_encode (segments : List Segment) : quoted (encode segments) = '"' :: encode segments ++ ['"'] := by
  have hall : (';' :: ',' :: base64).all (fun c => quotedChar c == [c]) = true := rfl
  have hchars : ∀ c ∈ ';' :: ',' :: base64, quotedChar c = [c] := by simpa using hall
  have hsame : ∀ text : Text, (∀ c ∈ text, c ∈ ';' :: ',' :: base64) → text.flatMap quotedChar = text := by
    intro text h
    induction text with
    | nil => rfl
    | cons c text ih =>
      rw [List.flatMap_cons, hchars c (h c List.mem_cons_self), ih fun d hd => h d (List.mem_cons_of_mem _ hd)]
      rfl
  rw [quoted, hsame (encode segments) mem_encodeFrom]

/-- What a map says as JSON: its version, no names, the one source with its text, and the mappings. -/
def members (fileName source : Text) (segments : List Segment) : List (Option Text × Json) :=
  [(some "version", .number "3"), (some "names", .array []), (some "sources", .array [.string (some fileName)]),
    (some "sourcesContent", .array [.string (some source)]), (some "mappings", .string (some (encode segments)))]

theorem render_eq (fileName source : Text) (segments : List Segment) :
    render fileName source segments = '\x7b' :: (quoted "version" ++ ':' :: '3' :: ',' :: (quoted "names" ++
      ':' :: '[' :: ']' :: ',' :: (quoted "sources" ++ ':' :: '[' :: (quoted fileName ++ ']' :: ',' ::
        (quoted "sourcesContent" ++ ':' :: '[' :: (quoted source ++ ']' :: ',' ::
          (quoted "mappings" ++ ':' :: (quoted (encode segments) ++ ['\x7d'])))))))) := by
  have hopen : "\x7b\"version\":3,\"names\":[],\"sources\":[".toList = '\x7b' :: (quoted "version" ++ ':' :: '3' ::
      ',' :: (quoted "names" ++ ':' :: '[' :: ']' :: ',' :: (quoted "sources" ++ [':', '[']))) := rfl
  have hcontent : "],\"sourcesContent\":[".toList = ']' :: ',' :: (quoted "sourcesContent" ++ [':', '[']) := rfl
  have hmappings : "],\"mappings\":\"".toList = ']' :: ',' :: (quoted "mappings" ++ [':', '"']) := rfl
  have hclose : "\"\x7d".toList = ['"', '\x7d'] := rfl
  unfold render
  simp only [hopen, hcontent, hmappings, hclose, quoted_encode segments, List.append_assoc, List.cons_append,
    List.nil_append]

theorem ofText?_render (fileName source : Text) (segments : List Segment) :
    Json.ofText? (render fileName source segments) = some (.object (members fileName source segments)) := by
  obtain ⟨fuel, hfuel⟩ : ∃ fuel, 2 * (render fileName source segments).length + 2 = fuel + 8 := by
    refine ⟨2 * (render fileName source segments).length - 6, ?_⟩
    have hlength : 3 ≤ (render fileName source segments).length := by
      rw [render_eq]
      simp only [quoted, List.length_cons, List.length_append]
      omega
    omega
  have hmappings := @Json.readMembers_last (fuel + 2) "mappings" _ _ _
    (Json.readValue_quoted (fuel + 1) (encode segments) ['\x7d'])
  have hcontent := @Json.readMembers_quoted _ "sourcesContent" _ _ _ _
    (Json.readValue_quotedList fuel source _) hmappings
  have hsources := @Json.readMembers_quoted _ "sources" _ _ _ _
    (Json.readValue_quotedList (fuel + 1) fileName _) hcontent
  have hnames := @Json.readMembers_quoted _ "names" _ _ _ _ (Json.readValue_nil (fuel + 4) _) hsources
  have hversion := @Json.readMembers_quoted _ "version" _ _ _ _ (Json.readValue_three (fuel + 5) _) hnames
  rw [Json.ofText?, hfuel, render_eq, Json.readValue_object hversion]
  rfl

/-- The segments of a map in JSON text, for a reader who knows the map to have one source. -/
def readMap? (map : Text) : Option (List Segment) :=
  match Json.ofText? map with
  | some (.object members) =>
    match Json.valuesOf "mappings" members with
    | [.string (some mappings)] => readMappings? mappings
    | _ => none
  | _ => none

theorem readMap?_render {segments : List Segment} (h : Descends segments) (fileName source : Text) :
    readMap? (render fileName source segments) = some segments := by
  have hmappings : Json.valuesOf "mappings" (members fileName source segments) =
      [.string (some (encode segments))] := rfl
  simp only [readMap?, ofText?_render, hmappings, readMappings?_encode h]

end SourceMap

end CjsInterop
