import CjsInterop.Proofs.Splicing

/-! The segments of an edited source stand in the order of the result, and each joins a character of the result to one
of the source. Between two of them both texts run on in step, so that the last segment on the line of a character
of the source leads back to where it stood. -/

namespace CjsInterop

namespace Place

/-! ## Places in a text -/

/-- Earlier in a text. -/
def Before (p q : Place) : Prop := p.line < q.line ∨ p.line = q.line ∧ p.column < q.column

variable {p q r : Place}

theorem Before.trans (h : p.Before q) (h' : q.Before r) : p.Before r := by
  unfold Before at *
  omega

theorem Before.asymm (h : p.Before q) : ¬q.Before p := by
  unfold Before at *
  omega

theorem Before.irrefl (p : Place) : ¬p.Before p := fun h => h.asymm h

theorem advance_cons (p : Place) (c : Char) (rest : Text) : p.advance (c :: rest) = (p.advance [c]).advance rest := by
  by_cases hc : c = '\n'
  · subst hc
    rfl
  · simp [advance]

theorem advance_append (p : Place) (a b : Text) : p.advance (a ++ b) = (p.advance a).advance b := by
  induction a generalizing p with
  | nil => rfl
  | cons c a ih => rw [List.cons_append, advance_cons, ih, ← advance_cons]

theorem advance_singleton {c : Char} (hc : c ≠ '\n') (p : Place) :
    p.advance [c] = ⟨p.line, p.column + Text.unitLength [c]⟩ := by
  simp [advance]

theorem before_advance_singleton (p : Place) (c : Char) : p.Before (p.advance [c]) := by
  by_cases hc : c = '\n'
  · subst hc
    exact .inl (Nat.lt_succ_self _)
  · rw [advance_singleton hc]
    refine .inr ⟨rfl, ?_⟩
    simp only [Text.unitLength]
    split <;> omega

theorem Before.advance (h : p.Before q) (text : Text) : p.Before (q.advance text) := by
  induction text generalizing q with
  | nil => exact h
  | cons c text ih =>
    rw [advance_cons]
    exact ih (h.trans (before_advance_singleton q c))

theorem Before.of_advance {text : Text} (h : (p.advance text).Before q) : p.Before q := by
  induction text generalizing p with
  | nil => exact h
  | cons c text ih =>
    rw [advance_cons] at h
    exact (before_advance_singleton p c).trans (ih h)

theorem before_advance_cons (p : Place) (c : Char) (rest : Text) : p.Before (p.advance (c :: rest)) := by
  rw [advance_cons]
  exact (before_advance_singleton p c).advance rest

/-- The place of a character of the text. -/
def IsIn (p : Place) (text : Text) : Prop := ∃ front c rest, text = front ++ c :: rest ∧ p = advance {} front

end Place

namespace SourceMap

open Place (advance_append advance_cons)

/-- Segments in the order of the result, where `text` begins at `start`, each at one of its characters. -/
structure Placed (start : Place) (text : Text) (segments : List Segment) : Prop where
  sorted : segments.Pairwise fun a b => a.generated.Before b.generated
  within : ∀ s ∈ segments, ∃ front c rest, text = front ++ c :: rest ∧ s.generated = start.advance front

namespace Placed

variable {start : Place} {a b : Text} {l r segments : List Segment}

theorem nil (start : Place) (text : Text) : Placed start text [] := ⟨.nil, by simp⟩

theorem first (original : Place) {text : Text} (h : text ≠ []) : Placed start text [⟨start, original⟩] := by
  obtain ⟨c, rest, rfl⟩ := List.exists_cons_of_ne_nil h
  refine ⟨List.pairwise_singleton _ _, fun s hs => ⟨[], c, rest, rfl, ?_⟩⟩
  rw [List.mem_singleton.1 hs]
  rfl

theorem before_end (h : Placed start a segments) {s : Segment} (hs : s ∈ segments) :
    s.generated.Before (start.advance a) := by
  obtain ⟨front, c, rest, rfl, hp⟩ := h.within s hs
  rw [hp, advance_append]
  exact Place.before_advance_cons _ c rest

/-- What is before the start is before every segment. -/
theorem after_start (h : Placed start a segments) {p : Place} (hp : p.Before start) {s : Segment} (hs : s ∈ segments) :
    p.Before s.generated := by
  obtain ⟨front, c, rest, -, he⟩ := h.within s hs
  exact he ▸ hp.advance front

theorem append (hl : Placed start a l) (hr : Placed (start.advance a) b r) : Placed start (a ++ b) (l ++ r) := by
  refine ⟨List.pairwise_append.2 ⟨hl.sorted, hr.sorted, fun s hs t ht => hr.after_start (hl.before_end hs) ht⟩, ?_⟩
  intro s hs
  rcases List.mem_append.1 hs with hs | hs
  · obtain ⟨front, c, rest, rfl, hp⟩ := hl.within s hs
    exact ⟨front, c, rest ++ b, by simp, hp⟩
  · obtain ⟨front, c, rest, rfl, hp⟩ := hr.within s hs
    exact ⟨a ++ front, c, rest, by simp, by rw [hp, advance_append]⟩

end Placed

/-! ## Looking up a place of the result -/

/-- Where the last segment on the line of a place, at the place or before it, leads to from there. -/
def lookup? (segments : List Segment) (p : Place) : Option Place :=
  (segments.filter fun s => s.generated.line = p.line ∧ s.generated.column ≤ p.column).getLast?.map fun s =>
    ⟨s.original.line, s.original.column + (p.column - s.generated.column)⟩

variable {l r : List Segment} {p o : Place}

theorem lookup?_append (h : ∀ s ∈ r, p.Before s.generated) : lookup? (l ++ r) p = lookup? l p := by
  have hnone : (r.filter fun s => s.generated.line = p.line ∧ s.generated.column ≤ p.column) = [] := by
    rw [List.filter_eq_nil_iff]
    intro s hs
    have hafter := h s hs
    unfold Place.Before at hafter
    simp only [decide_eq_true_eq]
    omega
  simp only [lookup?, List.filter_append, hnone, List.append_nil]

theorem lookup?_concat (l : List Segment) (p o : Place) : lookup? (l ++ [⟨p, o⟩]) p = some o := by
  simp [lookup?, List.filter_append]

/-- On a line both texts run on in step. -/
theorem lookup?_advance {c : Char} (hc : c ≠ '\n') (h : ∀ s ∈ l, ¬p.Before s.generated) (hl : lookup? l p = some o) :
    lookup? l (p.advance [c]) = some (o.advance [c]) := by
  rw [Place.advance_singleton hc, Place.advance_singleton hc]
  have hsame : (l.filter fun s => s.generated.line = p.line ∧ s.generated.column ≤ p.column + Text.unitLength [c]) =
      l.filter fun s => s.generated.line = p.line ∧ s.generated.column ≤ p.column := by
    refine List.filter_congr fun s hs => ?_
    have hbehind := h s hs
    unfold Place.Before at hbehind
    rw [decide_eq_decide]
    omega
  simp only [lookup?, hsame] at hl ⊢
  obtain ⟨s, hs, rfl⟩ := Option.map_eq_some_iff.1 hl
  have hmem := (List.mem_filter.1 (List.mem_of_getLast? hs)).2
  rw [decide_eq_true_eq] at hmem
  simp only [hs, Option.map_some, Option.some.injEq, Place.mk.injEq, true_and]
  omega

/-! ## Original text -/

theorem placed_originalSegments (lineStart : Bool) (generated original : Place) (text : Text) :
    Placed generated text (originalSegments lineStart generated original text) := by
  induction text generalizing lineStart generated original with
  | nil => exact .nil _ _
  | cons c text ih =>
    refine Placed.append (a := [c]) ?_ (ih _ _ _)
    split
    · exact .first _ (List.cons_ne_nil _ _)
    · exact .nil _ _

theorem original_originalSegments {source front text rest : Text} (hs : source = front ++ text ++ rest)
    (lineStart : Bool) (generated : Place) :
    ∀ s ∈ originalSegments lineStart generated (Place.advance {} front) text, s.original.IsIn source := by
  induction text generalizing front lineStart generated with
  | nil => exact nofun
  | cons c text ih =>
    intro s hmem
    rcases List.mem_append.1 hmem with hmem | hmem
    · split at hmem
      · rw [List.mem_singleton.1 hmem]
        exact ⟨front, c, text ++ rest, by simp [hs], rfl⟩
      · cases hmem
    · have hs' : source = front ++ [c] ++ text ++ rest := by simp [hs]
      rw [← advance_append] at hmem
      exact ih hs' _ _ s hmem

/-- A character that is still there is led back by the segment of its line, or by one that was there before. -/
theorem lookup?_originalSegments {a b : Text} {c : Char} (hc : c ≠ '\n') {done : List Segment} {lineStart : Bool}
    {generated original : Place} (hdone : ∀ s ∈ done, ¬generated.Before s.generated)
    (hline : lineStart = false → lookup? done generated = some original) :
    lookup? (done ++ originalSegments lineStart generated original (a ++ c :: b)) (generated.advance a) =
      some (original.advance a) := by
  induction a generalizing done lineStart generated original with
  | nil =>
    have hmore : ∀ s ∈ originalSegments (c == '\n') (generated.advance [c]) (original.advance [c]) b,
        generated.Before s.generated := fun s hs =>
      (placed_originalSegments _ _ _ _).after_start (Place.before_advance_singleton _ c) hs
    rw [List.nil_append, originalSegments, ← List.append_assoc]
    refine (lookup?_append hmore).trans ?_
    change lookup? _ generated = some original
    cases lineStart with
    | true => simpa [hc] using lookup?_concat done generated original
    | false => simpa using hline rfl
  | cons x a ih =>
    -- the segments so far lead back from this character, so they do from the next one of the line
    rw [List.cons_append, originalSegments, ← List.append_assoc, advance_cons generated x a, advance_cons original x a]
    generalize hhere : (if lineStart && x != '\n' then [(⟨generated, original⟩ : Segment)] else []) = here
    have hbehind : ∀ s ∈ done ++ here, ¬generated.Before s.generated := by
      intro s hs
      rcases List.mem_append.1 hs with hs | hs
      · exact hdone s hs
      · subst hhere
        split at hs
        · rw [List.mem_singleton.1 hs]
          exact Place.Before.irrefl generated
        · cases hs
    refine ih (fun s hs h => hbehind s hs ((Place.before_advance_singleton generated x).trans h)) fun hx => ?_
    have hx : x ≠ '\n' := by simpa using hx
    refine lookup?_advance hx hbehind ?_
    subst hhere
    cases lineStart with
    | true => simpa [hx] using lookup?_concat done generated original
    | false => simpa using hline rfl

/-! ## Stretches -/

/-- The text that stretches make. -/
def made (stretches : List Buffer.Stretch) : Text := stretches.flatMap fun s => s.text ++ s.after

theorem made_cons (s : Buffer.Stretch) (stretches : List Buffer.Stretch) :
    made (s :: stretches) = s.text ++ s.after ++ made stretches := rfl

/-- Stretches of a source from behind `front` on, one after another. What replaces a stretch replaces some of it. -/
inductive Covers (source : Text) : (front : Text) → List Buffer.Stretch → Prop
  | done : Covers source source []
  | original {front text after rest : Text} {more : List Buffer.Stretch} (hs : source = front ++ text ++ rest)
      (h : Covers source (front ++ text) more) :
      Covers source front (⟨Text.byteLength front, true, text, after⟩ :: more)
  | replaced {front body new after rest : Text} {more : List Buffer.Stretch} (hs : source = front ++ body ++ rest)
      (hb : body ≠ []) (h : Covers source (front ++ body) more) :
      Covers source front (⟨Text.byteLength front, false, new, after⟩ :: more)

/-- The character of the source behind `front` is kept, and stands behind `code` in what the stretches make. -/
inductive Keeps (source : Text) (c : Char) : List Buffer.Stretch → (front code : Text) → Prop
  | here {front a b rest after : Text} {more : List Buffer.Stretch} (hs : source = front ++ (a ++ c :: b) ++ rest) :
      Keeps source c (⟨Text.byteLength front, true, a ++ c :: b, after⟩ :: more) (front ++ a) a
  | later {s : Buffer.Stretch} {more : List Buffer.Stretch} {front code : Text} (h : Keeps source c more front code) :
      Keeps source c (s :: more) front (s.text ++ s.after ++ code)

variable {source : Text} {stretches : List Buffer.Stretch} {segments : List Segment} {generated : Place}

theorem Keeps.made_eq {c : Char} {front code : Text} (h : Keeps source c stretches front code) :
    ∃ behind, made stretches = code ++ c :: behind := by
  induction h with
  | @here front a b rest after more hs => exact ⟨b ++ after ++ made more, by simp [made_cons]⟩
  | later h ih =>
    obtain ⟨behind, hb⟩ := ih
    exact ⟨behind, by simp [made_cons, hb]⟩

theorem placed_stretchSegments (generated original : Place) (s : Buffer.Stretch) :
    Placed generated s.text (stretchSegments generated original s) := by
  unfold stretchSegments
  split
  · exact placed_originalSegments _ _ _ _
  · split
    · exact .nil _ _
    · next h => exact .first _ h

theorem segmentsFrom_cons_inv {s : Buffer.Stretch}
    (h : segmentsFrom source generated (s :: stretches) = some segments) :
    ∃ front rest more, Text.splitAtByte? s.start source = some (front, rest) ∧
      segments = stretchSegments generated (Place.advance {} front) s ++ more ∧
      segmentsFrom source ((generated.advance s.text).advance s.after) stretches = some more := by
  rw [segmentsFrom] at h
  obtain ⟨⟨front, rest⟩, hfront, h⟩ := Option.bind_eq_some_iff.1 h
  obtain ⟨more, hmore, h⟩ := Option.bind_eq_some_iff.1 h
  exact ⟨front, rest, more, hfront, (Option.some.inj h).symm, hmore⟩

theorem placed_segmentsFrom (h : segmentsFrom source generated stretches = some segments) :
    Placed generated (made stretches) segments := by
  induction stretches generalizing generated segments with
  | nil =>
    obtain rfl := Option.some.inj h
    exact .nil _ _
  | cons s stretches ih =>
    obtain ⟨front, rest, more, -, rfl, hmore⟩ := segmentsFrom_cons_inv h
    have hhere := (placed_stretchSegments generated (Place.advance {} front) s).append (.nil _ s.after)
    rw [made_cons, ← List.append_nil (stretchSegments _ _ s)]
    refine hhere.append ?_
    rw [advance_append]
    exact ih hmore

theorem Covers.exists_segments {front : Text} (h : Covers source front stretches) (generated : Place) :
    ∃ segments, segmentsFrom source generated stretches = some segments ∧ ∀ s ∈ segments, s.original.IsIn source := by
  induction h generalizing generated with
  | done => exact ⟨[], rfl, by simp⟩
  | @original front text after rest more hs h ih =>
    obtain ⟨segments, hmore, hall⟩ := ih ((generated.advance text).advance after)
    have hfront : Text.splitAtByte? (Text.byteLength front) source = some (front, text ++ rest) := by
      rw [hs, List.append_assoc, Text.splitAtByte?_append]
    refine ⟨originalSegments true generated (Place.advance {} front) text ++ segments, ?_, ?_⟩
    · simp [segmentsFrom, hfront, hmore, stretchSegments]
    · exact List.forall_mem_append.2 ⟨original_originalSegments hs true generated, hall⟩
  | @replaced front body new after rest more hs hb h ih =>
    obtain ⟨segments, hmore, hall⟩ := ih ((generated.advance new).advance after)
    have hfront : Text.splitAtByte? (Text.byteLength front) source = some (front, body ++ rest) := by
      rw [hs, List.append_assoc, Text.splitAtByte?_append]
    obtain ⟨c, body, rfl⟩ := List.exists_cons_of_ne_nil hb
    refine ⟨(if new = [] then [] else [⟨generated, Place.advance {} front⟩]) ++ segments, ?_, ?_⟩
    · simp [segmentsFrom, hfront, hmore, stretchSegments]
    · refine List.forall_mem_append.2 ⟨fun s hmem => ?_, hall⟩
      split at hmem
      · cases hmem
      · rw [List.mem_singleton.1 hmem]
        exact ⟨front, c, body ++ rest, by simp [hs], rfl⟩

/-- Segments that are already there do not lead a kept character elsewhere. -/
theorem Keeps.lookup? {c : Char} {front code : Text} (h : Keeps source c stretches front code) (hc : c ≠ '\n')
    (hsegments : segmentsFrom source generated stretches = some segments) {done : List Segment}
    (hdone : ∀ s ∈ done, ¬generated.Before s.generated) :
    lookup? (done ++ segments) (generated.advance code) = some (Place.advance {} front) := by
  induction h generalizing generated segments done with
  | @here front a b rest after more hs =>
    obtain ⟨before, behind, later, hsplit, rfl, hlater⟩ := segmentsFrom_cons_inv hsegments
    obtain rfl : front = before := by
      rw [hs, List.append_assoc, Text.splitAtByte?_append] at hsplit
      exact (Prod.mk.inj (Option.some.inj hsplit)).1
    have hafter : ∀ t ∈ later, (generated.advance a).Before t.generated := by
      have hend : (generated.advance a).Before ((generated.advance (a ++ c :: b)).advance after) := by
        rw [advance_append]
        exact (Place.before_advance_cons _ c b).advance after
      exact fun t ht => (placed_segmentsFrom hlater).after_start hend ht
    rw [← List.append_assoc, lookup?_append hafter, advance_append]
    exact lookup?_originalSegments hc hdone nofun
  | @later s more front code h ih =>
    obtain ⟨before, behind, later, -, rfl, hlater⟩ := segmentsFrom_cons_inv hsegments
    have hhere := placed_stretchSegments generated (Place.advance {} before) s
    rw [← List.append_assoc, advance_append, advance_append]
    refine ih hlater fun t ht => ?_
    rcases List.mem_append.1 ht with ht | ht
    · exact fun h => hdone t ht h.of_advance.of_advance
    · exact ((hhere.before_end ht).advance s.after).asymm

end SourceMap

end CjsInterop
