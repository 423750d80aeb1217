import CjsInterop.Proofs.Pieces
import CjsInterop.Bundle.Render

/-! Edits in the order of the source put each new text in the place of its stretch and keep every other
character, and the function that the new texts call is defined where there is a place for it. -/

namespace CjsInterop

/-- What becomes of a text that begins at byte `start` of a source, when each stretch gives way to its new
text. -/
inductive Spliced : (start : Nat) → Text → List (Span × Text) → Text → Prop
  | rest {start : Nat} {text : Text} : Spliced start text [] text
  | edit {start : Nat} {gap body text new result : Text} {edits : List (Span × Text)} :
      Spliced (start + Text.byteLength gap + Text.byteLength body) text edits result →
      Spliced start (gap ++ body ++ text)
        ((⟨start + Text.byteLength gap, start + Text.byteLength gap + Text.byteLength body⟩, new) :: edits)
        (gap ++ new ++ result)

/-- What comes before every stretch is kept. -/
theorem Spliced.drop {start : Nat} {gap text code : Text} {edits : List (Span × Text)}
    (h : Spliced start (gap ++ text) edits code) (he : ∀ e ∈ edits, start + Text.byteLength gap ≤ e.1.start) :
    ∃ tail, code = gap ++ tail ∧ Spliced (start + Text.byteLength gap) text edits tail := by
  generalize hsource : gap ++ text = source at h
  cases h with
  | rest => exact ⟨text, hsource.symm, .rest⟩
  | @edit _ front body later new result edits h =>
    have hle : Text.byteLength gap ≤ Text.byteLength front := by
      have := he _ List.mem_cons_self
      dsimp only at this
      omega
    obtain ⟨more, rfl, htext⟩ : ∃ more, front = gap ++ more ∧ text = more ++ body ++ later := by
      rw [List.append_assoc] at hsource
      rcases List.append_eq_append_iff.1 hsource with ⟨more, hm, ht⟩ | ⟨more, rfl, ht⟩
      · exact ⟨more, hm, by simpa using ht⟩
      · obtain rfl : more = [] := by
          by_contra hne
          have := Text.byteLength_pos hne
          rw [Text.byteLength_append] at hle
          omega
        exact ⟨[], by simp, by simpa using ht.symm⟩
    subst htext
    refine ⟨more ++ new ++ result, by simp, ?_⟩
    rw [Text.byteLength_append, ← Nat.add_assoc] at h ⊢
    exact .edit h

/-- The text that takes the place of an import. -/
def Plan.text (plan : Plan) : Text := plan.render.getD []

namespace Rewriting

open Buffer

theorem apply_eq (r : Rewriting) (span : Span) (plan : Plan) :
    r.apply span plan = (r.buffer.replace span plan.text plan.render.isNone).map fun buffer =>
      ⟨buffer, r.usesRequire || plan.usesRequire, true⟩ := by
  unfold apply Plan.text
  cases hr : plan.render <;> simp [Buffer.update, Buffer.remove, Option.map_eq_bind]

/-- A chunk with its edits up to byte `start` made: `text` stands there for what was before, and `spans` have
given way. -/
structure EditedTo (source : Text) (start : Nat) (spans : List Span) (text : Text) (r : Rewriting) : Prop where
  source_eq : r.buffer.source = source
  before_eq : r.buffer.before = []
  after_eq : r.buffer.after = []
  pieces : ∃ done, Tiled 0 start done ∧ Holds source done text ∧ replacedSpans done = spans ∧
    r.buffer.pieces = done ++ untouched start (Text.byteLength source)
  nothingBehind : ∀ p ∈ r.buffer.pieces, p.after = []

theorem editedTo_ofSource {source : Text} (h : source ≠ []) : EditedTo source 0 [] [] (ofSource source) := by
  have hpos := Text.byteLength_pos h
  exact ⟨rfl, rfl, rfl, ⟨[], .done, .nil, rfl, by simp [ofSource, Buffer.ofSource, untouched, hpos]⟩,
    by simp [ofSource, Buffer.ofSource]⟩

theorem EditedTo.apply {source front gap body rest text : Text} {r : Rewriting} {span : Span} {spans : List Span}
    (plan : Plan) (h : EditedTo source (Text.byteLength front) spans text r) (hs : source = front ++ gap ++ body ++ rest)
    (hb : body ≠ []) (hspan : span = ⟨Text.byteLength front + Text.byteLength gap,
      Text.byteLength front + Text.byteLength gap + Text.byteLength body⟩) :
    ∃ after, r.apply span plan = some after ∧
      EditedTo source (Text.byteLength front + Text.byteLength gap + Text.byteLength body) (spans ++ [span])
        (text ++ gap ++ plan.text) after ∧
      after.usesRequire = (r.usesRequire || plan.usesRequire) ∧ after.changed = true := by
  obtain ⟨done, htiled, hholds, rfl, hpieces⟩ := h.pieces
  have hpos := Text.byteLength_pos hb
  have hreplace := @replace_untouched r.buffer _ _ _ done [] span plan.text plan.render.isNone
    (congrArg Text.byteLength h.source_eq) htiled .done (by simpa using hpieces) (by simp [hspan])
    (by simp [hspan]; omega) (by simp [hspan, hs]; omega)
  rw [apply_eq, hreplace, Option.map_some, List.append_nil]
  refine ⟨_, rfl, ⟨h.source_eq, h.before_eq, h.after_eq, ?_, ?_⟩, rfl, rfl⟩
  · subst hspan
    refine ⟨done ++ untouched _ _ ++ [⟨_, _, some plan.text, []⟩], ?_, ?_, ?_, rfl⟩
    · refine (htiled.append (tiled_untouched (by simp))).append ?_
      exact @Tiled.piece _ ⟨_, _, some plan.text, []⟩ [] (by simpa using hpos) .done
    · refine (hholds.append (@holds_untouched source front gap (body ++ rest) (by simpa using hs))).append ?_
      rw [← Text.byteLength_append]
      exact @holds_replaced source (front ++ gap) (body ++ rest) (by simpa using hs) _ _
    · rw [replacedSpans_append, replacedSpans_append, replacedSpans_untouched, List.append_nil]
      rfl
  · have hdone : ∀ p ∈ done, p.after = [] := fun p hp =>
      h.nothingBehind p (hpieces ▸ List.mem_append_left _ hp)
    intro p hp
    simp only [List.mem_append, List.mem_singleton] at hp
    rcases hp with ((hp | hp) | rfl) | hp
    · exact hdone p hp
    · exact after_untouched p hp
    · rfl
    · exact after_untouched p hp

/-- Each edit of a list, as the stretch that gives way and the text that takes its place. -/
def replacements (edits : List (Span × Plan)) : List (Span × Text) :=
  edits.map fun (span, plan) => (span, plan.text)

theorem EditedTo.edits {source front rest text : Text} {r : Rewriting} {edits : List (Span × Plan)}
    {spans : List Span} (h : EditedTo source (Text.byteLength front) spans text r) (hs : source = front ++ rest)
    (hl : Laid (Text.byteLength front) rest (edits.map Prod.fst)) :
    ∃ after code, edits.foldlM (fun r (span, plan) => r.apply span plan) r = some after ∧
      Spliced (Text.byteLength front) rest (replacements edits) code ∧
      EditedTo source (Text.byteLength source) (spans ++ edits.map Prod.fst) (text ++ code) after ∧
      after.usesRequire = (r.usesRequire || edits.any fun e => e.2.usesRequire) ∧
      after.changed = (r.changed || !edits.isEmpty) := by
  induction edits generalizing front rest text r spans with
  | nil =>
    obtain ⟨done, htiled, hholds, rfl, hpieces⟩ := h.pieces
    have hsize : Text.byteLength source = Text.byteLength front + Text.byteLength rest := by simp [hs]
    refine ⟨r, rest, rfl, .rest, ⟨h.source_eq, h.before_eq, h.after_eq, ?_, h.nothingBehind⟩, by simp, by simp⟩
    refine ⟨done ++ untouched (Text.byteLength front) (Text.byteLength source), ?_, ?_, by simp,
      by simp [hpieces, untouched_self]⟩
    · exact htiled.append (tiled_untouched (by omega))
    · rw [hsize]
      exact hholds.append (@holds_untouched source front rest [] (by simpa using hs))
  | cons edit edits ih =>
    obtain ⟨span, plan⟩ := edit
    rw [List.map_cons] at hl
    generalize hspans : edits.map Prod.fst = spans at hl
    cases hl with
    | @span _ gap body later _ hb hl =>
      obtain ⟨middle, happly, hmiddle, hrequire, hchanged⟩ :=
        h.apply plan (by simpa using hs) hb rfl
      rw [← Text.byteLength_append, ← Text.byteLength_append] at hl hmiddle
      obtain ⟨after, code, hfold, hspliced, hafter, hrequire', hchanged'⟩ :=
        ih hmiddle (by simpa using hs) (hspans ▸ hl)
      refine ⟨after, gap ++ plan.text ++ code, ?_, ?_, ?_, ?_, ?_⟩
      · simp [List.foldlM_cons, happly, hfold]
      · rw [Text.byteLength_append, Text.byteLength_append] at hspliced
        exact .edit hspliced
      · simpa [hspans, Nat.add_assoc] using hafter
      · simp [hrequire', hrequire, Bool.or_assoc]
      · simp [hchanged', hchanged]

/-! ## The definition in front -/

/-- Edited text with a definition put in front of it, or behind the first line of a source that starts with
`#`. There is no place for it when a stretch that gave way holds the end of that line. -/
inductive Framed (source : Text) (spans : List Span) (definition code : Text) : Option Text → Prop
  | front (h : source.head? ≠ some '#') : Framed source spans definition code (some (definition ++ code))
  | back (h : source.head? = some '#') (hn : firstLineLength source = none) :
      Framed source spans definition code (some (code ++ '\n' :: definition))
  | behindLine {n : Nat} {before after : Text} (h : source.head? = some '#') (hn : firstLineLength source = some n)
      (ht : ¬Torn n spans) (hc : code = before ++ after) :
      Framed source spans definition code (some (before ++ definition ++ after))
  | torn {n : Nat} (h : source.head? = some '#') (hn : firstLineLength source = some n) (ht : Torn n spans) :
      Framed source spans definition code none

theorem segmentsFrom_isSome {source : Text} {stretches : List Stretch}
    (h : ∀ s ∈ stretches, ∃ front rest, source = front ++ rest ∧ Text.byteLength front = s.start) (place : Place) :
    (SourceMap.segmentsFrom source place stretches).isSome := by
  induction stretches generalizing place with
  | nil => rfl
  | cons s stretches ih =>
    obtain ⟨front, rest, rfl, hs⟩ := h s List.mem_cons_self
    obtain ⟨more, hmore⟩ := Option.isSome_iff_exists.1
      (ih (fun t ht => h t (List.mem_cons_of_mem _ ht)) ((place.advance s.text).advance s.after))
    simp [SourceMap.segmentsFrom, ← hs, Text.splitAtByte?_append, hmore]

/-- The result is what the pieces hold, between what was added around them. -/
theorem finish_eq {r : Rewriting} {text : Text} (h : Holds r.buffer.source r.buffer.pieces text) (fileName : Text)
    (wantMap : Bool) :
    ∃ map, r.finish fileName wantMap = some ⟨r.buffer.before ++ text ++ r.buffer.after, map⟩ := by
  obtain ⟨stretches, hm, rfl, hb⟩ := h
  obtain ⟨segments, hs⟩ := Option.isSome_iff_exists.1
    (segmentsFrom_isSome hb (Place.advance {} r.buffer.before))
  cases wantMap with
  | false => exact ⟨none, by simp [finish, stretches?, hm, render]⟩
  | true => exact ⟨some _, by simp [finish, stretches?, hm, SourceMap.segments?, hs, render]; rfl⟩

theorem takeWhile_line {source : Text} (h : '\n' ∈ source) :
    ∃ rest, source = source.takeWhile (· ≠ '\n') ++ '\n' :: rest := by
  induction source with
  | nil => cases h
  | cons c source ih =>
    by_cases hc : c = '\n'
    · exact ⟨source, by simp [hc]⟩
    · obtain ⟨rest, hr⟩ := ih ((List.mem_cons.1 h).resolve_left fun he => hc he.symm)
      refine ⟨rest, ?_⟩
      rw [List.takeWhile_cons_of_pos (by simpa using hc), List.cons_append, ← hr]

theorem firstLine_boundary {source : Text} {n : Nat} (h : firstLineLength source = some n) :
    0 < n ∧ ∃ front rest, source = front ++ rest ∧ Text.byteLength front = n := by
  unfold firstLineLength at h
  split at h
  · next hmem =>
    obtain rfl := Option.some.inj h
    obtain ⟨rest, hr⟩ := takeWhile_line hmem
    refine ⟨by omega, source.takeWhile (· ≠ '\n') ++ ['\n'], rest, by simpa using hr, ?_⟩
    rw [Text.byteLength_append]
    rfl
  · cases h

/-- The definition behind the first line: what is before it is the line itself when nothing on it gave way. -/
theorem insertPreamble_behindLine {source line rest text : Text} {spans : List Span} {r : Rewriting}
    (rewriteBuiltins : Bool) (h : EditedTo source (Text.byteLength source) spans text r) (hs : source = line ++ rest)
    (hhash : source.head? = some '#') (hn : firstLineLength source = some (Text.byteLength line))
    (hpos : 0 < Text.byteLength line) (htorn : ¬Torn (Text.byteLength line) spans) (fileName : Text) (wantMap : Bool) :
    ∃ before after map, text = before ++ after ∧
      ((∀ span ∈ spans, Text.byteLength line ≤ span.start) → before = line) ∧
      ((r.insertPreamble rewriteBuiltins).bind fun r => r.finish fileName wantMap) =
        some ⟨before ++ preamble rewriteBuiltins ++ after, map⟩ := by
  obtain ⟨rfl, hbefore, hafter, ⟨done, htiled, hholds, rfl, hpieces⟩, hbehind⟩ := h
  rw [untouched_self, List.append_nil] at hpieces
  subst hpieces
  have hle : Text.byteLength line ≤ Text.byteLength r.buffer.source := by
    rw [hs, Text.byteLength_append]
    omega
  obtain ⟨l, more, before, after, hcut, hleft, hright, hl, hr, rfl, hparts⟩ :=
    hholds.cut htiled hs rfl (by omega) hle htorn
  have hadd : Holds r.buffer.source (addBehind (Text.byteLength line) (preamble rewriteBuiltins) (l ++ more))
      (before ++ preamble rewriteBuiltins ++ after) := by
    have hmore := @addBehind_tiled _ _ _ (preamble rewriteBuiltins) _ hright (Nat.le_refl _)
    rw [addBehind, List.map_append, ← addBehind, ← addBehind, hmore]
    exact (hl.addBehind _ hleft hpos).append hr
  obtain ⟨map, hfinish⟩ := finish_eq (r := { r with
    buffer := { r.buffer with pieces := addBehind (Text.byteLength line) (preamble rewriteBuiltins) (l ++ more) }
    changed := true }) hadd fileName wantMap
  refine ⟨before, after, map, rfl, fun hspans => ?_, ?_⟩
  · refine @Holds.eq_of_untouched _ _ _ _ _ [] line rest hl hleft hs rfl (Nat.zero_add _) fun p hp => ?_
    obtain ⟨q, hq, hstart, hreplacement, hpart⟩ := hparts p hp
    have hp := hleft.mem p hp
    constructor
    · rw [hreplacement, ← Option.not_isSome_iff_eq_none]
      intro hsome
      have := hspans _ (mem_replacedSpans.2 ⟨q, hq, hsome, rfl⟩)
      dsimp only at this
      omega
    · rcases hpart with hpart | hpart
      · exact hpart
      · rw [hpart, hbehind q hq]
  · simpa [insertPreamble, hhash, hn, insertBehind, hcut, hbefore, hafter, addBehind] using hfinish

/-- Putting in the definition and writing the chunk out. -/
theorem insertPreamble_finish {source text : Text} {spans : List Span} {r : Rewriting} (rewriteBuiltins : Bool)
    (h : EditedTo source (Text.byteLength source) spans text r) (fileName : Text) (wantMap : Bool) :
    ∃ code? map, Framed source spans (preamble rewriteBuiltins) text code? ∧
      ((r.insertPreamble rewriteBuiltins).bind fun r => r.finish fileName wantMap) =
        code?.map fun code => ⟨code, map⟩ := by
  obtain ⟨done, htiled, hholds, hspans, hpieces⟩ := h.pieces
  rw [untouched_self, List.append_nil] at hpieces
  rw [← hpieces, ← h.source_eq] at hholds
  by_cases hhash : source.head? = some '#'
  · cases hn : firstLineLength source with
    | none =>
      obtain ⟨map, hfinish⟩ := finish_eq (r := { r with
        buffer := r.buffer.append ('\n' :: preamble rewriteBuiltins), changed := true }) hholds fileName wantMap
      refine ⟨_, map, .back hhash hn, ?_⟩
      simpa [insertPreamble, h.source_eq, hhash, hn, Buffer.append, h.before_eq, h.after_eq] using hfinish
    | some n =>
      obtain ⟨hpos, line, rest, hs, rfl⟩ := firstLine_boundary hn
      by_cases htorn : Torn (Text.byteLength line) spans
      · refine ⟨none, none, .torn hhash hn htorn, ?_⟩
        rw [← hspans] at htorn
        simp [insertPreamble, h.source_eq, hhash, hn, insertBehind, hpieces, cut_torn htiled htorn]
      · obtain ⟨before, after, map, hc, -, hfinish⟩ :=
          insertPreamble_behindLine rewriteBuiltins h hs hhash hn hpos htorn fileName wantMap
        exact ⟨_, map, .behindLine hhash hn htorn hc, hfinish⟩
  · obtain ⟨map, hfinish⟩ := finish_eq (r := { r with
      buffer := r.buffer.prepend (preamble rewriteBuiltins), changed := true }) hholds fileName wantMap
    refine ⟨_, map, .front hhash, ?_⟩
    simpa [insertPreamble, h.source_eq, hhash, Buffer.prepend, h.before_eq, h.after_eq] using hfinish

end Rewriting

/-- Edits in the order of the source are made one after the other, before anything is put in front. -/
theorem editedChunk_edited {source : Text} {edits : List (Span × Plan)} (hl : Laid 0 source (edits.map Prod.fst))
    (hne : source ≠ []) (rewriteBuiltins : Bool) (fileName : Text) (wantMap : Bool) :
    ∃ after code, Spliced 0 source (Rewriting.replacements edits) code ∧
      Rewriting.EditedTo source (Text.byteLength source) (edits.map Prod.fst) code after ∧
      editedChunk source edits rewriteBuiltins fileName wantMap =
        (if edits.any fun e => e.2.usesRequire then after.insertPreamble rewriteBuiltins else some after).bind
          fun r => r.finish fileName wantMap := by
  obtain ⟨after, code, hfold, hspliced, hafter, hrequire, -⟩ :=
    @Rewriting.EditedTo.edits source [] source [] _ edits [] (Rewriting.editedTo_ofSource hne) rfl hl
  have hedit : (Rewriting.ofSource source).edit edits rewriteBuiltins =
      if after.usesRequire then after.insertPreamble rewriteBuiltins else some after := by
    simp only [Rewriting.edit, hfold, Option.bind_eq_bind, Option.bind_some]
    rfl
  have hchunk : editedChunk source edits rewriteBuiltins fileName wantMap =
      ((Rewriting.ofSource source).edit edits rewriteBuiltins).bind fun r => r.finish fileName wantMap := rfl
  refine ⟨after, code, hspliced, by simpa using hafter, ?_⟩
  rw [hchunk, hedit, hrequire]
  simp only [Rewriting.ofSource, Bool.false_or]

/-- A chunk with edits in the order of its source: each stretch gives way to its text, and the function that
the new texts call is defined once if one of them calls it. -/
theorem editedChunk_eq {source : Text} {edits : List (Span × Plan)} (hl : Laid 0 source (edits.map Prod.fst))
    (hne : source ≠ []) (rewriteBuiltins : Bool) (fileName : Text) (wantMap : Bool) :
    ∃ code code? map, Spliced 0 source (Rewriting.replacements edits) code ∧
      editedChunk source edits rewriteBuiltins fileName wantMap = code?.map (fun code => ⟨code, map⟩) ∧
      if edits.any fun e => e.2.usesRequire then
        Rewriting.Framed source (edits.map Prod.fst) (preamble rewriteBuiltins) code code?
      else code? = some code := by
  obtain ⟨after, code, hspliced, hafter, hchunk⟩ := editedChunk_edited hl hne rewriteBuiltins fileName wantMap
  rw [hchunk]
  by_cases hr : edits.any fun e => e.2.usesRequire
  · obtain ⟨code?, map, hframed, hfinish⟩ := Rewriting.insertPreamble_finish rewriteBuiltins hafter fileName wantMap
    exact ⟨code, code?, map, hspliced, by rwa [if_pos hr], by rwa [if_pos hr]⟩
  · obtain ⟨hsource, hbefore, hafter', ⟨done, -, hholds, -, hpieces⟩, -⟩ := hafter
    obtain ⟨map, hfinish⟩ := Rewriting.finish_eq (r := after) (by simpa [hpieces, hsource] using hholds) fileName wantMap
    refine ⟨code, some code, map, hspliced, ?_, by rw [if_neg hr]⟩
    simpa [hr, hbefore, hafter'] using hfinish

end CjsInterop
