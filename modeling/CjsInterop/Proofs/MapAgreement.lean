import CjsInterop.Proofs.EditOrder
import CjsInterop.Proofs.MapJson
import CjsInterop.Proofs.MapSegments

/-! The map and the code of a rewritten chunk agree: the mappings are read back as segments that stand in the order of
the code, and from the place of a character that was kept the last of them on its line leads to where it stood. -/

namespace CjsInterop

/-- Where a text is cut in front of a character, and where it is cut between two parts. -/
theorem Text.cut_of_append_eq {a b x y : Text} {c : Char} (h : a ++ b = x ++ c :: y) :
    (byteLength x < byteLength a ∧ ∃ more, a = x ++ c :: more) ∨
      (byteLength a ≤ byteLength x ∧ ∃ more, x = a ++ more ∧ b = more ++ c :: y) := by
  rcases List.append_eq_append_iff.1 h with ⟨more, rfl, hb⟩ | ⟨more, rfl, hy⟩
  · exact .inr ⟨by simp, more, rfl, hb⟩
  · cases more with
    | nil => exact .inr ⟨by simp, [], by simp, by simpa using hy.symm⟩
    | cons d more =>
      obtain ⟨rfl, -⟩ := List.cons.inj hy
      have hd := Char.utf8Size_pos c
      exact .inl ⟨by simp only [byteLength_append, byteLength]; omega, more, rfl⟩

/-! ## Definitions as edits -/

/-- No edit takes the character at byte `i`. -/
def Untaken (edits : List (Span × Text)) (i : Nat) : Prop := ∀ e ∈ edits, ¬(e.1.start ≤ i ∧ i < e.1.stop)

/-- What stands in front of the character behind `front` when that is kept. -/
def textBefore (edits : List (Span × Text)) (front : Text) : Text :=
  exchanged edits 0 front ++ newAt edits (Text.byteLength front)

theorem newAt_untaken {edits : List (Span × Text)} {i : Nat} (hpos : ∀ e ∈ edits, e.1.start < e.1.stop)
    (h : Untaken edits i) : newAt edits i = [] :=
  newAt_eq_nil fun e he hi => h e he ⟨hi.le, hi ▸ hpos e he⟩

section Insertion

variable {edits : List (Span × Text)} {n : Nat} {text : Text}

theorem newAt_cons (i : Nat) : newAt ((⟨n, n⟩, text) :: edits) i = (if n = i then text else []) ++ newAt edits i := by
  by_cases h : n = i <;> simp [newAt, h]

theorem taken_cons (i : Nat) : (∃ e ∈ (⟨n, n⟩, text) :: edits, e.1.start ≤ i ∧ i < e.1.stop) ↔
    ∃ e ∈ edits, e.1.start ≤ i ∧ i < e.1.stop := by
  have hnone : ¬(n ≤ i ∧ i < n) := by omega
  simp [hnone]

theorem exchanged_insertion {i : Nat} {x : Text} (h : n < i ∨ i + Text.byteLength x ≤ n) :
    exchanged ((⟨n, n⟩, text) :: edits) i x = exchanged edits i x := by
  induction x generalizing i with
  | nil => rfl
  | cons c x ih =>
    have hc := Char.utf8Size_pos c
    simp only [Text.byteLength] at h
    have hmore := @ih (i + c.utf8Size) (by omega)
    rw [exchanged, exchanged, newAt_cons, if_neg (by omega), List.nil_append, hmore]
    simp only [taken_cons]

/-- From its byte on it stands in front of everything else. -/
theorem exchanged_insertion_at (x : Text) :
    exchanged ((⟨n, n⟩, text) :: edits) n x ++ newAt ((⟨n, n⟩, text) :: edits) (n + Text.byteLength x) =
      text ++ exchanged edits n x ++ newAt edits (n + Text.byteLength x) := by
  cases x with
  | nil => simp [exchanged, newAt_cons]
  | cons c x =>
    have hc := Char.utf8Size_pos c
    have hmore := @exchanged_insertion edits n text (n + c.utf8Size) x (.inl (by omega))
    have hlast : n ≠ n + Text.byteLength (c :: x) := by
      simp only [Text.byteLength]
      omega
    rw [exchanged, exchanged, newAt_cons, newAt_cons, if_pos rfl, if_neg hlast, hmore]
    simp only [taken_cons, List.append_assoc, List.nil_append]

theorem textBefore_short {front : Text} (h : Text.byteLength front < n) :
    textBefore ((⟨n, n⟩, text) :: edits) front = textBefore edits front := by
  rw [textBefore, exchanged_insertion (.inr (by omega)), newAt_cons, if_neg (by omega)]
  rfl

theorem textBefore_behind {head x : Text} (hn : Text.byteLength head = n) :
    textBefore ((⟨n, n⟩, text) :: edits) (head ++ x) = exchanged edits 0 head ++ text ++
      (exchanged edits n x ++ newAt edits (Text.byteLength (head ++ x))) := by
  subst hn
  rw [textBefore, exchanged_append, exchanged_insertion (.inr (by omega)), Nat.zero_add, List.append_assoc,
    Text.byteLength_append, exchanged_insertion_at]
  simp only [List.append_assoc]

end Insertion

namespace Buffer

open SourceMap

/-! ## The stretches of a source with edits made -/

/-- The stretch from behind `front` on that nobody touched, if there is any. -/
def gapStretch (front gap : Text) : List Stretch :=
  if gap = [] then [] else [⟨Text.byteLength front, true, gap, []⟩]

variable {source front gap rest : Text} {more : List Stretch} {c : Char}

theorem mapM_untouched (hs : source = front ++ gap ++ rest) :
    (untouched (Text.byteLength front) (Text.byteLength front + Text.byteLength gap)).mapM (stretchesFrom source) =
      some (gapStretch front gap) := by
  by_cases hg : gap = []
  · simp [hg, gapStretch, untouched]
  · have hpos := Text.byteLength_pos hg
    have hlt : Text.byteLength front < Text.byteLength front + Text.byteLength gap := by omega
    simp [untouched, hlt, gapStretch, hg, stretchesFrom, hs, List.append_assoc, Text.splitAtByte?_append]

theorem covers_gapStretch (hs : source = front ++ gap ++ rest) (h : Covers source (front ++ gap) more) :
    Covers source front (gapStretch front gap ++ more) := by
  by_cases hg : gap = []
  · simpa [hg, gapStretch] using h
  · simpa [hg, gapStretch] using Covers.original hs h

theorem keeps_gapStretch {a b : Text} (hs : source = front ++ (a ++ c :: b) ++ rest) :
    Keeps source c (gapStretch front (a ++ c :: b) ++ more) (front ++ a) a := by
  simpa [gapStretch] using Keeps.here hs

theorem keeps_behind_gapStretch {place code : Text} (front gap : Text) (h : Keeps source c more place code) :
    Keeps source c (gapStretch front gap ++ more) place (gap ++ code) := by
  by_cases hg : gap = []
  · simpa [hg, gapStretch] using h
  · simpa [hg, gapStretch] using Keeps.later (s := ⟨Text.byteLength front, true, gap, []⟩) h

/-- The stretches of a layout cover its source, and a character that no edit takes is kept behind what the edits make
of the text in front of it. -/
theorem covers_layout {edits later : List (Span × Text)}
    (hpos : ∀ e ∈ edits, e.1.start < e.1.stop) (hstarts : edits.Pairwise fun a b => a.1.start ≠ b.1.start)
    (hb : ∀ e ∈ edits, source.Boundary e.1.start ∧ source.Boundary e.1.stop) (hs : source = front ++ rest)
    (h : InOrder (Text.byteLength source) (Text.byteLength front) later) (hmem : ∀ e ∈ later, e ∈ edits)
    (hpast : ∀ e ∈ edits, e ∈ later ∨ e.1.stop ≤ Text.byteLength front) :
    ∃ stretches, (layout (Text.byteLength source) (Text.byteLength front) later).mapM (stretchesFrom source) =
        some stretches ∧ Covers source front stretches ∧
      ∀ x c y, rest = x ++ c :: y → Untaken edits (Text.byteLength (front ++ x)) →
        Keeps source c stretches (front ++ x) (exchanged edits (Text.byteLength front) x) := by
  induction later generalizing front rest with
  | nil =>
    have hsource : source = front ++ rest ++ [] := by simpa using hs
    have hsize : Text.byteLength source = Text.byteLength front + Text.byteLength rest := by simp [hs]
    have hmap := mapM_untouched hsource
    have hcovers := covers_gapStretch hsource (hs ▸ Covers.done : Covers source (front ++ rest) [])
    rw [List.append_nil] at hcovers
    refine ⟨gapStretch front rest, by rw [layout, hsize, hmap], hcovers, ?_⟩
    rintro x c y rfl -
    have hkept : exchanged edits (Text.byteLength front) x = x :=
      exchanged_gap hpos fun e he => .inl ((hpast e he).resolve_left List.not_mem_nil)
    rw [hkept]
    simpa using @keeps_gapStretch source front [] [] c x y hsource
  | cons edit later ih =>
    obtain ⟨span, new⟩ := edit
    have hspan := hmem _ List.mem_cons_self
    obtain ⟨gap, body, text, rfl, hne, hgap, hbody, hkept, hnew, h, hpast'⟩ := next_edit hpos hstarts hb hs h hmem hpast
    have hsource : source = front ++ gap ++ body ++ text := by simpa using hs
    have hfront : Text.byteLength (front ++ gap ++ body) = span.stop := by simp only [Text.byteLength_append]; omega
    rw [← hfront] at h hpast'
    obtain ⟨more, hmap, hcovers, hkeeps⟩ := ih hsource h (fun e he => hmem e (List.mem_cons_of_mem _ he)) hpast'
    rw [hfront] at hmap hkeeps
    refine ⟨gapStretch front gap ++ ⟨span.start, false, new, []⟩ :: more, ?_, ?_, ?_⟩
    · have hmapGap := @mapM_untouched source front gap (body ++ text) (by simpa using hs)
      rw [hgap] at hmapGap
      simp [layout, List.mapM_append, hmapGap, hmap, stretchesFrom]
    · refine @covers_gapStretch source front gap (body ++ text) _ (by simpa using hs) ?_
      rw [← hgap, ← Text.byteLength_append]
      exact .replaced hsource hne hcovers
    · intro x c y hx hfree
      rw [Text.byteLength_append] at hfree
      rw [List.append_assoc] at hx
      rcases Text.cut_of_append_eq hx with ⟨hlt, inside, rfl⟩ | ⟨hle, beyond, rfl, hbeyond⟩
      · rw [hkept x (by omega)]
        exact @keeps_gapStretch source front (body ++ text) _ c x inside (by simpa using hs)
      · rcases Text.cut_of_append_eq hbeyond with ⟨hlt, -⟩ | ⟨-, x, rfl, rfl⟩
        · -- the character would be in the stretch
          rw [Text.byteLength_append] at hfree
          exact absurd ⟨by dsimp only; omega, by dsimp only; omega⟩ (hfree _ hspan)
        · have hkeeps := hkeeps x c y rfl (by simpa [Nat.add_assoc] using hfree)
          have hcode : exchanged edits (Text.byteLength front) (gap ++ (body ++ x)) =
              gap ++ (new ++ [] ++ exchanged edits span.stop x) := by
            rw [exchanged_append, exchanged_append, hgap, hbody, hkept gap hgap.le, hnew, List.append_nil]
          rw [hcode]
          simpa using keeps_behind_gapStretch front gap (hkeeps.later (s := ⟨span.start, false, new, []⟩))

/-- A cut in front of every edit divides the first stretch. -/
theorem cut_layout {size n : Nat} {edits : List (Span × Text)} (h : InOrder size n edits) :
    cut n (layout size 0 edits) = some (untouched 0 n ++ layout size n edits) := by
  cases h with
  | done hn => simpa [layout] using cut_untouched (Nat.zero_le n) hn (.done : Tiled size size [])
  | @edit _ span text edits hs hlt h =>
    have htiled : Tiled span.start size (⟨span.start, span.stop, some text, []⟩ :: layout size span.stop edits) :=
      @Tiled.piece _ ⟨span.start, span.stop, some text, []⟩ _ hlt h.tiled
    simpa [layout] using cut_untouched (Nat.zero_le n) hs htiled

theorem InOrder.behind {size start n : Nat} {edits : List (Span × Text)} (h : InOrder size start edits) (hn : n ≤ size)
    (hall : ∀ e ∈ edits, n ≤ e.1.start) : InOrder size n edits := by
  cases h with
  | done => exact .done hn
  | edit hs hlt h => exact .edit (hall _ List.mem_cons_self) hlt h

end Buffer

namespace Rewriting

open Buffer SourceMap

/-- The stretches of a rewriting cover its source, and what no edit takes is kept where the edits say. -/
structure Tracked (source : Text) (edits : List (Span × Text)) (r : Rewriting) : Prop where
  source_eq : r.buffer.source = source
  after_eq : r.buffer.after = []
  stretches : ∃ stretches, r.buffer.stretches? = some stretches ∧ Covers source [] stretches ∧
    ∀ front c rest, source = front ++ c :: rest → Untaken edits (Text.byteLength front) →
      ∃ code, Keeps source c stretches front code ∧ r.buffer.before ++ code = textBefore edits front

/-- Code, and the segments of its map, for a source with edits made. -/
structure Agrees (source code : Text) (edits : List (Span × Text)) (segments : List Segment) : Prop where
  sorted : segments.Pairwise fun a b => a.generated.Before b.generated
  inCode : ∀ s ∈ segments, s.generated.IsIn code
  inSource : ∀ s ∈ segments, s.original.IsIn source
  kept : ∀ front c rest, source = front ++ c :: rest → Untaken edits (Text.byteLength front) →
    ∃ behind, code = textBefore edits front ++ c :: behind
  leadsBack : ∀ front c rest, source = front ++ c :: rest → c ≠ '\n' → Untaken edits (Text.byteLength front) →
    lookup? segments (Place.advance {} (textBefore edits front)) = some (Place.advance {} front)

theorem Tracked.finish {source : Text} {edits : List (Span × Text)} {r : Rewriting} (h : Tracked source edits r)
    (fileName : Text) : ∃ code map segments, r.finish fileName true = some ⟨code, some map⟩ ∧
      readMap? map = some segments ∧ Agrees source code edits segments := by
  obtain ⟨rfl, hafter, stretches, hstretches, hcovers, hkeeps⟩ := h
  obtain ⟨segments, hsegments, hsource⟩ := hcovers.exists_segments (Place.advance {} r.buffer.before)
  have hplaced := placed_segmentsFrom hsegments
  have hdescends : Descends segments := hplaced.sorted.imp fun {a b} hab => by
    unfold Place.Before at hab
    omega
  refine ⟨r.buffer.before ++ made stretches, render fileName r.buffer.source segments, segments, ?_,
    readMap?_render hdescends _ _, hplaced.sorted, ?_, hsource, ?_, ?_⟩
  · simp [Rewriting.finish, hstretches, segments?, hsegments, Buffer.render, hafter, made]
  · intro s hs
    obtain ⟨front, c, rest, htext, hp⟩ := hplaced.within s hs
    exact ⟨r.buffer.before ++ front, c, rest, by simp [htext], by rw [hp, Place.advance_append]⟩
  · intro front c rest hs hfree
    obtain ⟨code, hkept, hcode⟩ := hkeeps front c rest hs hfree
    obtain ⟨behind, hmade⟩ := hkept.made_eq
    exact ⟨behind, by rw [hmade, ← hcode, List.append_assoc]⟩
  · intro front c rest hs hc hfree
    obtain ⟨code, hkept, hcode⟩ := hkeeps front c rest hs hfree
    rw [← hcode, Place.advance_append]
    have hnone : ∀ s ∈ ([] : List Segment), ¬(Place.advance {} r.buffer.before).Before s.generated := by simp
    exact hkept.lookup? hc hsegments hnone

/-! ## Edits, and the definition among them -/

section Tracking

variable {source : Text} {edits : List (Span × Plan)} {all : List (Span × Text)} {r : Rewriting}

theorem replacements_pos (h : ApartEdits source edits) : ∀ e ∈ replacements edits, e.1.start < e.1.stop :=
  List.forall_mem_map.2 h.nonempty

/-- The stretches from behind `front` on, when no edit begins before. -/
theorem covers_edited {front rest : Text} (h : ApartEdits source edits) (hs : source = front ++ rest)
    (horder : InOrder (Text.byteLength source) (Text.byteLength front) all) (hperm : all.Perm (replacements edits)) :
    ∃ stretches, (layout (Text.byteLength source) (Text.byteLength front) all).mapM (stretchesFrom source) =
        some stretches ∧ Covers source front stretches ∧
      ∀ x c y, rest = x ++ c :: y → Untaken (replacements edits) (Text.byteLength (front ++ x)) →
        Keeps source c stretches (front ++ x) (exchanged (replacements edits) (Text.byteLength front) x) := by
  have hb : ∀ e ∈ replacements edits, source.Boundary e.1.start ∧ source.Boundary e.1.stop := by
    intro e he
    obtain ⟨⟨span, plan⟩, hmem, rfl⟩ := List.mem_map.1 he
    exact ⟨h.starts _ hmem, h.stops _ hmem⟩
  exact covers_layout (replacements_pos h) (replacements_starts h) hb hs horder (fun e he => hperm.mem_iff.1 he)
    fun e he => .inl (hperm.mem_iff.2 he)

theorem tracked_edited (h : ApartEdits source edits) (hr : Edited source all r)
    (hperm : all.Perm (replacements edits)) : Tracked source (replacements edits) r := by
  obtain ⟨stretches, hmap, hcovers, hkeeps⟩ := @covers_edited source edits all [] source h rfl hr.order hperm
  refine ⟨by rw [hr.buffer_eq], by rw [hr.buffer_eq], stretches, ?_, hcovers, ?_⟩
  · rw [hr.buffer_eq]
    exact hmap
  · intro front c rest hs hfree
    refine ⟨_, hkeeps front c rest hs hfree, ?_⟩
    rw [hr.buffer_eq, textBefore, newAt_untaken (replacements_pos h) hfree, List.append_nil]
    rfl

theorem Tracked.prepend {edits : List (Span × Text)} (h : Tracked source edits r) (text : Text) :
    Tracked source ((⟨0, 0⟩, text) :: edits) { r with buffer := r.buffer.prepend text, changed := true } := by
  obtain ⟨rfl, hafter, stretches, hstretches, hcovers, hkeeps⟩ := h
  refine ⟨rfl, hafter, stretches, hstretches, hcovers, fun front c rest hs hfree => ?_⟩
  obtain ⟨code, hkept, hcode⟩ := hkeeps front c rest hs fun e he => hfree e (List.mem_cons_of_mem _ he)
  refine ⟨code, hkept, ?_⟩
  have hbefore := @textBefore_behind edits 0 text [] front rfl
  rw [List.nil_append] at hbefore
  rw [hbefore, Buffer.prepend, List.append_assoc, hcode]
  rfl

/-- The definition behind a first line that no edit touches. -/
theorem tracked_insertBehind {line body : Text} (h : ApartEdits source edits) (hr : Edited source all r)
    (hperm : all.Perm (replacements edits)) (hs : source = line ++ body) (hpos : 0 < Text.byteLength line)
    (hline : ∀ e ∈ edits, Text.byteLength line ≤ e.1.start) (text : Text) :
    ∃ buffer, r.buffer.insertBehind (Text.byteLength line) text = some buffer ∧
      Tracked source ((⟨Text.byteLength line, Text.byteLength line⟩, text) :: replacements edits)
        { r with buffer := buffer, changed := true } := by
  have hposs := replacements_pos h
  have hbehind : ∀ e ∈ replacements edits, Text.byteLength line ≤ e.1.start := List.forall_mem_map.2 hline
  have hle : Text.byteLength line ≤ Text.byteLength source := by
    rw [hs, Text.byteLength_append]
    omega
  have hsame : ∀ x, Text.byteLength x ≤ Text.byteLength line → exchanged (replacements edits) 0 x = x :=
    fun x hx => exchanged_gap hposs fun e he => by
      have hstart := hbehind e he
      omega
  have horder := hr.order.behind hle fun e he => hbehind e (hperm.mem_iff.1 he)
  obtain ⟨more, hmap, hcovers, hkeeps⟩ := covers_edited h hs horder hperm
  have hpieces : addBehind (Text.byteLength line) text (untouched 0 (Text.byteLength line) ++
      layout (Text.byteLength source) (Text.byteLength line) all) =
        ⟨0, Text.byteLength line, none, text⟩ :: layout (Text.byteLength source) (Text.byteLength line) all := by
    have hlast := @addBehind_tiled _ _ _ text _ horder.tiled (Nat.le_refl _)
    simp only [addBehind] at hlast ⊢
    simp [untouched, hpos, hlast]
  refine ⟨⟨source, ⟨0, Text.byteLength line, none, text⟩ :: layout (Text.byteLength source) (Text.byteLength line) all,
    [], []⟩, ?_, rfl, rfl, ⟨0, true, line, text⟩ :: more, ?_, ?_, ?_⟩
  · rw [insertBehind, hr.buffer_eq]
    simp only [cut_layout horder]
    exact congrArg (fun pieces => some (⟨source, pieces, [], []⟩ : Buffer)) hpieces
  · have hfirst : stretchesFrom source ⟨0, Text.byteLength line, none, text⟩ = some ⟨0, true, line, text⟩ := by
      have hsplit := Text.splitAtByte?_append line body
      rw [← hs] at hsplit
      simp [stretchesFrom, Text.splitAtByte?, hsplit]
    simp [stretches?, hfirst, hmap]
  · exact @Covers.original source [] line text body more (by simpa using hs) hcovers
  · intro front c rest hfront hfree
    have huntaken : Untaken (replacements edits) (Text.byteLength front) := fun e he =>
      hfree e (List.mem_cons_of_mem _ he)
    rw [hs] at hfront
    rcases Text.cut_of_append_eq hfront with ⟨hlt, inside, rfl⟩ | ⟨-, x, rfl, rfl⟩
    · -- a character of the line
      refine ⟨front, @Keeps.here source c [] front inside body text more (by simpa using hs), ?_⟩
      rw [textBefore_short hlt, textBefore, hsame front hlt.le, newAt_untaken hposs huntaken, List.append_nil]
      rfl
    · refine ⟨_, (hkeeps x c rest rfl huntaken).later, ?_⟩
      rw [textBefore_behind rfl, hsame line le_rfl, newAt_untaken hposs huntaken, List.append_nil]
      rfl

/-- The edits are made, and the chunk that they leave keeps the rest of its source. -/
theorem exists_tracked (h : ApartEdits source edits) :
    ∃ after, (ofSource source).applyAll edits = some after ∧ Tracked source (replacements edits) after ∧
      (source ≠ [] → ∃ all, Edited source all after ∧ all.Perm (replacements edits)) := by
  by_cases hne : source = []
  · subst hne
    obtain rfl := eq_nil_of_apart h
    have hcovers : Covers [] [] [⟨0, true, [], []⟩] := @Covers.original [] [] [] [] [] [] rfl .done
    refine ⟨ofSource [], rfl, ⟨rfl, rfl, _, rfl, hcovers, fun front c rest hs => ?_⟩, fun hne => absurd rfl hne⟩
    simp at hs
  · obtain ⟨after, all, hfold, hperm, hafter, -, -⟩ :=
      (edited_ofSource hne).edits h fun _ _ _ hm => absurd hm List.not_mem_nil
    rw [List.append_nil] at hperm
    exact ⟨after, hfold, tracked_edited h hafter hperm, fun _ => ⟨all, hafter, hperm⟩⟩

end Tracking

/-- The definition as an edit: a new text for no stretch, in front or behind a first line that begins with `#`. -/
def definitionEdits (source : Text) : Option Bool → List (Span × Text)
  | none => []
  | some rewriteBuiltins =>
    let n := if source.head? = some '#' then (firstLineLength source).getD 0 else 0
    [(⟨n, n⟩, preamble rewriteBuiltins)]

/-- The map of a rewritten chunk is read back as segments in the order of its code, each from a character of the code
to one of the source. A character of the source that no edit takes is in the code, and the map leads from there to
where it stood. -/
theorem map_agrees {source : Text} {edits : List (Span × Plan)} (h : ApartEdits source edits)
    (definition? : Option Bool) (hline : definition?.isSome → source.head? = some '#' →
      ∃ n, firstLineLength source = some n ∧ ∀ e ∈ edits, n ≤ e.1.start) (fileName : Text) :
    ∃ after result code map segments,
      (ofSource source).applyAll edits = some after ∧
      definition?.elim (some after) after.insertPreamble = some result ∧
      result.finish fileName true = some ⟨code, some map⟩ ∧ readMap? map = some segments ∧
      Agrees source code (definitionEdits source definition? ++ replacements edits) segments := by
  obtain ⟨after, hfold, htracked, hedited⟩ := exists_tracked h
  suffices hresult : ∃ result, definition?.elim (some after) after.insertPreamble = some result ∧
      Tracked source (definitionEdits source definition? ++ replacements edits) result by
    obtain ⟨result, hresult, htracked⟩ := hresult
    obtain ⟨code, map, segments, hfinish, hread, hagrees⟩ := htracked.finish fileName
    exact ⟨after, result, code, map, segments, hfold, hresult, hfinish, hread, hagrees⟩
  cases definition? with
  | none => exact ⟨after, rfl, htracked⟩
  | some rewriteBuiltins =>
    have hsource := htracked.source_eq
    by_cases hhash : source.head? = some '#'
    · obtain ⟨n, hn, hbehind⟩ := hline rfl hhash
      obtain ⟨hpos, line, body, hs, rfl⟩ := firstLine_boundary hn
      obtain ⟨all, hafter, hperm⟩ := hedited (by rintro rfl; cases hhash)
      obtain ⟨buffer, hinsert, hresult⟩ :=
        tracked_insertBehind h hafter hperm hs hpos hbehind (preamble rewriteBuiltins)
      refine ⟨_, ?_, by simpa [definitionEdits, hhash, hn] using hresult⟩
      simp [insertPreamble, hsource, hhash, hn, hinsert]
    · refine ⟨_, ?_, by simpa [definitionEdits, hhash] using htracked.prepend (preamble rewriteBuiltins)⟩
      simp [insertPreamble, hsource, hhash]

/-- Characters of two bytes and of two columns in front of a call, on the line of an import. -/
theorem map_agrees_wideCharacters :
    let source : Text := "#!x\nimport 'a';é𝄞f()\n"
    let edits : List (Span × Plan) := [(⟨4, 15⟩, .bareRequire "a")]
    ApartEdits source edits ∧ (∃ n, firstLineLength source = some n ∧ ∀ e ∈ edits, n ≤ e.1.start) ∧
      ∃ after result code map segments, (ofSource source).applyAll edits = some after ∧
        after.insertPreamble true = some result ∧ result.finish "a.js" true = some ⟨code, some map⟩ ∧
        (∃ behind, code = "#!x\n".toList ++ builtinPreamble ++ "__cjs_require(\"a\");é𝄞".toList ++ 'f' :: behind) ∧
        readMap? map = some segments ∧ lookup? segments ⟨2, 22⟩ = some ⟨1, 14⟩ := by
  intro source edits
  have hboundary : ∀ n, source.Boundary (Text.byteLength (source.take n)) := fun n =>
    ⟨source.take n, source.drop n, (List.take_append_drop n source).symm, rfl⟩
  have hapart : ApartEdits source edits := {
    nonempty := by simp [edits]
    starts := List.forall_mem_singleton.2 (hboundary 4)
    stops := List.forall_mem_singleton.2 (hboundary 15)
    apart := by simp [edits] }
  have hline : ∃ n, firstLineLength source = some n ∧ ∀ e ∈ edits, n ≤ e.1.start := ⟨4, rfl, by simp [edits]⟩
  obtain ⟨after, result, code, map, segments, hfold, hinsert, hfinish, hread, hagrees⟩ :=
    map_agrees hapart (some true) (fun _ _ => hline) "a.js"
  have hsource : source = "#!x\nimport 'a';é𝄞".toList ++ 'f' :: "()\n".toList := by decide
  have hfree : Untaken (definitionEdits source (some true) ++ replacements edits)
      (Text.byteLength "#!x\nimport 'a';é𝄞".toList) := by
    unfold Untaken
    decide
  have hbefore : textBefore (definitionEdits source (some true) ++ replacements edits) "#!x\nimport 'a';é𝄞".toList =
      "#!x\n".toList ++ builtinPreamble ++ "__cjs_require(\"a\");é𝄞".toList := by decide +kernel
  have hkept := hagrees.kept _ _ _ hsource hfree
  have hleads := hagrees.leadsBack _ _ _ hsource (by decide) hfree
  rw [hbefore] at hkept hleads
  exact ⟨hapart, hline, after, result, code, map, segments, hfold, hinsert, hfinish, hkept, hread, hleads⟩

end Rewriting

end CjsInterop
