import CjsInterop.Proofs.Splicing

/-! Edits of stretches that share nothing may be made in any order: the chunk is the source with each stretch
exchanged for its new text, and everything between the stretches kept where it is. -/

namespace CjsInterop

/-- Byte `i` is the first of a character, or the end. -/
def Text.Boundary (text : Text) (i : Nat) : Prop :=
  ∃ front rest, text = front ++ rest ∧ Text.byteLength front = i

def Span.Apart (a b : Span) : Prop := a.stop ≤ b.start ∨ b.stop ≤ a.start

/-- Each stretch is made of characters of the source, at least one, and no two have one in common. -/
structure ApartEdits (source : Text) (edits : List (Span × Plan)) : Prop where
  nonempty : ∀ e ∈ edits, e.1.start < e.1.stop
  starts : ∀ e ∈ edits, source.Boundary e.1.start
  stops : ∀ e ∈ edits, source.Boundary e.1.stop
  apart : edits.Pairwise fun a b => a.1.Apart b.1

theorem Span.Apart.symm {a b : Span} (h : a.Apart b) : b.Apart a := Or.symm h

theorem Text.Boundary.le {text : Text} {i : Nat} (h : text.Boundary i) : i ≤ Text.byteLength text := by
  obtain ⟨front, rest, rfl, rfl⟩ := h
  simp

/-- Two boundaries of a text have a stretch of it between them. -/
theorem Text.Boundary.between {front rest : Text} {i : Nat} (h : (front ++ rest).Boundary i)
    (hi : Text.byteLength front ≤ i) :
    ∃ gap more, rest = gap ++ more ∧ Text.byteLength front + Text.byteLength gap = i := by
  obtain ⟨a, b, hab, rfl⟩ := h
  rcases List.append_eq_append_iff.1 hab with ⟨gap, rfl, rfl⟩ | ⟨gap, rfl, rfl⟩
  · exact ⟨gap, b, rfl, by simp⟩
  · have hgap : gap = [] := by
      by_contra hne
      have hpos := Text.byteLength_pos hne
      rw [Text.byteLength_append] at hi
      omega
    exact ⟨[], rest, rfl, by simp [hgap]⟩

theorem ApartEdits.tail {source : Text} {edit : Span × Plan} {edits : List (Span × Plan)}
    (h : ApartEdits source (edit :: edits)) : ApartEdits source edits where
  nonempty e he := h.nonempty e (List.mem_cons_of_mem _ he)
  starts e he := h.starts e (List.mem_cons_of_mem _ he)
  stops e he := h.stops e (List.mem_cons_of_mem _ he)
  apart := (List.pairwise_cons.1 h.apart).2

theorem ApartEdits.perm {source : Text} {edits other : List (Span × Plan)} (h : ApartEdits source edits)
    (hp : other.Perm edits) : ApartEdits source other where
  nonempty e he := h.nonempty e (hp.mem_iff.1 he)
  starts e he := h.starts e (hp.mem_iff.1 he)
  stops e he := h.stops e (hp.mem_iff.1 he)
  apart := hp.symm.pairwise h.apart fun hab => hab.symm

namespace Buffer

/-! ## The pieces after some edits -/

/-- New texts in the order of their stretches, which lie between byte `start` and byte `size`. -/
inductive InOrder (size : Nat) : (start : Nat) → List (Span × Text) → Prop
  | done {start : Nat} (h : start ≤ size) : InOrder size start []
  | edit {start : Nat} {span : Span} {text : Text} {edits : List (Span × Text)} (hs : start ≤ span.start)
      (hlt : span.start < span.stop) (h : InOrder size span.stop edits) : InOrder size start ((span, text) :: edits)

/-- The pieces from byte `start` to byte `size` with the edits made: nobody touched what is between them. -/
def layout (size : Nat) : (start : Nat) → List (Span × Text) → List Piece
  | start, [] => untouched start size
  | start, (span, text) :: edits =>
    untouched start span.start ++ ⟨span.start, span.stop, some text, []⟩ :: layout size span.stop edits

theorem InOrder.tiled {size start : Nat} {edits : List (Span × Text)} (h : InOrder size start edits) :
    Tiled start size (layout size start edits) := by
  induction h with
  | done h => exact tiled_untouched h
  | @edit start span text edits hs hlt _ ih =>
    exact (tiled_untouched hs).append (@Tiled.piece _ ⟨span.start, span.stop, some text, []⟩ _ hlt ih)

theorem InOrder.bounds {size start : Nat} {edits : List (Span × Text)} (h : InOrder size start edits) :
    ∀ e ∈ edits, start ≤ e.1.start ∧ e.1.start < e.1.stop := by
  induction h with
  | done => simp
  | @edit start span text edits hs hlt _ ih =>
    intro e he
    rcases List.mem_cons.1 he with rfl | he
    · exact ⟨hs, hlt⟩
    · have hb := ih e he
      exact ⟨by omega, hb.2⟩

theorem InOrder.pairwise {size start : Nat} {edits : List (Span × Text)} (h : InOrder size start edits) :
    edits.Pairwise fun a b => a.1.start < b.1.start := by
  induction h with
  | done => exact .nil
  | @edit start span text edits hs hlt h ih =>
    refine List.pairwise_cons.2 ⟨fun e he => ?_, ih⟩
    have hb := h.bounds e he
    dsimp only
    omega

/-- The order is all that the stretches leave open. -/
theorem InOrder.unique {size start : Nat} {edits other : List (Span × Text)} (h : InOrder size start edits)
    (ho : InOrder size start other) (hp : edits.Perm other) : edits = other :=
  hp.eq_of_pairwise (fun a b _ _ hab hba => by omega) h.pairwise ho.pairwise

/-- There is one place for a stretch among edits that it shares nothing with: there the source is untouched, and
nothing else is different once it has been replaced. -/
theorem InOrder.insert {size start : Nat} {edits : List (Span × Text)} {span : Span} (text : Text)
    (h : InOrder size start edits) (hs : start ≤ span.start) (hlt : span.start < span.stop) (hle : span.stop ≤ size)
    (ha : ∀ e ∈ edits, span.Apart e.1) :
    ∃ more done later left right, more.Perm ((span, text) :: edits) ∧ InOrder size start more ∧
      Tiled start left done ∧ Tiled right size later ∧ left ≤ span.start ∧ span.stop ≤ right ∧
      layout size start edits = done ++ untouched left right ++ later ∧
      layout size start more = done ++ untouched left span.start ++ [⟨span.start, span.stop, some text, []⟩] ++
        (untouched span.stop right ++ later) := by
  induction h with
  | @done start hsize =>
    exact ⟨[(span, text)], [], [], start, size, .refl _, .edit hs hlt (.done hle), .done, .done, hs, hle,
      by simp [layout], by simp [layout]⟩
  | @edit start first new edits hfirst hpos h ih =>
    rcases ha _ List.mem_cons_self with hbefore | hbehind
    · have hlater : Tiled first.start size (⟨first.start, first.stop, some new, []⟩ :: layout size first.stop edits) :=
        @Tiled.piece _ ⟨first.start, first.stop, some new, []⟩ _ hpos h.tiled
      exact ⟨(span, text) :: (first, new) :: edits, [], _, start, first.start, .refl _,
        .edit hs hlt (.edit hbefore hpos h), .done, hlater, hs, hbefore, by simp [layout], by simp [layout]⟩
    · obtain ⟨more, done, later, left, right, hperm, hmore, hdone, hlater, hleft, hright, hedits, hall⟩ :=
        ih hbehind fun e he => ha e (List.mem_cons_of_mem _ he)
      have hdone' : Tiled start left
          (untouched start first.start ++ ⟨first.start, first.stop, some new, []⟩ :: done) :=
        (tiled_untouched hfirst).append (@Tiled.piece _ ⟨first.start, first.stop, some new, []⟩ _ hpos hdone)
      exact ⟨(first, new) :: more, _, later, left, right, (hperm.cons _).trans (.swap _ _ _),
        .edit hfirst hpos hmore, hdone', hlater, hleft, hright, by simp [layout, hedits], by simp [layout, hall]⟩

/-- One more stretch replaced. -/
theorem replace_layout {buffer : Buffer} {edits : List (Span × Text)} {span : Span} (text : Text) (clear : Bool)
    (h : InOrder (Text.byteLength buffer.source) 0 edits)
    (hp : buffer.pieces = layout (Text.byteLength buffer.source) 0 edits) (hlt : span.start < span.stop)
    (hle : span.stop ≤ Text.byteLength buffer.source) (ha : ∀ e ∈ edits, span.Apart e.1) :
    ∃ more, more.Perm ((span, text) :: edits) ∧ InOrder (Text.byteLength buffer.source) 0 more ∧
      buffer.replace span text clear =
        some { buffer with pieces := layout (Text.byteLength buffer.source) 0 more } := by
  obtain ⟨more, done, later, left, right, hperm, hmore, hdone, hlater, hleft, hright, hedits, hall⟩ :=
    h.insert text (Nat.zero_le _) hlt hle ha
  refine ⟨more, hperm, hmore, ?_⟩
  rw [replace_untouched rfl hdone hlater (hp.trans hedits) hleft hlt hright, hall]

end Buffer

namespace Rewriting

open Buffer

/-! ## Edits one after another -/

def applyAll (r : Rewriting) (edits : List (Span × Plan)) : Option Rewriting :=
  edits.foldlM (fun r (span, plan) => r.apply span plan) r

@[simp]
theorem applyAll_nil (r : Rewriting) : r.applyAll [] = some r := rfl

theorem applyAll_cons (r : Rewriting) (span : Span) (plan : Plan) (edits : List (Span × Plan)) :
    r.applyAll ((span, plan) :: edits) = (r.apply span plan).bind fun after => after.applyAll edits :=
  List.foldlM_cons

/-- A chunk with some edits made, each known by its stretch and its new text. -/
structure Edited (source : Text) (edits : List (Span × Text)) (r : Rewriting) : Prop where
  order : InOrder (Text.byteLength source) 0 edits
  buffer_eq : r.buffer = ⟨source, layout (Text.byteLength source) 0 edits, [], []⟩

theorem edited_ofSource {source : Text} (h : source ≠ []) : Edited source [] (ofSource source) := by
  have hpos := Text.byteLength_pos h
  exact ⟨.done (Nat.zero_le _), by simp [ofSource, Buffer.ofSource, layout, untouched, hpos]⟩

/-- Chunks with the same edits made are the same text under edit. -/
theorem Edited.buffer_unique {source : Text} {edits other : List (Span × Text)} {r s : Rewriting}
    (h : Edited source edits r) (ho : Edited source other s) (hp : edits.Perm other) : r.buffer = s.buffer := by
  rw [h.buffer_eq, ho.buffer_eq, h.order.unique ho.order hp]

theorem Edited.apply {source : Text} {edits : List (Span × Text)} {r : Rewriting} {span : Span} (plan : Plan)
    (h : Edited source edits r) (hlt : span.start < span.stop) (hle : span.stop ≤ Text.byteLength source)
    (ha : ∀ e ∈ edits, span.Apart e.1) :
    ∃ after more, r.apply span plan = some after ∧ more.Perm ((span, plan.text) :: edits) ∧
      Edited source more after ∧ after.usesRequire = (r.usesRequire || plan.usesRequire) ∧ after.changed = true := by
  obtain ⟨horder, hbuffer⟩ := h
  have hsource : r.buffer.source = source := by rw [hbuffer]
  have hpieces : r.buffer.pieces = layout (Text.byteLength source) 0 edits := by rw [hbuffer]
  subst hsource
  obtain ⟨more, hperm, hmore, hreplace⟩ :=
    replace_layout plan.text plan.render.isNone horder hpieces hlt hle ha
  rw [apply_eq, hreplace]
  exact ⟨_, more, rfl, hperm, ⟨hmore, by rw [hbuffer]⟩, rfl, rfl⟩

theorem Edited.edits {source : Text} {edits : List (Span × Plan)} {made : List (Span × Text)} {r : Rewriting}
    (h : Edited source made r) (he : ApartEdits source edits)
    (ha : ∀ e ∈ edits, ∀ m ∈ made, e.1.Apart m.1) :
    ∃ after all, r.applyAll edits = some after ∧
      all.Perm (replacements edits ++ made) ∧ Edited source all after ∧
      after.usesRequire = (r.usesRequire || edits.any fun e => e.2.usesRequire) ∧
      after.changed = (r.changed || !edits.isEmpty) := by
  induction edits generalizing r made with
  | nil => exact ⟨r, made, rfl, .refl _, h, by simp, by simp⟩
  | cons edit edits ih =>
    obtain ⟨span, plan⟩ := edit
    have hedits := he.tail
    have hfirst := (List.pairwise_cons.1 he.apart).1
    obtain ⟨middle, more, happly, hperm, hmiddle, hrequire, hchanged⟩ :=
      h.apply plan (he.nonempty _ List.mem_cons_self) (he.stops _ List.mem_cons_self).le (ha _ List.mem_cons_self)
    have hmore : ∀ e ∈ edits, ∀ m ∈ more, e.1.Apart m.1 := by
      intro e hmem m hm
      rcases List.mem_cons.1 (hperm.mem_iff.1 hm) with rfl | hm
      · exact (hfirst e hmem).symm
      · exact ha e (List.mem_cons_of_mem _ hmem) m hm
    obtain ⟨after, all, hfold, hall, hafter, hrequire', hchanged'⟩ := ih hmiddle hedits hmore
    refine ⟨after, all, by simp [applyAll_cons, happly, hfold], ?_, hafter, ?_, ?_⟩
    · exact hall.trans ((hperm.append_left _).trans List.perm_middle)
    · simp [hrequire', hrequire, Bool.or_assoc]
    · simp [hchanged', hchanged]

end Rewriting

/-! ## The source with its stretches exchanged -/

/-- The new texts of the stretches that begin at byte `i`. -/
def newAt (edits : List (Span × Text)) (i : Nat) : Text :=
  (edits.filter fun e => e.1.start = i).flatMap Prod.snd

/-- What becomes of a text that begins at byte `i` of a source: where a stretch begins its new text stands, and a
character is kept if it is in no stretch. -/
def exchanged (edits : List (Span × Text)) : (i : Nat) → Text → Text
  | _, [] => []
  | i, c :: text =>
    newAt edits i ++ (if ∃ e ∈ edits, e.1.start ≤ i ∧ i < e.1.stop then [] else [c]) ++
      exchanged edits (i + c.utf8Size) text

theorem exchanged_append (edits : List (Span × Text)) (i : Nat) (a b : Text) :
    exchanged edits i (a ++ b) = exchanged edits i a ++ exchanged edits (i + Text.byteLength a) b := by
  induction a generalizing i with
  | nil => simp [exchanged]
  | cons c a ih => simp [exchanged, ih, Text.byteLength, Nat.add_assoc]

theorem newAt_eq_nil {edits : List (Span × Text)} {i : Nat} (h : ∀ e ∈ edits, e.1.start ≠ i) : newAt edits i = [] := by
  have hnone : (edits.filter fun e => e.1.start = i) = [] := by
    rw [List.filter_eq_nil_iff]
    intro e he
    simp [h e he]
  rw [newAt, hnone, List.flatMap_nil]

theorem newAt_eq {edits : List (Span × Text)} {span : Span} {text : Text} (hmem : (span, text) ∈ edits)
    (h : edits.Pairwise fun a b => a.1.start ≠ b.1.start) : newAt edits span.start = text := by
  obtain ⟨l, r, rfl⟩ := List.append_of_mem hmem
  obtain ⟨-, hr, hl⟩ := List.pairwise_append.1 h
  have hleft : newAt l span.start = [] := newAt_eq_nil fun e he => hl e he _ List.mem_cons_self
  have hright : newAt r span.start = [] := newAt_eq_nil fun e he => ((List.pairwise_cons.1 hr).1 e he).symm
  simp only [newAt, List.filter_append, List.flatMap_append] at hleft hright ⊢
  simp [hleft, hright]

/-- Nothing happens to what is between the stretches. -/
theorem exchanged_gap {edits : List (Span × Text)} {i : Nat} {gap : Text} (hpos : ∀ e ∈ edits, e.1.start < e.1.stop)
    (h : ∀ e ∈ edits, e.1.stop ≤ i ∨ i + Text.byteLength gap ≤ e.1.start) : exchanged edits i gap = gap := by
  induction gap generalizing i with
  | nil => rfl
  | cons c gap ih =>
    have hc := Char.utf8Size_pos c
    have hkeep : ¬∃ e ∈ edits, e.1.start ≤ i ∧ i < e.1.stop := by
      rintro ⟨e, he, hs, ht⟩
      have := h e he
      simp only [Text.byteLength] at this
      omega
    have hnew : newAt edits i = [] := newAt_eq_nil fun e he hs => hkeep ⟨e, he, by omega, hs ▸ hpos e he⟩
    have hmore : exchanged edits (i + c.utf8Size) gap = gap := ih fun e he => by
      have := h e he
      simp only [Text.byteLength] at this
      omega
    rw [exchanged, hnew, if_neg hkeep, hmore]
    rfl

/-- Nothing is left of the inside of a stretch. -/
theorem exchanged_inside {edits : List (Span × Text)} {edit : Span × Text} {i : Nat} {text : Text} (hmem : edit ∈ edits)
    (hs : edit.1.start ≤ i) (ht : i + Text.byteLength text ≤ edit.1.stop)
    (h : ∀ e ∈ edits, e.1.start < i ∨ edit.1.stop ≤ e.1.start) : exchanged edits i text = [] := by
  induction text generalizing i with
  | nil => rfl
  | cons c text ih =>
    have hc := Char.utf8Size_pos c
    simp only [Text.byteLength] at ht
    have hinside : ∃ e ∈ edits, e.1.start ≤ i ∧ i < e.1.stop := ⟨edit, hmem, hs, by omega⟩
    have hnew : newAt edits i = [] := newAt_eq_nil fun e he => by
      have := h e he
      omega
    have hmore : exchanged edits (i + c.utf8Size) text = [] := ih (by omega) (by omega) fun e he => by
      have := h e he
      omega
    rw [exchanged, hnew, if_pos hinside, hmore]
    rfl

/-- A stretch gives way to its new text. -/
theorem exchanged_stretch {edits : List (Span × Text)} {start stop : Nat} {new body : Text} (hb : body ≠ [])
    (hmem : (⟨start, stop⟩, new) ∈ edits) (hstop : start + Text.byteLength body = stop)
    (hstarts : edits.Pairwise fun a b => a.1.start ≠ b.1.start)
    (h : ∀ e ∈ edits, e.1.start ≤ start ∨ stop ≤ e.1.start) : exchanged edits start body = new := by
  obtain ⟨c, text, rfl⟩ := List.exists_cons_of_ne_nil hb
  have hc := Char.utf8Size_pos c
  simp only [Text.byteLength] at hstop
  have hinside : ∃ e ∈ edits, e.1.start ≤ start ∧ start < e.1.stop := ⟨_, hmem, Nat.le_refl _, by dsimp only; omega⟩
  have hmore : exchanged edits (start + c.utf8Size) text = [] :=
    exchanged_inside hmem (by dsimp only; omega) (by dsimp only; omega) fun e he => by
      have := h e he
      dsimp only
      omega
  rw [exchanged, newAt_eq hmem hstarts, if_pos hinside, hmore]
  simp

namespace Buffer

/-- The next edit: nothing happens in front of its stretch, and the stretch gives way. -/
theorem next_edit {source front rest new : Text} {edits later : List (Span × Text)} {span : Span}
    (hpos : ∀ e ∈ edits, e.1.start < e.1.stop) (hstarts : edits.Pairwise fun a b => a.1.start ≠ b.1.start)
    (hb : ∀ e ∈ edits, source.Boundary e.1.start ∧ source.Boundary e.1.stop) (hs : source = front ++ rest)
    (h : InOrder (Text.byteLength source) (Text.byteLength front) ((span, new) :: later))
    (hmem : ∀ e ∈ (span, new) :: later, e ∈ edits)
    (hpast : ∀ e ∈ edits, e ∈ (span, new) :: later ∨ e.1.stop ≤ Text.byteLength front) :
    ∃ gap body text, rest = gap ++ body ++ text ∧ body ≠ [] ∧ Text.byteLength front + Text.byteLength gap = span.start ∧
      span.start + Text.byteLength body = span.stop ∧
      (∀ x, Text.byteLength front + Text.byteLength x ≤ span.start → exchanged edits (Text.byteLength front) x = x) ∧
      exchanged edits span.start body = new ∧ InOrder (Text.byteLength source) span.stop later ∧
      ∀ e ∈ edits, e ∈ later ∨ e.1.stop ≤ span.stop := by
  obtain ⟨hle, hlt, horder⟩ : Text.byteLength front ≤ span.start ∧ span.start < span.stop ∧
      InOrder (Text.byteLength source) span.stop later := by
    cases h with
    | edit hle hlt h => exact ⟨hle, hlt, h⟩
  have hspan := hmem _ List.mem_cons_self
  have hbehind : ∀ e ∈ edits, e = (span, new) ∨ e.1.stop ≤ Text.byteLength front ∨ span.stop ≤ e.1.start := by
    intro e he
    rcases hpast e he with hlater | hpast
    · rcases List.mem_cons.1 hlater with rfl | hlater
      · exact .inl rfl
      · exact .inr (.inr (horder.bounds e hlater).1)
    · exact .inr (.inl hpast)
  obtain ⟨gap, more, rfl, hgap⟩ := Text.Boundary.between (hs ▸ (hb _ hspan).1) hle
  obtain ⟨body, text, rfl, hbody⟩ : ∃ body text, more = body ++ text ∧
      span.start + Text.byteLength body = span.stop := by
    have hstop : ((front ++ gap) ++ more).Boundary span.stop := by simpa [hs] using (hb _ hspan).2
    obtain ⟨body, text, hmore, hbody⟩ := hstop.between (by simp; omega)
    exact ⟨body, text, hmore, by simpa [hgap] using hbody⟩
  have hne : body ≠ [] := by
    rintro rfl
    simp at hbody
    omega
  refine ⟨gap, body, text, by simp, hne, hgap, hbody, ?_, ?_, horder, ?_⟩
  · refine fun x hx => exchanged_gap hpos fun e he => ?_
    rcases hbehind e he with rfl | hbehind
    · exact .inr hx
    · omega
  · refine exchanged_stretch hne hspan hbody hstarts fun e he => ?_
    rcases hbehind e he with rfl | hbehind
    · exact .inl (Nat.le_refl _)
    · have := hpos e he
      omega
  · intro e he
    rcases hpast e he with hlater | hpast
    · rcases List.mem_cons.1 hlater with rfl | hlater
      · exact .inr (Nat.le_refl _)
      · exact .inl hlater
    · exact .inr (by omega)

/-- The pieces with the edits made hold the source with its stretches exchanged. The edits up to byte `start` are
those that are left out of `later`. -/
theorem holds_layout {source front rest : Text} {edits later : List (Span × Text)}
    (hpos : ∀ e ∈ edits, e.1.start < e.1.stop) (hstarts : edits.Pairwise fun a b => a.1.start ≠ b.1.start)
    (hb : ∀ e ∈ edits, source.Boundary e.1.start ∧ source.Boundary e.1.stop) (hs : source = front ++ rest)
    (h : InOrder (Text.byteLength source) (Text.byteLength front) later) (hmem : ∀ e ∈ later, e ∈ edits)
    (hpast : ∀ e ∈ edits, e ∈ later ∨ e.1.stop ≤ Text.byteLength front) :
    Holds source (layout (Text.byteLength source) (Text.byteLength front) later)
      (exchanged edits (Text.byteLength front) rest) := by
  induction later generalizing front rest with
  | nil =>
    have hgap : exchanged edits (Text.byteLength front) rest = rest :=
      exchanged_gap hpos fun e he => .inl ((hpast e he).resolve_left List.not_mem_nil)
    have hsize : Text.byteLength source = Text.byteLength front + Text.byteLength rest := by simp [hs]
    rw [hgap, layout, hsize]
    exact @holds_untouched source front rest [] (by simpa using hs)
  | cons edit later ih =>
    obtain ⟨span, new⟩ := edit
    obtain ⟨gap, body, text, rfl, -, hgap, hbody, hkept, hnew, h, hpast⟩ :=
      next_edit hpos hstarts hb hs h hmem hpast
    have hfront : Text.byteLength (front ++ gap ++ body) = span.stop := by simp only [Text.byteLength_append]; omega
    have htail : Holds source (layout (Text.byteLength source) span.stop later) (exchanged edits span.stop text) := by
      rw [← hfront] at h hpast ⊢
      exact ih (by simp [hs]) h (fun e he => hmem e (List.mem_cons_of_mem _ he)) hpast
    have hgap' : Holds source (untouched (Text.byteLength front) span.start) gap := by
      rw [← hgap]
      exact @holds_untouched source front gap (body ++ text) (by simpa using hs)
    have hnew' : Holds source [⟨span.start, span.stop, some new, []⟩] new := by
      rw [← hgap, ← Text.byteLength_append]
      exact @holds_replaced source (front ++ gap) (body ++ text) (by simpa using hs) _ _
    rw [exchanged_append, exchanged_append, Text.byteLength_append, ← Nat.add_assoc, hgap, hbody, hkept gap hgap.le, hnew,
      layout]
    simpa using (hgap'.append hnew').append htail

end Buffer

namespace Rewriting

open Buffer

/-! ## The whole of a rewriting -/

theorem replacements_starts {source : Text} {edits : List (Span × Plan)} (h : ApartEdits source edits) :
    (replacements edits).Pairwise fun a b => a.1.start ≠ b.1.start := by
  refine List.pairwise_map.2 (h.apart.imp_of_mem fun {a b} ha hb hab (he : a.1.start = b.1.start) => ?_)
  have ha := h.nonempty a ha
  have hb := h.nonempty b hb
  rcases hab with hab | hab <;> omega

theorem eq_nil_of_apart {edits : List (Span × Plan)} (h : ApartEdits [] edits) : edits = [] := by
  refine List.eq_nil_iff_forall_not_mem.2 fun e he => ?_
  have hlt := h.nonempty e he
  have hle := (h.stops e he).le
  rw [Text.byteLength_nil] at hle
  omega

/-- A source before any edit holds itself. -/
theorem holds_ofSource (source : Text) : Holds source (ofSource source).buffer.pieces source := by
  by_cases h : source = []
  · subst h
    exact ⟨[⟨0, true, [], []⟩], rfl, rfl, by simp⟩
  · have hpos := Text.byteLength_pos h
    have hheld := @holds_untouched source [] source [] (by simp)
    simpa [ofSource, Buffer.ofSource, untouched, hpos] using hheld

/-- Every one of the edits can be made, and then the pieces hold the source with its stretches exchanged. -/
theorem edits_made {source : Text} {edits : List (Span × Plan)} (h : ApartEdits source edits) :
    ∃ after, (ofSource source).applyAll edits = some after ∧
      after.buffer.source = source ∧ after.buffer.before = [] ∧ after.buffer.after = [] ∧
      Holds source after.buffer.pieces (exchanged (replacements edits) 0 source) ∧
      after.usesRequire = (edits.any fun e => e.2.usesRequire) ∧ after.changed = !edits.isEmpty := by
  by_cases hne : source = []
  · subst hne
    obtain rfl := eq_nil_of_apart h
    exact ⟨ofSource [], rfl, rfl, rfl, rfl, holds_ofSource [], rfl, rfl⟩
  · obtain ⟨after, all, hfold, hperm, hafter, hrequire, hchanged⟩ :=
      (edited_ofSource hne).edits h fun _ _ _ hm => absurd hm List.not_mem_nil
    rw [List.append_nil] at hperm
    have hplan : ∀ e ∈ replacements edits, ∃ plan, (e.1, plan) ∈ edits := by
      intro e he
      obtain ⟨⟨span, plan⟩, hmem, rfl⟩ := List.mem_map.1 he
      exact ⟨plan, hmem⟩
    have hpos : ∀ e ∈ replacements edits, e.1.start < e.1.stop := fun e he =>
      let ⟨_, hmem⟩ := hplan e he
      h.nonempty _ hmem
    have hb : ∀ e ∈ replacements edits, source.Boundary e.1.start ∧ source.Boundary e.1.stop := fun e he =>
      let ⟨_, hmem⟩ := hplan e he
      ⟨h.starts _ hmem, h.stops _ hmem⟩
    have hholds := @holds_layout source [] source _ all hpos (replacements_starts h) hb rfl hafter.order
      (fun e he => hperm.mem_iff.1 he) fun e he => .inl (hperm.mem_iff.2 he)
    refine ⟨after, hfold, ?_, ?_, ?_, ?_, hrequire, hchanged⟩ <;> rw [hafter.buffer_eq]
    exact hholds

/-- The order does not matter for anything that a chunk under edit knows. -/
theorem edits_perm {source : Text} {edits other : List (Span × Plan)} (h : ApartEdits source edits)
    (hp : other.Perm edits) :
    (ofSource source).applyAll other = (ofSource source).applyAll edits := by
  by_cases hne : source = []
  · subst hne
    obtain rfl := eq_nil_of_apart h
    rw [hp.eq_nil]
  · have hfresh : ∀ edits : List (Span × Plan), ∀ e ∈ edits, ∀ m ∈ ([] : List (Span × Text)), e.1.Apart m.1 :=
      fun _ _ _ _ hm => absurd hm List.not_mem_nil
    obtain ⟨r, all, hfold, hall, hr, hrequire, hchanged⟩ := (edited_ofSource hne).edits h (hfresh edits)
    obtain ⟨s, all', hfold', hall', hs, hrequire', hchanged'⟩ :=
      (edited_ofSource hne).edits (h.perm hp) (hfresh other)
    have hsame : all'.Perm all := by
      rw [List.append_nil] at hall hall'
      exact hall'.trans ((hp.map _).trans hall.symm)
    have hbuffer : s.buffer = r.buffer := hs.buffer_unique hr hsame
    have hany : (other.any fun e => e.2.usesRequire) = edits.any fun e => e.2.usesRequire := by
      rw [Bool.eq_iff_iff, List.any_eq_true, List.any_eq_true]
      simp only [hp.mem_iff]
    have hempty : other.isEmpty = edits.isEmpty := by
      rw [Bool.eq_iff_iff, List.isEmpty_iff, List.isEmpty_iff, ← List.length_eq_zero_iff, hp.length_eq,
        List.length_eq_zero_iff]
    have hrequires : s.usesRequire = r.usesRequire := by rw [hrequire', hrequire, hany]
    have hchanges : s.changed = r.changed := by rw [hchanged', hchanged, hempty]
    rw [hfold, hfold']
    obtain ⟨rb, rr, rc⟩ := r
    obtain ⟨sb, sr, sc⟩ := s
    cases hbuffer
    cases hrequires
    cases hchanges
    rfl

/-- Edits of stretches that share nothing, made in any order, and then perhaps a definition in front of them. -/
theorem edits_exchange {source : Text} {edits : List (Span × Plan)} (h : ApartEdits source edits)
    (hhash : source.head? ≠ some '#') (definition? : Option Bool) (fileName : Text) (wantMap : Bool) :
    ∃ after result map,
      (∀ other : List (Span × Plan), other.Perm edits → (ofSource source).applyAll other = some after) ∧
      definition?.elim (some after) after.insertPreamble = some result ∧
      result.usesRequire = (edits.any fun e => e.2.usesRequire) ∧
      (result.changed ↔ edits ≠ [] ∨ definition?.isSome) ∧
      result.finish fileName wantMap =
        some ⟨definition?.elim [] preamble ++ exchanged (replacements edits) 0 source, map⟩ := by
  obtain ⟨after, hfold, hsource, hbefore, hafter, hholds, hrequire, hchanged⟩ := edits_made h
  have hany : ∀ other : List (Span × Plan), other.Perm edits → (ofSource source).applyAll other = some after :=
    fun other hp => (edits_perm h hp).trans hfold
  rw [← hsource] at hholds
  cases definition? with
  | none =>
    obtain ⟨map, hfinish⟩ := finish_eq hholds fileName wantMap
    refine ⟨after, after, map, hany, rfl, hrequire, by simp [hchanged], ?_⟩
    rw [hfinish, hbefore, hafter, hsource]
    simp
  | some rewriteBuiltins =>
    let result : Rewriting := { after with buffer := after.buffer.prepend (preamble rewriteBuiltins), changed := true }
    have hinsert : after.insertPreamble rewriteBuiltins = some result := by
      simp [insertPreamble, hsource, hhash, result]
    obtain ⟨map, hfinish⟩ := finish_eq (r := result) hholds fileName wantMap
    refine ⟨after, result, map, hany, hinsert, hrequire, by simp [result], ?_⟩
    rw [hfinish]
    simp [result, Buffer.prepend, hbefore, hafter, hsource]

/-- Two imports side by side, the later one first. -/
theorem edits_exchange_adjacent :
    let source : Text := "import 'a';import 'b';é\n"
    let edits : List (Span × Plan) := [(⟨11, 22⟩, .bareRequire "b"), (⟨0, 11⟩, .remove)]
    ApartEdits source edits ∧ source.head? ≠ some '#' ∧ ∃ after result map,
      (ofSource source).applyAll edits.reverse = some after ∧ after.insertPreamble true = some result ∧
      result.changed ∧
      result.finish "a.js" true = some ⟨builtinPreamble ++ ("__cjs_require(\"b\");é\n" : String).toList, map⟩ := by
  intro source edits
  have hboundary : ∀ n, source.Boundary (Text.byteLength (source.take n)) := fun n =>
    ⟨source.take n, source.drop n, (List.take_append_drop n source).symm, rfl⟩
  have hapart : ApartEdits source edits := {
    nonempty := by simp [edits]
    starts := by simpa [edits] using ⟨hboundary 11, hboundary 0⟩
    stops := by simpa [edits] using ⟨hboundary 22, hboundary 11⟩
    apart := by simp [edits, Span.Apart] }
  have hhash : source.head? ≠ some '#' := by decide
  obtain ⟨after, result, map, hany, hinsert, -, hchanged, hfinish⟩ := edits_exchange hapart hhash (some true) "a.js" true
  have hcode : exchanged (replacements edits) 0 source = "__cjs_require(\"b\");é\n".toList := by decide
  exact ⟨hapart, hhash, after, result, map, hany _ edits.reverse_perm, hinsert, hchanged.2 (.inr rfl),
    by rw [hfinish, hcode]; rfl⟩

end Rewriting

end CjsInterop
