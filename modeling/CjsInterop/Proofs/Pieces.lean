import CjsInterop.Proofs.ItemOrder
import CjsInterop.Rewrite.Buffer

/-! The pieces of a buffer tile its source, so that a cut finds the piece that it falls into, and a stretch
that is replaced is a piece of its own. -/

namespace CjsInterop

namespace Text

theorem splitAtByte?_append (a b : Text) : splitAtByte? (byteLength a) (a ++ b) = some (a, b) := by
  induction a with
  | nil => simp [splitAtByte?]
  | cons c a ih =>
    have hc := Char.utf8Size_pos c
    obtain ⟨n, hn⟩ : ∃ n, byteLength (c :: a) = n + 1 := ⟨byteLength (c :: a) - 1, by
      simp only [byteLength]
      omega⟩
    have hle : c.utf8Size ≤ n + 1 := by
      simp only [← hn, byteLength]
      omega
    have hsub : n + 1 - c.utf8Size = byteLength a := by
      simp only [← hn, byteLength]
      omega
    rw [hn, List.cons_append, splitAtByte?, if_pos hle, hsub, ih]
    rfl

end Text

namespace Buffer

/-- Pieces that follow each other from one byte to another. -/
inductive Tiled : (start stop : Nat) → List Piece → Prop
  | done {stop : Nat} : Tiled stop stop []
  | piece {stop : Nat} {piece : Piece} {pieces : List Piece} (hp : piece.start < piece.stop) :
      Tiled piece.stop stop pieces → Tiled piece.start stop (piece :: pieces)

theorem Tiled.append {a b c : Nat} {l r : List Piece} (hl : Tiled a b l) (hr : Tiled b c r) :
    Tiled a c (l ++ r) := by
  induction hl with
  | done => exact hr
  | piece hp _ ih => exact .piece hp (ih hr)

theorem Tiled.le {a b : Nat} {l : List Piece} (h : Tiled a b l) : a ≤ b := by
  induction h with
  | done => exact Nat.le_refl _
  | piece hp _ ih => omega

theorem Tiled.mem {a b : Nat} {l : List Piece} (h : Tiled a b l) :
    ∀ p ∈ l, a ≤ p.start ∧ p.start < p.stop ∧ p.stop ≤ b := by
  induction h with
  | done => simp
  | @piece stop piece pieces hp ht ih =>
    have hle := ht.le
    intro p hmem
    rcases List.mem_cons.1 hmem with rfl | hmem
    · exact ⟨Nat.le_refl _, hp, hle⟩
    · obtain ⟨h, hlt, hstop⟩ := ih p hmem
      exact ⟨by omega, hlt, hstop⟩

/-- What is left of a source from byte `start` to byte `stop`, as at most one piece. -/
def untouched (start stop : Nat) : List Piece :=
  if start < stop then [⟨start, stop, none, []⟩] else []

@[simp]
theorem untouched_self (stop : Nat) : untouched stop stop = [] := by
  simp [untouched]

theorem tiled_untouched {start stop : Nat} (h : start ≤ stop) : Tiled start stop (untouched start stop) := by
  unfold untouched
  split
  · next hlt => exact @Tiled.piece stop ⟨start, stop, none, []⟩ [] hlt .done
  · obtain rfl : start = stop := by omega
    exact .done

theorem after_untouched {start stop : Nat} : ∀ p ∈ untouched start stop, p.after = [] := by
  unfold untouched
  split <;> simp

/-- The stretches that gave way to other texts. -/
def replacedSpans (pieces : List Piece) : List Span :=
  (pieces.filter fun p => p.replacement.isSome).map fun p => ⟨p.start, p.stop⟩

@[simp]
theorem replacedSpans_append (l r : List Piece) : replacedSpans (l ++ r) = replacedSpans l ++ replacedSpans r := by
  simp [replacedSpans]

@[simp]
theorem replacedSpans_untouched (start stop : Nat) : replacedSpans (untouched start stop) = [] := by
  unfold untouched
  split <;> rfl

theorem cut_append {i : Nat} {l r : List Piece} (h : ∀ p ∈ l, p.stop ≤ i) :
    cut i (l ++ r) = (cut i r).map (l ++ ·) := by
  induction l with
  | nil => simp
  | cons p l ih =>
    have hp := h p List.mem_cons_self
    rw [List.cons_append, cut, if_pos hp, ih fun q hq => h q (List.mem_cons_of_mem _ hq), Option.map_map]
    rfl

theorem cut_tiled {i start stop : Nat} {pieces : List Piece} (h : Tiled start stop pieces) (hi : i ≤ start) :
    cut i pieces = some pieces := by
  cases h with
  | done => rfl
  | piece hp _ => rw [cut, if_neg (by omega), if_pos hi]

theorem cut_untouched {start i stop size : Nat} {later : List Piece} (hs : start ≤ i) (hi : i ≤ stop)
    (hlater : Tiled stop size later) :
    cut i (untouched start stop ++ later) = some (untouched start i ++ untouched i stop ++ later) := by
  have hcut := cut_tiled hlater hi
  unfold untouched
  by_cases hsi : start < i
  · by_cases his : i < stop
    · rw [if_pos (by omega), if_pos hsi, if_pos his]
      simp [cut, show ¬stop ≤ i by omega, show ¬i ≤ start by omega]
    · obtain rfl : i = stop := by omega
      simp [cut, hsi, hcut]
  · obtain rfl : start = i := by omega
    by_cases his : start < stop
    · simp [cut, his, show ¬stop ≤ start by omega]
    · simp [his, hcut]

theorem fill_append (span : Span) (text : Text) (clear : Bool) (l r : List Piece) :
    fill span text clear (l ++ r) = fill span text clear l ++ fill span text clear r := by
  induction l with
  | nil => simp [fill]
  | cons p l ih =>
    simp only [List.cons_append, fill, ih]
    split
    · split <;> rfl
    · rfl

theorem fill_outside {span : Span} {text : Text} {clear : Bool} {l : List Piece}
    (h : ∀ p ∈ l, ¬(span.start ≤ p.start ∧ p.stop ≤ span.stop)) : fill span text clear l = l := by
  induction l with
  | nil => rfl
  | cons p l ih =>
    rw [fill, if_neg (h p List.mem_cons_self), ih fun q hq => h q (List.mem_cons_of_mem _ hq)]

/-- A stretch of what nobody has touched yet becomes a piece of its own, and the pieces before and behind it
stay as they are. -/
theorem replace_untouched {buffer : Buffer} {start stop size : Nat} {done later : List Piece} {span : Span}
    {text : Text} {clear : Bool} (hsize : Text.byteLength buffer.source = size) (hdone : Tiled 0 start done)
    (hlater : Tiled stop size later) (hp : buffer.pieces = done ++ untouched start stop ++ later)
    (hs : start ≤ span.start) (hlt : span.start < span.stop) (hle : span.stop ≤ stop) :
    buffer.replace span text clear = some { buffer with
      pieces := done ++ untouched start span.start ++ [⟨span.start, span.stop, some text, []⟩] ++
        (untouched span.stop stop ++ later) } := by
  have hsource : span.stop ≤ size := Nat.le_trans hle hlater.le
  have hrest := (tiled_untouched hle).append hlater
  have hbefore : ∀ p ∈ done ++ untouched start span.start, p.start < p.stop ∧ p.stop ≤ span.start := fun p hmem =>
    ((hdone.append (tiled_untouched hs)).mem p hmem).2
  have hcut₁ : cut span.start buffer.pieces =
      some (done ++ untouched start span.start ++ (untouched span.start stop ++ later)) := by
    rw [hp, List.append_assoc, cut_append fun p hmem => Nat.le_trans (hdone.mem p hmem).2.2 hs,
      cut_untouched hs (by omega) hlater]
    simp
  have hcut₂ : cut span.stop (done ++ untouched start span.start ++ (untouched span.start stop ++ later)) =
      some (done ++ untouched start span.start ++ untouched span.start span.stop ++
        (untouched span.stop stop ++ later)) := by
    rw [cut_append fun p hmem => Nat.le_trans (hbefore p hmem).2 (by omega),
      cut_untouched (by omega) hle hlater]
    simp
  have hkept : fill span text clear (done ++ untouched start span.start) = done ++ untouched start span.start :=
    fill_outside fun p hmem hc => by
      have hb := hbefore p hmem
      omega
  have hfar : fill span text clear (untouched span.stop stop ++ later) = untouched span.stop stop ++ later :=
    fill_outside fun p hmem hc => by
      have hm := hrest.mem p hmem
      omega
  have hnew : fill span text clear (untouched span.start span.stop) = [⟨span.start, span.stop, some text, []⟩] := by
    simp [untouched, hlt, fill]
  simp only [replace, hsize, hlt, hsource, and_self, if_true, hcut₁, hcut₂, Option.bind_eq_bind, Option.bind_some,
    fill_append span text clear (done ++ untouched start span.start ++ untouched span.start span.stop),
    fill_append span text clear (done ++ untouched start span.start), hkept, hnew, hfar]
  rfl

/-! ## What the pieces hold -/

/-- The pieces begin between characters of the source, and together they hold `text`. -/
def Holds (source : Text) (pieces : List Piece) (text : Text) : Prop :=
  ∃ stretches, pieces.mapM (stretchesFrom source) = some stretches ∧
    stretches.flatMap (fun s => s.text ++ s.after) = text ∧
    ∀ s ∈ stretches, ∃ front rest, source = front ++ rest ∧ Text.byteLength front = s.start

variable {source : Text}

theorem Holds.nil : Holds source [] [] := ⟨[], rfl, rfl, by simp⟩

theorem holds_nil_iff {text : Text} : Holds source [] text ↔ text = [] := by
  constructor
  · rintro ⟨stretches, hm, rfl, -⟩
    obtain rfl : [] = stretches := by simpa using hm
    rfl
  · rintro rfl
    exact .nil

theorem Holds.append {l r : List Piece} {a b : Text} (hl : Holds source l a) (hr : Holds source r b) :
    Holds source (l ++ r) (a ++ b) := by
  obtain ⟨ls, hlm, rfl, hlb⟩ := hl
  obtain ⟨rs, hrm, rfl, hrb⟩ := hr
  refine ⟨ls ++ rs, ?_, by simp, ?_⟩
  · simp [List.mapM_append, hlm, hrm]
  · intro s hs
    rcases List.mem_append.1 hs with hs | hs
    · exact hlb s hs
    · exact hrb s hs

theorem holds_untouched {front text rest : Text} (h : source = front ++ text ++ rest) :
    Holds source (untouched (Text.byteLength front) (Text.byteLength front + Text.byteLength text)) text := by
  unfold untouched
  by_cases ht : text = []
  · subst ht
    simpa using Holds.nil
  · have hpos := Text.byteLength_pos ht
    have hstretch : stretchesFrom source
        ⟨Text.byteLength front, Text.byteLength front + Text.byteLength text, none, []⟩ =
        some ⟨Text.byteLength front, true, text, []⟩ := by
      simp only [stretchesFrom, h, List.append_assoc, Text.splitAtByte?_append, Option.bind_eq_bind, Option.bind_some,
        Nat.add_sub_cancel_left]
      rfl
    rw [if_pos (by omega)]
    refine ⟨[⟨Text.byteLength front, true, text, []⟩], by simp [hstretch], by simp, fun s hs => ?_⟩
    obtain rfl := List.mem_singleton.1 hs
    exact ⟨front, text ++ rest, by simpa using h, rfl⟩

theorem holds_replaced {front rest : Text} (h : source = front ++ rest) (stop : Nat) (text : Text) :
    Holds source [⟨Text.byteLength front, stop, some text, []⟩] text := by
  refine ⟨[⟨Text.byteLength front, false, text, []⟩], by simp [stretchesFrom], by simp, fun s hs => ?_⟩
  obtain rfl := List.mem_singleton.1 hs
  exact ⟨front, rest, h, rfl⟩

/-! ## A text added behind a stretch -/

/-- `text` added behind the piece that ends at byte `i`. -/
def addBehind (i : Nat) (text : Text) (pieces : List Piece) : List Piece :=
  pieces.map fun piece => if piece.stop = i then { piece with after := piece.after ++ text } else piece

theorem addBehind_cons (i : Nat) (text : Text) (piece : Piece) (pieces : List Piece) :
    addBehind i text (piece :: pieces) =
      (if piece.stop = i then { piece with after := piece.after ++ text } else piece) :: addBehind i text pieces := rfl

theorem addBehind_tiled {i start stop : Nat} {text : Text} {pieces : List Piece} (h : Tiled start stop pieces)
    (hi : i ≤ start) : addBehind i text pieces = pieces := by
  refine (List.map_congr_left fun p hp => if_neg ?_).trans (List.map_id _)
  have hm := h.mem p hp
  omega

theorem Tiled.eq_nil {stop : Nat} {pieces : List Piece} (h : Tiled stop stop pieces) : pieces = [] := by
  cases h with
  | done => rfl
  | piece hp ht =>
    have := ht.le
    omega

theorem holds_singleton_iff {piece : Piece} {text : Text} : Holds source [piece] text ↔
    ∃ s, stretchesFrom source piece = some s ∧ s.text ++ s.after = text ∧
      ∃ front rest, source = front ++ rest ∧ Text.byteLength front = s.start := by
  constructor
  · rintro ⟨stretches, hm, rfl, hb⟩
    rw [List.mapM_cons] at hm
    obtain ⟨s, hs, hm⟩ := Option.bind_eq_some_iff.1 hm
    obtain rfl := Option.some.inj hm
    exact ⟨s, hs, by simp, hb s List.mem_cons_self⟩
  · rintro ⟨s, hs, rfl, hb⟩
    refine ⟨[s], by simp [hs], by simp, fun t ht => ?_⟩
    obtain rfl := List.mem_singleton.1 ht
    exact hb

theorem Holds.cons_inv {piece : Piece} {pieces : List Piece} {text : Text} (h : Holds source (piece :: pieces) text) :
    ∃ a b, text = a ++ b ∧ Holds source [piece] a ∧ Holds source pieces b := by
  obtain ⟨stretches, hm, rfl, hb⟩ := h
  rw [List.mapM_cons] at hm
  obtain ⟨s, hs, hm⟩ := Option.bind_eq_some_iff.1 hm
  obtain ⟨rest, hrest, he⟩ := Option.bind_eq_some_iff.1 hm
  obtain rfl := Option.some.inj he
  refine ⟨s.text ++ s.after, _, rfl, holds_singleton_iff.2 ⟨s, hs, rfl, hb s List.mem_cons_self⟩, rest, hrest, rfl, ?_⟩
  exact fun t ht => hb t (List.mem_cons_of_mem _ ht)

/-- A piece with a text added behind it. -/
theorem Holds.add {piece : Piece} {a : Text} (h : Holds source [piece] a) (text : Text) :
    Holds source [{ piece with after := piece.after ++ text }] (a ++ text) := by
  obtain ⟨s, hs, rfl, hb⟩ := holds_singleton_iff.1 h
  refine holds_singleton_iff.2 ⟨{ s with after := s.after ++ text }, ?_, by simp, hb⟩
  unfold stretchesFrom at hs ⊢
  cases hr : piece.replacement with
  | some new =>
    simp only [hr] at hs ⊢
    obtain rfl := Option.some.inj hs
    rfl
  | none =>
    simp only [hr, Option.bind_eq_bind, Option.bind_eq_some_iff] at hs ⊢
    obtain ⟨front, hf, back, hk, he⟩ := hs
    obtain rfl := Option.some.inj he
    exact ⟨front, hf, back, hk, rfl⟩

/-- A piece of the source cut in two at a character. -/
theorem Holds.split {piece : Piece} {a front rest : Text} (h : Holds source [piece] a) (hr : piece.replacement = none)
    (hs : source = front ++ rest) (hl : piece.start < Text.byteLength front)
    (hg : Text.byteLength front < piece.stop) :
    ∃ b c, a = b ++ c ∧ Holds source [{ piece with stop := Text.byteLength front, after := [] }] b ∧
      Holds source [{ piece with start := Text.byteLength front }] c := by
  obtain ⟨s, hstretch, rfl, -⟩ := holds_singleton_iff.1 h
  simp only [stretchesFrom, hr, Option.bind_eq_bind, Option.bind_eq_some_iff] at hstretch
  obtain ⟨⟨x, y⟩, hx, ⟨t, z⟩, ht, he⟩ := hstretch
  obtain rfl := Option.some.inj he
  obtain ⟨hxy, hxl⟩ := Text.splitAtByte?_eq_some hx
  obtain ⟨rfl, htl⟩ := Text.splitAtByte?_eq_some ht
  have hpart : ∃ t₁ t₂, t = t₁ ++ t₂ ∧ front = x ++ t₁ ∧ rest = t₂ ++ z := by
    rcases List.append_eq_append_iff.1 (hxy.trans hs) with ⟨t₁, rfl, htz⟩ | ⟨more, rfl, -⟩
    · rcases List.append_eq_append_iff.1 htz with ⟨more, rfl, -⟩ | ⟨t₂, rfl, hrest⟩
      · simp only [Text.byteLength_append] at hg
        omega
      · exact ⟨t₁, t₂, rfl, rfl, hrest⟩
    · rw [Text.byteLength_append] at hxl
      omega
  obtain ⟨t₁, t₂, rfl, rfl, rfl⟩ := hpart
  have hsource : source = x ++ (t₁ ++ (t₂ ++ z)) := by simp [hs]
  rw [Text.byteLength_append] at *
  refine ⟨t₁, t₂ ++ piece.after, by simp, ?_, ?_⟩
  · refine holds_singleton_iff.2 ⟨⟨piece.start, true, t₁, []⟩, ?_, by simp, x, _, hsource, hxl⟩
    simp only [stretchesFrom, hr, Option.bind_eq_bind]
    rw [← hxl, hsource, Text.splitAtByte?_append, Option.bind_some, Nat.add_sub_cancel_left,
      Text.splitAtByte?_append]
    rfl
  · refine holds_singleton_iff.2 ⟨⟨Text.byteLength x + Text.byteLength t₁, true, t₂, piece.after⟩, ?_, rfl, x ++ t₁,
      t₂ ++ z, by simp [hsource], by simp⟩
    have hlen : piece.stop - (Text.byteLength x + Text.byteLength t₁) = Text.byteLength t₂ := by omega
    simp only [stretchesFrom, hr, Option.bind_eq_bind]
    rw [← Text.byteLength_append, hsource, ← List.append_assoc, Text.splitAtByte?_append, Option.bind_some,
      Text.byteLength_append, hlen, Text.splitAtByte?_append]
    rfl

theorem mem_replacedSpans {span : Span} {pieces : List Piece} : span ∈ replacedSpans pieces ↔
    ∃ p ∈ pieces, p.replacement.isSome ∧ (⟨p.start, p.stop⟩ : Span) = span := by
  simp [replacedSpans, and_assoc]

/-- Some stretch that gave way has byte `i` of the source inside. -/
def Torn (i : Nat) (spans : List Span) : Prop :=
  ∃ span ∈ spans, span.start < i ∧ i < span.stop

theorem cut_torn {i start stop : Nat} {pieces : List Piece} (ht : Tiled start stop pieces)
    (h : Torn i (replacedSpans pieces)) : cut i pieces = none := by
  obtain ⟨span, hmem, hl, hg⟩ := h
  obtain ⟨p, hp, hr, rfl⟩ := mem_replacedSpans.1 hmem
  induction ht with
  | done => cases hp
  | @piece stop piece pieces hlt ht ih =>
    rcases List.mem_cons.1 hp with rfl | hp
    · have hg : i < p.stop := hg
      have hl : p.start < i := hl
      rw [cut, if_neg (by omega), if_neg (by omega), if_pos hr]
    · have hm := ht.mem p hp
      have hl : p.start < i := hl
      rw [cut, if_pos (by omega), ih hp (mem_replacedSpans.2 ⟨p, hp, hr, rfl⟩), Option.map_none]

/-- The piece is a part of another one, with nothing behind it or what is behind that one. -/
def PartOf (p q : Piece) : Prop :=
  q.start ≤ p.start ∧ p.replacement = q.replacement ∧ (p.after = [] ∨ p.after = q.after)

/-- Where nothing gave way the pieces fall into those before byte `i` of the source and those behind it. -/
theorem Holds.cut {i start stop : Nat} {pieces : List Piece} {held front rest : Text} (h : Holds source pieces held)
    (ht : Tiled start stop pieces) (hs : source = front ++ rest) (hf : Text.byteLength front = i) (hl : start ≤ i)
    (hg : i ≤ stop) (htorn : ¬Torn i (replacedSpans pieces)) :
    ∃ l r before after, Buffer.cut i pieces = some (l ++ r) ∧ Tiled start i l ∧ Tiled i stop r ∧
      Holds source l before ∧ Holds source r after ∧ held = before ++ after ∧ ∀ p ∈ l, ∃ q ∈ pieces, PartOf p q := by
  induction ht generalizing held with
  | @done stop =>
    obtain rfl : stop = i := by omega
    exact ⟨[], [], [], held, rfl, .done, .done, .nil, h, rfl, nofun⟩
  | @piece stop piece pieces hp ht ih =>
    obtain ⟨a, b, rfl, ha, hb⟩ := h.cons_inv
    rcases Nat.lt_trichotomy i piece.stop with hlt | he | hgt
    · by_cases hstart : i = piece.start
      · subst hstart
        refine ⟨[], piece :: pieces, [], a ++ b, ?_, .done, .piece hp ht, .nil, ha.append hb, rfl, nofun⟩
        rw [Buffer.cut, if_neg (by omega), if_pos (Nat.le_refl _), List.nil_append]
      · -- the byte is inside the first piece
        have hr : piece.replacement = none := by
          by_cases hr : piece.replacement.isSome
          · exact absurd ⟨_, mem_replacedSpans.2 ⟨piece, List.mem_cons_self, hr, rfl⟩, by dsimp only; omega, hlt⟩ htorn
          · simpa using hr
        obtain ⟨b₁, b₂, rfl, h₁, h₂⟩ := ha.split hr hs (by omega) (by omega)
        rw [hf] at h₁ h₂
        refine ⟨[{ piece with stop := i, after := [] }], { piece with start := i } :: pieces, b₁, b₂ ++ b, ?_, ?_, ?_,
          h₁, h₂.append hb, by simp, ?_⟩
        · rw [Buffer.cut, if_neg (by omega), if_neg (by omega), if_neg (by simp [hr])]
          rfl
        · exact @Tiled.piece _ { piece with stop := i, after := [] } [] (show piece.start < i by omega) .done
        · exact @Tiled.piece _ { piece with start := i } pieces hlt ht
        · intro p hmem
          obtain rfl := List.mem_singleton.1 hmem
          exact ⟨piece, List.mem_cons_self, Nat.le_refl _, rfl, .inl rfl⟩
    · subst he
      refine ⟨[piece], pieces, a, b, ?_, @Tiled.piece _ piece [] hp .done, ht, ha, hb, rfl, ?_⟩
      · rw [Buffer.cut, if_pos (Nat.le_refl _), cut_tiled ht (Nat.le_refl _)]
        rfl
      · intro p hmem
        obtain rfl := List.mem_singleton.1 hmem
        exact ⟨p, List.mem_cons_self, Nat.le_refl _, rfl, .inr rfl⟩
    · have htorn' : ¬Torn i (replacedSpans pieces) := fun ⟨span, hmem, hspan⟩ => by
        obtain ⟨p, hp, hr, rfl⟩ := mem_replacedSpans.1 hmem
        exact htorn ⟨_, mem_replacedSpans.2 ⟨p, List.mem_cons_of_mem _ hp, hr, rfl⟩, hspan⟩
      obtain ⟨l, r, before, after, hcut, hleft, hright, hbefore, hafter, rfl, hparts⟩ :=
        ih hb (by omega) hg htorn'
      refine ⟨piece :: l, r, a ++ before, after, ?_, .piece hp hleft, hright, ha.append hbefore, hafter, by simp, ?_⟩
      · rw [Buffer.cut, if_pos (by omega), hcut]
        rfl
      · intro p hmem
        rcases List.mem_cons.1 hmem with rfl | hmem
        · exact ⟨p, List.mem_cons_self, Nat.le_refl _, rfl, .inr rfl⟩
        · obtain ⟨q, hq, hpart⟩ := hparts p hmem
          exact ⟨q, List.mem_cons_of_mem _ hq, hpart⟩

/-- A text added behind the last of the pieces. -/
theorem Holds.addBehind {start stop : Nat} {pieces : List Piece} {held : Text} (text : Text)
    (h : Holds source pieces held) (ht : Tiled start stop pieces) (hl : start < stop) :
    Holds source (Buffer.addBehind stop text pieces) (held ++ text) := by
  induction ht generalizing held with
  | done => omega
  | @piece stop piece pieces hp ht ih =>
    obtain ⟨a, b, rfl, ha, hb⟩ := h.cons_inv
    by_cases he : piece.stop = stop
    · subst he
      obtain rfl := ht.eq_nil
      obtain rfl := holds_nil_iff.1 hb
      rw [addBehind_cons, if_pos rfl]
      simpa [Buffer.addBehind] using ha.add text
    · have hle := ht.le
      rw [addBehind_cons, if_neg he, List.append_assoc]
      exact ha.append (ih hb (by omega))

/-- Pieces of the source that nobody touched hold what stands there. -/
theorem Holds.eq_of_untouched {start stop : Nat} {pieces : List Piece} {held front text rest : Text}
    (h : Holds source pieces held) (ht : Tiled start stop pieces) (hs : source = front ++ text ++ rest)
    (hf : Text.byteLength front = start) (hstop : start + Text.byteLength text = stop)
    (hp : ∀ p ∈ pieces, p.replacement = none ∧ p.after = []) : held = text := by
  induction ht generalizing held front text with
  | done =>
    obtain rfl := holds_nil_iff.1 h
    by_contra hne
    have := Text.byteLength_pos (Ne.symm hne)
    omega
  | @piece stop piece pieces hlt ht ih =>
    obtain ⟨a, b, rfl, ha, hb⟩ := h.cons_inv
    obtain ⟨hr, hafter⟩ := hp piece List.mem_cons_self
    obtain ⟨s, hstretch, rfl, -⟩ := holds_singleton_iff.1 ha
    simp only [stretchesFrom, hr, ← hf, hs, List.append_assoc, Text.splitAtByte?_append, Option.bind_eq_bind,
      Option.bind_some] at hstretch
    obtain ⟨⟨t, z⟩, ht', he⟩ := Option.bind_eq_some_iff.1 hstretch
    obtain rfl := Option.some.inj he
    obtain ⟨htz, hl⟩ := Text.splitAtByte?_eq_some ht'
    have hle := ht.le
    obtain ⟨more, rfl, hz⟩ : ∃ more, text = t ++ more ∧ z = more ++ rest := by
      rcases List.append_eq_append_iff.1 htz with ⟨more, hm, hz⟩ | ⟨more, rfl, hz⟩
      · exact ⟨more, hm, hz⟩
      · have hnil : more = [] := by
          by_contra hne
          have := Text.byteLength_pos hne
          rw [Text.byteLength_append] at hl
          omega
        subst hnil
        exact ⟨[], by simp, by simpa using hz.symm⟩
    rw [Text.byteLength_append] at hstop
    have hmore : b = more := ih hb (show source = (front ++ t) ++ more ++ rest by simp [hs])
      (by rw [Text.byteLength_append]; omega) (by omega) fun p hmem => hp p (List.mem_cons_of_mem _ hmem)
    simp [hafter, hmore]

end Buffer

end CjsInterop
