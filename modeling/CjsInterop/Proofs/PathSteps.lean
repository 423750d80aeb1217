import CjsInterop.Path

/-! The parent of a path has all steps of the path but the last, and a joined name adds a step, however
the path is spelled. So the directories above a path depend only on its steps. -/

namespace CjsInterop

namespace Text

theorem splitAt_ne_nil (mark : Char) (text : Text) : splitAt mark text ≠ [] := by
  cases text with
  | nil => simp [splitAt]
  | cons c rest =>
    rw [splitAt]
    split
    · simp
    · split <;> simp

theorem splitAt_cons_of_ne {mark c : Char} (h : c ≠ mark) (rest : Text) :
    ∃ part parts, splitAt mark rest = part :: parts ∧
      splitAt mark (c :: rest) = (c :: part) :: parts := by
  obtain ⟨part, parts, hs⟩ := List.exists_cons_of_ne_nil (splitAt_ne_nil mark rest)
  exact ⟨part, parts, hs, by simp [splitAt, h, hs]⟩

theorem not_mem_of_mem_splitAt {mark : Char} {text part : Text} (h : part ∈ splitAt mark text) :
    mark ∉ part := by
  induction text generalizing part with
  | nil => simp_all [splitAt]
  | cons c rest ih =>
    by_cases hc : c = mark
    · simp only [splitAt, hc, if_true, List.mem_cons] at h
      rcases h with rfl | h
      · simp
      · exact ih h
    · obtain ⟨p, ps, hs, he⟩ := splitAt_cons_of_ne hc rest
      rw [he, List.mem_cons] at h
      rcases h with rfl | h
      · have hp : mark ∉ p := ih (by simp [hs])
        simp [Ne.symm hc, hp]
      · exact ih (by simp [hs, h])

theorem splitAt_of_not_mem {mark : Char} {text : Text} (h : mark ∉ text) : splitAt mark text = [text] := by
  induction text with
  | nil => rfl
  | cons c rest ih =>
    simp only [List.mem_cons, not_or] at h
    simp [splitAt, Ne.symm h.1, ih h.2]

theorem splitAt_append_cons {mark : Char} {part : Text} (h : mark ∉ part) (rest : Text) :
    splitAt mark (part ++ mark :: rest) = part :: splitAt mark rest := by
  induction part with
  | nil => simp [splitAt]
  | cons c part ih =>
    simp only [List.mem_cons, not_or] at h
    simp [splitAt, Ne.symm h.1, ih h.2]

theorem splitAt_append (mark : Char) (text rest : Text) :
    splitAt mark (text ++ mark :: rest) = splitAt mark text ++ splitAt mark rest := by
  induction text with
  | nil => simp [splitAt]
  | cons c text ih =>
    by_cases hc : c = mark
    · simp [splitAt, hc, ih]
    · obtain ⟨part, parts, hs, he⟩ := splitAt_cons_of_ne hc text
      simp [splitAt, hc, ih, hs]

theorem splitAt_join {mark : Char} {parts : List Text} (hne : parts ≠ []) (h : ∀ p ∈ parts, mark ∉ p) :
    splitAt mark (join [mark] parts) = parts := by
  induction parts with
  | nil => exact absurd rfl hne
  | cons part parts ih =>
    cases parts with
    | nil => exact splitAt_of_not_mem (h part (by simp))
    | cons next parts =>
      have ht := ih (by simp) (fun p hp => h p (by simp [hp]))
      simp only [join, List.append_assoc, List.singleton_append]
      rw [splitAt_append_cons (h part (by simp)), ht]

end Text

namespace Path

/-- A start and segments as a path is taken apart into them: no segment holds a slash, and a first
segment without a start before it is neither empty nor a dot. -/
def Segmented (start : List Part) (segments : List Text) : Prop :=
  (∀ s ∈ segments, '/' ∉ s) ∧
    (start = [.root] ∨ start = [.here] ∨ start = [] ∧ ∀ s ∈ segments.head?, s ≠ [] ∧ s ≠ ['.'])

theorem segments_segmented {path : Path} (h : path ≠ []) :
    Segmented (segments path).1 (segments path).2 := by
  unfold segments
  split
  · exact ⟨fun s hs => Text.not_mem_of_mem_splitAt hs, .inl rfl⟩
  · next hroot =>
    split
    · next rest hs =>
      exact ⟨fun s hm => Text.not_mem_of_mem_splitAt (hs ▸ List.mem_cons_of_mem _ hm), .inr (.inl rfl)⟩
    · next hhere =>
      refine ⟨fun s hm => Text.not_mem_of_mem_splitAt hm, .inr (.inr ⟨rfl, ?_⟩)⟩
      obtain ⟨c, rest, rfl⟩ := List.exists_cons_of_ne_nil h
      have hc : c ≠ '/' := fun hc => hroot rest (by rw [hc])
      obtain ⟨part, parts, -, he⟩ := Text.splitAt_cons_of_ne hc rest
      intro s hm
      obtain rfl : c :: part = s := by simpa [he] using hm
      exact ⟨by simp, fun hd => hhere parts (by rw [he, hd])⟩

theorem parts_eq (path : Path) :
    parts path = (segments path).1 ++ (segments path).2.filterMap step? := rfl

/-- Spelling a start and segments out and taking the result apart again gives them back. -/
theorem segments_spell {start : List Part} {segments : List Text} (h : Segmented start segments) (hne : segments ≠ []) :
    Path.segments (spell start segments) = (start, segments) := by
  obtain ⟨hslash, hstart⟩ := h
  obtain ⟨s, rest, rfl⟩ := List.exists_cons_of_ne_nil hne
  have hj : Text.splitAt '/' (Text.join ['/'] (s :: rest)) = s :: rest :=
    Text.splitAt_join (by simp) hslash
  obtain rfl | rfl | ⟨rfl, hfirst⟩ := hstart
  · simp [spell, Path.segments, hj]
  · simp [spell, Path.segments, Text.splitAt, hj]
  · obtain ⟨hne, hdot⟩ := hfirst s rfl
    obtain ⟨c, s', rfl⟩ := List.exists_cons_of_ne_nil hne
    have hc : c ≠ '/' := fun hc => hslash (c :: s') (by simp) (by simp [hc])
    obtain ⟨t, ht⟩ : ∃ t, Text.join ['/'] ((c :: s') :: rest) = c :: t := by
      cases rest <;> simp [Text.join]
    change Path.segments (Text.join ['/'] ((c :: s') :: rest)) = _
    rw [ht] at hj ⊢
    unfold Path.segments
    split
    · next heq => exact absurd (List.cons.inj heq).1 hc
    · rw [hj]
      split
      · next heq => exact absurd (List.cons.inj heq).1 hdot
      · rfl

theorem parts_spell {start : List Part} {segments : List Text} (h : Segmented start segments) :
    parts (spell start segments) = start ++ segments.filterMap step? := by
  cases segments with
  | nil => obtain rfl | rfl | ⟨rfl, -⟩ := h.2 <;> rfl
  | cons s rest => rw [parts_eq, segments_spell h (by simp)]

theorem filterMap_dropIdle (reversed : List Text) :
    (dropIdle reversed).reverse.filterMap step? = reversed.reverse.filterMap step? := by
  induction reversed with
  | nil => rfl
  | cons s rest ih =>
    by_cases hs : step? s = none
    · have hd : dropIdle (s :: rest) = dropIdle rest := by simp [dropIdle, hs]
      rw [hd, ih]
      simp [hs]
    · have hd : dropIdle (s :: rest) = s :: rest := by simp [dropIdle, hs]
      rw [hd]

theorem step?_of_dropIdle {reversed before : List Text} {last : Text}
    (h : dropIdle reversed = last :: before) : ∃ part, step? last = some part := by
  have hs := List.head?_dropWhile_not (fun segment => (step? segment).isNone) reversed
  rw [show reversed.dropWhile _ = last :: before from h] at hs
  simpa [Option.isSome_iff_exists] using hs

theorem step?_eq_some {segment : Text} {part : Part} (h : step? segment = some part) :
    part = .up ∨ part = .name segment := by
  simp only [step?, Option.ite_none_left_eq_some] at h
  obtain ⟨-, h⟩ := h
  split at h
  · exact .inl (Option.some.inj h).symm
  · exact .inr (Option.some.inj h).symm

/-- What is left of a list of segments when idle ones are dropped from its end. -/
theorem segmented_of_dropIdle {start : List Part} {segments before : List Text} {last : Text}
    (h : Segmented start segments) (hd : dropIdle segments.reverse = last :: before) :
    Segmented start (dropIdle before).reverse := by
  have hsuf : dropIdle before <:+ segments.reverse :=
    (List.dropWhile_suffix _).trans
      ((List.suffix_cons last before).trans (hd ▸ List.dropWhile_suffix _))
  have hpre : (dropIdle before).reverse <+: segments := by
    simpa using List.reverse_prefix.mpr hsuf
  obtain ⟨hslash, hstart⟩ := h
  refine ⟨fun s hs => hslash s (hpre.subset hs), ?_⟩
  rcases hstart with hr | hr | ⟨hr, hfirst⟩
  · exact .inl hr
  · exact .inr (.inl hr)
  · refine .inr (.inr ⟨hr, fun s hs => hfirst s ?_⟩)
    obtain ⟨tail, rfl⟩ := hpre
    cases hb : (dropIdle before).reverse with
    | nil => simp [hb] at hs
    | cons a as => simpa [hb] using hs

/-- A path has a parent unless it is the root or has no steps, and the parent has all steps but one. -/
theorem parent?_cases (path : Path) :
    (parent? path = none ∧ (parts path = [] ∨ parts path = [.root])) ∨
      ∃ dir last, parent? path = some dir ∧ parts path = parts dir ++ [last] ∧ last ≠ .root := by
  by_cases hp : path = []
  · subst hp
    exact .inl ⟨rfl, .inl rfl⟩
  · have hseg := segments_segmented hp
    have hf := filterMap_dropIdle (segments path).2.reverse
    rw [List.reverse_reverse] at hf
    cases hd : dropIdle (segments path).2.reverse with
    | nil =>
      have hempty : (segments path).2.filterMap step? = [] := by simpa [hd] using hf.symm
      obtain ⟨-, hr | hr | ⟨hr, -⟩⟩ := hseg
      · simp [parent?, parts, hd, hr, hempty]
      · refine .inr ⟨[], .here, ?_, ?_, by simp⟩
        · simp [parent?, hd, hr]
        · simp only [parts, hr, hempty]
          rfl
      · simp [parent?, parts, hd, hr, hempty]
    | cons last before =>
      obtain ⟨part, hpart⟩ := step?_of_dropIdle hd
      have hsteps : (segments path).2.filterMap step? =
          (dropIdle before).reverse.filterMap step? ++ [part] := by
        rw [← hf, hd, filterMap_dropIdle]
        simp [hpart]
      refine .inr ⟨spell (segments path).1 (dropIdle before).reverse, part, ?_, ?_, ?_⟩
      · simp [parent?, hd]
      · rw [parts_spell (segmented_of_dropIdle hseg hd), List.append_assoc, ← hsteps]
        rfl
      · rcases step?_eq_some hpart with rfl | rfl <;> simp

theorem parts_parent? {path dir : Path} (h : parent? path = some dir) :
    ∃ last, parts path = parts dir ++ [last] := by
  rcases parent?_cases path with ⟨hn, -⟩ | ⟨d, last, hd, hs, -⟩
  · simp [hn] at h
  · obtain rfl : d = dir := by simpa [hd] using h
    exact ⟨last, hs⟩

theorem parent?_eq_none_iff {path : Path} : parent? path = none ↔ parts path = [] ∨ parts path = [.root] := by
  rcases parent?_cases path with ⟨hn, hs⟩ | ⟨dir, last, hd, hs, hlast⟩
  · simp [hn, hs]
  · have hroot : parts dir ++ [last] ≠ [.root] := fun he => by
      have hl := congrArg List.getLast? he
      simp only [List.getLast?_concat, List.getLast?_singleton, Option.some.injEq] at hl
      exact hlast hl
    simp [hd, hs, hroot]

/-- Two spellings of a path have parents with the same steps. -/
theorem parent?_congr {a b : Path} (h : parts a = parts b) :
    (parent? a).map parts = (parent? b).map parts := by
  cases ha : parent? a with
  | none =>
    have hb : parent? b = none := by rwa [parent?_eq_none_iff, ← h, ← parent?_eq_none_iff]
    rw [hb]
  | some da =>
    cases hb : parent? b with
    | none =>
      have hn : parent? a = none := by rwa [parent?_eq_none_iff, h, ← parent?_eq_none_iff]
      simp [ha] at hn
    | some db =>
      obtain ⟨la, hla⟩ := parts_parent? ha
      obtain ⟨lb, hlb⟩ := parts_parent? hb
      have he : parts da = parts db := by
        have := congrArg List.dropLast (hla.symm.trans (h.trans hlb))
        simpa using this
      simp [he]

theorem parts_append_slash {dir : Path} (h : dir ≠ []) (rest : Text) :
    parts (dir ++ '/' :: rest) = parts dir ++ (Text.splitAt '/' rest).filterMap step? := by
  obtain ⟨c, tail, rfl⟩ := List.exists_cons_of_ne_nil h
  have hs : segments (c :: tail ++ '/' :: rest) =
      ((segments (c :: tail)).1, (segments (c :: tail)).2 ++ Text.splitAt '/' rest) := by
    by_cases hc : c = '/'
    · simp [segments, hc, Text.splitAt_append]
    · obtain ⟨part, more, -, he⟩ := Text.splitAt_cons_of_ne hc tail
      have ha : Text.splitAt '/' (c :: (tail ++ '/' :: rest)) =
          (c :: part) :: (more ++ Text.splitAt '/' rest) := by
        rw [← List.cons_append, Text.splitAt_append, he, List.cons_append]
      by_cases hd : c :: part = ['.'] <;> simp [segments, hc, ha, he, hd]
  unfold parts
  rw [hs]
  simp

theorem parts_eq_singleton {name : Text} {part : Part} (hn : '/' ∉ name) (hs : step? name = some part) :
    parts name = [part] := by
  have hsplit := Text.splitAt_of_not_mem hn
  have hidle : name ≠ [] ∧ name ≠ ['.'] := by
    have h := hs
    simp only [step?, Option.ite_none_left_eq_some, not_or] at h
    exact h.1
  have hseg : segments name = ([], [name]) := by
    unfold segments
    split
    · exact absurd (List.mem_cons_self ..) hn
    · rw [hsplit]
      split
      · next he => exact absurd (List.cons.inj he).1 hidle.2
      · rfl
  simp [parts, hseg, hs]

theorem isAbsolute_of_not_mem {name : Text} (hn : '/' ∉ name) : isAbsolute name = false := by
  unfold isAbsolute
  rw [beq_eq_false_iff_ne]
  exact fun hh => hn (List.mem_of_mem_head? hh)

theorem parts_join_relative {dir other : Path} (hd : dir ≠ []) (ho : isAbsolute other = false) :
    parts (join dir other) = parts dir ++ (Text.splitAt '/' other).filterMap step? := by
  by_cases hl : dir.getLast? = some '/'
  · obtain ⟨d, rfl⟩ : ∃ d, dir = d ++ ['/'] := List.getLast?_eq_some_iff.1 hl
    simp only [join, ho, Bool.false_eq_true, if_false, hl, or_true, if_true, List.append_assoc,
      List.singleton_append]
    by_cases hn : d = []
    · subst hn
      simp [parts, segments, Text.splitAt, step?]
    · rw [parts_append_slash hn, parts_append_slash hn]
      simp [Text.splitAt, step?]
  · simp only [join, ho, hd, hl, or_self, if_false, Bool.false_eq_true]
    exact parts_append_slash hd other

/-- A name joined to a directory is one step below it. -/
theorem parts_join {name : Text} {part : Part} (hn : '/' ∉ name) (hs : step? name = some part) (dir : Path) :
    parts (join dir name) = parts dir ++ [part] := by
  have ho := isAbsolute_of_not_mem hn
  by_cases hd : dir = []
  · subst hd
    simp only [join, ho, Bool.false_eq_true, if_false, true_or, if_true, List.nil_append]
    rw [parts_eq_singleton hn hs]
    rfl
  · rw [parts_join_relative hd ho, Text.splitAt_of_not_mem hn]
    simp [hs]

theorem parts_absolute (rest : Text) :
    parts ('/' :: rest) = .root :: (Text.splitAt '/' rest).filterMap step? := rfl

/-- The steps of a relative path: a dot in front is none. -/
theorem steps_of_relative {path : Path} (h : isAbsolute path = false) :
    (Text.splitAt '/' path).filterMap step? = (parts path).filter (· ≠ .here) := by
  have hnot : ∀ part ∈ (Text.splitAt '/' path).filterMap step?, part ≠ .here := by
    intro part hpart
    obtain ⟨segment, -, hs⟩ := List.mem_filterMap.1 hpart
    rcases step?_eq_some hs with rfl | rfl <;> simp
  have hroot : ∀ rest, path ≠ '/' :: rest := by
    rintro rest rfl
    simp [isAbsolute] at h
  have hsegments : segments path = ([], Text.splitAt '/' path) ∨
      ∃ rest, Text.splitAt '/' path = ['.'] :: rest ∧ segments path = ([.here], rest) := by
    unfold segments
    split
    · next rest => exact absurd rfl (hroot rest)
    · split
      · next rest hs => exact .inr ⟨rest, hs, rfl⟩
      · exact .inl rfl
  have hkeep := List.filter_eq_self.2 fun part hp => decide_eq_true (hnot part hp)
  rw [parts_eq]
  rcases hsegments with hs | ⟨rest, hsplit, hs⟩
  · rw [hs, List.nil_append, hkeep]
  · have hdot : (Text.splitAt '/' path).filterMap step? = rest.filterMap step? := by
      rw [hsplit]
      rfl
    rw [hdot] at hkeep
    rw [hs, hdot, List.filter_append, hkeep]
    rfl

theorem isAbsolute_iff (path : Path) : isAbsolute path = true ↔ .root ∈ parts path := by
  cases h : isAbsolute path with
  | true =>
    obtain ⟨rest, rfl⟩ : ∃ rest, path = '/' :: rest := by
      cases path <;> simp_all [isAbsolute]
    simp [parts_absolute]
  | false =>
    have hs := steps_of_relative h
    simp only [Bool.false_eq_true, false_iff]
    intro hroot
    have hmem : Part.root ∈ (Text.splitAt '/' path).filterMap step? := by
      rw [hs]
      simpa using hroot
    obtain ⟨segment, -, hsome⟩ := List.mem_filterMap.1 hmem
    rcases step?_eq_some hsome with hup | hname
    · simp at hup
    · simp at hname

theorem parts_join_congr (dir : Path) {a b : Path} (h : parts a = parts b) :
    parts (join dir a) = parts (join dir b) := by
  have habs : isAbsolute a = isAbsolute b := by
    rw [Bool.eq_iff_iff, isAbsolute_iff, isAbsolute_iff, h]
  cases ha : isAbsolute a with
  | true =>
    rw [join, join, ← habs, ha]
    exact h
  | false =>
    by_cases hd : dir = []
    · subst hd
      simpa [join, ← habs, ha] using h
    · rw [parts_join_relative hd ha, parts_join_relative hd (habs ▸ ha), steps_of_relative ha,
        steps_of_relative (habs ▸ ha), h]

/-- What stands between a directory and what is joined to it. -/
def slashAfter (dir : Path) : Text := if dir = [] ∨ dir.getLast? = some '/' then [] else ['/']

theorem join_relative {other : Path} (h : isAbsolute other = false) (dir : Path) :
    join dir other = dir ++ slashAfter dir ++ other := by
  unfold join slashAfter
  by_cases hd : dir = [] ∨ dir.getLast? = some '/' <;> simp [h, hd]

theorem slashAfter_append (front : Path) {dir : Path} (h : dir ≠ []) :
    slashAfter (front ++ dir) = slashAfter dir := by
  obtain ⟨last, hl⟩ := Option.isSome_iff_exists.1 (List.getLast?_isSome.2 h)
  simp [slashAfter, List.getLast?_append, hl, h]

theorem slashAfter_slashAfter (dir : Path) : slashAfter (dir ++ slashAfter dir) = [] := by
  by_cases hd : dir = [] ∨ dir.getLast? = some '/'
  · have hs : slashAfter dir = [] := if_pos hd
    rw [hs, List.append_nil, hs]
  · have hs : slashAfter dir = ['/'] := if_neg hd
    rw [hs]
    simp [slashAfter]

theorem join_absolute {other : Path} (h : isAbsolute other = true) (dir : Path) : join dir other = other :=
  if_pos h

theorem join_join {name : Text} (hn : isAbsolute name = false) (a b : Path) :
    join a (join b name) = join (join a b) name := by
  by_cases hb : b = []
  · subst hb
    have he : join a [] = a ++ slashAfter a := by rw [join_relative rfl, List.append_nil]
    rw [join_relative hn [], join_relative hn, he, slashAfter_slashAfter]
    simp [slashAfter, join_relative hn]
  · have habs : isAbsolute (join b name) = isAbsolute b := by
      obtain ⟨c, tail, rfl⟩ := List.exists_cons_of_ne_nil hb
      rw [join_relative hn]
      rfl
    cases h : isAbsolute b with
    | true => rw [join_absolute (habs.trans h), join_absolute h]
    | false =>
      rw [join_relative (habs.trans h) a, join_relative hn b, join_relative hn (join a b), join_relative h a,
        slashAfter_append _ hb]
      simp

theorem length_steps_le (text : Text) : ((Text.splitAt '/' text).filterMap step?).length ≤ text.length := by
  induction text with
  | nil => simp [Text.splitAt, step?]
  | cons c rest ih =>
    by_cases hc : c = '/'
    · simp only [Text.splitAt, hc, if_true, List.filterMap_cons, step?, true_or, List.length_cons]
      omega
    · obtain ⟨part, parts, hs, he⟩ := Text.splitAt_cons_of_ne hc rest
      have hrest : (parts.filterMap step?).length ≤ rest.length := by
        rw [hs, List.filterMap_cons] at ih
        split at ih
        · exact ih
        · exact Nat.le_of_succ_le ih
      rw [he, List.filterMap_cons]
      split
      · exact Nat.le_succ_of_le hrest
      · exact Nat.succ_le_succ hrest

theorem length_parts_le (path : Path) : (parts path).length ≤ path.length := by
  rw [parts_eq]
  unfold segments
  split
  · next rest =>
    simp only [List.length_append, List.length_cons, List.length_nil]
    have := length_steps_le rest
    omega
  · next hroot =>
    split
    · next rest hs =>
      cases path with
      | nil => simp [Text.splitAt] at hs
      | cons c path =>
        have hc : c ≠ '/' := fun hc => hroot path (by rw [hc])
        obtain ⟨part, parts, hp, he⟩ := Text.splitAt_cons_of_ne hc path
        obtain ⟨hpart, rfl⟩ : c :: part = ['.'] ∧ parts = rest := by simpa [hs] using he.symm
        have hlen := length_steps_le path
        have hnil : part = [] := by simpa using (List.cons.inj hpart).2
        simp only [hp, hnil, List.filterMap_cons, step?, true_or, if_true] at hlen
        simp only [List.length_append, List.length_cons, List.length_nil]
        omega
    · simpa using length_steps_le path

theorem length_parts_parent? {path dir : Path} (h : parent? path = some dir) :
    (parts path).length = (parts dir).length + 1 := by
  obtain ⟨last, hl⟩ := parts_parent? h
  simp [hl]

theorem ancestorsWithin_eq {n k : Nat} {path : Path} (hn : (parts path).length < n)
    (hk : (parts path).length < k) : ancestorsWithin n path = ancestorsWithin k path := by
  induction n generalizing k path with
  | zero => omega
  | succ n ih =>
    obtain ⟨k, rfl⟩ : ∃ j, k = j + 1 := ⟨k - 1, by omega⟩
    cases hp : parent? path with
    | none => simp [ancestorsWithin, hp]
    | some dir =>
      have hl := length_parts_parent? hp
      have he : ancestorsWithin n dir = ancestorsWithin k dir := ih (by omega) (by omega)
      simp [ancestorsWithin, hp, he]

/-- The paths above a path are its parent and the paths above that. -/
theorem ancestors_eq (path : Path) :
    ancestors path = path :: ((parent? path).map ancestors).getD [] := by
  have hlen := length_parts_le path
  cases hp : parent? path with
  | none => simp [ancestors, ancestorsWithin, hp]
  | some dir =>
    have hl := length_parts_parent? hp
    have hd := length_parts_le dir
    have he : ancestorsWithin path.length dir = ancestors dir :=
      ancestorsWithin_eq (by omega) (by omega)
    have hu : ancestors path = path :: ancestorsWithin path.length dir := by
      simp [ancestors, ancestorsWithin, hp]
    rw [hu, he]
    rfl

/-- An induction up the directories: what holds of a path whenever it holds of its parent holds of
every path. -/
theorem parent_induction {motive : Path → Prop}
    (step : ∀ path, (∀ dir, parent? path = some dir → motive dir) → motive path) (path : Path) :
    motive path := by
  generalize hn : (parts path).length = n
  induction n generalizing path with
  | zero =>
    refine step path fun dir hd => ?_
    have := length_parts_parent? hd
    omega
  | succ n ih =>
    refine step path fun dir hd => ih dir ?_
    have := length_parts_parent? hd
    omega

theorem ancestors_congr {a b : Path} (h : parts a = parts b) :
    (ancestors a).map parts = (ancestors b).map parts := by
  induction a using parent_induction generalizing b with
  | step a ih =>
    have hp := parent?_congr h
    rw [ancestors_eq a, ancestors_eq b]
    cases ha : parent? a with
    | none =>
      rw [ha, Option.map_none, eq_comm, Option.map_eq_none_iff] at hp
      simp [hp, h]
    | some da =>
      rw [ha, Option.map_some, eq_comm, Option.map_eq_some_iff] at hp
      obtain ⟨db, hb, hdir⟩ := hp
      simp [hb, h, ih da ha hdir.symm]

end Path
end CjsInterop
