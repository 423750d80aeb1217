import CjsInterop.Proofs.PathSteps
import Mathlib.Algebra.Order.BigOperators.Group.List
import Mathlib.Algebra.Order.Group.Nat
import Mathlib.Data.List.Induction

/-! Normal forms of paths. Steps are taken one by one, the names still to be left held in reverse, so that what is
left of a path is a walk from the root, or some steps up, and then down through names. -/

namespace CjsInterop
namespace Path

/-- The steps that are left when each `..` has taken away the name before it. -/
def reduce (steps : List Part) : List Part := (steps.foldl push []).reverse

theorem normalize_eq (path : Path) : normalize path = ofParts (reduce (parts path)) := rfl

theorem absolutize_eq (cwd path : Path) : absolutize cwd path = normalize (join cwd path) := by
  cases h : isAbsolute path with
  | true => simp [absolutize, join, h]
  | false => simp [absolutize, h]

/-- A step that is spelled as a segment of a path. -/
def Part.IsSegment (part : Part) : Prop := '/' ∉ part.text ∧ step? part.text = some part

theorem isSegment_up : Part.IsSegment .up := ⟨by decide, rfl⟩

theorem isSegment_of_mem_parts {path : Path} {name : Text} (h : Part.name name ∈ parts path) :
    (Part.name name).IsSegment := by
  rw [parts_eq, List.mem_append] at h
  by_cases hp : path = []
  · subst hp
    simp [segments, Text.splitAt, step?] at h
  obtain ⟨hslash, hstart⟩ := segments_segmented hp
  rcases h with h | h
  · rcases hstart with hs | hs | ⟨hs, -⟩ <;> simp [hs] at h
  · obtain ⟨segment, hmem, hs⟩ := List.mem_filterMap.1 h
    rcases step?_eq_some hs with hup | hname
    · cases hup
    · cases hname
      exact ⟨hslash name hmem, hs⟩

/-! ## Taking steps -/

theorem mem_foldl_push {part : Part} {done steps : List Part} (h : part ∈ steps.foldl push done) :
    part ∈ done ∨ part ∈ steps := by
  induction steps generalizing done with
  | nil => exact .inl h
  | cons step steps ih =>
    rcases ih h with hd | hs
    · have hpush : part ∈ done ∨ part = step := by
        unfold push at hd
        split at hd
        · exact .inl hd
        · exact .inl (List.mem_cons_of_mem _ hd)
        · exact .inl hd
        · exact (List.mem_cons.1 hd).symm
      exact hpush.imp id fun he => List.mem_cons.2 (.inl he)
    · exact .inr (List.mem_cons_of_mem _ hs)

theorem foldl_push_names (names : List Text) (done : List Part) :
    (names.map Part.name).foldl push done = (names.map Part.name).reverse ++ done := by
  induction names generalizing done with
  | nil => rfl
  | cons n names ih =>
    rw [List.map_cons, List.foldl_cons, ih]
    simp [push]

/-- Steps up leave the names behind, and then the place that the names start from. -/
theorem foldl_push_ups (names : List Text) (above count : Nat) :
    (List.replicate count Part.up).foldl push (names.map Part.name ++ List.replicate above .up) =
      (names.drop count).map Part.name ++ List.replicate (above + (count - names.length)) .up := by
  induction count generalizing names above with
  | zero => simp
  | succ count ih =>
    rw [List.replicate_succ, List.foldl_cons]
    cases names with
    | cons n names =>
      have hpush : push ((n :: names).map Part.name ++ List.replicate above .up) .up =
          names.map Part.name ++ List.replicate above .up := rfl
      rw [hpush, ih]
      simp
    | nil =>
      have hpush : push (([] : List Text).map Part.name ++ List.replicate above .up) .up =
          ([] : List Text).map Part.name ++ List.replicate (above + 1) .up := by
        cases above <;> rfl
      rw [hpush, ih]
      simp only [List.drop_nil, List.length_nil, Nat.sub_zero]
      rw [show above + 1 + count = above + (count + 1) by omega]

theorem foldl_push_rooted {steps : List Part} (h : ∀ s ∈ steps, s ≠ .root) (names : List Text) :
    ∃ left : List Text, steps.foldl push (names.map Part.name ++ [.root]) = left.map Part.name ++ [.root] := by
  induction steps generalizing names with
  | nil => exact ⟨names, rfl⟩
  | cons step steps ih =>
    have hrest := fun s hs => h s (List.mem_cons_of_mem _ hs)
    cases step with
    | root => exact absurd rfl (h .root List.mem_cons_self)
    | here => exact ih hrest names
    | name n => exact ih hrest (n :: names)
    | up =>
      cases names with
      | nil => exact ih hrest []
      | cons n names => exact ih hrest names

theorem foldl_push_relative {steps : List Part} (h : ∀ s ∈ steps, s ≠ .root) (names : List Text) (above : Nat) :
    ∃ (left : List Text) (ups : Nat), steps.foldl push (names.map Part.name ++ List.replicate above .up) =
      left.map Part.name ++ List.replicate ups .up := by
  induction steps generalizing names above with
  | nil => exact ⟨names, above, rfl⟩
  | cons step steps ih =>
    have hrest := fun s hs => h s (List.mem_cons_of_mem _ hs)
    cases step with
    | root => exact absurd rfl (h .root List.mem_cons_self)
    | here => exact ih hrest names above
    | name n => exact ih hrest (n :: names) above
    | up =>
      obtain ⟨left, ups, hl⟩ := ih hrest (names.drop 1) (above + (1 - names.length))
      refine ⟨left, ups, ?_⟩
      rw [List.foldl_cons]
      have hone := foldl_push_ups names above 1
      rw [List.replicate_one, List.foldl_cons, List.foldl_nil] at hone
      rw [hone, hl]

/-! ## Walks -/

/-- A walk up some steps, and then down through names. -/
def walk (ups : Nat) (names : List Text) : List Part := List.replicate ups .up ++ names.map Part.name

theorem isSegment_of_mem_walk {ups : Nat} {names : List Text} (h : ∀ n ∈ names, (Part.name n).IsSegment) :
    ∀ s ∈ walk ups names, s.IsSegment := by
  intro s hs
  rcases List.mem_append.1 hs with hup | hname
  · rw [List.eq_of_mem_replicate hup]
    exact isSegment_up
  · obtain ⟨n, hn, rfl⟩ := List.mem_map.1 hname
    exact h n hn

/-- Steps in normal form. -/
inductive Reduced : List Part → Prop
  | rooted (names : List Text) (h : ∀ n ∈ names, (Part.name n).IsSegment) : Reduced (.root :: names.map Part.name)
  | relative (ups : Nat) (names : List Text) (h : ∀ n ∈ names, (Part.name n).IsSegment) : Reduced (walk ups names)

theorem reduce_absolute {path : Path} (h : isAbsolute path = true) : ∃ names : List Text,
    (∀ n ∈ names, (Part.name n).IsSegment) ∧ reduce (parts path) = .root :: names.map Part.name := by
  obtain ⟨rest, rfl⟩ : ∃ rest, path = '/' :: rest := by
    cases path <;> simp_all [isAbsolute]
  have hsteps : ∀ s ∈ (Text.splitAt '/' rest).filterMap step?, s ≠ .root := by
    intro s hs
    obtain ⟨segment, -, hsome⟩ := List.mem_filterMap.1 hs
    rcases step?_eq_some hsome with rfl | rfl <;> simp
  obtain ⟨left, hleft⟩ := foldl_push_rooted hsteps []
  have hreduce : reduce (parts ('/' :: rest)) = .root :: left.reverse.map Part.name := by
    rw [reduce, parts_absolute, List.foldl_cons]
    change (List.foldl push (([] : List Text).map Part.name ++ [.root]) _).reverse = _
    rw [hleft]
    simp
  refine ⟨left.reverse, fun n hn => isSegment_of_mem_parts (?_ : _ ∈ parts ('/' :: rest)), hreduce⟩
  have hmem : Part.name n ∈ reduce (parts ('/' :: rest)) := by
    rw [hreduce]
    exact List.mem_cons_of_mem _ (List.mem_map_of_mem hn)
  exact (mem_foldl_push (List.mem_reverse.1 hmem)).resolve_left (by simp)

theorem ne_root_of_relative {path : Path} (h : isAbsolute path = false) : ∀ s ∈ parts path, s ≠ .root :=
  fun _ hs he => Bool.false_ne_true (h ▸ (isAbsolute_iff path).2 (he ▸ hs))

theorem reduce_relative {path : Path} (h : isAbsolute path = false) : ∃ ups names,
    (∀ n ∈ names, (Part.name n).IsSegment) ∧ reduce (parts path) = walk ups names := by
  have hroot := ne_root_of_relative h
  obtain ⟨left, ups, hleft⟩ := foldl_push_relative hroot [] 0
  have hreduce : reduce (parts path) = walk ups left.reverse := by
    change (List.foldl push (([] : List Text).map Part.name ++ List.replicate 0 .up) _).reverse = _
    rw [hleft]
    simp [walk]
  refine ⟨ups, left.reverse, fun n hn => isSegment_of_mem_parts (?_ : _ ∈ parts path), hreduce⟩
  have hmem : Part.name n ∈ reduce (parts path) := by
    rw [hreduce]
    exact List.mem_append_right _ (List.mem_map_of_mem hn)
  exact (mem_foldl_push (List.mem_reverse.1 hmem)).resolve_left (by simp)

theorem reduced_reduce (path : Path) : Reduced (reduce (parts path)) := by
  cases h : isAbsolute path with
  | true =>
    obtain ⟨names, hn, hr⟩ := reduce_absolute h
    exact hr ▸ .rooted names hn
  | false =>
    obtain ⟨ups, names, hn, hr⟩ := reduce_relative h
    exact hr ▸ .relative ups names hn

/-- Down from a walk. -/
theorem reduce_append_names (steps : List Part) (names : List Text) :
    reduce (steps ++ names.map Part.name) = reduce steps ++ names.map Part.name := by
  rw [reduce, List.foldl_append, foldl_push_names]
  simp [reduce]

theorem reduce_rooted (names : List Text) : reduce (.root :: names.map Part.name) = .root :: names.map Part.name :=
  reduce_append_names [.root] names

theorem reduce_walk (ups : Nat) (names : List Text) : reduce (walk ups names) = walk ups names := by
  rw [walk, reduce_append_names]
  have hups := foldl_push_ups [] 0 ups
  simp only [List.map_nil, List.replicate_zero, List.append_nil, List.drop_nil, List.nil_append, List.length_nil,
    Nat.sub_zero, Nat.zero_add] at hups
  rw [reduce, hups, List.reverse_replicate]

/-! ## Spelling a normal form -/

section Spelling

variable {steps : List Part}

theorem filterMap_text (h : ∀ s ∈ steps, s.IsSegment) : (steps.map Part.text).filterMap step? = steps := by
  induction steps with
  | nil => rfl
  | cons s steps ih =>
    rw [List.map_cons, List.filterMap_cons_some (h s List.mem_cons_self).2,
      ih fun s hs => h s (List.mem_cons_of_mem _ hs)]

theorem segmented_rooted (h : ∀ s ∈ steps, s.IsSegment) : Segmented [.root] (steps.map Part.text) := by
  refine ⟨fun text ht => ?_, .inl rfl⟩
  obtain ⟨s, hs, rfl⟩ := List.mem_map.1 ht
  exact (h s hs).1

theorem segmented_relative (h : ∀ s ∈ steps, s.IsSegment) : Segmented [] (steps.map Part.text) := by
  refine ⟨(segmented_rooted h).1, .inr (.inr ⟨rfl, fun text ht => ?_⟩)⟩
  rw [List.head?_map, Option.mem_def, Option.map_eq_some_iff] at ht
  obtain ⟨s, hs, rfl⟩ := ht
  have hstep := (h s (List.mem_of_mem_head? hs)).2
  simp only [step?, Option.ite_none_left_eq_some, not_or] at hstep
  exact hstep.1

theorem ofParts_rooted (steps : List Part) : ofParts (.root :: steps) = spell [.root] (steps.map Part.text) := rfl

theorem ofParts_relative (h : ∀ s ∈ steps, s.IsSegment) (hne : steps ≠ []) :
    ofParts steps = spell [] (steps.map Part.text) := by
  obtain ⟨s, rest, rfl⟩ := List.exists_cons_of_ne_nil hne
  cases s with
  | root => exact absurd (h .root List.mem_cons_self).2 (by decide)
  | here => exact absurd (h .here List.mem_cons_self).2 (by decide)
  | up => rfl
  | name n => rfl

theorem parts_ofParts_rooted (h : ∀ s ∈ steps, s.IsSegment) : parts (ofParts (.root :: steps)) = .root :: steps := by
  rw [ofParts_rooted, parts_spell (segmented_rooted h), filterMap_text h]
  rfl

theorem parts_ofParts_relative (h : ∀ s ∈ steps, s.IsSegment) (hne : steps ≠ []) : parts (ofParts steps) = steps := by
  rw [ofParts_relative h hne, parts_spell (segmented_relative h), filterMap_text h]
  rfl

/-- A path in normal form has the steps that it is made of. Without any it is a dot. -/
theorem parts_ofParts (h : Reduced steps) : parts (ofParts steps) = if steps = [] then [.here] else steps := by
  cases h with
  | rooted names hn =>
    exact parts_ofParts_rooted fun s hs => by
      obtain ⟨n, hmem, rfl⟩ := List.mem_map.1 hs
      exact hn n hmem
  | relative ups names hn =>
    split
    · next he =>
      rw [he]
      rfl
    · next hne =>
      exact parts_ofParts_relative (isSegment_of_mem_walk hn) hne

end Spelling

/-! ## Normal forms of absolute paths -/

section Absolute

variable {path : Path}

theorem parts_normalize_absolute (h : isAbsolute path = true) : parts (normalize path) = reduce (parts path) := by
  obtain ⟨names, -, hr⟩ := reduce_absolute h
  rw [normalize_eq, parts_ofParts (reduced_reduce path), if_neg (by simp [hr])]

theorem ofParts_parts_normalize (h : isAbsolute path = true) : ofParts (parts (normalize path)) = normalize path := by
  rw [parts_normalize_absolute h, normalize_eq]

theorem isAbsolute_normalize (h : isAbsolute path = true) : isAbsolute (normalize path) = true := by
  obtain ⟨names, -, hr⟩ := reduce_absolute h
  rw [isAbsolute_iff, parts_normalize_absolute h, hr]
  exact List.mem_cons_self

theorem normalize_normalize (h : isAbsolute path = true) : normalize (normalize path) = normalize path := by
  obtain ⟨names, -, hr⟩ := reduce_absolute h
  rw [normalize_eq (normalize path), parts_normalize_absolute h, hr, reduce_rooted, ← hr]
  rfl

theorem isAbsolute_join {cwd : Path} (h : isAbsolute cwd = true) (path : Path) : isAbsolute (join cwd path) = true := by
  cases hp : isAbsolute path with
  | true => rwa [join_absolute hp]
  | false =>
    obtain ⟨rest, rfl⟩ : ∃ rest, cwd = '/' :: rest := by
      cases cwd <;> simp_all [isAbsolute]
    rw [join_relative hp]
    rfl

/-- Segments are spelled as a relative path that takes their steps. -/
theorem spell_segments {steps : List Part} (h : ∀ s ∈ steps, s.IsSegment) :
    isAbsolute (Text.join "/" (steps.map Part.text)) = false ∧
      (Text.splitAt '/' (Text.join "/" (steps.map Part.text))).filterMap step? = steps := by
  by_cases hne : steps = []
  · subst hne
    exact ⟨rfl, rfl⟩
  · refine ⟨?_, ?_⟩
    · rw [← Bool.not_eq_true, isAbsolute_iff]
      change .root ∉ parts (spell [] _)
      rw [← ofParts_relative h hne, parts_ofParts_relative h hne]
      exact fun hroot => absurd (h .root hroot).1 (by decide)
    · have hsplit : Text.splitAt '/' (Text.join "/" (steps.map Part.text)) = steps.map Part.text :=
        Text.splitAt_join (by simpa using hne) (segmented_rooted h).1
      rw [hsplit, filterMap_text h]

/-- What is below a directory is reached from it by names. -/
theorem below?_eq_some {dir name : Path} (hd : isAbsolute dir = true) (hp : isAbsolute path = true)
    (h : below? (normalize dir) (normalize path) = some name) : ∃ names : List Text,
      isAbsolute name = false ∧ (Text.splitAt '/' name).filterMap step? = names.map Part.name ∧
        parts (normalize path) = parts (normalize dir) ++ names.map Part.name := by
  obtain ⟨dirs, -, hdirs⟩ := reduce_absolute hd
  obtain ⟨all, hall, hsteps⟩ := reduce_absolute hp
  rw [← parts_normalize_absolute hd] at hdirs
  rw [← parts_normalize_absolute hp] at hsteps
  unfold below? at h
  dsimp only at h
  split at h
  · next hprefix =>
    obtain ⟨rest, hrest⟩ := List.isPrefixOf_iff_prefix.1 hprefix
    obtain ⟨names, rfl, hsub⟩ : ∃ names : List Text, rest = names.map Part.name ∧ ∀ n ∈ names, n ∈ all := by
      rw [hdirs, hsteps, List.cons_append, List.cons.injEq] at hrest
      obtain ⟨before, names, hsplit, -, rfl⟩ := List.map_eq_append_iff.1 hrest.2.symm
      exact ⟨names, rfl, fun n hn => hsplit ▸ List.mem_append_right _ hn⟩
    have hsegments : ∀ s ∈ names.map Part.name, s.IsSegment := by
      intro s hs
      obtain ⟨n, hn, rfl⟩ := List.mem_map.1 hs
      exact hall n (hsub n hn)
    rw [← hrest, List.drop_left, Option.some.injEq] at h
    subst h
    exact ⟨names, (spell_segments hsegments).1, (spell_segments hsegments).2, hrest.symm⟩
  · cases h

/-- The name of a path below a directory leads back from the directory to the path, however both are spelled. -/
theorem absolutize_join_below? {cwd : Path} (hc : isAbsolute cwd = true) (dir file : Path) :
    absolutize cwd (join dir ((below? (absolutize cwd dir) (absolutize cwd file)).getD (absolutize cwd file))) =
      absolutize cwd file := by
  have hdir := isAbsolute_join hc dir
  have hfile := isAbsolute_join hc file
  simp only [absolutize_eq cwd]
  cases hb : below? (normalize (join cwd dir)) (normalize (join cwd file)) with
  | none =>
    have habs := isAbsolute_normalize hfile
    rw [Option.getD_none, join_absolute habs, join_absolute habs, normalize_normalize hfile]
  | some name =>
    obtain ⟨names, hname, hsteps, hparts⟩ := below?_eq_some hdir hfile hb
    have hne : join cwd dir ≠ [] := by
      rintro he
      simp [he, isAbsolute] at hdir
    rw [Option.getD_some, join_join hname, normalize_eq, parts_join_relative hne hname, hsteps, reduce_append_names,
      ← parts_normalize_absolute hdir, ← hparts, ofParts_parts_normalize hfile]

end Absolute

/-! ## Walks from a place -/

/-- A dot is no step. -/
theorem foldl_push_filter (steps done : List Part) :
    (steps.filter (· ≠ .here)).foldl push done = steps.foldl push done := by
  induction steps generalizing done with
  | nil => rfl
  | cons s steps ih =>
    by_cases hs : s = .here
    · rw [List.filter_cons_of_neg (by simpa using hs), ih, hs]
      rfl
    · rw [List.filter_cons_of_pos (by simpa using hs), List.foldl_cons, ih, List.foldl_cons]

/-- Taking what is left of some steps leads where the steps lead. -/
theorem foldl_push_reduce {steps : List Part} (h : ∀ s ∈ steps, s ≠ .root) (done : List Part) :
    (reduce steps).foldl push done = steps.foldl push done := by
  induction steps using List.reverseRecOn with
  | nil => rfl
  | append_singleton steps s ih =>
    have hbefore := ih fun t ht => h t (List.mem_append_left _ ht)
    obtain ⟨left, ups, hleft⟩ := foldl_push_relative (fun t ht => h t (List.mem_append_left _ ht)) [] 0
    have hreduce : reduce steps = walk ups left.reverse := by
      rw [reduce, show steps.foldl push [] = _ from hleft]
      simp [walk]
    have hlast : reduce (steps ++ [s]) = (push (left.map Part.name ++ List.replicate ups .up) s).reverse := by
      rw [reduce, List.foldl_append, show steps.foldl push [] = _ from hleft]
      rfl
    rw [List.foldl_append, ← hbefore, hreduce, hlast]
    cases s with
    | root => exact absurd rfl (h .root (by simp))
    | here => simp [push, walk]
    | name n => simp [push, walk]
    | up =>
      cases left with
      | cons n left => simp [push, walk]
      | nil =>
        have hpush : push (([] : List Text).map Part.name ++ List.replicate ups .up) .up = List.replicate (ups + 1) .up := by
          cases ups <;> rfl
        rw [hpush, List.reverse_replicate, walk, List.replicate_succ']
        simp

/-- A relative path is walked from where the path before it leads. -/
theorem reduce_join {other : Path} (h : isAbsolute other = false) (dir : Path) :
    reduce (parts (join dir other)) = reduce (parts dir ++ parts other) := by
  by_cases hd : dir = []
  · subst hd
    simp only [join, h, true_or, if_true, Bool.false_eq_true, if_false, List.nil_append]
    rfl
  · rw [parts_join_relative hd h, steps_of_relative h]
    simp only [reduce, List.foldl_append, foldl_push_filter]

theorem foldl_push_ups_rooted (names : List Text) (count : Nat) :
    (List.replicate count Part.up).foldl push (names.map Part.name ++ [.root]) =
      (names.drop count).map Part.name ++ [.root] := by
  induction count generalizing names with
  | zero => simp
  | succ count ih =>
    rw [List.replicate_succ, List.foldl_cons]
    cases names with
    | cons n names => exact ih names
    | nil =>
      rw [List.drop_nil]
      exact (ih []).trans (by rw [List.drop_nil])

/-- A walk from the root, `names` being those that lead there in reverse. -/
theorem foldl_push_walk (ups : Nat) (names downs : List Text) :
    (walk ups downs).foldl push (names.map Part.name ++ [.root]) =
      (downs.reverse ++ names.drop ups).map Part.name ++ [.root] := by
  rw [walk, List.foldl_append, foldl_push_ups_rooted, foldl_push_names]
  simp

/-! ## Relative paths as moves -/

/-- What a relative path does to the place that it is read in, a place being the names that lead there from the root,
the last one first. -/
def Moves (path : Path) (move : List Text → List Text) : Prop :=
  ∀ place : List Text, (parts path).foldl push (place.map Part.name ++ [.root]) = (move place).map Part.name ++ [.root]

section Moves

variable {a b dir : Path} {f g : List Text → List Text}

theorem moves_of_reduce {path : Path} (h : isAbsolute path = false) {above : Nat} {names : List Text}
    (hr : reduce (parts path) = walk above names) : Moves path fun place => names.reverse ++ place.drop above :=
  fun place => by rw [← foldl_push_reduce (ne_root_of_relative h), hr, foldl_push_walk]

theorem Moves.join (ha : Moves a f) (hb : Moves b g) (h : isAbsolute b = false) :
    Moves (Path.join a b) fun place => g (f place) := by
  intro place
  rw [← hb, ← ha]
  by_cases hne : a = []
  · subst hne
    simp only [Path.join, h, true_or, if_true, Bool.false_eq_true, if_false, List.nil_append]
    rfl
  · rw [parts_join_relative hne h, steps_of_relative h, List.foldl_append, foldl_push_filter]

theorem isAbsolute_join_relative (ha : isAbsolute a = false) (hb : isAbsolute b = false) :
    isAbsolute (Path.join a b) = false := by
  cases a with
  | nil => simp [Path.join, hb]
  | cons c rest =>
    rw [join_relative hb]
    exact ha

theorem parts_normalize (path : Path) :
    parts (normalize path) = if reduce (parts path) = [] then [.here] else reduce (parts path) :=
  parts_ofParts (reduced_reduce path)

theorem isAbsolute_normalize_relative {path : Path} (h : isAbsolute path = false) :
    isAbsolute (normalize path) = false := by
  obtain ⟨above, names, -, hr⟩ := reduce_relative h
  rw [← Bool.not_eq_true, isAbsolute_iff, parts_normalize, hr]
  split <;> simp [walk]

theorem Moves.normalize (ha : Moves a f) (h : isAbsolute a = false) : Moves (Path.normalize a) f := by
  intro place
  rw [← ha, ← foldl_push_reduce (ne_root_of_relative h), parts_normalize]
  split
  · next he =>
    rw [he]
    rfl
  · rfl

theorem Moves.reduce_join (ha : Moves a f) (h : isAbsolute a = false) {here : Path} {place : List Text}
    (hr : reduce (parts here) = .root :: place.reverse.map Part.name) :
    reduce (parts (Path.join here a)) = .root :: (f place).reverse.map Part.name := by
  have hstack : (parts here).foldl push [] = place.map Part.name ++ [.root] := by
    rw [reduce, List.reverse_eq_iff] at hr
    simpa using hr
  rw [Path.reduce_join h, reduce, List.foldl_append, hstack, ha]
  simp

/-- Two relative paths lead to the same place from everywhere if and only if they are the same move. -/
theorem absolutize_eq_iff (ha : isAbsolute a = false) (hb : isAbsolute b = false) (hf : Moves a f) (hg : Moves b g) :
    (∀ here, isAbsolute here = true → absolutize here a = absolutize here b) ↔
      ∀ place : List Text, (∀ n ∈ place, (Part.name n).IsSegment) → f place = g place := by
  constructor
  · intro h place hplace
    have hsegments : ∀ s ∈ place.reverse.map Part.name, s.IsSegment := by
      intro s hs
      obtain ⟨n, hn, rfl⟩ := List.mem_map.1 hs
      exact hplace n (List.mem_reverse.1 hn)
    have hh : isAbsolute (ofParts (.root :: place.reverse.map Part.name)) = true := rfl
    have hr : reduce (parts (ofParts (.root :: place.reverse.map Part.name))) =
        .root :: place.reverse.map Part.name := by
      rw [parts_ofParts_rooted hsegments, reduce_rooted]
    have heq := congrArg parts (h _ hh)
    rw [absolutize_eq, absolutize_eq, parts_normalize_absolute (isAbsolute_join hh a),
      parts_normalize_absolute (isAbsolute_join hh b), hf.reduce_join ha hr, hg.reduce_join hb hr] at heq
    have hmap := (List.map_injective_iff.2 fun m n hmn => Part.name.inj hmn) (List.cons.inj heq).2
    exact List.reverse_injective hmap
  · intro h here hh
    obtain ⟨names, hnames, hr⟩ := reduce_absolute hh
    rw [← names.reverse_reverse] at hr
    rw [absolutize_eq, absolutize_eq, normalize_eq, normalize_eq, hf.reduce_join ha hr, hg.reduce_join hb hr,
      h _ fun n hn => hnames n (List.mem_reverse.1 hn)]

end Moves

/-- How far a path goes up before it goes down. -/
def ups (path : Path) : Nat := (reduce (parts path)).count .up

/-- How far a path goes down in the end. -/
def downs (path : Path) : Nat := (reduce (parts path)).countP fun
  | .name _ => true
  | _ => false

theorem ups_eq {path : Path} {above : Nat} {names : List Text} (h : reduce (parts path) = walk above names) :
    ups path = above := by
  have hnames : (names.map Part.name).count .up = 0 := List.count_eq_zero.2 (by simp)
  rw [ups, h, walk, List.count_append, List.count_replicate_self, hnames, Nat.add_zero]

theorem downs_eq {path : Path} {above : Nat} {names : List Text} (h : reduce (parts path) = walk above names) :
    downs path = names.length := by
  rw [downs, h, walk, List.countP_append, List.countP_replicate, List.countP_map]
  simp [Function.comp_def]

/-- There is always another name. -/
theorem exists_fresh (names : List Text) : ∃ n, (Part.name n).IsSegment ∧ n ∉ names := by
  refine ⟨List.replicate ((names.map List.length).sum + 1) 'a', ⟨?_, ?_⟩, fun hmem => ?_⟩
  · exact fun hslash => absurd (List.eq_of_mem_replicate hslash) (by decide)
  · simp [step?, Part.text, List.replicate_succ]
  · have hle := List.le_sum_of_mem (List.mem_map_of_mem (f := List.length) hmem)
    rw [List.length_replicate] at hle
    omega

variable {above count : Nat} {names : List Text}

/-- A walk makes no difference to steps up that follow it if and only if it goes down as far as it went up, and the
steps up go beyond that. -/
theorem drop_walk_iff : (∀ from' : List Text, (∀ n ∈ from', (Part.name n).IsSegment) →
      (names ++ from'.drop above).drop count = from'.drop count) ↔ names.length = above ∧ above ≤ count := by
  refine ⟨fun h => ?_, fun ⟨hlength, hle⟩ from' _ => ?_⟩
  · obtain ⟨n, hsegment, hfresh⟩ := exists_fresh names
    have hn := h (List.replicate (above + count + 1) n) fun m hm => List.eq_of_mem_replicate hm ▸ hsegment
    rw [List.drop_replicate, List.drop_replicate] at hn
    have hlength := congrArg List.length hn
    simp only [List.length_drop, List.length_append, List.length_replicate] at hlength
    refine ⟨by omega, Nat.le_of_not_lt fun hlt => hfresh ?_⟩
    -- A name of the walk is still there, where the other side has only names that are none of it.
    obtain ⟨m, rest, hm⟩ := List.exists_cons_of_ne_nil (l := names.drop count) (by simp; omega)
    have hmem : m ∈ (names ++ List.replicate (above + count + 1 - above) n).drop count := by
      rw [List.drop_append_of_le_length (by omega), hm]
      exact List.mem_cons_self
    rw [hn] at hmem
    exact List.eq_of_mem_replicate hmem ▸ List.mem_of_mem_drop (hm ▸ List.mem_cons_self)
  · rw [List.drop_append, List.drop_drop, List.drop_eq_nil_of_le (by omega), List.nil_append]
    congr 1
    omega

/-- A walk that is taken twice leads nowhere if and only if it has no steps. -/
theorem walk_twice_iff : (∀ from' : List Text, (∀ n ∈ from', (Part.name n).IsSegment) →
      names ++ (names ++ from'.drop above).drop above = from') ↔ names.length = above ∧ above ≤ 0 := by
  refine ⟨fun h => ?_, fun ⟨hlength, hle⟩ from' _ => ?_⟩
  · obtain ⟨n, hsegment, hfresh⟩ := exists_fresh names
    have hn := h (List.replicate (2 * above + 1) n) fun m hm => List.eq_of_mem_replicate hm ▸ hsegment
    rw [List.drop_replicate] at hn
    have hnil : names = [] := by
      cases names with
      | nil => rfl
      | cons m names =>
        have hm : m ∈ List.replicate (2 * above + 1) n := hn ▸ List.mem_cons_self
        exact absurd (List.eq_of_mem_replicate hm ▸ List.mem_cons_self) hfresh
    have hlength := congrArg List.length hn
    simp only [hnil, List.nil_append, List.length_drop, List.length_replicate, List.length_nil] at hlength ⊢
    omega
  · obtain rfl : above = 0 := by omega
    obtain rfl : names = [] := List.length_eq_zero_iff.1 hlength
    rfl

end Path
end CjsInterop
