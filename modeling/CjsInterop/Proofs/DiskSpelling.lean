import CjsInterop.Disk
import CjsInterop.Proofs.NearestManifest

/-! A file tree answers alike to all spellings of a path to a file in a directory: idle segments lead
nowhere, and a segment after them meets the same obstacles. -/

namespace CjsInterop

namespace Path

/-- The segments that are steps. -/
def live (segments : List Text) : List Text := segments.filter fun s => (step? s).isSome

theorem live_append (a b : List Text) : live (a ++ b) = live a ++ live b := by
  simp [live]

theorem live_live (a : List Text) : live (live a) = live a := by
  simp [live]

theorem step?_text {segment : Text} {part : Part} (h : step? segment = some part) : part.text = segment := by
  unfold step? at h
  split at h
  · simp at h
  · split at h
    · next hup =>
      obtain rfl : Part.up = part := by simpa using h
      exact hup.symm
    · obtain rfl : Part.name segment = part := by simpa using h
      rfl

theorem live_eq (segments : List Text) : live segments = (segments.filterMap step?).map Part.text := by
  induction segments with
  | nil => rfl
  | cons s rest ih =>
    cases hs : step? s with
    | none => simpa [live, hs] using ih
    | some part => simpa [live, hs, step?_text hs] using ih

end Path

namespace Disk

variable {disk : Disk} {last : Text}

theorem follow_blocked {mayBeNew : Bool} {onLink : Location → List Text → Except FileError Location}
    {location : Location} (h : disk.find? location ≠ some .directory) {steps : List Text} (hne : steps ≠ []) :
    follow disk mayBeNew onLink location steps =
      .error (if disk.find? location = none then .notFound else .notDirectory) := by
  obtain ⟨s, rest, rfl⟩ := List.exists_cons_of_ne_nil hne
  unfold follow
  split
  · next hd => exact absurd hd h
  · next hf => simp [hf]
  · next hf => simp [hf]

/-- A step that is still to come makes the idle segments before it superfluous. -/
theorem follow_live {onLink : Location → List Text → Except FileError Location}
    (honLink : ∀ location steps, onLink location (steps ++ [last]) = onLink location (Path.live steps ++ [last]))
    (steps : List Text) (location : Location) :
    follow disk false onLink location (steps ++ [last]) =
      follow disk false onLink location (Path.live steps ++ [last]) := by
  induction steps generalizing location with
  | nil => rfl
  | cons s steps ih =>
    by_cases hd : disk.find? location = some .directory
    · by_cases hidle : s = [] ∨ s = ".".toList
      · have hlive : Path.live (s :: steps) = Path.live steps := by
          have hs : Path.step? s = none := if_pos hidle
          simp [Path.live, hs]
        rw [hlive, ← ih, List.cons_append, follow, hd]
        simp only [hidle, if_true]
      · have hlive : Path.live (s :: steps) = s :: Path.live steps := by
          have hs : (Path.step? s).isSome := by
            unfold Path.step?
            rw [if_neg hidle]
            split <;> rfl
          simp [Path.live, hs]
        rw [hlive, List.cons_append, List.cons_append, follow, follow, hd]
        simp only [hidle, if_false, ih]
        by_cases hup : s = "..".toList
        · simp only [hup, if_true]
        · by_cases hlong : nameLimit < Text.byteLength s
          · simp only [hup, hlong, if_true, if_false]
          · simp only [hup, hlong, if_false]
            cases disk.find? (s :: location) with
            | none => rfl
            | some node =>
              cases node with
              | file content => rfl
              | directory => rfl
              | link target =>
                simp only [← List.append_assoc]
                rw [honLink, honLink _ (_ ++ Path.live steps)]
                simp only [Path.live_append, Path.live_live]
    · rw [follow_blocked hd (by simp), follow_blocked hd (by simp)]

theorem walk_live (links : Nat) (location : Location) (steps : List Text) :
    walk disk false links location (steps ++ [last]) = walk disk false links location (Path.live steps ++ [last]) := by
  induction links generalizing location steps with
  | zero => rfl
  | succ links ih => exact follow_live ih steps location

/-- The segments of a name in a directory, spelled from the root. -/
theorem join_segments {dir : Path} {name : Text} (hd : Path.isAbsolute dir = true) (hn : '/' ∉ name) :
    ∃ steps segments, Path.join dir name = '/' :: steps ∧ Text.splitAt '/' steps = segments ++ [name] ∧
      Path.parts dir = .root :: segments.filterMap Path.step? := by
  rw [Path.join_relative (Path.isAbsolute_of_not_mem hn)]
  obtain ⟨rest, rfl⟩ : ∃ rest, dir = '/' :: rest := by
    cases dir <;> simp_all [Path.isAbsolute]
  by_cases hl : ('/' :: rest).getLast? = some '/'
  · have hs : Path.slashAfter ('/' :: rest) = [] := if_pos (.inr hl)
    rw [hs, List.append_nil]
    by_cases hr : rest = []
    · subst hr
      exact ⟨name, [], rfl, Text.splitAt_of_not_mem hn, rfl⟩
    · obtain ⟨front, rfl⟩ : ∃ front, rest = front ++ ['/'] := by
        rw [List.getLast?_cons_of_ne_nil hr] at hl
        exact List.getLast?_eq_some_iff.1 hl
      refine ⟨front ++ '/' :: name, Text.splitAt '/' front, by simp, ?_, ?_⟩
      · rw [Text.splitAt_append, Text.splitAt_of_not_mem hn]
      · rw [Path.parts_absolute, Text.splitAt_append]
        simp [Text.splitAt, Path.step?]
  · have hs : Path.slashAfter ('/' :: rest) = ['/'] := if_neg (by simp [hl])
    refine ⟨rest ++ '/' :: name, Text.splitAt '/' rest, by simp [hs], ?_, rfl⟩
    rw [Text.splitAt_append, Text.splitAt_of_not_mem hn]

theorem locate_join {name : Text} (hn : '/' ∉ name) (hne : name ≠ []) (dir : Path) :
    disk.locate false (Path.join dir name) =
      if Path.isAbsolute (Path.join disk.workingDirectory dir) then
        disk.walk false (linkLimit + 1) []
          ((Path.parts (Path.join disk.workingDirectory dir)).tail.map Path.Part.text ++ [name])
      else .error .notFound := by
  have ho := Path.isAbsolute_of_not_mem hn
  have hnil : Path.join dir name ≠ [] := by
    rw [Path.join_relative ho]
    simp [hne]
  unfold locate
  rw [if_neg hnil, Path.join_join ho]
  generalize Path.join disk.workingDirectory dir = place
  cases hp : Path.isAbsolute place with
  | true =>
    obtain ⟨steps, segments, hj, hsplit, hparts⟩ := join_segments hp hn
    rw [hj, hparts, List.tail_cons, ← Path.live_eq, ← walk_live, ← hsplit]
    rfl
  | false =>
    have hrel : ∀ steps, Path.join place name ≠ '/' :: steps := by
      intro steps hs
      rw [Path.join_relative ho] at hs
      cases place with
      | nil =>
        simp only [Path.slashAfter, true_or, if_true, List.nil_append] at hs
        simp [hs] at hn
      | cons c rest =>
        obtain ⟨rfl, -⟩ := List.cons.inj hs
        simp [Path.isAbsolute] at hp
    split
    · next steps hs => exact absurd hs (hrel steps)
    · rfl

/-- Where a name in a directory leads depends only on the steps of the directory. -/
theorem locate_congr {name : Text} (hn : '/' ∉ name) (hne : name ≠ []) {a b : Path}
    (h : Path.parts a = Path.parts b) :
    disk.locate false (Path.join a name) = disk.locate false (Path.join b name) := by
  have hp := Path.parts_join_congr disk.workingDirectory h
  have habs : Path.isAbsolute (Path.join disk.workingDirectory a) =
      Path.isAbsolute (Path.join disk.workingDirectory b) := by
    rw [Bool.eq_iff_iff, Path.isAbsolute_iff, Path.isAbsolute_iff, hp]
  rw [locate_join hn hne, locate_join hn hne, hp, habs]

/-- The part of a file tree that inspecting a module needs. -/
def view (disk : Disk) : FileView Id where
  isFile path := pure (disk.kind? path == some .file)
  read path := pure (disk.read path)

theorem view_ignoresSpelling (disk : Disk) : disk.view.IgnoresSpelling := by
  have hl : ∀ {a b : Path}, Path.parts a = Path.parts b →
      disk.locate false (Manifest.fileIn a) = disk.locate false (Manifest.fileIn b) :=
    fun h => locate_congr (by decide) (by decide) h
  constructor
  · intro a b h
    simp only [view, kind?, hl h]
  · intro a b h
    simp only [view, read, hl h]

end Disk
end CjsInterop
