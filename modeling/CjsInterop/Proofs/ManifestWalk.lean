import CjsInterop.Proofs.DiskSpelling
import Mathlib.Data.List.Forall2

/-! The manifest that governs a file, said without a memory: the first one on the way up, unless the way leaves
the package before. However many questions were answered earlier, each answer and all that is remembered are
what that way leads to. -/

namespace CjsInterop

namespace Manifest

/-- What the manifest file of a directory counts as. One that cannot be read, or is no manifest, declares no
type. -/
inductive Declares (view : FileView Id) (dir : Path) : Manifest → Prop
  | text {content : Text} {manifest : Manifest} (hr : (view.read (fileIn dir)).run = .ok content)
      (ht : ofText? (fileIn dir) content = some manifest) : Declares view dir manifest
  | malformed {content : Text} (hr : (view.read (fileIn dir)).run = .ok content)
      (ht : ofText? (fileIn dir) content = none) : Declares view dir ⟨fileIn dir, none⟩
  | unreadable {error : FileError} (hr : (view.read (fileIn dir)).run = .error error) :
      Declares view dir ⟨fileIn dir, none⟩

/-- What is found on the way up from a directory: nothing from a `node_modules` directory on, even when it has a
manifest, and nothing behind the last directory. -/
inductive Governs (view : FileView Id) : (dir : Path) → Option Manifest → Prop
  | boundary {dir : Path} (hm : isModulesDirectory dir) : Governs view dir none
  | here {dir : Path} {manifest : Manifest} (hm : ¬isModulesDirectory dir) (hf : (view.isFile (fileIn dir)).run)
      (hd : Declares view dir manifest) : Governs view dir (some manifest)
  | above {dir parent : Path} {found : Option Manifest} (hm : ¬isModulesDirectory dir)
      (hf : ¬(view.isFile (fileIn dir)).run) (hp : Path.parent? dir = some parent) (h : Governs view parent found) :
      Governs view dir found
  | top {dir : Path} (hm : ¬isModulesDirectory dir) (hf : ¬(view.isFile (fileIn dir)).run)
      (hp : Path.parent? dir = none) : Governs view dir none

/-- What is found for a file: the way up begins at its parent. -/
inductive GovernsFile (view : FileView Id) (path : Path) : Option Manifest → Prop
  | inside {dir : Path} {found : Option Manifest} (hp : Path.parent? path = some dir) (h : Governs view dir found) :
      GovernsFile view path found
  | top (hp : Path.parent? path = none) : GovernsFile view path none

variable {view : FileView Id}

theorem run_readFrom_ok {file : Path} {content : Text} (h : view.read file = pure (.ok content)) :
    (readFrom view file).run = (ofText? file content).getD ⟨file, none⟩ := by
  unfold readFrom
  rw [h]
  rfl

theorem run_readFrom_error {file : Path} {error : FileError} (h : view.read file = pure (.error error)) :
    (readFrom view file).run = ⟨file, none⟩ := by
  unfold readFrom
  rw [h]
  rfl

theorem declares_iff {dir : Path} {manifest : Manifest} :
    Declares view dir manifest ↔ manifest = (readFrom view (fileIn dir)).run := by
  constructor
  · intro h
    cases h with
    | text hr ht => rw [run_readFrom_ok hr, ht, Option.getD_some]
    | malformed hr ht => rw [run_readFrom_ok hr, ht, Option.getD_none]
    | unreadable hr => rw [run_readFrom_error hr]
  · rintro rfl
    obtain ⟨answer, hr⟩ : ∃ answer, view.read (fileIn dir) = pure answer := ⟨_, rfl⟩
    cases answer with
    | error error =>
      rw [run_readFrom_error hr]
      exact .unreadable hr
    | ok content =>
      rw [run_readFrom_ok hr]
      cases ht : ofText? (fileIn dir) content with
      | none => exact .malformed hr ht
      | some manifest => exact .text hr ht

/-- The way up leads to one answer, that of a walk over all directories above. -/
theorem governs_iff {dir : Path} {found : Option Manifest} :
    Governs view dir found ↔ found = uncachedIn view (Path.ancestors dir) := by
  constructor
  · intro h
    induction h with
    | boundary hm => rw [Path.ancestors_eq, uncachedIn, if_pos hm]
    | here hm hf hd => rw [Path.ancestors_eq, uncachedIn, if_neg hm, if_pos hf, declares_iff.1 hd]
    | above hm hf hp _ ih =>
      rw [Path.ancestors_eq, uncachedIn, if_neg hm, if_neg hf, hp]
      exact ih
    | top hm hf hp =>
      rw [Path.ancestors_eq, uncachedIn, if_neg hm, if_neg hf, hp]
      rfl
  · rintro rfl
    induction dir using Path.parent_induction with
    | step dir ih =>
      rw [Path.ancestors_eq, uncachedIn]
      by_cases hm : isModulesDirectory dir
      · rw [if_pos hm]
        exact .boundary hm
      · by_cases hf : (view.isFile (fileIn dir)).run
        · rw [if_neg hm, if_pos hf]
          exact .here hm hf (declares_iff.2 rfl)
        · rw [if_neg hm, if_neg hf]
          cases hp : Path.parent? dir with
          | none => exact .top hm hf hp
          | some parent => exact .above hm hf hp (ih parent hp)

theorem governsFile_iff {path : Path} {found : Option Manifest} :
    GovernsFile view path found ↔ found = governing view path := by
  unfold governing
  constructor
  · rintro (⟨hp, h⟩ | hp) <;> rw [hp]
    exact governs_iff.1 h
  · rintro rfl
    cases hp : Path.parent? path with
    | none => exact .top hp
    | some dir => exact .inside hp (governs_iff.2 rfl)

theorem wellFounded_parent : WellFounded fun above dir => Path.parent? dir = some above := by
  refine ⟨fun dir => ?_⟩
  induction dir using Path.parent_induction with
  | step dir ih => exact ⟨dir, ih⟩

/-- The answers to questions asked one after the other, and what is remembered in the end. -/
theorem run_nearest_all (hv : view.IgnoresSpelling) (paths : List Path) {cache : ManifestCache}
    (hc : Sound view cache) :
    List.Forall₂ (fun path answer => Option.Rel Same answer (governing view path)) paths
        ((paths.mapM (nearest view)).run cache).1 ∧
      Sound view ((paths.mapM (nearest view)).run cache).2 := by
  induction paths generalizing cache with
  | nil => exact ⟨.nil, hc⟩
  | cons path paths ih =>
    obtain ⟨hanswer, hsound⟩ := nearest_sound hv hc path
    obtain ⟨hanswers, hafter⟩ := ih hsound
    have hrun : ((path :: paths).mapM (nearest view)).run cache =
        (((nearest view path).run cache).1 ::
          ((paths.mapM (nearest view)).run ((nearest view path).run cache).2).1,
          ((paths.mapM (nearest view)).run ((nearest view path).run cache).2).2) := by
      rw [List.mapM_cons]
      rfl
    rw [hrun]
    exact ⟨.cons hanswer hanswers, hafter⟩

/-- Questions about any files, in any order: every answer is what the way up from the file leads to, and so is
everything that is remembered for a directory, up to the spelling of paths. There is always one such answer, as
the way up ends. -/
theorem nearest_governs (hv : view.IgnoresSpelling) (paths : List Path) :
    List.Forall₂ (fun path answer => ∃ found, GovernsFile view path found ∧ Option.Rel Same answer found) paths
        ((paths.mapM (nearest view)).run []).1 ∧
      (∀ entry ∈ ((paths.mapM (nearest view)).run []).2,
        ∃ found, Governs view entry.1 found ∧ Option.Rel Same entry.2 found) ∧
      (∀ dir, ∃! found, Governs view dir found) ∧
      WellFounded fun above dir => Path.parent? dir = some above := by
  obtain ⟨hanswers, hsound⟩ := run_nearest_all hv paths (sound_nil view)
  refine ⟨hanswers.imp fun path answer h => ⟨_, governsFile_iff.2 rfl, h⟩,
    fun entry hentry => ⟨_, governs_iff.2 rfl, hsound entry hentry⟩, fun dir => ?_, wellFounded_parent⟩
  exact ⟨_, governs_iff.2 rfl, fun found h => governs_iff.1 h⟩

end Manifest

/-- A package of modules that has a broken package in it, and one without a manifest. -/
def nestedPackages : Disk :=
  ((({} : Disk).add "/p/package.json" (.file (some "\x7b\"type\":\"module\"\x7d".toList))).add
    "/p/node_modules/broken/package.json" (.file (some "\x7b nope".toList))).add
    "/p/node_modules/loose/a.js" (.file (some []))

theorem nearest_governs_nestedPackages :
    nestedPackages.view.IgnoresSpelling ∧
      List.Forall₂ (fun path answer => ∃ found, Manifest.GovernsFile nestedPackages.view path found ∧
          Option.Rel Manifest.Same answer found)
        ["/p//lib/a.js".toList, "/p/node_modules/broken/a.js".toList, "/p/node_modules/loose/a.js".toList,
          "/p/lib/b.js".toList]
        [some ⟨"/p/package.json".toList, some "module".toList⟩,
          some ⟨"/p/node_modules/broken/package.json".toList, none⟩, none,
          some ⟨"/p/package.json".toList, some "module".toList⟩] := by
  have hv := nestedPackages.view_ignoresSpelling
  refine ⟨hv, ?_⟩
  have hanswers : ((["/p//lib/a.js".toList, "/p/node_modules/broken/a.js".toList,
      "/p/node_modules/loose/a.js".toList, "/p/lib/b.js".toList].mapM
        (Manifest.nearest nestedPackages.view)).run []).1 =
      [some ⟨"/p/package.json".toList, some "module".toList⟩,
        some ⟨"/p/node_modules/broken/package.json".toList, none⟩, none,
        some ⟨"/p/package.json".toList, some "module".toList⟩] := by decide +kernel
  rw [← hanswers]
  exact (Manifest.nearest_governs hv _).1

end CjsInterop
