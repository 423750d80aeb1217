import CjsInterop.Manifest.Nearest
import CjsInterop.Proofs.PathSteps

/-! The manifest that governs a file is the one that a walk without memory finds, whatever was asked
for before. The memory may hand it out under another spelling of its path. -/

namespace CjsInterop

namespace Manifest

/-- Where the manifest of a directory stands. -/
def fileIn (dir : Path) : Path := Path.join dir "package.json"

end Manifest

/-- Whether a directory has a manifest, and what it holds, does not depend on how the directory is
spelled. -/
structure FileView.IgnoresSpelling (view : FileView Id) : Prop where
  isFile {a b : Path} (h : Path.parts a = Path.parts b) :
    view.isFile (Manifest.fileIn a) = view.isFile (Manifest.fileIn b)
  read {a b : Path} (h : Path.parts a = Path.parts b) :
    view.read (Manifest.fileIn a) = view.read (Manifest.fileIn b)

namespace Manifest

/-- What the walk through `dirs` finds when nothing is remembered. -/
def uncachedIn (view : FileView Id) : List Path → Option Manifest
  | [] => none
  | dir :: above =>
    if isModulesDirectory dir then none
    else if (view.isFile (fileIn dir)).run then some (readFrom view (fileIn dir)).run
    else uncachedIn view above

/-- The manifest that governs a file, found by a walk from the directory of the file. -/
def governing (view : FileView Id) (path : Path) : Option Manifest :=
  match Path.parent? path with
  | some dir => uncachedIn view (Path.ancestors dir)
  | none => none

/-- Two manifests that differ at most in the spelling of their paths. -/
structure Same (a b : Manifest) : Prop where
  path : Path.parts a.path = Path.parts b.path
  type? : a.type? = b.type?

theorem Same.trans {a b c : Manifest} (h : Same a b) (h' : Same b c) : Same a c :=
  ⟨h.path.trans h'.path, h.type?.trans h'.type?⟩

theorem Same.system?_eq {a b : Manifest} (h : Same a b) : a.system? = b.system? := by
  simp only [system?, h.type?]

theorem rel_refl (a : Option Manifest) : Option.Rel Same a a := by
  cases a with
  | none => exact .none
  | some a => exact .some ⟨rfl, rfl⟩

theorem rel_trans {a b c : Option Manifest} (h : Option.Rel Same a b) (h' : Option.Rel Same b c) :
    Option.Rel Same a c := by
  cases h with
  | none => exact h'
  | some h =>
    cases h' with
    | some h' => exact .some (h.trans h')

theorem rel_system? {a b : Option Manifest} (h : Option.Rel Same a b) : a.bind system? = b.bind system? := by
  cases h with
  | none => rfl
  | some h => exact h.system?_eq

theorem parts_fileIn (dir : Path) : Path.parts (fileIn dir) = Path.parts dir ++ [.name "package.json"] :=
  Path.parts_join (by decide) rfl dir

theorem isModulesDirectory_congr {a b : Path} (h : Path.parts a = Path.parts b) :
    isModulesDirectory a = isModulesDirectory b := by
  simp only [isModulesDirectory, Path.fileName?, h]

theorem ofTypeValue_eq (path : Path) (value : Json) :
    ofTypeValue path value = (ofTypeValue [] value).map fun found => ⟨path, found.type?⟩ := by
  unfold ofTypeValue
  split
  · split <;> rfl
  · rfl

/-- The path of a manifest does not matter to what its text declares. -/
theorem ofText?_eq (path : Path) (text : Text) :
    ofText? path text = (ofText? [] text).map fun found => ⟨path, found.type?⟩ := by
  unfold ofText?
  cases Json.ofText? text with
  | none => rfl
  | some json =>
    simp only [Option.bind_some]
    unfold ofJson?
    split
    · exact ofTypeValue_eq path _
    · split
      · rfl
      · split
        · rfl
        · exact ofTypeValue_eq path _
        · rfl
    · rfl

variable {view : FileView Id}

theorem readFrom_congr (hv : view.IgnoresSpelling) {a b : Path} (h : Path.parts a = Path.parts b) :
    Same (readFrom view (fileIn a)).run (readFrom view (fileIn b)).run := by
  have hp : Path.parts (fileIn a) = Path.parts (fileIn b) := by rw [parts_fileIn, parts_fileIn, h]
  unfold readFrom
  rw [hv.read h]
  obtain ⟨answer, hr⟩ : ∃ answer, view.read (fileIn b) = pure answer := ⟨_, rfl⟩
  rw [hr]
  cases answer with
  | error e => exact ⟨hp, rfl⟩
  | ok content =>
    simp only [pure_bind, Id.run_pure]
    rw [ofText?_eq (fileIn a), ofText?_eq (fileIn b)]
    cases ofText? [] content with
    | none => exact ⟨hp, rfl⟩
    | some found => exact ⟨hp, rfl⟩

theorem uncachedIn_congr (hv : view.IgnoresSpelling) {l r : List Path} (h : l.map Path.parts = r.map Path.parts) :
    Option.Rel Same (uncachedIn view l) (uncachedIn view r) := by
  induction l generalizing r with
  | nil =>
    obtain rfl : r = [] := by simpa using h.symm
    exact .none
  | cons a l ih =>
    cases r with
    | nil => simp at h
    | cons b r =>
      simp only [List.map_cons, List.cons.injEq] at h
      obtain ⟨hab, hlr⟩ := h
      simp only [uncachedIn, isModulesDirectory_congr hab, hv.isFile hab]
      by_cases hm : isModulesDirectory b
      · simp only [hm, if_true]
        exact .none
      · by_cases hf : (view.isFile (fileIn b)).run
        · simp only [hm, hf, if_true]
          exact .some (readFrom_congr hv hab)
        · simp only [hm, hf]
          exact ih hlr

/-! A memory is sound when it holds, for each directory, what a walk from there finds. -/

def Sound (view : FileView Id) (cache : ManifestCache) : Prop :=
  ∀ entry ∈ cache, Option.Rel Same entry.2 (uncachedIn view (Path.ancestors entry.1))

theorem sound_nil (view : FileView Id) : Sound view [] := by
  simp [Sound]

theorem Sound.cons {cache : ManifestCache} (hc : Sound view cache) {dir : Path} {found : Option Manifest}
    (h : Option.Rel Same found (uncachedIn view (Path.ancestors dir))) : Sound view ((dir, found) :: cache) := by
  intro entry hentry
  rcases List.mem_cons.1 hentry with rfl | hentry
  · exact h
  · exact hc entry hentry

def remembered? (cache : ManifestCache) (dir : Path) : Option (Path × Option Manifest) :=
  cache.find? fun entry => Path.parts entry.1 == Path.parts dir

theorem Sound.remembered (hv : view.IgnoresSpelling) {cache : ManifestCache} (hc : Sound view cache)
    {dir key : Path} {found : Option Manifest} (h : remembered? cache dir = some (key, found)) :
    Option.Rel Same found (uncachedIn view (Path.ancestors dir)) := by
  have hkey : Path.parts key = Path.parts dir := by simpa using List.find?_some h
  have hmem : (key, found) ∈ cache := List.mem_of_find?_eq_some h
  exact rel_trans (hc _ hmem) (uncachedIn_congr hv (Path.ancestors_congr hkey))

theorem run_nearestIn_remembered {dir key : Path} {above : List Path} {cache : ManifestCache}
    {found : Option Manifest} (h : remembered? cache dir = some (key, found)) :
    (nearestIn view (dir :: above)).run cache = (found, cache) := by
  unfold remembered? at h
  simp only [nearestIn, StateT.run_bind, StateT.run_get, pure_bind, h]
  rfl

/-- What a walk that remembers nothing about `dir` finds there or else above. -/
def visit (view : FileView Id) (dir : Path) (above : List Path) (cache : ManifestCache) :
    Option Manifest × ManifestCache :=
  if isModulesDirectory dir then (none, cache)
  else if (view.isFile (fileIn dir)).run then (some (readFrom view (fileIn dir)).run, cache)
  else ((nearestIn view above).run cache).run

theorem run_nearestIn_new {dir : Path} {above : List Path} {cache : ManifestCache}
    (h : remembered? cache dir = none) :
    (nearestIn view (dir :: above)).run cache =
      ((visit view dir above cache).1, (dir, (visit view dir above cache).1) :: (visit view dir above cache).2) := by
  unfold remembered? at h
  simp only [nearestIn, StateT.run_bind, StateT.run_get, pure_bind, h]
  unfold visit
  by_cases hm : isModulesDirectory dir
  · simp only [hm, if_true]
    rfl
  · obtain ⟨exists?, hf⟩ : ∃ answer : Bool, view.isFile (fileIn dir) = pure answer := ⟨_, rfl⟩
    rw [show Path.join dir "package.json" = fileIn dir from rfl]
    simp only [hm, hf]
    cases exists? <;> rfl

theorem nearestIn_ancestors (hv : view.IgnoresSpelling) {cache : ManifestCache} (hc : Sound view cache)
    (dir : Path) :
    Option.Rel Same ((nearestIn view (Path.ancestors dir)).run cache).1
        (uncachedIn view (Path.ancestors dir)) ∧
      Sound view ((nearestIn view (Path.ancestors dir)).run cache).2 := by
  induction dir using Path.parent_induction generalizing cache with
  | step dir ih =>
    rw [Path.ancestors_eq]
    cases hr : remembered? cache dir with
    | some entry =>
      rw [run_nearestIn_remembered hr, ← Path.ancestors_eq]
      exact ⟨hc.remembered hv hr, hc⟩
    | none =>
      have hvisit : Option.Rel Same (visit view dir (((Path.parent? dir).map Path.ancestors).getD []) cache).1
            (uncachedIn view (Path.ancestors dir)) ∧
          Sound view (visit view dir (((Path.parent? dir).map Path.ancestors).getD []) cache).2 := by
        rw [Path.ancestors_eq]
        unfold visit uncachedIn
        by_cases hm : isModulesDirectory dir
        · simp only [hm, if_true]
          exact ⟨.none, hc⟩
        · by_cases hf : (view.isFile (fileIn dir)).run
          · simp only [hm, hf, if_true]
            exact ⟨rel_refl _, hc⟩
          · simp only [hm, hf]
            cases hp : Path.parent? dir with
            | none => exact ⟨.none, hc⟩
            | some above => exact ih above hp hc
      rw [run_nearestIn_new hr, ← Path.ancestors_eq]
      exact ⟨hvisit.1, hvisit.2.cons hvisit.1⟩

/-- Whatever was asked for before, a query finds the governing manifest, and the memory stays sound. -/
theorem nearest_sound (hv : view.IgnoresSpelling) {cache : ManifestCache} (hc : Sound view cache) (path : Path) :
    Option.Rel Same ((nearest view path).run cache).1 (governing view path) ∧
      Sound view ((nearest view path).run cache).2 := by
  unfold nearest governing
  cases Path.parent? path with
  | none => exact ⟨.none, hc⟩
  | some dir => exact nearestIn_ancestors hv hc dir

end Manifest
end CjsInterop
