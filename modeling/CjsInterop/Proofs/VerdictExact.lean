import CjsInterop.Proofs.DiskSpelling
import CjsInterop.Verdict

/-! A verdict is a fact about the files alone. It is yes exactly for the modules that are certain to be
CommonJS, whatever was asked before and however far other verdicts have got. -/

namespace CjsInterop

namespace Verdict

/-- The module that `specifier` names in `importer` can be shown to be CommonJS: both loaders take it
for the same plain file, and its name, its manifest or its content says so. -/
def Certain (g : Grounds Id) (specifier : Text) (importer : Path) : Prop :=
  Builtin.isBuiltin specifier = false ∧
    ∃ imported required,
      (g.resolve .importing importer specifier).run = some imported ∧
      (g.resolve .requiring importer specifier).run = some required ∧
      imported.query? = none ∧ imported.fragment? = none ∧ Path.isAbsolute imported.path ∧
      (g.view.isFile imported.path).run ∧ Path.parts imported.path = Path.parts required.path ∧
      (Path.extension? imported.path = some "cjs".toList ∨
        Path.extension? imported.path = some "js".toList ∧
          ((Manifest.governing g.view imported.path).bind Manifest.system? = some .commonJs ∨
            (Manifest.governing g.view imported.path).bind Manifest.system? = none ∧
              ∃ source surface, (g.view.read imported.path).run = .ok source ∧
                Surface.ofSource source = .ok surface))

variable {g : Grounds Id} {view : FileView Id}

theorem commonFile?_eq_some_iff {specifier : Text} {importer path : Path} :
    (commonFile? g specifier importer).run = some path ↔
      ∃ imported required,
        (g.resolve .importing importer specifier).run = some imported ∧
        (g.resolve .requiring importer specifier).run = some required ∧
        imported.isPlainFile ∧ (g.view.isFile imported.path).run ∧
        Path.parts imported.path = Path.parts required.path ∧ imported.path = path := by
  unfold commonFile?
  obtain ⟨imported?, hi⟩ : ∃ r, g.resolve .importing importer specifier = pure r := ⟨_, rfl⟩
  obtain ⟨required?, hr⟩ : ∃ r, g.resolve .requiring importer specifier = pure r := ⟨_, rfl⟩
  rw [hi, hr]
  cases imported? with
  | none => simp
  | some imported =>
    obtain ⟨isFile, hf⟩ : ∃ b, g.view.isFile imported.path = pure b := ⟨_, rfl⟩
    cases required? with
    | none =>
      simp only [hf, pure_bind, Id.run_pure]
      cases imported.isPlainFile <;> cases isFile <;> simp
    | some required =>
      simp only [hf, pure_bind, Id.run_pure]
      by_cases hplain : imported.isPlainFile
      · by_cases hfile : isFile
        · by_cases hparts : Path.parts imported.path = Path.parts required.path <;>
            simp [hplain, hfile, hparts, hf]
        · simp [hplain, hfile, hf]
      · simp [hplain]

/-- What the name of a file and the manifest above it say, with no memory to read from. -/
def uncachedFindingFor (g : Grounds Id) (path : Path) : Finding :=
  if Path.extension? path = some "cjs".toList then .decided true
  else if Path.extension? path = some "js".toList then
    match (Manifest.governing g.view path).bind Manifest.system? with
    | some .esModule => .decided false
    | some .commonJs => .decided true
    | none =>
      match (g.view.read path).run with
      | .ok source => .content source
      | .error _ => .decided false
  else .decided false

def uncachedFinding (g : Grounds Id) (specifier : Text) (importer : Path) : Finding :=
  if Builtin.isBuiltin specifier then .decided false
  else
    match (commonFile? g specifier importer).run with
    | some path => uncachedFindingFor g path
    | none => .decided false

/-- The verdict on a finding when contents can be inspected. -/
def answer : Finding → Bool
  | .decided isCommonJs => isCommonJs
  | .content source => ofContent source

theorem findingFor_sound (hv : g.view.IgnoresSpelling) {cache : ManifestCache}
    (hc : Manifest.Sound g.view cache) (path : Path) :
    ((findingFor g path).run cache).1 = uncachedFindingFor g path ∧
      Manifest.Sound g.view ((findingFor g path).run cache).2 := by
  unfold findingFor uncachedFindingFor
  cases hext : Path.extension? path with
  | none => exact ⟨rfl, hc⟩
  | some extension =>
    by_cases hcjs : extension = "cjs".toList
    · simp only [hcjs, if_true]
      exact ⟨rfl, hc⟩
    · by_cases hjs : extension = "js".toList
      · obtain ⟨hsame, hsound⟩ := Manifest.nearest_sound hv hc path
        obtain ⟨⟨found, left⟩, hrun⟩ : ∃ r, (Manifest.nearest g.view path).run cache = pure r := ⟨_, rfl⟩
        rw [hrun] at hsame hsound
        have hsystem : found.bind Manifest.system? = _ := Manifest.rel_system? hsame
        rw [← hsystem]
        subst hjs
        simp only [hcjs, if_false, if_true, Option.some.injEq, StateT.run_bind, hrun, pure_bind]
        cases found.bind Manifest.system? with
        | some system => cases system <;> exact ⟨rfl, hsound⟩
        | none =>
          obtain ⟨answer, hr⟩ : ∃ answer, g.view.read path = pure answer := ⟨_, rfl⟩
          rw [hr]
          cases answer <;> exact ⟨rfl, hsound⟩
      · simp only [hcjs, hjs, if_false, Option.some.injEq]
        exact ⟨rfl, hc⟩

theorem answer_uncachedFindingFor {path : Path} :
    answer (uncachedFindingFor g path) ↔
      Path.extension? path = some "cjs".toList ∨
        Path.extension? path = some "js".toList ∧
          ((Manifest.governing g.view path).bind Manifest.system? = some .commonJs ∨
            (Manifest.governing g.view path).bind Manifest.system? = none ∧
              ∃ source surface, (g.view.read path).run = .ok source ∧
                Surface.ofSource source = .ok surface) := by
  unfold uncachedFindingFor
  by_cases hcjs : Path.extension? path = some "cjs".toList
  · simp [hcjs, answer]
  · by_cases hjs : Path.extension? path = some "js".toList
    · rw [if_neg hcjs, if_pos hjs]
      simp only [hjs, true_and]
      cases (Manifest.governing g.view path).bind Manifest.system? with
      | some system => cases system <;> simp [answer]
      | none =>
        simp only [reduceCtorEq, false_or, true_and]
        cases (g.view.read path).run with
        | error e => simp [answer]
        | ok source =>
          cases hsurface : Surface.ofSource source with
          | ok surface => simp [answer, ofContent, hsurface, Except.isOk, Except.toBool]
          | error e => simp [answer, ofContent, hsurface, Except.isOk, Except.toBool]
    · rw [if_neg hcjs, if_neg hjs]
      simp only [hcjs, hjs, answer, false_and, or_self, Bool.false_eq_true]

/-- What can be found out without a memory is yes exactly when the module is certain. -/
theorem answer_uncachedFinding {specifier : Text} {importer : Path} :
    answer (uncachedFinding g specifier importer) ↔ Certain g specifier importer := by
  unfold uncachedFinding
  by_cases hb : Builtin.isBuiltin specifier
  · simp [hb, answer, Certain]
  · rw [if_neg hb]
    constructor
    · intro h
      cases hfile : (commonFile? g specifier importer).run with
      | none => simp [hfile, answer] at h
      | some path =>
        obtain ⟨imported, required, hi, hr, hplain, hisFile, hparts, rfl⟩ := commonFile?_eq_some_iff.1 hfile
        obtain ⟨⟨hq, hf⟩, ha⟩ := by simpa [Resolved.isPlainFile] using hplain
        rw [hfile] at h
        exact ⟨by simpa using hb, imported, required, hi, hr, hq, hf, ha, hisFile, hparts,
          answer_uncachedFindingFor.1 h⟩
    · rintro ⟨-, imported, required, hi, hr, hq, hf, ha, hisFile, hparts, hgrounds⟩
      have hplain : imported.isPlainFile := by simp [Resolved.isPlainFile, hq, hf, ha]
      rw [commonFile?_eq_some_iff.2 ⟨imported, required, hi, hr, hplain, hisFile, hparts, rfl⟩]
      exact answer_uncachedFindingFor.2 hgrounds

theorem finding_sound (hv : g.view.IgnoresSpelling) {cache : ManifestCache}
    (hc : Manifest.Sound g.view cache) (specifier : Text) (importer : Path) :
    ((finding g specifier importer).run cache).1 = uncachedFinding g specifier importer ∧
      Manifest.Sound g.view ((finding g specifier importer).run cache).2 := by
  unfold finding uncachedFinding
  by_cases hb : Builtin.isBuiltin specifier
  · simp only [hb, if_true]
    exact ⟨rfl, hc⟩
  · obtain ⟨file?, hfile⟩ : ∃ r, commonFile? g specifier importer = pure r := ⟨_, rfl⟩
    simp only [hb, hfile]
    cases file? with
    | none => exact ⟨rfl, hc⟩
    | some path => exact findingFor_sound hv hc path

theorem Inspector.ready_acquire {succeeds : Nat → Bool} (h : ∀ n, succeeds n) (i : Inspector) :
    (i.acquire succeeds).ready := by
  unfold Inspector.acquire
  split
  · assumption
  · exact h _

/-- The parts of a verdict: a finding, and the reader when there is a content to be read. -/
theorem run_isCommonJs {specifier : Text} {importer : Path} {session : Session} {found : Finding}
    {left : ManifestCache} (h : (finding g specifier importer).run session.manifests = pure (found, left)) :
    (isCommonJs g specifier importer).run session =
      match found with
      | .decided isCommonJs => (isCommonJs, { session with manifests := left })
      | .content source =>
        ((session.inspector.acquire g.succeeds).ready && ofContent source,
          ⟨left, session.inspector.acquire g.succeeds⟩) := by
  unfold isCommonJs
  simp only [StateT.run_bind, StateT.run_get, pure_bind, h]
  cases found <;> rfl

theorem isCommonJs_sound (hv : g.view.IgnoresSpelling) {session : Session}
    (hc : Manifest.Sound g.view session.manifests) (specifier : Text) (importer : Path) :
    Manifest.Sound g.view ((isCommonJs g specifier importer).run session).2.manifests := by
  obtain ⟨-, hsound⟩ := finding_sound hv hc specifier importer
  obtain ⟨⟨found, left⟩, hrun⟩ : ∃ r, (finding g specifier importer).run session.manifests = pure r := ⟨_, rfl⟩
  rw [hrun] at hsound
  rw [run_isCommonJs hrun]
  cases found <;> exact hsound

theorem isCommonJs_answer (hv : g.view.IgnoresSpelling) (hs : ∀ n, g.succeeds n) {session : Session}
    (hc : Manifest.Sound g.view session.manifests) (specifier : Text) (importer : Path) :
    ((isCommonJs g specifier importer).run session).1 = answer (uncachedFinding g specifier importer) := by
  obtain ⟨hfinding, -⟩ := finding_sound hv hc specifier importer
  obtain ⟨⟨found, left⟩, hrun⟩ : ∃ r, (finding g specifier importer).run session.manifests = pure r := ⟨_, rfl⟩
  rw [hrun] at hfinding
  rw [run_isCommonJs hrun, ← hfinding]
  cases found with
  | decided isCommonJs => rfl
  | content source =>
    simp only [Inspector.ready_acquire hs, Bool.true_and]
    rfl

/-- One thing that is asked of the shared state. A verdict that another caller is in the middle of
counts as the part of it that is done. -/
inductive Event where
  | nearest (path : Path)
  | resolve (loader : Loader) (specifier : Text) (importer : Path)
  | verdict (specifier : Text) (importer : Path)
  | finding (specifier : Text) (importer : Path)
  | acquire
  deriving DecidableEq, Repr

/-- The state that an event leaves behind. -/
def Event.after (g : Grounds Id) (session : Session) : Event → Session
  | nearest path => { session with manifests := ((Manifest.nearest g.view path).run session.manifests).2 }
  | resolve _ _ _ => session
  | verdict specifier importer => ((isCommonJs g specifier importer).run session).2
  | finding specifier importer =>
    { session with manifests := ((Verdict.finding g specifier importer).run session.manifests).2 }
  | acquire => { session with inspector := session.inspector.acquire g.succeeds }

/-- The state after a history that began with nothing known. -/
def after (g : Grounds Id) (history : List Event) : Session :=
  history.foldl (Event.after g) {}

theorem Event.after_sound (hv : g.view.IgnoresSpelling) {session : Session}
    (hc : Manifest.Sound g.view session.manifests) (event : Event) :
    Manifest.Sound g.view (event.after g session).manifests := by
  cases event with
  | nearest path => exact (Manifest.nearest_sound hv hc path).2
  | resolve loader specifier importer => exact hc
  | verdict specifier importer => exact isCommonJs_sound hv hc specifier importer
  | finding specifier importer => exact (finding_sound hv hc specifier importer).2
  | acquire => exact hc

theorem after_sound (hv : g.view.IgnoresSpelling) (history : List Event) :
    Manifest.Sound g.view (after g history).manifests := by
  unfold after
  suffices h : ∀ session : Session, Manifest.Sound g.view session.manifests →
      Manifest.Sound g.view (history.foldl (Event.after g) session).manifests from
    h {} (Manifest.sound_nil g.view)
  induction history with
  | nil => exact fun _ hc => hc
  | cons event history ih => exact fun session hc => ih _ (event.after_sound hv hc)

/-- After any history, a verdict is yes exactly when the module is certain to be CommonJS. -/
theorem isCommonJs_iff_certain (g : Grounds Id) (hv : g.view.IgnoresSpelling) (hs : ∀ n, g.succeeds n)
    (history : List Event) (specifier : Text) (importer : Path) :
    ((isCommonJs g specifier importer).run (after g history)).1 = true ↔ Certain g specifier importer := by
  have ha := isCommonJs_answer hv hs (after_sound hv history) specifier importer
  rw [ha, answer_uncachedFinding]

/-- A package whose manifest declares no type, with one module in it. -/
def plainPackage : Disk :=
  (({} : Disk).add "/p/package.json" (.file (some "\x7b\x7d".toList))).add "/p/a.js"
    (.file (some "exports.a = 1".toList))

def plainGrounds : Grounds Id where
  view := plainPackage.view
  resolve _ _ _ := pure (some ⟨"/p/a.js", none, none⟩)

theorem isCommonJs_iff_certain_plain :
    ((isCommonJs plainGrounds "./a.js" "/p/b.js").run
        (after plainGrounds [.acquire, .verdict "./a.js" "/p/c.js", .nearest "/p//d.js"])).1 = true ∧
      Certain plainGrounds "./a.js" "/p/b.js" := by
  have hc : Certain plainGrounds "./a.js" "/p/b.js" := answer_uncachedFinding.1 (by decide +kernel)
  have hi := isCommonJs_iff_certain plainGrounds plainPackage.view_ignoresSpelling (fun _ => rfl)
  exact ⟨(hi _ "./a.js" "/p/b.js").2 hc, hc⟩

end Verdict
end CjsInterop
