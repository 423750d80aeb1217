import CjsInterop.Plugin
import CjsInterop.Proofs.DefiniteResolution
import CjsInterop.Proofs.VerdictExact

/-! The verdict on an import, and with it what becomes of a chunk, is a fact about the tree: it does not depend on
what has been asked before. Two trees with the same places and manifests can only differ in it by a text that it is
read off. -/

namespace CjsInterop

/-- The view of a tree that is the state, next to what is known of it. -/
abbrev Disk.stateView : FileView (StateT Memory (StateM Disk)) := (FileSystem.view Disk.fileSystem).lift

theorem Disk.run_isFile (path : Path) (memory : Memory) (current : Disk) :
    ((stateView.isFile path).run memory).run current = pure (((current.view.isFile path).run, memory), current) := by
  have hfile : (current.view.isFile path).run = decide (current.kind? path = some .file) := by
    rw [Bool.eq_iff_iff]
    simp [view]
  rw [hfile]
  rfl

/-- A question next to a state of its own, which it leaves alone. -/
theorem run_lifted {σ α : Type} {p : StateT Memory (StateM Disk) α} {a : α} {memory left : Memory} {current : Disk}
    (h : (p.run memory).run current = pure ((a, left), current)) (s : σ) :
    (((liftM p : StateT σ (StateT Memory (StateM Disk)) α).run s).run memory).run current =
      pure (((a, s), left), current) := by
  rw [StateT.run_monadLift, monadLift_self, StateT.run_bind, StateT.run_bind, h]
  rfl

/-! ## Manifests -/

namespace Manifest

variable {a b : Disk}

theorem uncachedIn_alike (h : Disk.Alike a b) (dirs : List Path) : uncachedIn a.view dirs = uncachedIn b.view dirs := by
  induction dirs with
  | nil => rfl
  | cons dir above ih =>
    have hfile : (a.view.isFile (fileIn dir)).run = (b.view.isFile (fileIn dir)).run :=
      congrArg (fun kind => kind == some FileKind.file) (Disk.kind?_eq h.places (fileIn dir))
    have hread : (readFrom a.view (fileIn dir)).run = (readFrom b.view (fileIn dir)).run := h.manifest dir
    simp only [uncachedIn, hfile, hread, ih]

theorem governing_alike (h : Disk.Alike a b) (path : Path) : governing a.view path = governing b.view path := by
  unfold governing
  split
  · exact uncachedIn_alike h _
  · rfl

theorem sound_alike (h : Disk.Alike a b) {cache : ManifestCache} : Sound a.view cache ↔ Sound b.view cache := by
  unfold Sound
  simp only [uncachedIn_alike h]

theorem run_readFrom (path : Path) (memory : Memory) (current : Disk) :
    ((readFrom Disk.stateView path).run memory).run current =
      pure (((readFrom current.view path).run, memory), current) := by
  have hread : ((Disk.stateView.read path).run memory).run current = pure ((current.read path, memory), current) := rfl
  have hview : current.view.read path = pure (current.read path) := rfl
  unfold readFrom
  rw [StateT.run_bind, StateT.run_bind, hread, hview, pure_bind, pure_bind]
  cases current.read path <;> rfl

/-- The walk through the directories of a tree, next to what else is known of it. -/
theorem run_nearestIn (dirs : List Path) (cache : ManifestCache) (memory : Memory) (current : Disk) :
    (((nearestIn Disk.stateView dirs).run cache).run memory).run current =
      pure (((nearestIn current.view dirs).run cache, memory), current) := by
  induction dirs generalizing cache with
  | nil => rfl
  | cons dir above ih =>
    cases hr : remembered? cache dir with
    | some entry =>
      rw [run_nearestIn_remembered hr]
      unfold remembered? at hr
      simp only [nearestIn, StateT.run_bind, StateT.run_get, pure_bind, hr]
      rfl
    | none =>
      rw [run_nearestIn_new hr]
      unfold remembered? at hr
      unfold visit
      have hfile := run_lifted (Disk.run_isFile (fileIn dir) memory current) cache
      have hread := run_lifted (run_readFrom (fileIn dir) memory current) cache
      simp only [nearestIn, StateT.run_bind, StateT.run_get, pure_bind, hr]
      rw [show Path.join dir "package.json" = fileIn dir from rfl, hfile, pure_bind]
      by_cases hm : isModulesDirectory dir
      · simp only [hm, if_true]
        rfl
      · by_cases hf : (current.view.isFile (fileIn dir)).run
        · simp only [hm, hf, if_true, Bool.false_eq_true, if_false, StateT.run_bind, hread, pure_bind]
          rfl
        · simp only [hm, hf, Bool.false_eq_true, if_false, StateT.run_bind, ih, pure_bind]
          rfl

theorem run_nearest (path : Path) (cache : ManifestCache) (memory : Memory) (current : Disk) :
    (((nearest Disk.stateView path).run cache).run memory).run current =
      pure (((nearest current.view path).run cache, memory), current) := by
  unfold nearest
  split
  · exact run_nearestIn _ cache memory current
  · rfl

end Manifest

/-! ## Verdicts -/

namespace Verdict

/-- The grounds for a verdict on a known file of a tree. -/
def groundsAt (disk : Disk) : Grounds Id where
  view := disk.view
  resolve _ _ _ := pure none

/-- What a verdict on a known file is based on. -/
inductive Basis where
  | decided (answer : Bool)
  /-- The text at a path. -/
  | content (path : Path)

def Basis.answer (disk : Disk) : Basis → Bool
  | .decided answer => answer
  | .content path =>
    match disk.read path with
    | .ok source => ofContent source
    | .error _ => false

def basisFor (disk : Disk) (path : Path) : Basis :=
  if Path.extension? path = some "cjs".toList then .decided true
  else if Path.extension? path = some "js".toList then
    match (Manifest.governing disk.view path).bind Manifest.system? with
    | some .esModule => .decided false
    | some .commonJs => .decided true
    | none => .content path
  else .decided false

theorem answer_basisFor {disk current : Disk} (h : Disk.Alike disk current) (path : Path) :
    answer (uncachedFindingFor (groundsAt current) path) = (basisFor disk path).answer current := by
  have hread : ((groundsAt current).view.read path).run = current.read path := rfl
  unfold uncachedFindingFor basisFor
  rw [hread, show (groundsAt current).view = current.view from rfl, ← Manifest.governing_alike h]
  split
  · rfl
  · split
    · cases (Manifest.governing disk.view path).bind Manifest.system? with
      | some system => cases system <;> rfl
      | none =>
        simp only [Basis.answer]
        cases current.read path <;> rfl
    · rfl

variable {g : Grounds (StateT Memory (StateM Disk))} {disk current : Disk}

theorem run_findingFor (hg : g.view = Disk.stateView) (path : Path) (cache : ManifestCache) (memory : Memory)
    (current : Disk) : (((findingFor g path).run cache).run memory).run current =
      pure (((findingFor (groundsAt current) path).run cache, memory), current) := by
  unfold findingFor
  rw [hg, show (groundsAt current).view = current.view from rfl]
  cases Path.extension? path with
  | none => rfl
  | some extension =>
    by_cases hcjs : extension = "cjs".toList
    · simp only [hcjs, if_true]
      rfl
    · by_cases hjs : extension = "js".toList
      · subst hjs
        have hread : ∀ cache : ManifestCache, (((liftM (Disk.stateView.read path) :
            StateT ManifestCache (StateT Memory (StateM Disk)) _).run cache).run memory).run current =
              pure (((current.read path, cache), memory), current) := run_lifted rfl
        have hview : current.view.read path = pure (current.read path) := rfl
        obtain ⟨⟨found, left⟩, hrun⟩ : ∃ r, (Manifest.nearest current.view path).run cache = pure r := ⟨_, rfl⟩
        simp only [hcjs, if_false, if_true, StateT.run_bind, Manifest.run_nearest, hrun, pure_bind, hview]
        cases found.bind Manifest.system? with
        | some system => cases system <;> rfl
        | none =>
          simp only [StateT.run_bind, hread, pure_bind]
          cases current.read path <;> rfl
      · simp only [hcjs, hjs, if_false]
        rfl

/-- What is found out about a known file. -/
theorem findingFor_alike (h : Disk.Alike disk current) (path : Path) {cache : ManifestCache}
    (hc : Manifest.Sound disk.view cache) :
    answer ((findingFor (groundsAt current) path).run cache).1 = (basisFor disk path).answer current ∧
      Manifest.Sound disk.view ((findingFor (groundsAt current) path).run cache).2 := by
  obtain ⟨hfinding, hsound⟩ := @findingFor_sound (groundsAt current) current.view_ignoresSpelling cache
    ((Manifest.sound_alike h).1 hc) path
  exact ⟨(congrArg answer hfinding).trans (answer_basisFor h path), (Manifest.sound_alike h).2 hsound⟩

end Verdict

/-- What is known from verdict to verdict is true of the tree. -/
def Session.Sound (disk : Disk) (session : Session) : Prop := Manifest.Sound disk.view session.manifests

theorem Session.sound_empty (disk : Disk) : Session.Sound disk {} := Manifest.sound_nil disk.view

/-- A part of a run on a tree that comes to one result, whatever is known of a tree that is like it. It changes nothing
but what is known. -/
def Comes (disk current : Disk) {α : Type} (p : StateT Session (StateT Memory (StateM Disk)) α) (a : α) : Prop :=
  ∀ session memory, Session.Sound disk session → Memory.Sound disk memory → ∃ session' memory',
    Session.Sound disk session' ∧ Memory.Sound disk memory' ∧
      ((p.run session).run memory).run current = pure (((a, session'), memory'), current)

namespace Comes

variable {disk current : Disk} {α β : Type} {p : StateT Session (StateT Memory (StateM Disk)) α} {a : α} {b : β}

theorem pure (a : α) : Comes disk current (pure a) a := fun session memory hs hm => ⟨session, memory, hs, hm, rfl⟩

theorem bind {f : α → StateT Session (StateT Memory (StateM Disk)) β} (h : Comes disk current p a)
    (hf : Comes disk current (f a) b) : Comes disk current (p >>= f) b := by
  intro session memory hs hm
  obtain ⟨session', memory', hs', hm', hrun⟩ := h session memory hs hm
  rw [StateT.run_bind, StateT.run_bind, StateT.run_bind, hrun]
  exact hf session' memory' hs' hm'

end Comes

namespace Plugin

variable {disk : Disk} {write : Path → Text → StateM Disk (Except FileError Unit)} (plugin : Plugin)

instance {path : Path} : Settled disk ((plugin.grounds (Disk.withWrite write)).view.isFile path) := by
  refine ⟨⟨(disk.view.isFile path).run, fun memory current hm hc => ⟨_, memory, rfl, hm, ?_⟩⟩, fun memory current =>
    ⟨_, memory, Disk.run_isFile path memory current⟩⟩
  have hfile : (disk.view.isFile path).run = (current.view.isFile path).run :=
    congrArg (fun kind => kind == some FileKind.file) (Disk.kind?_eq hc.places path)
  rw [hfile]
  exact Disk.run_isFile path memory current

instance {l : Loader} {importer : Path} {specifier : Text} :
    Settled disk ((plugin.grounds (Disk.withWrite write)).resolve l importer specifier) := by
  change Settled disk (do
    return (← Resolution.resolve (Resolution.onDisk write plugin.bundle.platform l) _ specifier).toOption)
  infer_instance

instance {importer : Path} {specifier : Text} :
    Settled disk (Verdict.commonFile? (plugin.grounds (Disk.withWrite write)) specifier importer) := by
  unfold Verdict.commonFile?
  repeat' first | infer_instance | refine .bind ?_ fun _ => ?_ | split

theorem exists_basis (disk : Disk) (specifier : Text) (importer : Path) : ∃ basis : Verdict.Basis, ∀ current,
    Disk.Alike disk current → ∀ cache memory, Manifest.Sound disk.view cache → Memory.Sound disk memory →
      ∃ (found : Finding) (left : ManifestCache) (memory' : Memory), Verdict.answer found = basis.answer current ∧
        Manifest.Sound disk.view left ∧ Memory.Sound disk memory' ∧
          (((Verdict.finding (plugin.grounds (Disk.withWrite write)) specifier importer).run cache).run memory).run
            current = pure (((found, left), memory'), current) := by
  unfold Verdict.finding
  by_cases hb : Builtin.isBuiltin specifier
  · simp only [hb, if_true]
    exact ⟨.decided false, fun current _ cache memory hc hm => ⟨_, cache, memory, rfl, hc, hm, rfl⟩⟩
  · obtain ⟨file?, hfile⟩ := (inferInstance :
      Settled disk (Verdict.commonFile? (plugin.grounds (Disk.withWrite write)) specifier importer)).ends
    refine ⟨(file?.map (Verdict.basisFor disk)).getD (.decided false), fun current ha cache memory hc hm => ?_⟩
    obtain ⟨found?, memory', hfound, hm', hrun⟩ := hfile memory current hm ha
    rw [hfound] at hrun
    simp only [hb, Bool.false_eq_true, if_false, StateT.run_bind, run_lifted hrun, pure_bind]
    cases file? with
    | none => exact ⟨_, cache, memory', rfl, hc, hm', rfl⟩
    | some path =>
      obtain ⟨hanswer, hsound⟩ := Verdict.findingFor_alike ha path hc
      exact ⟨_, _, memory', hanswer, hsound, hm', Verdict.run_findingFor rfl path cache memory' current⟩

/-- The verdict on an import, when nothing is known yet. -/
def verdictOn (plugin : Plugin) (files : FileSystem (StateM Disk)) (disk : Disk) (importer : Path)
    (specifier : Text) : Bool :=
  ((((Verdict.isCommonJs (plugin.grounds files) specifier importer).run {}).run {}).run disk).run.1.1.1

/-- The verdict on an import is based on one thing in all trees that are alike, and it is the same whatever is
known. -/
theorem comes_isCommonJs (disk : Disk) (specifier : Text) (importer : Path) :
    ∃ basis : Verdict.Basis, ∀ current, Disk.Alike disk current →
      plugin.verdictOn (Disk.withWrite write) current importer specifier = basis.answer current ∧
      Comes disk current (Verdict.isCommonJs (plugin.grounds (Disk.withWrite write)) specifier importer)
        (plugin.verdictOn (Disk.withWrite write) current importer specifier) := by
  obtain ⟨basis, hbasis⟩ := @exists_basis write plugin disk specifier importer
  have hcomes : ∀ current, Disk.Alike disk current →
      Comes disk current (Verdict.isCommonJs (plugin.grounds (Disk.withWrite write)) specifier importer)
        (basis.answer current) := by
    intro current ha session memory hs hm
    obtain ⟨found, left, memory', hanswer, hleft, hm', hrun⟩ := hbasis current ha session.manifests memory hs hm
    unfold Verdict.isCommonJs
    rw [StateT.run_bind, StateT.run_get, pure_bind, StateT.run_bind, StateT.run_bind, StateT.run_bind, run_lifted hrun,
      ← hanswer]
    cases found with
    | decided answer => exact ⟨{ session with manifests := left }, memory', hleft, hm', rfl⟩
    | content source =>
      have hready : (session.inspector.acquire (plugin.grounds (Disk.withWrite write)).succeeds).ready = true :=
        Verdict.Inspector.ready_acquire (fun _ => rfl) session.inspector
      have hverdict : ((session.inspector.acquire (plugin.grounds (Disk.withWrite write)).succeeds).ready &&
          Verdict.ofContent source) = Verdict.answer (.content source) := by
        rw [hready, Bool.true_and]
        rfl
      rw [← hverdict]
      exact ⟨⟨left, _⟩, memory', hleft, hm', rfl⟩
  refine ⟨basis, fun current ha => ?_⟩
  have hverdict : plugin.verdictOn (Disk.withWrite write) current importer specifier = basis.answer current := by
    obtain ⟨session, memory, -, -, hrun⟩ := hcomes current ha {} {} (Session.sound_empty disk) (Memory.sound_empty disk)
    exact congrArg (fun r => r.1.1.1) hrun
  exact ⟨hverdict, hverdict ▸ hcomes current ha⟩

end Plugin

/-! ## Chunks -/

/-- No user's word, and a verdict for each specifier. -/
def Judges.fixed (verdict : Text → Bool) : Judges Id where
  override _ := pure none
  isCommonJs specifier := pure (verdict specifier)

section Chunks

variable {disk current : Disk} {j : Judges (StateT Session (StateT Memory (StateM Disk)))} {verdict : Text → Bool}

theorem comes_ruling (ho : ∀ specifier, Comes disk current (j.override specifier) none) {specifier : Text}
    {otherwise : StateT Session (StateT Memory (StateM Disk)) Bool} {b : Bool} (h : Comes disk current otherwise b) :
    Comes disk current (j.ruling specifier otherwise) b := (ho specifier).bind h

theorem comes_decide (ho : ∀ specifier, Comes disk current (j.override specifier) none)
    (hj : ∀ specifier, Comes disk current (j.isCommonJs specifier) (verdict specifier)) (stmt : ImportStatement)
    (rewriteBuiltins : Bool) :
    Comes disk current (stmt.decide j rewriteBuiltins) (stmt.decide (Judges.fixed verdict) rewriteBuiltins).run := by
  unfold ImportStatement.decide
  dsimp only
  split
  · exact .pure _
  · split
    · split
      · exact .pure _
      · exact (comes_ruling ho (hj stmt.source)).bind (.pure _)
    · split
      · exact (comes_ruling ho (.pure rewriteBuiltins)).bind (.pure _)
      · exact (comes_ruling ho (hj stmt.source)).bind (.pure _)

theorem comes_plannedEdits (ho : ∀ specifier, Comes disk current (j.override specifier) none)
    (hj : ∀ specifier, Comes disk current (j.isCommonJs specifier) (verdict specifier)) (rewriteBuiltins : Bool)
    (imports : List ImportStatement) : Comes disk current (plannedEdits j rewriteBuiltins imports)
      (plannedEdits (Judges.fixed verdict) rewriteBuiltins imports).run := by
  induction imports with
  | nil => exact .pure _
  | cons stmt rest ih => exact (comes_decide ho hj stmt rewriteBuiltins).bind (ih.bind (.pure _))

theorem comes_settingsRender (ho : ∀ specifier, Comes disk current (j.override specifier) none)
    (hj : ∀ specifier, Comes disk current (j.isCommonJs specifier) (verdict specifier)) (settings : Settings) (wantMap : Bool)
    (fileName source : Text) : Comes disk current (settings.render j wantMap fileName source)
      (settings.render (Judges.fixed verdict) wantMap fileName source).run := by
  unfold Settings.render
  split
  · exact .pure _
  · split
    · exact .pure _
    · next program _ =>
      have hedits := comes_plannedEdits ho hj settings.rewriteBuiltins program.imports
      obtain ⟨edits, he⟩ : ∃ edits, plannedEdits (Judges.fixed verdict) settings.rewriteBuiltins program.imports =
        pure edits := ⟨_, rfl⟩
      rw [he] at hedits ⊢
      refine hedits.bind ?_
      rw [pure_bind, Id.run_pure]
      split
      · exact .pure _
      · split <;> exact .pure _

end Chunks

/-- Only the verdicts on the imports of a chunk matter. -/
theorem Settings.render_congr {settings : Settings} {verdict verdict' : Text → Bool} {wantMap : Bool}
    {fileName source : Text} (h : ∀ program, Syntax.Program.ofSource? (.ofFileName fileName) source = some program →
      ∀ stmt ∈ program.imports, verdict stmt.source = verdict' stmt.source) :
    settings.render (Judges.fixed verdict) wantMap fileName source =
      settings.render (Judges.fixed verdict') wantMap fileName source := by
  have hedits : ∀ imports : List ImportStatement, (∀ stmt ∈ imports, verdict stmt.source = verdict' stmt.source) →
      plannedEdits (Judges.fixed verdict) settings.rewriteBuiltins imports =
        plannedEdits (Judges.fixed verdict') settings.rewriteBuiltins imports := by
    intro imports hi
    induction imports with
    | nil => rfl
    | cons stmt rest ih =>
      obtain ⟨hstmt, hrest⟩ := List.forall_mem_cons.1 hi
      unfold plannedEdits
      rw [ih hrest]
      unfold ImportStatement.decide Judges.ruling Judges.fixed
      simp only [hstmt]
  unfold Settings.render
  split
  · rfl
  · cases hp : Syntax.Program.ofSource? (.ofFileName fileName) source with
    | none => rfl
    | some program =>
      simp only
      rw [hedits _ (h program hp)]

/-- What becomes of a chunk is settled by the tree. -/
theorem Plugin.comes_render (plugin : Plugin) {disk current : Disk}
    {write : Path → Text → StateM Disk (Except FileError Unit)} (h : Disk.Alike disk current) (fileName source : Text) :
    Comes disk current (plugin.render (Disk.withWrite write) Plugin.noOverride fileName source)
      (plugin.settings.render (Judges.fixed (plugin.verdictOn (Disk.withWrite write) current
        (plugin.importerPath fileName))) plugin.bundle.wantMap fileName source).run := by
  refine comes_settingsRender (fun _ => .pure none) (fun specifier => ?_) plugin.settings plugin.bundle.wantMap fileName
    source
  obtain ⟨basis, hbasis⟩ := plugin.comes_isCommonJs disk specifier (plugin.importerPath fileName)
  exact (hbasis current h).2

/-! ## What stays as it is -/

/-- A part of a run that changes no tree, whatever it takes for known. -/
def Keeps {α : Type} (p : StateT Session (StateT Memory (StateM Disk)) α) : Prop :=
  ∀ session memory current, ∃ a session' memory',
    ((p.run session).run memory).run current = pure (((a, session'), memory'), current)

namespace Keeps

variable {α β : Type} {p : StateT Session (StateT Memory (StateM Disk)) α}

theorem pure (a : α) : Keeps (pure a) := fun session memory _ => ⟨a, session, memory, rfl⟩

theorem bind {f : α → StateT Session (StateT Memory (StateM Disk)) β} (h : Keeps p) (hf : ∀ a, Keeps (f a)) :
    Keeps (p >>= f) := by
  intro session memory current
  obtain ⟨a, session', memory', hrun⟩ := h session memory current
  rw [StateT.run_bind, StateT.run_bind, StateT.run_bind, hrun]
  exact hf a session' memory' current

end Keeps

section Chunks

variable {j : Judges (StateT Session (StateT Memory (StateM Disk)))}

theorem keeps_ruling (ho : ∀ specifier, Keeps (j.override specifier)) {specifier : Text}
    {otherwise : StateT Session (StateT Memory (StateM Disk)) Bool} (h : Keeps otherwise) :
    Keeps (j.ruling specifier otherwise) := by
  refine (ho specifier).bind fun word => ?_
  cases word with
  | some verdict => exact .pure _
  | none => exact h

theorem keeps_decide (ho : ∀ specifier, Keeps (j.override specifier)) (hj : ∀ specifier, Keeps (j.isCommonJs specifier))
    (stmt : ImportStatement) (rewriteBuiltins : Bool) : Keeps (stmt.decide j rewriteBuiltins) := by
  unfold ImportStatement.decide
  dsimp only
  split
  · exact .pure _
  · split
    · split
      · exact .pure _
      · exact (keeps_ruling ho (hj stmt.source)).bind fun _ => .pure _
    · split
      · exact (keeps_ruling ho (.pure rewriteBuiltins)).bind fun _ => .pure _
      · exact (keeps_ruling ho (hj stmt.source)).bind fun _ => .pure _

theorem keeps_plannedEdits (ho : ∀ specifier, Keeps (j.override specifier))
    (hj : ∀ specifier, Keeps (j.isCommonJs specifier)) (rewriteBuiltins : Bool) (imports : List ImportStatement) :
    Keeps (plannedEdits j rewriteBuiltins imports) := by
  induction imports with
  | nil => exact .pure _
  | cons stmt rest ih => exact (keeps_decide ho hj stmt rewriteBuiltins).bind fun _ => ih.bind fun _ => .pure _

theorem keeps_settingsRender (ho : ∀ specifier, Keeps (j.override specifier))
    (hj : ∀ specifier, Keeps (j.isCommonJs specifier)) (settings : Settings) (wantMap : Bool) (fileName source : Text) :
    Keeps (settings.render j wantMap fileName source) := by
  unfold Settings.render
  split
  · exact .pure _
  · split
    · exact .pure _
    · next program _ =>
      refine (keeps_plannedEdits ho hj settings.rewriteBuiltins program.imports).bind fun edits => ?_
      split
      · exact .pure _
      · split <;> exact .pure _

end Chunks

namespace Plugin

variable {write : Path → Text → StateM Disk (Except FileError Unit)} (plugin : Plugin)

theorem keeps_isCommonJs (specifier : Text) (importer : Path) :
    Keeps (Verdict.isCommonJs (plugin.grounds (Disk.withWrite write)) specifier importer) := by
  have hfinding : ∀ cache memory current, ∃ (found : Finding) (left : ManifestCache) (memory' : Memory),
      (((Verdict.finding (plugin.grounds (Disk.withWrite write)) specifier importer).run cache).run memory).run current =
        pure (((found, left), memory'), current) := by
    intro cache memory current
    unfold Verdict.finding
    by_cases hb : Builtin.isBuiltin specifier
    · simp only [hb, if_true]
      exact ⟨_, _, _, rfl⟩
    · simp only [hb]
      obtain ⟨file?, memory', hfile⟩ := (inferInstance :
        Settled current (Verdict.commonFile? (plugin.grounds (Disk.withWrite write)) specifier importer)).keeps memory
          current
      simp only [Bool.false_eq_true, if_false, StateT.run_bind, run_lifted hfile, pure_bind]
      cases file? with
      | none => exact ⟨_, _, _, rfl⟩
      | some path => exact ⟨_, _, _, Verdict.run_findingFor rfl path cache memory' current⟩
  intro session memory current
  obtain ⟨found, left, memory', hrun⟩ := hfinding session.manifests memory current
  unfold Verdict.isCommonJs
  rw [StateT.run_bind, StateT.run_get, pure_bind, StateT.run_bind, StateT.run_bind, StateT.run_bind, run_lifted hrun]
  cases found <;> exact ⟨_, _, _, rfl⟩

/-- To find out what becomes of a chunk changes no tree. -/
theorem keeps_render (fileName source : Text) :
    Keeps (plugin.render (Disk.withWrite write) Plugin.noOverride fileName source) :=
  keeps_settingsRender (fun _ => .pure none) (fun specifier => plugin.keeps_isCommonJs specifier _) plugin.settings
    plugin.bundle.wantMap fileName source

end Plugin
end CjsInterop
