import CjsInterop.Proofs.DefiniteVerdict
import CjsInterop.Proofs.WorkingDirectory

/-! One file of a run. What comes of it and what it writes is settled by the tree as it was before the run, if all
that was done since then is to put texts in the place of others that read alike. -/

namespace CjsInterop

/-! ## Trees with locks -/

namespace Disk

/-- Where a path is written, unless there is a lock or a directory. -/
def place (disk : Disk) (lock : Location → Option FileError) (path : Path) : Except FileError Location := do
  let location ← disk.locate true path
  match lock location, disk.find? location with
  | some e, _ => throw e
  | none, some .directory => throw .isDirectory
  | none, _ => pure location

/-- The operations on a tree that is the state. A place with a lock refuses to be written. -/
def locked (lock : Location → Option FileError) : FileSystem (StateM Disk) :=
  withWrite fun path content => do
    match (← get).place lock path with
    | .ok location =>
      modify fun disk => disk.put location (.file (some content))
      return .ok ()
    | .error e => return .error e

theorem write_eq_place (disk : Disk) (path : Path) (content : Text) : disk.write path content =
    (disk.place (fun _ => none) path).map fun location => disk.put location (.file (some content)) := by
  unfold place write
  cases disk.locate true path with
  | error e => rfl
  | ok location =>
    simp only [bind, Except.bind]
    cases disk.find? location with
    | none => rfl
    | some node => cases node <;> rfl

theorem locked_none : locked (fun _ => none) = fileSystem := by
  refine congrArg withWrite (funext fun path => funext fun content => funext fun disk => ?_)
  change StateT.run (_ >>= _) disk = StateT.run (_ >>= _) disk
  simp only [StateT.run_bind, StateT.run_get, pure_bind, write_eq_place]
  cases disk.place (fun _ => none) path <;> rfl

variable {a b : Disk} {lock : Location → Option FileError} {path : Path}

theorem place_eq (h : SamePlaces a b) : a.place lock path = b.place lock path := by
  unfold place
  rw [locate_eq h]
  cases b.locate true path with
  | error e => rfl
  | ok location =>
    have hnode := h.node location
    simp only [bind, Except.bind]
    generalize a.find? location = m, b.find? location = n at hnode
    cases lock location with
    | some e => rfl
    | none =>
      cases hnode with
      | none => rfl
      | some hn => cases hn <;> rfl

theorem place_eq_ok {location : Location} : a.place lock path = .ok location ↔
    a.locate true path = .ok location ∧ lock location = none ∧ a.find? location ≠ some .directory := by
  unfold place
  cases a.locate true path with
  | error e => exact iff_of_false nofun (by simp)
  | ok l =>
    simp only [bind, Except.bind, Except.ok.injEq]
    constructor
    · intro h
      split at h
      · cases h
      · cases h
      · next hlock hnone =>
        cases h
        exact ⟨rfl, hlock, hnone⟩
    · rintro ⟨rfl, hlock, hnone⟩
      simp only [hlock]
      cases hf : a.find? l with
      | none => rfl
      | some node =>
        cases node with
        | directory => exact absurd hf hnone
        | file content => rfl
        | link target => rfl

theorem locate_of_place {location : Location} (h : a.place lock path = .ok location) :
    a.locate true path = .ok location := (place_eq_ok.1 h).1

/-! ## Texts that are put into a tree -/

/-- The tree with texts put into it one after the other. -/
def puts (disk : Disk) (writes : List (Location × Text)) : Disk :=
  writes.foldl (fun disk w => disk.put w.1 (.file (some w.2))) disk

variable {writes : List (Location × Text)} {location : Location}

theorem workingDirectory_puts (disk : Disk) : (disk.puts writes).workingDirectory = disk.workingDirectory := by
  induction writes generalizing disk with
  | nil => rfl
  | cons w rest ih => exact ih _

theorem find?_puts_other (disk : Disk) (h : ∀ w ∈ writes, w.1 ≠ location) :
    (disk.puts writes).find? location = disk.find? location := by
  induction writes generalizing disk with
  | nil => rfl
  | cons w rest ih =>
    obtain ⟨hw, hrest⟩ := List.forall_mem_cons.1 h
    refine (ih _ hrest).trans ?_
    rw [find?_put, if_neg hw.symm]

/-- Where something is put, it does not matter what was there. -/
theorem find?_puts_mem (h : ∃ w ∈ writes, w.1 = location) :
    ∃ text, ∀ disk : Disk, (disk.puts writes).find? location = some (.file (some text)) := by
  induction writes with
  | nil => simp at h
  | cons w rest ih =>
    by_cases hrest : ∃ w ∈ rest, w.1 = location
    · obtain ⟨text, ht⟩ := ih hrest
      exact ⟨text, fun disk => ht _⟩
    · have hw : w.1 = location := by
        obtain ⟨v, hv, hl⟩ := h
        rcases List.mem_cons.1 hv with rfl | hv
        · exact hl
        · exact absurd ⟨v, hv, hl⟩ hrest
      refine ⟨w.2, fun disk => ?_⟩
      refine (find?_puts_other _ fun v hv hl => hrest ⟨v, hv, hl⟩).trans ?_
      rw [find?_put, if_pos hw.symm]

theorem SamePlaces.put_both (h : SamePlaces a b) (location : Location) (node : Node) :
    SamePlaces (a.put location node) (b.put location node) := by
  refine ⟨h.start, fun l => ?_⟩
  rw [find?_put, find?_put]
  split
  · exact .some (.same node)
  · exact h.node l

/-- Writings that only put texts in the place of others. -/
theorem isSome_of_samePlaces_puts (h : SamePlaces a (a.puts writes)) {w : Location × Text} (hw : w ∈ writes) :
    (a.find? w.1).isSome := by
  obtain ⟨text, htext⟩ := find?_puts_mem ⟨w, hw, rfl⟩
  have hnode := h.node w.1
  rw [htext] at hnode
  cases hd : a.find? w.1 with
  | none =>
    rw [hd] at hnode
    cases hnode
  | some node => rfl

end Disk

/-! ## One file -/

/-- Without a source map being wanted there is none. -/
theorem editedChunk_map {source : Text} {edits : List (Span × Plan)} {rewriteBuiltins : Bool} {fileName : Text}
    {output : Output} (h : editedChunk source edits rewriteBuiltins fileName false = some output) :
    output.map = none := by
  obtain ⟨r, -, hfinish⟩ := Option.bind_eq_some_iff.1 h
  obtain ⟨stretches, -, houtput⟩ := Option.bind_eq_some_iff.1 hfinish
  have hmap : some (⟨r.buffer.render stretches, none⟩ : Output) = some output := houtput
  exact congrArg Output.map (Option.some.inj hmap).symm

theorem Settings.render_map {settings : Settings} {j : Judges Id} {fileName source : Text} {output : Output}
    (h : (settings.render j false fileName source).run = .ok (some output)) : output.map = none := by
  unfold Settings.render at h
  split at h
  · cases h
  · split at h
    · cases h
    · next program _ =>
      obtain ⟨edits, he⟩ : ∃ edits, plannedEdits j settings.rewriteBuiltins program.imports = pure edits := ⟨_, rfl⟩
      rw [he, pure_bind] at h
      split at h
      · cases h
      · split at h
        · next houtput =>
          cases h
          exact editedChunk_map houtput
        · cases h

namespace Command

/-- A step of a run that only has to do with the files. -/
theorem run_liftRun {α : Type} {p : StateM Disk α} {a : α} {current after : Disk} (h : p.run current = pure (a, after))
    (session : Session) (memory : Memory) :
    (((liftRun p).run session).run memory).run current = pure (((a, session), memory), after) := by
  unfold liftRun
  simp only [StateT.run_monadLift, monadLift_self, StateT.run_bind, h, pure_bind]
  rfl

/-- What a run has learned, and the tree that it works on. -/
structure State where
  session : Session := {}
  memory : Memory := {}
  disk : Disk

/-- A state of which a tree tells what matters to the verdicts on imports. -/
structure State.Fits (disk : Disk) (s : State) : Prop where
  session : Session.Sound disk s.session
  memory : Memory.Sound disk s.memory
  alike : Disk.Alike disk s.disk

theorem State.fits_start (disk : Disk) : Fits disk { disk := disk } :=
  ⟨Session.sound_empty disk, Memory.sound_empty disk, .refl disk⟩

/-- What is the same for all files of a run. -/
structure Job where
  plugin : Plugin
  dir : Path
  lock : Location → Option FileError

namespace Job

variable (job : Job)

/-- What becomes of a text in the place of a file, and the state behind that. -/
def render (s : State) (file : Path) (source : Text) : Except RenderError (Option Output) × State :=
  let r := (((job.plugin.render (Disk.locked job.lock) Plugin.noOverride (chunkName file job.dir) source).run
    s.session).run s.memory).run s.disk
  (r.1.1.1, ⟨r.1.1.2, r.1.2, r.2⟩)

/-- What comes of a file, and the state behind it. -/
def rewrite (s : State) (file : Path) : FileOutcome × State :=
  let r := (((rewriteFile job.plugin (Disk.locked job.lock) job.dir file).run s.session).run s.memory).run s.disk
  (r.1.1.1, ⟨r.1.1.2, r.1.2, r.2⟩)

/-- What comes of a file that is the only one, and the tree behind it. -/
def alone (disk : Disk) (file : Path) : FileOutcome × Disk :=
  let r := job.rewrite { disk := disk } file
  (r.1, r.2.disk)

/-- What is put where for a new text, up to a failure. -/
def writing (disk : Disk) (file : Path) (output : Output) : Option FileFailure × List (Location × Text) :=
  match disk.place job.lock file with
  | .error e => (some (.unwritten e), [])
  | .ok location =>
    match output.map with
    | none => (none, [(location, output.code)])
    | some map =>
      match (disk.put location (.file (some output.code))).place job.lock (mapPath file) with
      | .error e => (some (.mapUnwritten e), [(location, output.code)])
      | .ok location' => (none, [(location, output.code), (location', map)])

variable {job} {s : State} {file : Path} {source : Text}

theorem run_render : (((job.plugin.render (Disk.locked job.lock) Plugin.noOverride (chunkName file job.dir)
    source).run s.session).run s.memory).run s.disk = pure ((((job.render s file source).1,
      (job.render s file source).2.session), (job.render s file source).2.memory), (job.render s file source).2.disk) :=
  rfl

/-- To find out what becomes of a file changes no tree. -/
theorem disk_render : (job.render s file source).2.disk = s.disk := by
  obtain ⟨result, session, memory, hrun⟩ := job.plugin.keeps_render (chunkName file job.dir) source s.session s.memory
    s.disk
  exact congrArg Prod.snd hrun

theorem run_writeOutput (disk : Disk) (file : Path) (output : Output) :
    (writeOutput (Disk.locked job.lock) file output).run disk =
      pure ((job.writing disk file output).1, disk.puts (job.writing disk file output).2) := by
  have hwrite : ∀ (disk : Disk) (path : Path) (content : Text), ((Disk.locked job.lock).write path content).run disk =
      match disk.place job.lock path with
      | .ok location => pure (.ok (), disk.put location (.file (some content)))
      | .error e => pure (.error e, disk) := by
    intro disk path content
    change (match disk.place job.lock path with | .ok _ => _ | .error e => _ : StateM Disk _).run disk = _
    cases disk.place job.lock path <;> rfl
  unfold writeOutput writing
  rw [StateT.run_bind, hwrite]
  cases disk.place job.lock file with
  | error e => rfl
  | ok location =>
    simp only [pure_bind]
    cases output.map with
    | none => rfl
    | some map =>
      simp only
      rw [StateT.run_bind, hwrite]
      cases (disk.put location (.file (some output.code))).place job.lock (mapPath file) <;> rfl

/-- All that can come of a file. -/
theorem rewrite_eq : job.rewrite s file =
    match s.disk.read file with
    | .error e => (.failed (.unread e), s)
    | .ok source =>
      match job.render s file source with
      | (.error .unreadable, behind) => (.failed .noModule, behind)
      | (.error .misplacedEdit, behind) => (.broken, behind)
      | (.ok none, behind) => (.done ⟨chunkName file job.dir, Text.byteLength source, false⟩, behind)
      | (.ok (some output), behind) =>
        (match (job.writing s.disk file output).1 with
          | some failure => .failed failure
          | none => .done ⟨chunkName file job.dir, Text.byteLength output.code, true⟩,
        { behind with disk := s.disk.puts (job.writing s.disk file output).2 }) := by
  have hread := @run_liftRun _ ((Disk.locked job.lock).read file) (s.disk.read file) s.disk s.disk rfl s.session s.memory
  unfold rewrite rewriteFile
  dsimp only
  rw [StateT.run_bind, StateT.run_bind, StateT.run_bind, hread, pure_bind]
  cases s.disk.read file with
  | error e => rfl
  | ok source =>
    simp only
    rw [StateT.run_bind, StateT.run_bind, StateT.run_bind, run_render, pure_bind]
    have hdisk := @disk_render job s file source
    generalize job.render s file source = r at hdisk ⊢
    obtain ⟨result, ⟨session, memory, disk⟩⟩ := r
    simp only at hdisk
    subst hdisk
    cases result with
    | error e => cases e <;> rfl
    | ok output? =>
      cases output? with
      | none => rfl
      | some output =>
        have hwrite := run_liftRun (@run_writeOutput job s.disk file output) session memory
        simp only
        rw [StateT.run_bind, StateT.run_bind, StateT.run_bind, hwrite, pure_bind]
        cases (job.writing s.disk file output).1 <;> rfl

/-! ## What is settled by the tree -/

variable {disk : Disk}

/-- The verdict on an import of a file, when nothing is known yet. -/
def verdict (job : Job) (disk : Disk) (file : Path) (specifier : Text) : Bool :=
  job.plugin.verdictOn (Disk.locked job.lock) disk (job.plugin.importerPath (chunkName file job.dir)) specifier

/-- Trees that lead to the same verdicts on the imports of a file. -/
def Agree (job : Job) (disk current : Disk) (file : Path) : Prop :=
  ∀ source program, disk.read file = .ok source →
    Syntax.Program.ofSource? (.ofFileName (chunkName file job.dir)) source = some program →
      ∀ stmt ∈ program.imports, job.verdict current file stmt.source = job.verdict disk file stmt.source

/-- The new text of a file does not depend on what was done before. -/
theorem render_settled (h : s.Fits disk) (hagree : job.Agree disk s.disk file) (hr : disk.read file = .ok source) :
    (job.render s file source).1 = (job.render { disk := disk } file source).1 ∧
      Session.Sound disk (job.render s file source).2.session ∧ Memory.Sound disk (job.render s file source).2.memory ∧
      (job.plugin.bundle.wantMap = false → ∀ output, (job.render s file source).1 = .ok (some output) →
        output.map = none) := by
  have hrun : ∀ t : State, t.Fits disk → (job.render t file source).1 =
      (job.plugin.settings.render (Judges.fixed (job.verdict t.disk file)) job.plugin.bundle.wantMap
        (chunkName file job.dir) source).run ∧
        Session.Sound disk (job.render t file source).2.session ∧
        Memory.Sound disk (job.render t file source).2.memory := by
    intro t ht
    obtain ⟨session, memory, hs, hm, hrun⟩ := job.plugin.comes_render ht.alike (chunkName file job.dir) source t.session
      t.memory ht.session ht.memory
    have hrender : job.render t file source = (_, ⟨session, memory, t.disk⟩) :=
      congrArg (fun r => (r.1.1.1, (⟨r.1.1.2, r.1.2, r.2⟩ : State))) hrun
    rw [hrender]
    exact ⟨rfl, hs, hm⟩
  obtain ⟨hresult, hs, hm⟩ := hrun s h
  refine ⟨?_, hs, hm, fun hmap output ho => ?_⟩
  · rw [hresult, (hrun _ (State.fits_start disk)).1, Settings.render_congr fun program hp => hagree source program hr hp]
  · rw [hresult, hmap] at ho
    exact Settings.render_map ho

/-- The paths that are written for a file. -/
def targets (job : Job) (file : Path) : List Path :=
  if job.plugin.bundle.wantMap then [file, mapPath file] else [file]

theorem writing_eq {a b : Disk} (h : Disk.SamePlaces a b) (file : Path) (output : Output) :
    job.writing a file output = job.writing b file output := by
  unfold writing
  rw [Disk.place_eq h]
  cases b.place job.lock file with
  | error e => rfl
  | ok location => simp only [Disk.place_eq (h.put_both location (.file (some output.code)))]

/-- Only the file and its map are written. -/
theorem writing_places {output : Output} (hr : disk.read file = .ok source)
    (hm : job.plugin.bundle.wantMap = false → output.map = none) :
    ∀ w ∈ (job.writing disk file output).2, ∃ target ∈ job.targets file, disk.locate true target = .ok w.1 := by
  obtain ⟨place, hplace, hfound, -⟩ := Disk.write_of_read hr
  unfold writing
  cases hp : disk.place job.lock file with
  | error e => simp
  | ok location =>
    have hl := Disk.locate_of_place hp
    have hfile : file ∈ job.targets file := by
      unfold targets
      split <;> simp
    have hfirst : ∃ target ∈ job.targets file, disk.locate true target = .ok location := ⟨file, hfile, hl⟩
    obtain rfl : place = location := Except.ok.inj ((Disk.locate_mayBeNew hplace).symm.trans hl)
    cases hmap : output.map with
    | none => simpa using hfirst
    | some map =>
      have hsame : Disk.SamePlaces disk (disk.put place (.file (some output.code))) :=
        (Disk.SamePlaces.refl disk).put hfound output.code
      simp only [← Disk.place_eq hsame]
      cases hp' : disk.place job.lock (mapPath file) with
      | error e => simpa using hfirst
      | ok location' =>
        have hwant : job.plugin.bundle.wantMap = true := by
          by_contra hno
          rw [hm (by simpa using hno)] at hmap
          cases hmap
        have hsecond : mapPath file ∈ job.targets file := by simp [targets, hwant]
        exact List.forall_mem_cons.2 ⟨hfirst, by simpa using ⟨_, hsecond, Disk.locate_of_place hp'⟩⟩

/-- A file that still has its first text becomes what it becomes alone. -/
theorem rewrite_settled (h : s.Fits disk) (hread : s.disk.read file = disk.read file)
    (hagree : job.Agree disk s.disk file) :
    ∃ writes, (∀ w ∈ writes, ∃ target ∈ job.targets file, disk.locate true target = .ok w.1) ∧
      job.alone disk file = ((job.rewrite s file).1, disk.puts writes) ∧
      (job.rewrite s file).2.disk = s.disk.puts writes ∧
      Session.Sound disk (job.rewrite s file).2.session ∧ Memory.Sound disk (job.rewrite s file).2.memory := by
  unfold alone
  rw [rewrite_eq, rewrite_eq, hread]
  cases hr : disk.read file with
  | error e => exact ⟨[], by simp, rfl, rfl, h.session, h.memory⟩
  | ok source =>
    obtain ⟨hsame, hs, hm, hmap⟩ := @render_settled job s file source disk h hagree hr
    have hdisk := @disk_render job s file source
    have hdisk' := @disk_render job { disk := disk } file source
    simp only
    generalize job.render s file source = r at hsame hs hm hmap hdisk ⊢
    generalize job.render { disk := disk } file source = r' at hsame hdisk' ⊢
    obtain ⟨result, behind⟩ := r
    obtain ⟨result', behind'⟩ := r'
    simp only at hsame hdisk hdisk' hs hm hmap
    subst hsame
    cases result with
    | error e => cases e <;> exact ⟨[], by simp, by simp [hdisk', Disk.puts], hdisk, hs, hm⟩
    | ok output? =>
      cases output? with
      | none => exact ⟨[], by simp, by simp [hdisk', Disk.puts], hdisk, hs, hm⟩
      | some output =>
        refine ⟨(job.writing disk file output).2, writing_places hr fun hno => hmap hno output rfl, ?_, ?_,
          hs, hm⟩
        · simp only [← writing_eq h.alike.places]
        · simp only [← writing_eq h.alike.places]

end Job
end Command
end CjsInterop
