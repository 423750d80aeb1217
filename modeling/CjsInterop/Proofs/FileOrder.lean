import CjsInterop.Proofs.LoneFiles

/-! The order of the files of a run. What becomes of each file is settled by the tree as it was before the run, so
that the order makes no difference, as long as no file on its own makes a difference to another. -/

namespace CjsInterop

/-- Where a path leads, and which text is there, is all that is read. -/
theorem Disk.read_congr {a b : Disk} {path : Path} (hl : a.locate false path = b.locate false path)
    (hf : ∀ location, b.locate false path = .ok location → a.find? location = b.find? location) :
    a.read path = b.read path := by
  unfold read
  rw [hl]
  cases hb : b.locate false path with
  | error e => rfl
  | ok location =>
    simp only [bind, Except.bind, hf location hb]

/-- Paths that do not lead to the same place. -/
def Disk.Apart (disk : Disk) (p q : Path) : Prop :=
  ∀ location, disk.locate false p = .ok location → disk.locate false q ≠ .ok location

theorem Disk.Apart.symm {disk : Disk} {p q : Path} (h : disk.Apart p q) : disk.Apart q p :=
  fun location hq hp => h location hp hq

deriving instance DecidableEq for Disk

/-! ## Trees that come together -/

/-- The tree in which the changes of some trees have all been made. -/
structure Disk.Gathers (disk : Disk) (trees : List Disk) (last : Disk) : Prop where
  start : disk.workingDirectory = last.workingDirectory
  changed : ∀ tree ∈ trees, ∀ location, tree.find? location ≠ disk.find? location →
    last.find? location = tree.find? location
  unchanged : ∀ location, (∀ tree ∈ trees, tree.find? location = disk.find? location) →
    last.find? location = disk.find? location

namespace Disk.Gathers

variable {disk last : Disk} {trees : List Disk}

theorem nil (disk : Disk) : Gathers disk [] disk := ⟨rfl, nofun, fun _ _ => rfl⟩

/-- More is changed, at places that nobody has changed. -/
theorem puts (h : Gathers disk trees last) {writes : List (Location × Text)}
    (hw : ∀ w ∈ writes, ∀ tree ∈ trees, tree.find? w.1 = disk.find? w.1) :
    Gathers disk (trees ++ [disk.puts writes]) (last.puts writes) := by
  refine ⟨h.start.trans (workingDirectory_puts last).symm, fun tree ht location hl => ?_, fun location hl => ?_⟩
  · rcases List.mem_append.1 ht with ht | ht
    · refine (find?_puts_other last ?_).trans (h.changed tree ht location hl)
      rintro w hm rfl
      exact hl (hw w hm tree ht)
    · obtain rfl := List.mem_singleton.1 ht
      by_cases hex : ∃ w ∈ writes, w.1 = location
      · obtain ⟨text, htext⟩ := find?_puts_mem hex
        rw [htext, htext]
      · exact absurd (find?_puts_other disk fun w hm he => hex ⟨w, hm, he⟩) hl
  · obtain ⟨hrest, hputs⟩ := List.forall_mem_append.1 hl
    have hputs := hputs _ (List.mem_singleton_self _)
    by_cases hex : ∃ w ∈ writes, w.1 = location
    · obtain ⟨text, htext⟩ := find?_puts_mem hex
      rw [htext, ← hputs, htext]
    · rw [find?_puts_other last fun w hm he => hex ⟨w, hm, he⟩]
      exact h.unchanged location hrest

theorem samePlaces (h : Gathers disk trees last) (ht : ∀ tree ∈ trees, SamePlaces disk tree) : SamePlaces disk last := by
  refine ⟨h.start, fun location => ?_⟩
  by_cases hex : ∃ tree ∈ trees, tree.find? location ≠ disk.find? location
  · obtain ⟨tree, hm, hne⟩ := hex
    rw [h.changed tree hm location hne]
    exact (ht tree hm).node location
  · rw [h.unchanged location fun tree hm => by_contra fun hne => hex ⟨tree, hm, hne⟩]
    exact (SamePlaces.refl disk).node location

/-- Every text is that of one of the trees. -/
theorem read_cases (h : Gathers disk trees last) (ht : ∀ tree ∈ trees, SamePlaces disk tree) (path : Path) :
    last.read path = disk.read path ∨ ∃ tree ∈ trees, last.read path = tree.read path := by
  have hlast := locate_eq (h.samePlaces ht) false path
  by_cases hex : ∃ tree ∈ trees, ∃ location, disk.locate false path = .ok location ∧
      tree.find? location ≠ disk.find? location
  · obtain ⟨tree, hm, location, hl, hne⟩ := hex
    refine .inr ⟨tree, hm, read_congr (hlast.symm.trans (locate_eq (ht tree hm) false path)) fun l hl' => ?_⟩
    rw [← locate_eq (ht tree hm), hl] at hl'
    cases hl'
    exact h.changed tree hm location hne
  · refine .inl (read_congr hlast.symm fun location hl => h.unchanged location fun tree hm => ?_)
    exact by_contra fun hne => hex ⟨tree, hm, location, hl, hne⟩

theorem alike (h : Gathers disk trees last) (ht : ∀ tree ∈ trees, Alike disk tree) : Alike disk last := by
  have hread := h.read_cases fun tree hm => (ht tree hm).places
  refine ⟨h.samePlaces fun tree hm => (ht tree hm).places, fun dir => ?_, fun dir => ?_⟩
  · rcases hread (Path.join dir "package.json") with he | ⟨tree, hm, he⟩
    · exact (package_congr he).symm
    · exact ((ht tree hm).package dir).trans (package_congr he).symm
  · rcases hread (Manifest.fileIn dir) with he | ⟨tree, hm, he⟩
    · exact (manifest_congr he).symm
    · exact ((ht tree hm).manifest dir).trans (manifest_congr he).symm

end Disk.Gathers

namespace Command

/-! ## The files of a run -/

namespace Job

variable (job : Job)

/-- What comes of files in their order, up to one that ends the run, and the state behind them. -/
def rewriteAll (s : State) (files : List Path) : List (Path × FileOutcome) × State :=
  let r := (((rewriteFiles job.plugin (Disk.locked job.lock) job.dir files).run s.session).run s.memory).run s.disk
  (r.1.1.1, ⟨r.1.1.2, r.1.2, r.2⟩)

variable {job} {s : State} {file : Path} {files : List Path}

theorem rewriteAll_nil : job.rewriteAll s [] = ([], s) := rfl

theorem rewriteAll_cons : job.rewriteAll s (file :: files) =
    match job.rewrite s file with
    | (.broken, behind) => ([(file, .broken)], behind)
    | (outcome, behind) => ((file, outcome) :: (job.rewriteAll behind files).1, (job.rewriteAll behind files).2) := by
  have hrun : (((rewriteFile job.plugin (Disk.locked job.lock) job.dir file).run s.session).run s.memory).run s.disk =
      pure ((((job.rewrite s file).1, (job.rewrite s file).2.session), (job.rewrite s file).2.memory),
        (job.rewrite s file).2.disk) := rfl
  unfold rewriteAll
  simp only [rewriteFiles]
  rw [StateT.run_bind, StateT.run_bind, StateT.run_bind, hrun, pure_bind]
  obtain ⟨outcome, behind⟩ := job.rewrite s file
  cases outcome <;> rfl

theorem rewriteAll_cons_of_ne (h : (job.rewrite s file).1 ≠ .broken) : job.rewriteAll s (file :: files) =
    ((file, (job.rewrite s file).1) :: (job.rewriteAll (job.rewrite s file).2 files).1,
      (job.rewriteAll (job.rewrite s file).2 files).2) := by
  rw [rewriteAll_cons]
  split
  · next hb => exact absurd (congrArg Prod.fst hb) h
  · next hr => rw [hr]

/-- Files that are written to different places, each of which on its own makes no difference to the verdicts on the
imports of the other. -/
structure Separate (job : Job) (disk : Disk) (f g : Path) : Prop where
  apart : ∀ p ∈ job.targets f, ∀ q ∈ job.targets g, disk.Apart p q
  left : job.Agree disk (job.alone disk g).2 f
  right : job.Agree disk (job.alone disk f).2 g

instance {disk : Disk} : Std.Symm (job.Separate disk) :=
  ⟨fun _ _ h => ⟨fun q hq p hp => (h.apart p hp q hq).symm, h.right, h.left⟩⟩

/-- Any two of the files are separate, and none of them on its own goes wrong or changes what the places and manifests
of the tree are. -/
structure Quiet (job : Job) (disk : Disk) (files : List Path) : Prop where
  separate : files.Pairwise (job.Separate disk)
  fits : ∀ file ∈ files, (job.alone disk file).1 ≠ .broken
  alike : ∀ file ∈ files, Disk.Alike disk (job.alone disk file).2

variable {disk : Disk}

theorem Quiet.perm {files' : List Path} (h : job.Quiet disk files) (hp : files.Perm files') : job.Quiet disk files' :=
  ⟨(hp.pairwise_iff fun hfg => Std.Symm.symm _ _ hfg).1 h.separate, fun f hf => h.fits f (hp.mem_iff.2 hf),
    fun f hf => h.alike f (hp.mem_iff.2 hf)⟩

theorem mem_targets (job : Job) (file : Path) : file ∈ job.targets file := by
  unfold targets
  split <;> simp

/-- A file on its own writes to the places of its targets. -/
theorem alone_writes (ha : Disk.Alike disk (job.alone disk file).2) (h : s.Fits disk)
    (hread : s.disk.read file = disk.read file) (hagree : job.Agree disk s.disk file) :
    ∃ writes, (∀ w ∈ writes, ∃ target ∈ job.targets file, disk.locate false target = .ok w.1) ∧
      (job.rewrite s file).1 = (job.alone disk file).1 ∧ (job.alone disk file).2 = disk.puts writes ∧
      (job.rewrite s file).2.disk = s.disk.puts writes ∧ Session.Sound disk (job.rewrite s file).2.session ∧
      Memory.Sound disk (job.rewrite s file).2.memory := by
  obtain ⟨writes, hplaces, halone, hdisk, hsession, hmemory⟩ := rewrite_settled h hread hagree
  rw [halone] at ha ⊢
  refine ⟨writes, fun w hw => ?_, rfl, rfl, hdisk, hsession, hmemory⟩
  obtain ⟨target, htarget, hlocate⟩ := hplaces w hw
  exact ⟨target, htarget, Disk.locate_of_found (Disk.isSome_of_samePlaces_puts ha.places hw) hlocate⟩

/-- A file on its own changes nothing at a path that is apart from its targets. -/
theorem alone_unchanged (ha : Disk.Alike disk (job.alone disk file).2) {path : Path}
    (hp : ∀ target ∈ job.targets file, disk.Apart target path) {location : Location}
    (hl : disk.locate false path = .ok location) :
    (job.alone disk file).2.find? location = disk.find? location := by
  obtain ⟨writes, hplaces, -, halone, -⟩ :=
    alone_writes ha (State.fits_start disk) rfl fun _ _ _ _ _ _ => rfl
  rw [halone]
  refine Disk.find?_puts_other disk ?_
  rintro w hw rfl
  obtain ⟨target, htarget, hlocate⟩ := hplaces w hw
  exact hp target htarget w.1 hlocate hl

/-- Trees none of which makes a difference to the imports of a file make none together. -/
theorem agree_gathers {trees : List Disk} (ht : ∀ tree ∈ trees, Disk.Alike disk tree ∧ job.Agree disk tree file)
    {current : Disk} (hg : disk.Gathers trees current) : job.Agree disk current file := by
  intro source program hr hp stmt hs
  obtain ⟨basis, hbasis⟩ := @Plugin.comes_isCommonJs (Disk.locked job.lock).write job.plugin disk stmt.source
    (job.plugin.importerPath (chunkName file job.dir))
  have hverdict : ∀ tree, Disk.Alike disk tree → job.verdict tree file stmt.source = basis.answer tree :=
    fun tree h => (hbasis tree h).1
  rw [hverdict current (hg.alike fun tree hm => (ht tree hm).1), hverdict disk (.refl disk)]
  cases basis with
  | decided answer => rfl
  | content path =>
    rcases hg.read_cases (fun tree hm => (ht tree hm).1.places) path with he | ⟨tree, hm, he⟩
    · simp only [Verdict.Basis.answer, he]
    · have hagree := (ht tree hm).2 source program hr hp stmt hs
      rw [hverdict tree (ht tree hm).1, hverdict disk (.refl disk)] at hagree
      simpa only [Verdict.Basis.answer, he] using hagree

/-- One more file makes the changes that it makes on its own. -/
theorem rewrite_gathers {done : List Path} (hq : job.Quiet disk (done ++ file :: files)) (hs : s.Fits disk)
    (hg : disk.Gathers (done.map fun f => (job.alone disk f).2) s.disk) :
    (job.rewrite s file).1 = (job.alone disk file).1 ∧ (job.rewrite s file).2.Fits disk ∧
      disk.Gathers ((done ++ [file]).map fun f => (job.alone disk f).2) (job.rewrite s file).2.disk := by
  obtain ⟨-, -, hseparate⟩ := List.pairwise_append.1 hq.separate
  -- What was done before is elsewhere.
  have helse : ∀ target ∈ job.targets file, ∀ location, disk.locate false target = .ok location →
      ∀ tree ∈ done.map fun f => (job.alone disk f).2, tree.find? location = disk.find? location := by
    intro target htarget location hl tree ht
    obtain ⟨f, hf, rfl⟩ := List.mem_map.1 ht
    exact alone_unchanged (hq.alike f (List.mem_append_left _ hf))
      (fun p hp => (hseparate f hf file List.mem_cons_self).apart p hp target htarget) hl
  have hread : s.disk.read file = disk.read file :=
    Disk.read_congr (Disk.locate_eq hs.alike.places false file).symm fun location hl =>
      hg.unchanged location (helse file (mem_targets job file) location hl)
  have hagree : job.Agree disk s.disk file := by
    refine agree_gathers (fun tree ht => ?_) hg
    obtain ⟨f, hf, rfl⟩ := List.mem_map.1 ht
    exact ⟨hq.alike f (List.mem_append_left _ hf), (hseparate f hf file List.mem_cons_self).right⟩
  obtain ⟨writes, hplaces, houtcome, halone, hdisk, hsession, hmemory⟩ :=
    alone_writes (hq.alike file (by simp)) hs hread hagree
  have hgathers : disk.Gathers ((done ++ [file]).map fun f => (job.alone disk f).2) (job.rewrite s file).2.disk := by
    rw [hdisk, List.map_append, List.map_singleton, halone]
    refine hg.puts fun w hw => ?_
    obtain ⟨target, htarget, hlocate⟩ := hplaces w hw
    exact helse target htarget w.1 hlocate
  refine ⟨houtcome, ⟨hsession, hmemory, hgathers.alike fun tree ht => ?_⟩, hgathers⟩
  obtain ⟨f, hf, rfl⟩ := List.mem_map.1 ht
  exact hq.alike f (by simp only [List.mem_append, List.mem_cons] at hf ⊢; tauto)

/-- Every file comes to what it comes to on its own, and all the changes are made. -/
theorem rewriteAll_gathers {done : List Path} (hq : job.Quiet disk (done ++ files)) (hs : s.Fits disk)
    (hg : disk.Gathers (done.map fun f => (job.alone disk f).2) s.disk) :
    (job.rewriteAll s files).1 = files.map (fun f => (f, (job.alone disk f).1)) ∧
      disk.Gathers ((done ++ files).map fun f => (job.alone disk f).2) (job.rewriteAll s files).2.disk := by
  induction files generalizing done s with
  | nil => simpa [rewriteAll_nil] using hg
  | cons file rest ih =>
    obtain ⟨houtcome, hfits, hgathers⟩ := rewrite_gathers hq hs hg
    rw [List.append_cons] at hq
    obtain ⟨houtcomes, hlast⟩ := ih hq hfits hgathers
    have hgood : (job.rewrite s file).1 ≠ .broken := houtcome ▸ hq.fits file (by simp)
    rw [rewriteAll_cons_of_ne hgood, List.append_cons, List.map_cons]
    exact ⟨congrArg₂ _ (by rw [houtcome]) houtcomes, hlast⟩

theorem Quiet.outcomes (hq : job.Quiet disk files) :
    (job.rewriteAll { disk := disk } files).1 = files.map fun f => (f, (job.alone disk f).1) :=
  (@rewriteAll_gathers job _ files disk [] hq (State.fits_start disk) (.nil disk)).1

theorem Quiet.sublist {files' : List Path} (h : job.Quiet disk files) (hs : files'.Sublist files) :
    job.Quiet disk files' :=
  ⟨h.separate.sublist hs, fun f hf => h.fits f (hs.subset hf), fun f hf => h.alike f (hs.subset hf)⟩

end Job

/-! ## Runs -/

/-- The configuration of a run on a tree. -/
def configurationOn (disk : Disk) (config? : Option Path) : Except RunError Options :=
  ((configuration Disk.fileSystem config?).run disk).run.1

def Arguments.job (a : Arguments) (here : Path) (lock : Location → Option FileError) (options : Options) : Job :=
  ⟨a.plugin here options, a.directory here, lock⟩

variable (lock : Location → Option FileError) (disk : Disk) (here : Path) (a : Arguments)

theorem run_configuration (config? : Option Path) :
    (configuration (Disk.locked lock) config?).run disk = pure (configurationOn disk config?, disk) := by
  unfold configurationOn configuration
  cases config? with
  | none => rfl
  | some file =>
    have hread : ((Disk.locked lock).read file).run disk = pure (disk.read file, disk) := rfl
    have hread' : (Disk.fileSystem.read file).run disk = pure (disk.read file, disk) := rfl
    rw [StateT.run_bind, StateT.run_bind, hread, hread', pure_bind]
    cases disk.read file with
    | error e => rfl
    | ok content =>
      simp only
      cases Options.ofText? content <;> rfl

/-- A run that gets past its configuration rewrites its files. -/
theorem run_eq : ((run (Disk.locked lock) here a).run disk).run =
    match configurationOn disk a.config?, (a.bundle here).check with
    | .error e, _ => (.failed [e], disk)
    | .ok _, .error e => (.failed [.bundle e], disk)
    | .ok options, .ok () =>
      let r := (a.job here lock options).rewriteAll { disk := disk } (a.paths here)
      (.ofFiles r.1, r.2.disk) := by
  unfold run
  dsimp only
  rw [StateT.run_bind, run_configuration, pure_bind]
  cases configurationOn disk a.config? with
  | error e => rfl
  | ok options =>
    simp only
    cases (a.bundle here).check with
    | error e => rfl
    | ok _ => rfl

variable {lock disk here a} {options : Options}

theorem run_configured (hconfig : configurationOn disk a.config? = .ok options) (hcheck : (a.bundle here).check = .ok ()) :
    ((run (Disk.locked lock) here a).run disk).run =
      (.ofFiles ((a.job here lock options).rewriteAll { disk := disk } (a.paths here)).1,
        ((a.job here lock options).rewriteAll { disk := disk } (a.paths here)).2.disk) := by
  rw [run_eq, hconfig, hcheck]

/-- A tree with some files. -/
def treeOf (files : List (Path × Text)) : Disk :=
  files.foldl (fun disk file => disk.add file.1 (.file file.2)) { workingDirectory := "/" }

end Command
end CjsInterop
