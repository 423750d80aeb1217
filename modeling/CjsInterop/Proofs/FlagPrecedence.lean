import CjsInterop.Proofs.FileOrder

/-! The command line and its configuration. What the command line says about globs and builtins hides what the
configuration says about them; of the working directory it is the configuration that has the last word. -/

namespace CjsInterop

/-- Plugins that differ in nothing that is looked at. -/
structure Plugin.Alike (p q : Plugin) : Prop where
  bundle : p.bundle = q.bundle
  covers : ∀ fileName, p.settings.covers fileName = q.settings.covers fileName
  rewriteBuiltins : p.settings.rewriteBuiltins = q.settings.rewriteBuiltins
  cwd : p.cwd = q.cwd

/-- Configurations that tell a run the same, beside what its arguments say themselves. The directory of a configuration
goes before that of the arguments, and the order among other steps is not looked at. -/
structure Command.Arguments.Hides (a : Arguments) (here : Path) (o o' : Options) : Prop where
  includes : a.includes? = none → o.settings.includes = o'.settings.includes
  excludes : a.excludes? = none → o.settings.excludes = o'.settings.excludes
  rewriteBuiltins : a.rewriteBuiltins? = none → o.settings.rewriteBuiltins = o'.settings.rewriteBuiltins
  cwd : o.cwd.getD (a.bundle here).cwd = o'.cwd.getD (a.bundle here).cwd

/-! ## Plugins -/

theorem Settings.covers_congr {s t : Settings} (hi : s.includes = t.includes) (he : s.excludes = t.excludes)
    (fileName : Text) : s.covers fileName = t.covers fileName := by
  unfold covers
  rw [hi, he]

namespace Plugin.Alike

variable {m : Type → Type} [Monad m] {p q : Plugin}

theorem importerPath (h : p.Alike q) (fileName : Text) : p.importerPath fileName = q.importerPath fileName := by
  unfold Plugin.importerPath
  rw [h.bundle, h.cwd]

/-- They resolve every specifier by the same steps, on any file system. -/
theorem grounds (h : p.Alike q) (files : FileSystem m) : p.grounds files = q.grounds files := by
  unfold Plugin.grounds
  rw [h.bundle, h.cwd]

theorem judges (h : p.Alike q) (files : FileSystem m) (override : Plugin.Override m) (importer : Path) :
    p.judges files override importer = q.judges files override importer := by
  unfold Plugin.judges
  rw [h.grounds]

theorem render (h : p.Alike q) (files : FileSystem m) (override : Plugin.Override m) (fileName source : Text) :
    p.render files override fileName source = q.render files override fileName source := by
  unfold Plugin.render Settings.render
  rw [h.importerPath, h.judges, h.bundle, h.covers, h.rewriteBuiltins]

theorem rewriteFile (h : p.Alike q) (files : FileSystem m) (dir file : Path) :
    Command.rewriteFile p files dir file = Command.rewriteFile q files dir file := by
  unfold Command.rewriteFile
  simp only [h.render]

theorem rewriteFiles (h : p.Alike q) (files : FileSystem m) (dir : Path) (paths : List Path) :
    Command.rewriteFiles p files dir paths = Command.rewriteFiles q files dir paths := by
  induction paths with
  | nil => rfl
  | cons file rest ih =>
    unfold Command.rewriteFiles
    rw [h.rewriteFile, ih]

end Plugin.Alike

namespace Command

/-! ## Arguments -/

variable {a : Arguments} {here : Path} {o o' : Options}

theorem Arguments.settings_override (a : Arguments) (o : Options) : (a.override o).settings =
    { o.settings with
      includes := a.includes?.getD o.settings.includes
      excludes := a.excludes?.getD o.settings.excludes
      rewriteBuiltins := a.rewriteBuiltins?.getD o.settings.rewriteBuiltins } := by
  unfold override Options.settings
  cases a.includes? <;> cases a.excludes? <;> cases a.rewriteBuiltins? <;> rfl

theorem getD_congr {α : Type} {given? : Option α} {x y : α} (h : given? = none → x = y) : given?.getD x = given?.getD y := by
  cases given? with
  | none => exact h rfl
  | some value => rfl

theorem Arguments.Hides.alike (h : a.Hides here o o') : (a.plugin here o).Alike (a.plugin here o') := by
  have hsettings : ∀ options, (a.plugin here options).settings = _ := a.settings_override
  refine ⟨rfl, Settings.covers_congr ?_ ?_, ?_, h.cwd⟩ <;> rw [hsettings o, hsettings o']
  · exact getD_congr h.includes
  · exact getD_congr h.excludes
  · exact getD_congr h.rewriteBuiltins

/-! ## Runs -/

variable {lock : Location → Option FileError} {disk : Disk} {config? config?' : Option Path}

/-- A bundle that cannot be rewritten ends the run. -/
theorem run_unchecked {e : BundleError} (hconfig : configurationOn disk a.config? = .ok o)
    (hcheck : (a.bundle here).check = .error e) :
    ((run (Disk.locked lock) here a).run disk).run = (.failed [.bundle e], disk) := by
  rw [run_eq, hconfig, hcheck]

/-- Two configurations that differ only in what the command line says itself lead to the same run: every file of any
file system is treated by the same steps, and the outcome and the tree behind the run are the same. -/
theorem run_overridden (hc : configurationOn disk config? = .ok o) (hc' : configurationOn disk config?' = .ok o')
    (h : a.Hides here o o') :
    (∀ {m : Type → Type} [Monad m] (files : FileSystem m) (paths : List Path),
      rewriteFiles (a.plugin here o) files (a.directory here) paths =
        rewriteFiles (a.plugin here o') files (a.directory here) paths) ∧
    ((run (Disk.locked lock) here { a with config? := config? }).run disk).run =
      ((run (Disk.locked lock) here { a with config? := config?' }).run disk).run := by
  refine ⟨fun files paths => h.alike.rewriteFiles files (a.directory here) paths, ?_⟩
  have hjob : (a.job here lock o).rewriteAll { disk := disk } (a.paths here) =
      (a.job here lock o').rewriteAll { disk := disk } (a.paths here) := by
    unfold Job.rewriteAll
    simp only [Arguments.job, h.alike.rewriteFiles]
  cases hcheck : (a.bundle here).check with
  | error e =>
    exact (@run_unchecked { a with config? := config? } here o lock disk e hc hcheck).trans
      (@run_unchecked { a with config? := config?' } here o' lock disk e hc' hcheck).symm
  | ok _ =>
    rw [@run_configured lock disk here { a with config? := config? } o hc hcheck,
      @run_configured lock disk here { a with config? := config?' } o' hc' hcheck]
    exact congrArg (fun r => (Outcome.ofFiles r.1, r.2.disk)) hjob

/-- Two configurations beside a chunk. -/
def configured : Disk :=
  treeOf [("/a.js", "import fs from 'fs';\n".toList),
    ("/c.json", "\x7b\"include\":[\"b.js\"],\"builtinNodeModules\":false,\"cwd\":\"/\"\x7d".toList),
    ("/d.json", "\x7b\"exclude\":[\"a.js\"]\x7d".toList)]

theorem run_overridden_configured :
    let a : Arguments :=
      { files := ["a.js"], includes? := some ["*.js"], excludes? := some ["b.js"], rewriteBuiltins? := some true }
    let after (config : Path) := ((run (Disk.locked fun _ => none) "/" { a with config? := some config }).run configured).run
    configurationOn configured (some "/c.json") =
        .ok { includes := some ["b.js"], rewriteBuiltins := some false, cwd := some "/" } ∧
      configurationOn configured (some "/d.json") = .ok { excludes := some ["a.js"] } ∧
      after "/c.json" = after "/d.json" ∧ (after "/d.json").1 = .finished [⟨"a.js", 54, true⟩] := by
  intro a after
  have hc : configurationOn configured (some "/c.json") =
      .ok { includes := some ["b.js"], rewriteBuiltins := some false, cwd := some "/" } := by decide +kernel
  have hd : configurationOn configured (some "/d.json") = .ok { excludes := some ["a.js"] } := by decide +kernel
  have hsame := (@run_overridden a "/" _ _ (fun _ => none) _ _ _ hc hd ⟨nofun, nofun, nofun, rfl⟩).2
  exact ⟨hc, hd, hsame, by decide +kernel⟩

/-- The directory that `--cwd` gives does not hide that of the configuration: what a chunk imports is looked for in
the directory of the configuration, where it need not be. -/
theorem run_cwd_not_overridden :
    let disk := treeOf [("/p/dist/a.js", "import 'x';\n".toList),
      ("/p/node_modules/x/package.json", "\x7b\"main\":\"index.cjs\"\x7d".toList),
      ("/p/node_modules/x/index.cjs", "exports.a = 1;\n".toList),
      ("/c.json", "\x7b\"cwd\":\"/q\"\x7d".toList), ("/d.json", "\x7b\"cwd\":\"/p\"\x7d".toList)]
    let after (config : Path) := ((run Disk.fileSystem "/"
      { files := ["dist/a.js"], cwd? := some "/p", dir? := some "dist", config? := some config }).run disk).run
    configurationOn disk (some "/c.json") = .ok { cwd := some "/q" } ∧
      configurationOn disk (some "/d.json") = .ok { cwd := some "/p" } ∧
      (after "/c.json").1 ≠ (after "/d.json").1 ∧
      (after "/c.json").2.read "/p/dist/a.js" ≠ (after "/d.json").2.read "/p/dist/a.js" := by
  decide +kernel

end Command
end CjsInterop
