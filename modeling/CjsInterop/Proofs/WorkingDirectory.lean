import CjsInterop.Command
import CjsInterop.Proofs.NormalPaths

/-! Where a run looks for its files and for what they import. The name of a chunk leads back to its file, and
imports start from the directory of the file unless the working directory is relative: it is then taken twice. -/

namespace CjsInterop

open CjsInterop.Path

namespace Command

/-- The files of a run, as they are found. -/
def Arguments.paths (a : Arguments) (here : Path) : List Path :=
  a.files.map (absolutize (a.bundle here).cwd)

/-- The plugin of a run with the options of a configuration. -/
def Arguments.plugin (a : Arguments) (here : Path) (options : Options) : Plugin :=
  ⟨(a.override options).settings, a.bundle here⟩

/-- The directory of a run that files are named after. -/
def Arguments.directory (a : Arguments) (here : Path) : Path :=
  absolutize (a.bundle here).cwd (a.dir?.getD ".")

/-- The importer that a chunk is taken for is the file that the chunk is read from, as long as only the command
says where it works. -/
theorem Arguments.importerPath_chunkName (a : Arguments) {here : Path} (hc : isAbsolute (a.bundle here).cwd = true)
    {options : Options} (ho : options.cwd = none) (file : Path) :
    (a.plugin here options).importerPath
        (chunkName (absolutize (a.bundle here).cwd file) (a.directory here)) =
      absolutize (a.bundle here).cwd file := by
  have hcwd : (a.plugin here options).cwd = (a.bundle here).cwd := by
    change options.cwd.getD (a.bundle here).cwd = _
    rw [ho]
    rfl
  rw [Plugin.importerPath, hcwd]
  exact absolutize_join_below? hc (a.dir?.getD ".") file

/-- `--dir ./lib/../dist// …`, run in `/w`, for a file that is spelled otherwise -/
theorem importerPath_chunkName_dist :
    let a : Arguments := { dir? := some "./lib/../dist//" }
    chunkName (absolutize "/w" "../w/dist/./x/../a.js") (a.directory "/w") = "a.js".toList ∧
      (a.plugin "/w" {}).importerPath "a.js" = "/w/dist/a.js".toList := by
  intro a
  have hname : chunkName (absolutize "/w" "../w/dist/./x/../a.js") (a.directory "/w") = "a.js".toList := by
    decide +kernel
  refine ⟨hname, ?_⟩
  have h := @Arguments.importerPath_chunkName a "/w" (by decide) {} rfl "../w/dist/./x/../a.js"
  exact (congrArg _ hname.symm).trans (h.trans (by decide +kernel))

end Command
/-! ## Where imports start from -/

section StartDirectory

variable {cwd importer : Path}

/-- A file in normal form, and the directory that it is in. -/
theorem parent?_of_fileName? {path : Path} {name : Text} (h : fileName? path = some name) :
    ∃ dir, parent? path = some dir ∧ parts path = parts dir ++ [.name name] := by
  have hlast : (parts path).getLast? = some (.name name) := by
    unfold fileName? at h
    split at h
    · next n hn => exact hn.trans (congrArg (some ∘ Part.name) (Option.some.inj h))
    · cases h
  rcases parent?_cases path with ⟨-, hs | hs⟩ | ⟨dir, last, hd, hs, -⟩
  · simp [hs] at hlast
  · simp [hs] at hlast
  · rw [hs, List.getLast?_concat, Option.some.injEq] at hlast
    exact ⟨dir, hd, hlast ▸ hs⟩

theorem startDirectory_eq {dir : Path} (h : parent? importer = some dir) :
    startDirectory cwd importer = absolutize cwd (if parts dir = [] then cwd else dir) := by
  unfold startDirectory
  rw [h]

/-- In an absolute importer the start is its own directory. -/
theorem startDirectory_absolute {dir here : Path} {name : Text} (ha : isAbsolute importer = true)
    (hd : parent? importer = some dir) (hs : parts importer = parts dir ++ [.name name]) :
    absolutize here (startDirectory cwd importer) = absolutize here dir := by
  have hroot : Part.root ∈ parts dir := by
    have hmem := (isAbsolute_iff importer).1 ha
    rw [hs] at hmem
    simpa using hmem
  have habs : isAbsolute dir = true := (isAbsolute_iff dir).2 hroot
  have hne : parts dir ≠ [] := List.ne_nil_of_mem hroot
  rw [startDirectory_eq hd, if_neg hne, absolutize_eq cwd, join_absolute habs, absolutize_eq here, absolutize_eq here,
    join_absolute (isAbsolute_normalize habs), join_absolute habs, normalize_normalize habs]

/-- A relative file in normal form goes up as far as its directory does, and then down by one name more. -/
theorem walk_of_file {path dir : Path} {name : Text} (hr : isAbsolute path = false)
    (hs : parts (normalize path) = parts dir ++ [.name name]) :
    ∃ count most, parts dir = walk count most ∧ ups (normalize path) = count := by
  obtain ⟨count, all, -, hreduce⟩ := reduce_relative hr
  have hparts : parts (normalize path) = walk count all := by
    rw [parts_normalize, hreduce]
    refine if_neg fun he => ?_
    rw [parts_normalize, hreduce, if_pos he] at hs
    have hlast := congrArg List.getLast? hs
    simp at hlast
  obtain ⟨most, rfl⟩ : ∃ most, all = most ++ [name] := by
    rw [hparts, walk] at hs
    have hlast := congrArg List.getLast? hs
    rw [List.getLast?_concat, List.getLast?_append] at hlast
    cases hl : all.getLast? with
    | none =>
      rw [List.getLast?_map, hl, Option.map_none, Option.none_or] at hlast
      have hmem := List.mem_of_getLast? hlast
      exact absurd (List.eq_of_mem_replicate hmem) (by simp)
    | some last =>
      obtain ⟨most, hmost⟩ := List.getLast?_eq_some_iff.1 hl
      rw [List.getLast?_map, hl, Option.map_some, Option.some_or, Option.some.injEq, Part.name.injEq] at hlast
      exact ⟨most, hlast ▸ hmost⟩
  have hdir : parts dir = walk count most := by
    rw [hparts, walk, List.map_append, ← List.append_assoc] at hs
    exact (List.append_inj_left' hs rfl).symm
  have hagain : reduce (parts (normalize path)) = walk count (most ++ [name]) := by
    rw [hparts, reduce_walk]
  exact ⟨count, most, hdir, ups_eq hagain⟩

/-- A relative working directory is walked again from the directory of the importer. -/
theorem startDirectory_relative {path dir : Path} {name : Text} (ha : isAbsolute (normalize (join cwd path)) = false)
    (hd : parent? (normalize (join cwd path)) = some dir)
    (hs : parts (normalize (join cwd path)) = parts dir ++ [.name name]) :
    (∀ here, isAbsolute here = true →
        absolutize here (startDirectory cwd (normalize (join cwd path))) = absolutize here dir) ↔
      downs cwd = ups cwd ∧ ups cwd ≤ ups (normalize (join cwd path)) := by
  have hjoin : isAbsolute (join cwd path) = false := by
    rw [← Bool.not_eq_true] at ha ⊢
    exact fun h => ha (isAbsolute_normalize h)
  have hcwd : isAbsolute cwd = false := by
    rw [← Bool.not_eq_true] at hjoin ⊢
    exact fun h => hjoin (isAbsolute_join h path)
  obtain ⟨above, names, hn, hr⟩ := reduce_relative hcwd
  obtain ⟨count, most, hdir, hups⟩ := walk_of_file hjoin hs
  have hrelative : isAbsolute dir = false := by
    rw [← Bool.not_eq_true, isAbsolute_iff, hdir]
    simp [walk]
  have hmoves := moves_of_reduce hcwd hr
  have hdirMoves := moves_of_reduce hrelative (by rw [hdir, reduce_walk])
  have hagain : ∀ {other move}, isAbsolute other = false → Moves other move →
      ((∀ here, isAbsolute here = true → absolutize here (absolutize cwd other) = absolutize here dir) ↔
        ∀ place : List Text, (∀ n ∈ place, (Part.name n).IsSegment) →
          move (names.reverse ++ place.drop above) = most.reverse ++ place.drop count) := by
    intro other move ho hm
    have hrel := isAbsolute_join_relative hcwd ho
    rw [absolutize_eq cwd]
    exact absolutize_eq_iff (isAbsolute_normalize_relative hrel) hrelative ((hmoves.join hm ho).normalize hrel) hdirMoves
  rw [hups, ups_eq hr, downs_eq hr, startDirectory_eq hd, hdir, ← names.length_reverse]
  split
  · next hnil =>
    obtain ⟨rfl, rfl⟩ : count = 0 ∧ most = [] := by simpa [walk] using hnil
    exact (hagain hcwd hmoves).trans walk_twice_iff
  · next hne =>
    refine (hagain hrelative hdirMoves).trans (Iff.trans ?_ drop_walk_iff)
    simp only [List.append_cancel_left_eq]

end StartDirectory

/-- Imports of a chunk start from the directory of the chunk, whatever directory both are read in, if and only if the
importer is absolute, as it is when the working directory is, or the working directory goes down as far as up and the
importer goes up as far. Any other relative working directory is walked twice. -/
theorem Plugin.startDirectory_eq_parent_iff (plugin : Plugin) {fileName name : Text}
    (h : fileName? (plugin.importerPath fileName) = some name) :
    (isAbsolute plugin.cwd = true → isAbsolute (plugin.importerPath fileName) = true) ∧
      ∃ dir, parent? (plugin.importerPath fileName) = some dir ∧
        ((∀ here, isAbsolute here = true →
            absolutize here (startDirectory plugin.cwd (plugin.importerPath fileName)) = absolutize here dir) ↔
          isAbsolute (plugin.importerPath fileName) = true ∨
            downs plugin.cwd = ups plugin.cwd ∧ ups plugin.cwd ≤ ups (plugin.importerPath fileName)) := by
  obtain ⟨path, hpath⟩ : ∃ path, plugin.importerPath fileName = normalize (join plugin.cwd path) :=
    ⟨_, absolutize_eq _ _⟩
  obtain ⟨dir, hd, hs⟩ := parent?_of_fileName? h
  refine ⟨fun hc => hpath ▸ isAbsolute_normalize (isAbsolute_join hc path), dir, hd, ?_⟩
  cases ha : isAbsolute (plugin.importerPath fileName) with
  | true => exact iff_of_true (fun here _ => startDirectory_absolute ha hd hs) (.inl rfl)
  | false =>
    rw [hpath] at ha hd hs ⊢
    rw [startDirectory_relative ha hd hs]
    simp

/-- A bundle of chunks in `dist`, with a working directory. -/
def Plugin.inDist (cwd : Path) : Plugin := ⟨({} : Options).settings, { cwd := cwd, dir? := some "dist" }⟩

theorem startDirectory_eq_parent_inDist :
    fileName? ((Plugin.inDist "/w").importerPath "chunks/a.js") = some "a.js".toList ∧
      absolutize "/" (startDirectory "/w" ((Plugin.inDist "/w").importerPath "chunks/a.js")) = "/w/dist/chunks".toList := by
  have h : fileName? ((Plugin.inDist "/w").importerPath "chunks/a.js") = some "a.js".toList := by decide +kernel
  obtain ⟨habsolute, dir, hd, hiff⟩ := Plugin.startDirectory_eq_parent_iff _ h
  have hdir : dir = "/w/dist/chunks".toList := Option.some.inj (hd.symm.trans (by decide +kernel))
  refine ⟨h, (hiff.2 (.inl (habsolute rfl)) "/" rfl).trans ?_⟩
  rw [hdir]
  decide +kernel

/-- In the working directory `p` a chunk is `p/dist/a.js`, and what it imports is looked for in `p/p/dist`. -/
theorem startDirectory_doubled :
    parent? ((Plugin.inDist "p").importerPath "a.js") = some "p/dist".toList ∧
      startDirectory "p" ((Plugin.inDist "p").importerPath "a.js") = "p/p/dist".toList ∧
      absolutize "/" (startDirectory "p" ((Plugin.inDist "p").importerPath "a.js")) ≠ absolutize "/" "p/dist" := by
  decide +kernel

end CjsInterop
