import CjsInterop.Proofs.AlikeTrees
import Mathlib

/-! The file that a specifier names is a fact about the tree: it does not depend on what has been asked before, nor
on texts that are no manifests. -/

namespace CjsInterop

/-- A tree that is written in some other way. -/
abbrev Disk.withWrite (write : Path → Text → StateM Disk (Except FileError Unit)) : FileSystem (StateM Disk) :=
  { Disk.fileSystem with write := write }

/-- What is remembered of paths is true of the tree. -/
structure Memory.Sound (disk : Disk) (memory : Memory) : Prop where
  kinds : ∀ entry ∈ memory.kinds, entry.2 = disk.kind? entry.1
  packages : ∀ entry ∈ memory.packages, disk.package entry.1 = .ok entry.2
  realPaths : ∀ entry ∈ memory.realPaths, entry.2 = disk.realPath? entry.1

theorem Memory.sound_empty (disk : Disk) : Sound disk {} := ⟨nofun, nofun, nofun⟩

/-- A question comes to an answer that `P` holds of, in every tree that is like the one it is about and whatever is
known of that tree. It changes nothing but what is known. -/
def Ends (disk : Disk) {α : Type} (p : StateT Memory (StateM Disk) α) (P : α → Prop) : Prop :=
  ∀ memory current, Memory.Sound disk memory → Disk.Alike disk current →
    ∃ a left, P a ∧ Memory.Sound disk left ∧ (p.run memory).run current = pure ((a, left), current)

namespace Ends

variable {disk : Disk} {α β : Type} {p : StateT Memory (StateM Disk) α} {P : α → Prop} {Q : β → Prop}

theorem pure {a : α} (h : P a) : Ends disk (pure a) P := fun memory _ hm _ => ⟨a, memory, h, hm, rfl⟩

theorem bind {f : α → StateT Memory (StateM Disk) β} (h : Ends disk p P) (hf : ∀ a, P a → Ends disk (f a) Q) :
    Ends disk (p >>= f) Q := by
  intro memory current hm hc
  obtain ⟨a, middle, ha, hmiddle, hp⟩ := h memory current hm hc
  obtain ⟨b, left, hb, hleft, hrun⟩ := hf a ha middle current hmiddle hc
  refine ⟨b, left, hb, hleft, ?_⟩
  rw [StateT.run_bind, StateT.run_bind, hp]
  exact hrun

/-- One answer is all that has to be gone on with. -/
theorem bind_eq {a : α} {f : α → StateT Memory (StateM Disk) β} (h : Ends disk p (· = a)) (hf : Ends disk (f a) Q) :
    Ends disk (p >>= f) Q := by
  refine h.bind fun b hb => ?_
  rw [hb]
  exact hf

theorem weaken {P' : α → Prop} (h : Ends disk p P) (hp : ∀ a, P a → P' a) : Ends disk p P' := by
  intro memory current hm hc
  obtain ⟨a, left, ha, hleft, hrun⟩ := h memory current hm hc
  exact ⟨a, left, hp a ha, hleft, hrun⟩

end Ends

/-- A question whose answer is certain. To ask it changes no tree, whatever is believed to be known. -/
class Settled (disk : Disk) {α : Type} (p : StateT Memory (StateM Disk) α) : Prop where
  ends : ∃ answer, Ends disk p (· = answer)
  keeps : ∀ memory current, ∃ a left, (p.run memory).run current = pure ((a, left), current)

namespace Settled

variable {disk : Disk} {α β : Type}

instance pure {a : α} : Settled disk (Pure.pure a) := ⟨⟨a, .pure rfl⟩, fun memory _ => ⟨a, memory, rfl⟩⟩

theorem bind {p : StateT Memory (StateM Disk) α} {f : α → StateT Memory (StateM Disk) β} (hp : Settled disk p)
    (hf : ∀ a, Settled disk (f a)) : Settled disk (p >>= f) := by
  obtain ⟨a, ha⟩ := hp.ends
  obtain ⟨b, hb⟩ := (hf a).ends
  refine ⟨⟨b, ha.bind_eq hb⟩, fun memory current => ?_⟩
  obtain ⟨a, middle, hrun⟩ := hp.keeps memory current
  rw [StateT.run_bind, StateT.run_bind, hrun]
  exact (hf a).keeps middle current

instance {p : StateT Memory (StateM Disk) α} {f : α → StateT Memory (StateM Disk) β} [hp : Settled disk p]
    [hf : ∀ a, Settled disk (f a)] : Settled disk (p >>= f) := .bind hp hf

instance ite {c : Prop} [Decidable c] {p q : StateT Memory (StateM Disk) α} [Settled disk p] [Settled disk q] :
    Settled disk (if c then p else q) := by
  split <;> assumption

end Settled

/-- A way of looking for something that has one outcome from where it begins. -/
class Definite (disk : Disk) {α : Type} (p : Resolution.Finder (StateM Disk) α) : Prop where
  run : ∀ lookup, Settled disk (p.run.run lookup)

namespace Definite

variable {disk : Disk} {α β : Type}

instance pure {a : α} : Definite disk (Pure.pure a) := ⟨fun _ => .pure⟩

instance throw {e : Unresolved} : Definite disk (throw e : Resolution.Finder (StateM Disk) α) := ⟨fun _ => .pure⟩

theorem bind {p : Resolution.Finder (StateM Disk) α} {f : α → Resolution.Finder (StateM Disk) β} (hp : Definite disk p)
    (hf : ∀ a, Definite disk (f a)) : Definite disk (p >>= f) := by
  refine ⟨fun lookup => ?_⟩
  rw [ExceptT.run_bind, StateT.run_bind]
  refine (hp.run lookup).bind fun r => ?_
  obtain ⟨result, behind⟩ := r
  cases result with
  | error e => exact .pure
  | ok a => exact (hf a).run behind

instance {p : Resolution.Finder (StateM Disk) α} {f : α → Resolution.Finder (StateM Disk) β} [hp : Definite disk p]
    [hf : ∀ a, Definite disk (f a)] : Definite disk (p >>= f) := .bind hp hf

instance map {p : Resolution.Finder (StateM Disk) α} [Definite disk p] {f : α → β} : Definite disk (f <$> p) := by
  rw [← bind_pure_comp]
  infer_instance

instance discard {p : Resolution.Finder (StateM Disk) α} [Definite disk p] : Definite disk (discard p) := map

instance ite {c : Prop} [Decidable c] {p q : Resolution.Finder (StateM Disk) α} [Definite disk p] [Definite disk q] :
    Definite disk (if c then p else q) := by
  split <;> assumption

instance attempt {p : Resolution.Finder (StateM Disk) (Option α)} [hp : Definite disk p] :
    Definite disk (Resolution.attempt p) := by
  refine ⟨fun lookup => ?_⟩
  have hrun : (Resolution.attempt p).run.run lookup = p.run.run lookup >>= fun r =>
      ((match r.1 with
        | .ok found => Pure.pure (.ok found)
        | .error _ => Pure.pure (.ok none)) :
        StateT Lookup (StateT Memory (StateM Disk)) (Except Unresolved (Option α))).run r.2 := by
    unfold Resolution.attempt
    simp only [tryCatch, tryCatchThe, MonadExceptOf.tryCatch, ExceptT.tryCatch, ExceptT.run_mk, StateT.run_bind]
    refine bind_congr fun r => ?_
    obtain ⟨result, behind⟩ := r
    cases result <;> rfl
  rw [hrun]
  refine (hp.run lookup).bind fun r => ?_
  obtain ⟨result, behind⟩ := r
  cases result <;> exact .pure

instance known {p : StateT Memory (StateM Disk) α} [hp : Settled disk p] :
    Definite disk (liftM p : Resolution.Finder (StateM Disk) α) := by
  refine ⟨fun lookup => ?_⟩
  have hrun : (ExceptT.run (liftM p : Resolution.Finder (StateM Disk) α)).run lookup =
      p >>= fun a => Pure.pure (.ok a, lookup) := rfl
  rw [hrun]
  exact hp.bind fun _ => .pure

instance getLookup : Definite disk (getThe Lookup : Resolution.Finder (StateM Disk) Lookup) :=
  ⟨fun _ => .pure⟩

instance modifyLookup {f : Lookup → Lookup} :
    Definite disk (modifyThe Lookup f : Resolution.Finder (StateM Disk) PUnit) :=
  ⟨fun _ => .pure⟩

theorem firstOf {step : α → Resolution.Finder (StateM Disk) (Option β)} {l : List α}
    (h : ∀ a ∈ l, Definite disk (step a)) : Definite disk (Resolution.firstOf step l) := by
  induction l with
  | nil => exact .pure
  | cons a rest ih =>
    refine .bind (h a List.mem_cons_self) fun found => ?_
    cases found with
    | some b => exact .pure
    | none => exact ih fun a ha => h a (List.mem_cons_of_mem _ ha)

instance {step : α → Resolution.Finder (StateM Disk) (Option β)} [h : ∀ a, Definite disk (step a)] {l : List α} :
    Definite disk (Resolution.firstOf step l) := .firstOf fun a _ => h a

instance forIn {step : α → β → Resolution.Finder (StateM Disk) (ForInStep β)} [h : ∀ a b, Definite disk (step a b)]
    {l : List α} {b : β} : Definite disk (forIn l b step) := by
  induction l generalizing b with
  | nil => exact .pure
  | cons a rest ih =>
    rw [List.forIn_cons]
    refine .bind (h a b) fun r => ?_
    cases r with
    | done b => exact .pure
    | yield b => exact ih

end Definite

namespace Resolution

variable {disk : Disk} {write : Path → Text → StateM Disk (Except FileError Unit)} {platform : Platform} {loader : Loader}

/-- The rules of a loader on a tree. -/
abbrev onDisk (write : Path → Text → StateM Disk (Except FileError Unit)) (platform : Platform) (loader : Loader) :
    Rules (StateM Disk) := ⟨Disk.withWrite write, platform, loader⟩

/-! ## What is known of a path -/

/-- What is true of the tree is remembered, and what is remembered is true. -/
theorem settled_consult {α : Type} {known : Memory → List (Path × α)} {learn : Memory → Path × α → Memory}
    {fact : Disk → Path → α} {ask : StateM Disk α} {path : Path}
    (ha : ∀ current, ask.run current = pure (fact current path, current))
    (hf : ∀ current, Disk.Alike disk current → fact disk path = fact current path)
    (hk : ∀ memory, Memory.Sound disk memory → ∀ entry ∈ known memory, entry.2 = fact disk entry.1)
    (hl : ∀ memory, Memory.Sound disk memory → Memory.Sound disk (learn memory (path, fact disk path))) :
    Settled disk (consult known path learn ask) := by
  have hrun : ∀ memory current, ((consult known path learn ask).run memory).run current =
      match (known memory).find? fun entry => entry.1 == path with
      | some entry => pure ((entry.2, memory), current)
      | none => pure ((fact current path, learn memory (path, fact current path)), current) := by
    intro memory current
    unfold consult
    rw [StateT.run_bind, StateT.run_get, pure_bind]
    cases (known memory).find? fun entry => entry.1 == path with
    | some entry => rfl
    | none =>
      simp only [StateT.run_bind, StateT.run_monadLift, monadLift_self, ha, pure_bind]
      rfl
  refine ⟨⟨fact disk path, fun memory current hm hc => ?_⟩, fun memory current => ?_⟩
  · rw [hrun, ← hf current hc]
    cases hfound : (known memory).find? fun entry => entry.1 == path with
    | some entry =>
      have hkey : entry.1 = path := by simpa using List.find?_some hfound
      have hfact := hk memory hm entry (List.mem_of_find?_eq_some hfound)
      exact ⟨entry.2, memory, hkey ▸ hfact, hm, rfl⟩
    | none => exact ⟨fact disk path, _, rfl, hl memory hm, rfl⟩
  · rw [hrun]
    cases (known memory).find? fun entry => entry.1 == path with
    | some entry => exact ⟨_, _, rfl⟩
    | none => exact ⟨_, _, rfl⟩

instance settled_kind? {path : Path} : Settled disk (kind? (onDisk write platform loader) path) := by
  refine @settled_consult _ _ _ _ Disk.kind? _ _ (fun current => rfl) (fun current hc => Disk.kind?_eq hc.places path)
    (fun _ hm => hm.kinds) fun memory hm => ?_
  exact ⟨List.forall_mem_cons.2 ⟨rfl, hm.kinds⟩, hm.packages, hm.realPaths⟩

instance settled_realPath? {path : Path} : Settled disk (realPath? (onDisk write platform loader) path) := by
  refine @settled_consult _ _ _ _ Disk.realPath? _ _ (fun current => rfl)
    (fun current hc => Disk.realPath?_eq hc.places path) (fun _ hm => hm.realPaths) fun memory hm => ?_
  exact ⟨hm.kinds, hm.packages, List.forall_mem_cons.2 ⟨rfl, hm.realPaths⟩⟩

instance {path : Path} : Definite disk (isFile (onDisk write platform loader) path) := by unfold isFile; infer_instance
instance {path : Path} : Definite disk (isDirectory (onDisk write platform loader) path) := by
  unfold isDirectory
  infer_instance

theorem run_package? (dir : Path) (lookup : Lookup) (memory : Memory) (current : Disk) :
    (((package? (onDisk write platform loader) dir).run.run lookup).run memory).run current =
      match memory.packages.find? fun entry => entry.1 == dir with
      | some entry => pure (((.ok entry.2, lookup), memory), current)
      | none =>
        match current.package dir with
        | .error e => pure (((.error e, lookup), memory), current)
        | .ok package =>
          pure (((.ok package, lookup), { memory with packages := (dir, package) :: memory.packages }), current) := by
  have hget : ((getThe Memory : Finder (StateM Disk) Memory).run.run lookup).run memory =
      pure ((.ok memory, lookup), memory) := rfl
  unfold package? Disk.package
  rw [ExceptT.run_bind, StateT.run_bind, StateT.run_bind, hget, pure_bind]
  cases hf : memory.packages.find? fun entry => entry.1 == dir with
  | some entry =>
    simp only [hf]
    rfl
  | none =>
    simp only [hf]
    rw [ExceptT.run_bind, StateT.run_bind, StateT.run_bind, StateT.run_bind]
    have hread : (((liftM ((Disk.withWrite write).read (Path.join dir "package.json")) : Finder (StateM Disk) _).run.run
        lookup).run memory).run current =
          pure (((.ok (current.read (Path.join dir "package.json")), lookup), memory), current) := rfl
    rw [hread, pure_bind]
    cases current.read (Path.join dir "package.json") with
    | error e => rfl
    | ok content =>
      simp only
      cases Package.ofText? content with
      | none => rfl
      | some package => rfl

instance {dir : Path} : Definite disk (package? (onDisk write platform loader) dir) := by
  refine ⟨fun lookup => ⟨?_, fun memory current => ?_⟩⟩
  rotate_left
  · rw [run_package?]
    cases memory.packages.find? fun entry => entry.1 == dir with
    | some entry => exact ⟨_, _, rfl⟩
    | none => cases current.package dir <;> exact ⟨_, _, rfl⟩
  cases hp : disk.package dir with
  | error e =>
    refine ⟨(.error e, lookup), fun memory current hm hc => ⟨_, memory, rfl, hm, ?_⟩⟩
    rw [run_package?, ← hc.package, hp]
    cases hf : memory.packages.find? fun entry => entry.1 == dir with
    | none => rfl
    | some entry =>
      have hkey : entry.1 = dir := by simpa using List.find?_some hf
      have hfact := hm.packages entry (List.mem_of_find?_eq_some hf)
      rw [hkey, hp] at hfact
      cases hfact
  | ok package =>
    refine ⟨(.ok package, lookup), fun memory current hm hc => ?_⟩
    rw [run_package?, ← hc.package, hp]
    cases hf : memory.packages.find? fun entry => entry.1 == dir with
    | none =>
      have hpackages : ∀ entry ∈ (dir, package) :: memory.packages, disk.package entry.1 = .ok entry.2 :=
        List.forall_mem_cons.2 ⟨hp, hm.packages⟩
      exact ⟨_, { memory with packages := (dir, package) :: memory.packages }, rfl,
        ⟨hm.kinds, hpackages, hm.realPaths⟩, rfl⟩
    | some entry =>
      have hkey : entry.1 = dir := by simpa using List.find?_some hf
      have hfact := hm.packages entry (List.mem_of_find?_eq_some hf)
      rw [hkey, hp] at hfact
      exact ⟨_, memory, by rw [Except.ok.inj hfact], hm, rfl⟩

/-! ## Files and directories -/

instance {found : Option Path} : Definite disk (orNotFound found) := by
  unfold orNotFound
  split <;> infer_instance
instance {path : Path} : Definite disk (fileIfAny (onDisk write platform loader) path) := by unfold fileIfAny; infer_instance
instance {path : Path} : Definite disk (withExtension (onDisk write platform loader) path) := by
  unfold withExtension
  infer_instance
instance {a b : Finder (StateM Disk) (Option Path)} [Definite disk a] [Definite disk b] :
    Definite disk (firstOf id [a, b]) :=
  .firstOf (List.forall_mem_cons.2 ⟨‹_›, List.forall_mem_singleton.2 ‹_›⟩)
instance {path : Path} : Definite disk (asFile (onDisk write platform loader) path) := by unfold asFile; infer_instance
instance {dir : Path} : Definite disk (asIndex (onDisk write platform loader) dir) := by unfold asIndex; infer_instance
instance {dir : Path} : Definite disk (asDirectory (onDisk write platform loader) dir) := by
  unfold asDirectory
  exact .bind inferInstance fun _ => .bind inferInstance fun _ => by split <;> infer_instance
instance {path : Path} {specifier : Text} :
    Definite disk (asFileOrDirectory (onDisk write platform loader) path specifier) := by
  unfold asFileOrDirectory
  have h : ∀ file : Option Path, Definite disk (match file with
      | some path => pure (some path)
      | none => do
        if ← isDirectory (onDisk write platform loader) path then asDirectory (onDisk write platform loader) path
        else return none) := by
    intro file
    split <;> infer_instance
  dsimp only
  split <;> exact .bind inferInstance h

/-! ## Packages -/

theorem definite_skip (dirs : List Path) : Definite disk (packageAbove.skip (onDisk write platform loader) dirs) := by
  fun_induction packageAbove.skip (onDisk write platform loader) dirs <;> infer_instance

instance {path : Path} : Definite disk (packageAbove (onDisk write platform loader) path) := by
  unfold packageAbove
  have := @definite_skip disk write platform loader (Path.ancestors path)
  infer_instance
instance {path : Path} : Definite disk (checkPackages (onDisk write platform loader) path) := by
  unfold checkPackages
  dsimp only
  infer_instance

section Targets

variable {dir : Path} {outside : Text → Finder (StateM Disk) (Option Path)} {chosen : Chosen}

mutual

theorem definite_targetPath (ho : ∀ text, Definite disk (outside text)) :
    ∀ target, Definite disk (targetPath (onDisk write platform loader) dir outside chosen target)
  | .nothing => by
    unfold targetPath
    infer_instance
  | .path text => by
    unfold targetPath
    split
    · exact ho text
    · split <;> infer_instance
  | .conditions entries => by
    unfold targetPath
    exact definite_conditionsPath ho entries
  | .alternatives [] => by
    unfold targetPath
    infer_instance
  | .alternatives (target :: targets) => by
    unfold targetPath
    exact definite_alternativesPath ho (target :: targets)

theorem definite_conditionsPath (ho : ∀ text, Definite disk (outside text)) :
    ∀ entries, Definite disk (conditionsPath (onDisk write platform loader) dir outside chosen entries)
  | [] => by
    unfold conditionsPath
    infer_instance
  | (condition, target) :: rest => by
    have := definite_targetPath ho target
    have := definite_conditionsPath ho rest
    unfold conditionsPath
    split
    · exact .bind inferInstance fun _ => by split <;> infer_instance
    · infer_instance

theorem definite_alternativesPath (ho : ∀ text, Definite disk (outside text)) :
    ∀ targets, Definite disk (alternativesPath (onDisk write platform loader) dir outside chosen targets)
  | [] => by
    unfold alternativesPath
    infer_instance
  | target :: rest => by
    have := definite_targetPath ho target
    have := definite_alternativesPath ho rest
    unfold alternativesPath
    exact .bind inferInstance fun _ => by split <;> infer_instance

end

variable [∀ text, Definite disk (outside text)]

instance {target : ExportTarget} : Definite disk (targetPath (onDisk write platform loader) dir outside chosen target) :=
  definite_targetPath inferInstance target
instance {entries : List (Text × ExportTarget)} {name : Text} :
    Definite disk (entryPath (onDisk write platform loader) dir outside entries name) := by
  unfold entryPath
  split <;> infer_instance

end Targets

instance {dir : Path} {exports : ExportTarget} {subpath : Text} :
    Definite disk (exported (onDisk write platform loader) dir exports subpath) := by
  unfold exported
  dsimp only
  repeat' first | infer_instance | refine .bind ?_ fun _ => ?_ | split

instance {path : Path} : Definite disk (settled (onDisk write platform loader) path) := by unfold settled; infer_instance

instance {dir : Path} {package : Package} {subpath : Text} :
    Definite disk (fromExports (onDisk write platform loader) dir package subpath) := by
  unfold fromExports
  repeat' first | infer_instance | refine .bind ?_ fun _ => ?_ | split

instance {dir : Path} {specifier : Text} : Definite disk (fromOwnPackage (onDisk write platform loader) dir specifier) := by
  unfold fromOwnPackage
  repeat' first | infer_instance | refine .bind ?_ fun _ => ?_ | split

instance {dir : Path} : Definite disk (modulesIn (onDisk write platform loader) dir) := by unfold modulesIn; infer_instance

instance {modules : Path} {specifier name subpath : Text} :
    Definite disk (fromModules (onDisk write platform loader) modules specifier name subpath) := by
  unfold fromModules
  dsimp only
  repeat' first | infer_instance | refine .bind ?_ fun _ => ?_ | split

instance {dir : Path} {specifier : Text} : Definite disk (fromPackages (onDisk write platform loader) dir specifier) := by
  unfold fromPackages
  dsimp only
  repeat' first | infer_instance | refine .firstOf fun _ _ => ?_ | refine .bind ?_ fun _ => ?_ | split

/-! ## Specifiers -/

instance {specifier : Text} {go : Text → Finder (StateM Disk) Path} [∀ path, Definite disk (go path)] :
    Definite disk (withSpecifier specifier go) := by
  unfold withSpecifier
  repeat' first | infer_instance | refine .bind ?_ fun _ => ?_ | split

instance {dir : Path} {specifier : Text} : Definite disk (fromDirectory (onDisk write platform loader) dir specifier) := by
  unfold fromDirectory
  infer_instance

instance {specifier : Text} : Definite disk (refuseBuiltin (onDisk write platform loader) specifier) := by
  unfold refuseBuiltin
  infer_instance

instance {dir : Path} {specifier : Text} : Definite disk (fromOtherPackage (onDisk write platform loader) dir specifier) := by
  unfold fromOtherPackage
  dsimp only
  repeat' first | infer_instance | refine .firstOf fun _ _ => ?_ | refine .bind ?_ fun _ => ?_ | split

instance {dir : Path} {specifier : Text} : Definite disk (fromImports (onDisk write platform loader) dir specifier) := by
  unfold fromImports
  dsimp only
  repeat' first | infer_instance | refine definite_targetPath (fun _ => ?_) _ | refine .bind ?_ fun _ => ?_ | split

instance {dir : Path} {specifier : Text} : Definite disk (find (onDisk write platform loader) dir specifier) := by
  unfold find
  repeat' first | infer_instance | refine .bind ?_ fun _ => ?_ | split

instance {dir : Path} {specifier : Text} : Definite disk (findReal (onDisk write platform loader) dir specifier) := by
  unfold findReal
  repeat' first | infer_instance | refine .bind ?_ fun _ => ?_ | split

/-- A specifier has one outcome. -/
instance settled_resolve {dir : Path} {specifier : Text} :
    Settled disk (resolve (onDisk write platform loader) dir specifier) := by
  refine ((inferInstance : Definite disk (findReal (onDisk write platform loader) dir specifier)).run _).bind fun r => ?_
  exact .pure

end Resolution
end CjsInterop
