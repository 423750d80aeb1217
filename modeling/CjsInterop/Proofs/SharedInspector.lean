import CjsInterop.Proofs.VerdictExact
import Mathlib.Data.List.Nodup
import Mathlib.Logic.Relation

/-! Verdicts that are under way at the same time share one reader of module contents. The first that needs it makes
it, the next one does when that failed, and nobody does once it has been made. -/

namespace CjsInterop

namespace Verdict

/-- How far a verdict has got. -/
inductive Stage where
  | asked
  /-- A content has been read, and it takes the reader to say what it is. -/
  | needing (source : Text)
  /-- The verdict is making the reader itself. -/
  | making (source : Text)
  | given (answer : Bool)

/-- Where a verdict stands when all but a content has been looked at. -/
def stageAfter : Finding → Stage
  | .decided answer => .given answer
  | .content source => .needing source

/-- Verdicts under way, by their numbers. -/
structure Crowd where
  session : Session := {}
  stage : Nat → Stage := fun _ => .asked
  /-- Those that called for the reader to be made, in order. -/
  calls : List Nat := []
  /-- Those that came to the reader, to make it or to use it, in order. -/
  turns : List Nat := []

/-- Nobody is making the reader. -/
def Crowd.Idle (s : Crowd) : Prop := ∀ i source, s.stage i ≠ .making source

/-- One step of one verdict, or a question about manifests by anybody else. A verdict waits at no other place than the
reader. Only one makes it at a time, and the others wait for that; who is next is open. -/
inductive Step (g : Grounds Id) (query : Nat → Text × Path) (s : Crowd) : Crowd → Prop
  | nearest (path : Path) : Step g query s { s with session := Event.after g s.session (.nearest path) }
  | find {i : Nat} {found : Finding} {left : ManifestCache} (h : s.stage i = .asked)
      (hrun : (finding g (query i).1 (query i).2).run s.session.manifests = pure (found, left)) :
      Step g query s { s with
        session := { s.session with manifests := left }
        stage := Function.update s.stage i (stageAfter found) }
  | use {i : Nat} {source : Text} (h : s.stage i = .needing source) (hr : s.session.inspector.ready = true) :
      Step g query s { s with
        stage := Function.update s.stage i (.given (ofContent source))
        turns := s.turns ++ [i] }
  | call {i : Nat} {source : Text} (h : s.stage i = .needing source) (hr : s.session.inspector.ready = false)
      (hidle : s.Idle) :
      Step g query s { s with
        stage := Function.update s.stage i (.making source)
        calls := s.calls ++ [i]
        turns := s.turns ++ [i] }
  | made {i : Nat} {source : Text} (h : s.stage i = .making source) :
      Step g query s { s with
        session := { s.session with inspector := s.session.inspector.acquire g.succeeds }
        stage := Function.update s.stage i
          (.given ((s.session.inspector.acquire g.succeeds).ready && ofContent source)) }

variable {g : Grounds Id} {query : Nat → Text × Path} {s t : Crowd}

/-- What a given answer is: what was found, or the reader's answer unless the verdict's own call of it failed. -/
def Crowd.Gives (g : Grounds Id) (s : Crowd) (i : Nat) (answer : Bool) : Finding → Prop
  | .decided found => answer = found ∧ i ∉ s.turns
  | .content source => i ∈ s.turns ∧
      (i ∉ s.calls ∧ answer = ofContent source ∨
        ∃ k < s.session.inspector.tries, s.calls[k]? = some i ∧ answer = (g.succeeds k && ofContent source))

/-- What is true of verdicts under way whatever steps they take. -/
structure Crowd.Orderly (g : Grounds Id) (query : Nat → Text × Path) (s : Crowd) : Prop where
  sound : Manifest.Sound g.view s.session.manifests
  asked : ∀ i, s.stage i = .asked → i ∉ s.turns
  needing : ∀ i source, s.stage i = .needing source →
    uncachedFinding g (query i).1 (query i).2 = .content source ∧ i ∉ s.turns
  /-- The one that makes the reader is the last to have called for it. -/
  making : ∀ i source, s.stage i = .making source →
    uncachedFinding g (query i).1 (query i).2 = .content source ∧ s.session.inspector.ready = false ∧
      ∃ front, s.calls = front ++ [i] ∧ front.length = s.session.inspector.tries
  given : ∀ i answer, s.stage i = .given answer → s.Gives g i answer (uncachedFinding g (query i).1 (query i).2)
  idle : s.Idle → s.calls.length = s.session.inspector.tries
  /-- Until the reader is there every try has failed, and every turn was a call. -/
  failed : s.session.inspector.ready = false →
    (∀ k < s.session.inspector.tries, g.succeeds k = false) ∧ s.turns = s.calls
  /-- The try that made the reader was the last one. -/
  succeeded : s.session.inspector.ready = true →
    s.Idle ∧ ∃ n, s.session.inspector.tries = n + 1 ∧ g.succeeds n = true ∧ ∀ k < n, g.succeeds k = false
  calls_prefix : s.calls <+: s.turns
  turns_nodup : s.turns.Nodup
  turns_content : ∀ i ∈ s.turns, ∃ source, uncachedFinding g (query i).1 (query i).2 = .content source

theorem update_eq_iff {α : Type} {f : Nat → α} {i j : Nat} {a b : α} :
    Function.update f i a j = b ↔ j = i ∧ a = b ∨ j ≠ i ∧ f j = b := by
  by_cases h : j = i
  · subst h
    simp
  · simp [h]

theorem stageAfter_ne_making (found : Finding) (source : Text) : stageAfter found ≠ .making source := by
  cases found <;> exact nofun

theorem ne_making_update {stage : Nat → Stage} (h : ∀ j source, stage j ≠ .making source) (i : Nat) {a : Stage}
    (ha : ∀ source, a ≠ .making source) : ∀ j source, Function.update stage i a j ≠ .making source := by
  intro j source hj
  rcases update_eq_iff.1 hj with ⟨-, hstage⟩ | ⟨-, hstage⟩
  · exact ha source hstage
  · exact h j source hstage

theorem orderly_start : Crowd.Orderly g query {} where
  sound := Manifest.sound_nil g.view
  asked _ _ := List.not_mem_nil
  needing := nofun
  making := nofun
  given := nofun
  idle _ := rfl
  failed _ := ⟨nofun, rfl⟩
  succeeded := nofun
  calls_prefix := List.prefix_rfl
  turns_nodup := .nil
  turns_content := nofun

theorem Crowd.exists_making (h : ¬s.Idle) : ∃ i source, s.stage i = .making source := by
  simpa [Idle] using h

/-- A turn of another verdict leaves an answer what it is. -/
theorem Crowd.Gives.later {i j : Nat} {answer : Bool} {found : Finding} (h : s.Gives g i answer found) (hne : i ≠ j)
    (hturns : t.turns = s.turns ∨ t.turns = s.turns ++ [j]) (hcalls : t.calls = s.calls ∨ t.calls = s.calls ++ [j])
    (htries : s.session.inspector.tries ≤ t.session.inspector.tries)
    (hlength : s.session.inspector.tries ≤ s.calls.length) : t.Gives g i answer found := by
  have hturn : i ∈ t.turns ↔ i ∈ s.turns := by
    rcases hturns with hturns | hturns <;> simp [hturns, hne]
  have hcall : i ∈ t.calls ↔ i ∈ s.calls := by
    rcases hcalls with hcalls | hcalls <;> simp [hcalls, hne]
  cases found with
  | decided found => exact ⟨h.1, fun hm => h.2 (hturn.1 hm)⟩
  | content source =>
    obtain ⟨hm, h⟩ := h
    refine ⟨hturn.2 hm, h.imp (fun h => ⟨fun hm => h.1 (hcall.1 hm), h.2⟩) ?_⟩
    rintro ⟨k, hk, hget, ha⟩
    refine ⟨k, Nat.lt_of_lt_of_le hk htries, ?_, ha⟩
    rcases hcalls with hcalls | hcalls
    · rw [hcalls, hget]
    · rw [hcalls, List.getElem?_append_left (by omega), hget]

/-- One call at most has not been answered yet. -/
theorem Crowd.Orderly.length_calls (h : s.Orderly g query) :
    s.session.inspector.tries ≤ s.calls.length ∧ s.calls.length ≤ s.session.inspector.tries + 1 := by
  by_cases hidle : s.Idle
  · have hlength := h.idle hidle
    omega
  · obtain ⟨i, source, hmaking⟩ := exists_making hidle
    obtain ⟨-, -, front, hcalls, hlength⟩ := h.making i source hmaking
    simp [hcalls, hlength]

/-- Two that make the reader would both be the last to have called. -/
theorem Crowd.Orderly.making_unique (h : s.Orderly g query) {i j : Nat} {source other : Text}
    (hi : s.stage i = .making source) (hj : s.stage j = .making other) : i = j := by
  obtain ⟨-, -, front, hcalls, -⟩ := h.making i source hi
  obtain ⟨-, -, front', hcalls', -⟩ := h.making j other hj
  rw [hcalls] at hcalls'
  obtain ⟨-, hsame⟩ := List.append_inj' hcalls' rfl
  exact (List.cons.inj hsame).1

theorem Crowd.Orderly.nearest (hv : g.view.IgnoresSpelling) (h : s.Orderly g query) (path : Path) :
    Crowd.Orderly g query { s with session := Event.after g s.session (.nearest path) } where
  sound := (Manifest.nearest_sound hv h.sound path).2
  asked := h.asked
  needing := h.needing
  making := h.making
  given := h.given
  idle := h.idle
  failed := h.failed
  succeeded := h.succeeded
  calls_prefix := h.calls_prefix
  turns_nodup := h.turns_nodup
  turns_content := h.turns_content

theorem Crowd.Orderly.find (hv : g.view.IgnoresSpelling) (h : s.Orderly g query) {i : Nat} {found : Finding}
    {left : ManifestCache} (hi : s.stage i = .asked)
    (hrun : (finding g (query i).1 (query i).2).run s.session.manifests = pure (found, left)) :
    Crowd.Orderly g query { s with
      session := { s.session with manifests := left }
      stage := Function.update s.stage i (stageAfter found) } := by
  obtain ⟨hfound, hsound⟩ := finding_sound hv h.sound (query i).1 (query i).2
  rw [hrun] at hfound hsound
  have hfound : found = uncachedFinding g (query i).1 (query i).2 := hfound
  have hidle : (∀ j source, Function.update s.stage i (stageAfter found) j ≠ .making source) ↔ s.Idle := by
    refine forall_congr' fun j => forall_congr' fun source => not_congr ?_
    rw [update_eq_iff]
    constructor
    · rintro (⟨-, hstage⟩ | ⟨-, hstage⟩)
      · cases found <;> cases hstage
      · exact hstage
    · intro hstage
      refine .inr ⟨?_, hstage⟩
      rintro rfl
      rw [hi] at hstage
      cases hstage
  exact {
    sound := hsound
    asked := by
      intro j hj
      rcases update_eq_iff.1 hj with ⟨-, hstage⟩ | ⟨-, hstage⟩
      · cases found <;> cases hstage
      · exact h.asked j hstage
    needing := by
      intro j source hj
      rcases update_eq_iff.1 hj with ⟨rfl, hstage⟩ | ⟨-, hstage⟩
      · cases found with
        | decided answer => cases hstage
        | content content =>
          obtain rfl := Stage.needing.inj hstage
          exact ⟨hfound.symm, h.asked j hi⟩
      · exact h.needing j source hstage
    making := by
      intro j source hj
      rcases update_eq_iff.1 hj with ⟨-, hstage⟩ | ⟨-, hstage⟩
      · cases found <;> cases hstage
      · exact h.making j source hstage
    given := by
      intro j answer hj
      rcases update_eq_iff.1 hj with ⟨rfl, hstage⟩ | ⟨-, hstage⟩
      · cases found with
        | content content => cases hstage
        | decided decision =>
          obtain rfl := Stage.given.inj hstage
          rw [← hfound]
          exact ⟨rfl, h.asked j hi⟩
      · exact h.given j answer hstage
    idle := fun hi => h.idle (hidle.1 hi)
    failed := h.failed
    succeeded := fun hr => ⟨hidle.2 (h.succeeded hr).1, (h.succeeded hr).2⟩
    calls_prefix := h.calls_prefix
    turns_nodup := h.turns_nodup
    turns_content := h.turns_content }

/-- Verdicts that have not come to the reader have not when another one has. -/
theorem Crowd.Orderly.asked_concat (h : s.Orderly g query) (i : Nat) {a : Stage} (ha : a ≠ .asked) :
    ∀ j, Function.update s.stage i a j = .asked → j ∉ s.turns ++ [i] := by
  intro j hj
  rcases update_eq_iff.1 hj with ⟨-, hstage⟩ | ⟨hne, hstage⟩
  · exact absurd hstage ha
  · exact List.not_mem_append (h.asked j hstage) (by simpa using hne)

theorem Crowd.Orderly.needing_concat (h : s.Orderly g query) (i : Nat) {a : Stage} (ha : ∀ source, a ≠ .needing source) :
    ∀ j source, Function.update s.stage i a j = .needing source →
      uncachedFinding g (query j).1 (query j).2 = .content source ∧ j ∉ s.turns ++ [i] := by
  intro j source hj
  rcases update_eq_iff.1 hj with ⟨-, hstage⟩ | ⟨hne, hstage⟩
  · exact absurd hstage (ha source)
  · obtain ⟨hfound, hturn⟩ := h.needing j source hstage
    exact ⟨hfound, List.not_mem_append hturn (by simpa using hne)⟩

theorem Crowd.Orderly.turns_nodup_concat (h : s.Orderly g query) {i : Nat} (hi : i ∉ s.turns) : (s.turns ++ [i]).Nodup := by
  rw [← List.concat_eq_append]
  exact h.turns_nodup.concat hi

theorem Crowd.Orderly.turns_content_concat (h : s.Orderly g query) {i : Nat} {source : Text}
    (hi : s.stage i = .needing source) :
    ∀ j ∈ s.turns ++ [i], ∃ source, uncachedFinding g (query j).1 (query j).2 = .content source := by
  intro j hj
  rcases List.mem_append.1 hj with hj | hj
  · exact h.turns_content j hj
  · obtain rfl := List.mem_singleton.1 hj
    exact ⟨source, (h.needing j source hi).1⟩

theorem Crowd.Orderly.use (h : s.Orderly g query) {i : Nat} {source : Text} (hi : s.stage i = .needing source)
    (hr : s.session.inspector.ready = true) :
    Crowd.Orderly g query { s with
      stage := Function.update s.stage i (.given (ofContent source))
      turns := s.turns ++ [i] } := by
  obtain ⟨hfound, hturn⟩ := h.needing i source hi
  obtain ⟨hidle, hmade⟩ := h.succeeded hr
  have hidle' : ∀ j other, Function.update s.stage i (.given (ofContent source)) j ≠ .making other :=
    ne_making_update hidle i nofun
  exact {
    sound := h.sound
    asked := h.asked_concat i nofun
    needing := h.needing_concat i nofun
    making := fun j other hj => absurd hj (hidle' j other)
    given := by
      intro j answer hj
      rcases update_eq_iff.1 hj with ⟨rfl, hstage⟩ | ⟨hne, hstage⟩
      · obtain rfl := Stage.given.inj hstage
        rw [hfound]
        exact ⟨List.mem_append_right _ List.mem_cons_self, .inl ⟨fun hm => hturn (h.calls_prefix.subset hm), rfl⟩⟩
      · exact (h.given j answer hstage).later hne (.inr rfl) (.inl rfl) (Nat.le_refl _) h.length_calls.1
    idle := fun _ => h.idle hidle
    failed := fun hf => absurd (hr.symm.trans hf) nofun
    succeeded := fun _ => ⟨hidle', hmade⟩
    calls_prefix := h.calls_prefix.trans (List.prefix_append _ _)
    turns_nodup := h.turns_nodup_concat hturn
    turns_content := h.turns_content_concat hi }

theorem Crowd.Orderly.call (h : s.Orderly g query) {i : Nat} {source : Text} (hi : s.stage i = .needing source)
    (hr : s.session.inspector.ready = false) (hidle : s.Idle) :
    Crowd.Orderly g query { s with
      stage := Function.update s.stage i (.making source)
      calls := s.calls ++ [i]
      turns := s.turns ++ [i] } := by
  obtain ⟨hfound, hturn⟩ := h.needing i source hi
  obtain ⟨hfailed, hturns⟩ := h.failed hr
  exact {
    sound := h.sound
    asked := h.asked_concat i nofun
    needing := h.needing_concat i nofun
    making := by
      intro j other hj
      rcases update_eq_iff.1 hj with ⟨rfl, hstage⟩ | ⟨-, hstage⟩
      · obtain rfl := Stage.making.inj hstage
        exact ⟨hfound, hr, s.calls, rfl, h.idle hidle⟩
      · exact absurd hstage (hidle j other)
    given := by
      intro j answer hj
      rcases update_eq_iff.1 hj with ⟨-, hstage⟩ | ⟨hne, hstage⟩
      · cases hstage
      · exact (h.given j answer hstage).later hne (.inr rfl) (.inr rfl) (Nat.le_refl _) h.length_calls.1
    idle := fun hi => absurd (Function.update_self i _ _) (hi i source)
    failed := fun _ => ⟨hfailed, congrArg (· ++ [i]) hturns⟩
    succeeded := fun hs => absurd (hr.symm.trans hs) nofun
    calls_prefix := by simp only [hturns, List.prefix_rfl]
    turns_nodup := h.turns_nodup_concat hturn
    turns_content := h.turns_content_concat hi }

theorem Crowd.Orderly.made (h : s.Orderly g query) {i : Nat} {source : Text} (hi : s.stage i = .making source) :
    Crowd.Orderly g query { s with
      session := { s.session with inspector := s.session.inspector.acquire g.succeeds }
      stage := Function.update s.stage i
        (.given ((s.session.inspector.acquire g.succeeds).ready && ofContent source)) } := by
  obtain ⟨hfound, hr, front, hcalls, hlength⟩ := h.making i source hi
  obtain ⟨hfailed, hturns⟩ := h.failed hr
  have hacquire : s.session.inspector.acquire g.succeeds =
      ⟨s.session.inspector.tries + 1, g.succeeds s.session.inspector.tries⟩ := if_neg (by simp [hr])
  have hcall : s.calls[s.session.inspector.tries]? = some i := by simp [hcalls, ← hlength]
  have hidle : ∀ j other, Function.update s.stage i
      (.given (g.succeeds s.session.inspector.tries && ofContent source)) j ≠ .making other := by
    intro j other hj
    rcases update_eq_iff.1 hj with ⟨-, hstage⟩ | ⟨hne, hstage⟩
    · cases hstage
    · exact hne (h.making_unique hstage hi)
  rw [hacquire]
  exact {
    sound := h.sound
    asked := by
      intro j hj
      rcases update_eq_iff.1 hj with ⟨-, hstage⟩ | ⟨-, hstage⟩
      · cases hstage
      · exact h.asked j hstage
    needing := by
      intro j other hj
      rcases update_eq_iff.1 hj with ⟨-, hstage⟩ | ⟨-, hstage⟩
      · cases hstage
      · exact h.needing j other hstage
    making := fun j other hj => absurd hj (hidle j other)
    given := by
      intro j answer hj
      rcases update_eq_iff.1 hj with ⟨rfl, hstage⟩ | ⟨hne, hstage⟩
      · obtain rfl := Stage.given.inj hstage
        rw [hfound]
        have hturn : j ∈ s.turns := hturns ▸ List.mem_of_getElem? hcall
        exact ⟨hturn, .inr ⟨_, Nat.lt_succ_self _, hcall, rfl⟩⟩
      · exact (h.given j answer hstage).later hne (.inl rfl) (.inl rfl) (Nat.le_succ _) h.length_calls.1
    idle := fun _ => by simp [hcalls, hlength]
    failed := fun hf => ⟨fun k hk => by
      rcases Nat.lt_succ_iff_lt_or_eq.1 hk with hk | rfl
      · exact hfailed k hk
      · exact hf, hturns⟩
    succeeded := fun hs => ⟨hidle, _, rfl, hs, hfailed⟩
    calls_prefix := h.calls_prefix
    turns_nodup := h.turns_nodup
    turns_content := h.turns_content }

theorem Step.orderly (hv : g.view.IgnoresSpelling) (h : s.Orderly g query) (hstep : Step g query s t) :
    t.Orderly g query := by
  cases hstep with
  | nearest path => exact h.nearest hv path
  | find hi hrun => exact h.find hv hi hrun
  | use hi hr => exact h.use hi hr
  | call hi hr hidle => exact h.call hi hr hidle
  | made hi => exact h.made hi

/-- What verdicts have come to that began with nothing known. -/
def Reached (g : Grounds Id) (query : Nat → Text × Path) (s : Crowd) : Prop :=
  Relation.ReflTransGen (Step g query) {} s

theorem Reached.orderly (hv : g.view.IgnoresSpelling) (h : Reached g query s) : s.Orderly g query := by
  induction h with
  | refl => exact orderly_start
  | tail _ hstep ih => exact hstep.orderly hv ih

/-! ## The verdicts -/

/-- A verdict takes more than names and manifests: both loaders take the specifier for one plain file, its name and
the manifest above it leave open what it is, and this is its content. -/
def Inspects (g : Grounds Id) (specifier : Text) (importer : Path) (source : Text) : Prop :=
  Builtin.isBuiltin specifier = false ∧
    ∃ imported required,
      (g.resolve .importing importer specifier).run = some imported ∧
      (g.resolve .requiring importer specifier).run = some required ∧
      imported.isPlainFile ∧ (g.view.isFile imported.path).run ∧ Path.parts imported.path = Path.parts required.path ∧
      Path.extension? imported.path = some "js".toList ∧
      (Manifest.governing g.view imported.path).bind Manifest.system? = none ∧
      (g.view.read imported.path).run = .ok source

theorem uncachedFindingFor_eq_content_iff {path : Path} {source : Text} :
    uncachedFindingFor g path = .content source ↔
      Path.extension? path = some "js".toList ∧ (Manifest.governing g.view path).bind Manifest.system? = none ∧
        (g.view.read path).run = .ok source := by
  unfold uncachedFindingFor
  by_cases hcjs : Path.extension? path = some "cjs".toList
  · simp [hcjs]
  · by_cases hjs : Path.extension? path = some "js".toList
    · rw [if_neg hcjs, if_pos hjs]
      cases (Manifest.governing g.view path).bind Manifest.system? with
      | some system => cases system <;> simp
      | none => cases (g.view.read path).run <;> simp [hjs]
    · rw [if_neg hcjs, if_neg hjs]
      exact iff_of_false nofun fun h => hjs h.1

theorem inspects_iff {specifier : Text} {importer : Path} {source : Text} :
    Inspects g specifier importer source ↔ uncachedFinding g specifier importer = .content source := by
  unfold Inspects uncachedFinding
  by_cases hb : Builtin.isBuiltin specifier
  · simp [hb]
  · rw [if_neg hb]
    cases hfile : (commonFile? g specifier importer).run with
    | none =>
      refine iff_of_false ?_ nofun
      rintro ⟨-, imported, required, hi, hr, hplain, hisFile, hparts, -⟩
      have hsome := commonFile?_eq_some_iff.2 ⟨imported, required, hi, hr, hplain, hisFile, hparts, rfl⟩
      rw [hfile] at hsome
      cases hsome
    | some path =>
      dsimp only
      rw [uncachedFindingFor_eq_content_iff]
      constructor
      · rintro ⟨-, imported, required, hi, hr, hplain, hisFile, hparts, hcontent⟩
        have hsome := commonFile?_eq_some_iff.2 ⟨imported, required, hi, hr, hplain, hisFile, hparts, rfl⟩
        obtain rfl := Option.some.inj (hfile.symm.trans hsome)
        exact hcontent
      · intro hcontent
        obtain ⟨imported, required, hi, hr, hplain, hisFile, hparts, rfl⟩ := commonFile?_eq_some_iff.1 hfile
        exact ⟨by simpa using hb, imported, required, hi, hr, hplain, hisFile, hparts, hcontent⟩

/-- The same grounds with a reader that every try makes. -/
def unfailing (g : Grounds Id) : Grounds Id := { g with succeeds := fun _ => true }

/-- The tries that come after no success, among the first `n`. -/
def triesNeeded (succeeds : Nat → Bool) (n : Nat) : List Nat :=
  (List.range n).filter fun k => ∀ j < k, succeeds j = false

/-- From here the verdict can be given. -/
def Crowd.Finishes (g : Grounds Id) (query : Nat → Text × Path) (s : Crowd) (i : Nat) : Prop :=
  ∃ t answer, Relation.ReflTransGen (Step g query) s t ∧ t.stage i = .given answer

/-- The reader is made by those verdicts alone that need it, one at a time and once, and the only verdicts that depend
on how it went are those that failed to make it. -/
structure SingleFlight (g : Grounds Id) (query : Nat → Text × Path) (s : Crowd) : Prop where
  /-- To call for the reader takes a content to be read, and that nobody has made it before. -/
  calls_content : ∀ i ∈ s.calls, ∃ source, Inspects g (query i).1 (query i).2 source
  calls_failed : ∀ k, k + 1 < s.calls.length → g.succeeds k = false
  calls_nodup : s.calls.Nodup
  /-- Every verdict that is given on a content has had one turn. -/
  turns_nodup : s.turns.Nodup
  turns_iff : ∀ i answer, s.stage i = .given answer →
    (i ∈ s.turns ↔ ∃ source, Inspects g (query i).1 (query i).2 source)
  /-- There are as many calls as turns up to the first that makes the reader. -/
  calls_length : s.calls.length = (triesNeeded g.succeeds s.turns.length).length
  calls_prefix : s.calls <+: s.turns
  given_failed : ∀ i answer k, s.stage i = .given answer → s.calls[k]? = some i → g.succeeds k = false → answer = false
  given_content : ∀ i answer source, s.stage i = .given answer → Inspects g (query i).1 (query i).2 source →
    (∀ k, s.calls[k]? = some i → g.succeeds k = true) → answer = ofContent source
  given_other : ∀ i answer, s.stage i = .given answer → (∀ source, ¬Inspects g (query i).1 (query i).2 source) →
    ∀ history, answer =
      ((isCommonJs (unfailing g) (query i).1 (query i).2).run (after (unfailing g) history)).1
  /-- No verdict is kept waiting by what the others have come to. -/
  finishes : ∀ i, s.Finishes g query i

theorem Crowd.Orderly.calls_failed (h : s.Orderly g query) {k : Nat} (hk : k + 1 < s.calls.length) :
    g.succeeds k = false := by
  obtain ⟨-, hlength⟩ := h.length_calls
  cases hr : s.session.inspector.ready with
  | false => exact (h.failed hr).1 k (by omega)
  | true =>
    obtain ⟨hidle, n, htries, -, hfailed⟩ := h.succeeded hr
    have := h.idle hidle
    exact hfailed k (by omega)

theorem triesNeeded_length {succeeds : Nat → Bool} {n c : Nat} (hc : c ≤ n)
    (hfailed : ∀ k, k + 1 < c → succeeds k = false) (hmade : c < n → ∃ k < c, succeeds k = true) :
    (triesNeeded succeeds n).length = c := by
  have hsplit : List.range n = List.range c ++ (List.range (n - c)).map (c + ·) := by
    rw [← List.range_add]
    congr 1
    omega
  have hfirst : (List.range c).filter (fun k => ∀ j < k, succeeds j = false) = List.range c := by
    refine List.filter_eq_self.2 fun k hk => decide_eq_true fun j hj => hfailed j ?_
    have := List.mem_range.1 hk
    omega
  have hrest : ((List.range (n - c)).map (c + ·)).filter (fun k => ∀ j < k, succeeds j = false) = [] := by
    refine List.filter_eq_nil_iff.2 fun k hk => ?_
    obtain ⟨d, hd, rfl⟩ := List.mem_map.1 hk
    have hlt := List.mem_range.1 hd
    obtain ⟨j, hj, hs⟩ := hmade (by omega)
    intro hall
    have hf := of_decide_eq_true hall j (by omega)
    rw [hs] at hf
    cases hf
  rw [triesNeeded, hsplit, List.filter_append, hfirst, hrest, List.append_nil, List.length_range]

theorem Crowd.Orderly.calls_length (h : s.Orderly g query) :
    s.calls.length = (triesNeeded g.succeeds s.turns.length).length := by
  refine (triesNeeded_length h.calls_prefix.length_le (fun k => h.calls_failed) fun hlt => ?_).symm
  cases hr : s.session.inspector.ready with
  | false =>
    rw [(h.failed hr).2] at hlt
    omega
  | true =>
    obtain ⟨hidle, n, htries, hmade, -⟩ := h.succeeded hr
    have := h.idle hidle
    exact ⟨n, by omega, hmade⟩

/-! ## Every verdict can be given -/

theorem Crowd.Finishes.step {i : Nat} (hstep : Step g query s t) (h : t.Finishes g query i) : s.Finishes g query i := by
  obtain ⟨last, answer, hsteps, hgiven⟩ := h
  exact ⟨last, answer, .head hstep hsteps, hgiven⟩

theorem Crowd.finishes_given {i : Nat} {answer : Bool} (h : s.stage i = .given answer) : s.Finishes g query i :=
  ⟨s, answer, .refl, h⟩

theorem Crowd.finishes_making {i : Nat} {source : Text} (h : s.stage i = .making source) : s.Finishes g query i :=
  (finishes_given (Function.update_self i _ _)).step (.made h)

theorem Crowd.Idle.finishes_needing (hidle : s.Idle) {i : Nat} {source : Text} (h : s.stage i = .needing source) :
    s.Finishes g query i := by
  cases hr : s.session.inspector.ready with
  | true => exact (finishes_given (Function.update_self i _ _)).step (.use h hr)
  | false => exact (finishes_making (Function.update_self i _ _)).step (.call h hr hidle)

/-- One that needs the reader while another makes it can wait for that. -/
theorem Crowd.Orderly.finishes_needing (h : s.Orderly g query) {i : Nat} {source : Text}
    (hi : s.stage i = .needing source) : s.Finishes g query i := by
  by_cases hidle : s.Idle
  · exact hidle.finishes_needing hi
  · obtain ⟨j, other, hj⟩ := exists_making hidle
    have hne : i ≠ j := by
      rintro rfl
      rw [hi] at hj
      cases hj
    refine Finishes.step (.made hj) (Idle.finishes_needing (fun k third hk => ?_)
      ((Function.update_of_ne hne _ _).trans hi))
    rcases update_eq_iff.1 hk with ⟨-, hstage⟩ | ⟨hk, hstage⟩
    · cases hstage
    · exact hk (h.making_unique hstage hj)

theorem Crowd.Orderly.finishes (hv : g.view.IgnoresSpelling) (h : s.Orderly g query) (i : Nat) :
    s.Finishes g query i := by
  cases hi : s.stage i with
  | given answer => exact finishes_given hi
  | making source => exact finishes_making hi
  | needing source => exact h.finishes_needing hi
  | asked =>
    obtain ⟨⟨found, left⟩, hrun⟩ :
      ∃ r, (finding g (query i).1 (query i).2).run s.session.manifests = pure r := ⟨_, rfl⟩
    refine Finishes.step (.find hi hrun) ?_
    have hnext := h.find hv hi hrun
    cases found with
    | decided answer => exact finishes_given (Function.update_self i _ _)
    | content source => exact hnext.finishes_needing (Function.update_self i _ _)

/-- Whatever the tries come to and whatever order the verdicts take their steps in. -/
theorem Reached.singleFlight (hv : g.view.IgnoresSpelling) (hs : Reached g query s) : SingleFlight g query s := by
  have h := hs.orderly hv
  exact {
    calls_content := fun i hi => by
      obtain ⟨source, hfound⟩ := h.turns_content i (h.calls_prefix.subset hi)
      exact ⟨source, inspects_iff.2 hfound⟩
    calls_failed := fun k => h.calls_failed
    calls_nodup := h.turns_nodup.sublist h.calls_prefix.sublist
    turns_nodup := h.turns_nodup
    turns_iff := fun i answer hi => by
      have hgives := h.given i answer hi
      constructor
      · intro hturn
        obtain ⟨source, hfound⟩ := h.turns_content i hturn
        exact ⟨source, inspects_iff.2 hfound⟩
      · rintro ⟨source, hinspects⟩
        rw [inspects_iff.1 hinspects] at hgives
        exact hgives.1
    calls_length := h.calls_length
    calls_prefix := h.calls_prefix
    given_failed := fun i answer k hi hcall hfailed => by
      have hgives := h.given i answer hi
      obtain ⟨source, hfound⟩ := h.turns_content i (h.calls_prefix.subset (List.mem_of_getElem? hcall))
      rw [hfound] at hgives
      obtain ⟨-, ⟨hnot, -⟩ | ⟨k', -, hcall', ha⟩⟩ := hgives
      · exact absurd (List.mem_of_getElem? hcall) hnot
      · have hnodup := h.turns_nodup.sublist h.calls_prefix.sublist
        have hlt : k < s.calls.length := (List.getElem?_eq_some_iff.1 hcall).1
        obtain rfl : k = k' := (List.getElem?_inj hlt hnodup).1 (hcall.trans hcall'.symm)
        rw [ha, hfailed, Bool.false_and]
    given_content := fun i answer source hi hinspects hmade => by
      have hgives := h.given i answer hi
      rw [inspects_iff.1 hinspects] at hgives
      obtain ⟨-, ⟨-, ha⟩ | ⟨k, -, hcall, ha⟩⟩ := hgives
      · exact ha
      · rw [ha, hmade k hcall, Bool.true_and]
    given_other := fun i answer hi hother history => by
      have hgives := h.given i answer hi
      have hv' : (unfailing g).view.IgnoresSpelling := hv
      rw [isCommonJs_answer hv' (fun _ => rfl) (after_sound hv' history)]
      change answer = Verdict.answer (uncachedFinding g (query i).1 (query i).2)
      cases hfound : uncachedFinding g (query i).1 (query i).2 with
      | content source => exact absurd (inspects_iff.2 hfound) (hother source)
      | decided found =>
        rw [hfound] at hgives
        exact hgives.1
    finishes := h.finishes hv }

/-- A verdict with nobody beside it takes these steps and no others. -/
theorem Reached.alone (hs : Reached g query s) (hidle : s.Idle) {i : Nat} (hi : s.stage i = .asked) :
    ∃ t, Reached g query t ∧ t.Idle ∧ (∀ j ≠ i, t.stage j = s.stage j) ∧ t.stage i =
        .given ((isCommonJs g (query i).1 (query i).2).run s.session).1 ∧
      t.session = ((isCommonJs g (query i).1 (query i).2).run s.session).2 := by
  have hkept : ∀ stage : Nat → Stage, (∃ answer, stage i = .given answer) → (∀ j ≠ i, stage j = s.stage j) →
      ∀ j source, stage j ≠ .making source := by
    rintro stage ⟨answer, hgiven⟩ hrest j source hj
    by_cases hne : j = i
    · rw [hne, hgiven] at hj
      cases hj
    · exact hidle j source ((hrest j hne).symm.trans hj)
  obtain ⟨⟨found, left⟩, hrun⟩ :
    ∃ r, (finding g (query i).1 (query i).2).run s.session.manifests = pure r := ⟨_, rfl⟩
  have hfind := Step.find hi hrun
  have hother : ∀ a, ∀ j ≠ i, Function.update s.stage i a j = s.stage j := fun a j hne => Function.update_of_ne hne _ _
  rw [run_isCommonJs hrun]
  cases found with
  | decided answer =>
    have hstage := Function.update_self i (stageAfter (.decided answer)) s.stage
    exact ⟨_, hs.tail hfind, hkept _ ⟨_, hstage⟩ (hother _), hother _, hstage, rfl⟩
  | content source =>
    have hneeding := Function.update_self i (stageAfter (.content source)) s.stage
    cases hr : s.session.inspector.ready with
    | true =>
      have hacquire : s.session.inspector.acquire g.succeeds = s.session.inspector := if_pos hr
      simp only [hacquire, hr, Bool.true_and]
      refine ⟨_, (hs.tail hfind).tail (.use hneeding hr), ?_⟩
      rw [Function.update_idem]
      have hstage := Function.update_self i (Stage.given (ofContent source)) s.stage
      exact ⟨hkept _ ⟨_, hstage⟩ (hother _), hother _, hstage, rfl⟩
    | false =>
      have hidle' := ne_making_update hidle i (stageAfter_ne_making (.content source))
      have hmaking := Function.update_self i (Stage.making source) (Function.update s.stage i (stageAfter (.content source)))
      refine ⟨_, ((hs.tail hfind).tail (.call hneeding hr hidle')).tail (.made hmaking), ?_⟩
      rw [Function.update_idem, Function.update_idem]
      have hstage := Function.update_self i
        (Stage.given ((s.session.inspector.acquire g.succeeds).ready && ofContent source)) s.stage
      exact ⟨hkept _ ⟨_, hstage⟩ (hother _), hother _, hstage, rfl⟩

/-- The second try makes the reader. -/
def secondTry : Grounds Id := { plainGrounds with succeeds := fun k => k == 1 }

theorem singleFlight_secondTry :
    secondTry.view.IgnoresSpelling ∧ ∃ s, Reached secondTry (fun _ => ("./a.js", "/p/b.js")) s ∧
      SingleFlight secondTry (fun _ => ("./a.js", "/p/b.js")) s ∧
      s.stage 0 = .given false ∧ s.stage 1 = .given true := by
  have hv : secondTry.view.IgnoresSpelling := plainPackage.view_ignoresSpelling
  have hstart : Reached secondTry (fun _ => ("./a.js", "/p/b.js")) {} := .refl
  obtain ⟨s, hs, hidle, hrest, hfirst, hsession⟩ := hstart.alone nofun (i := 0) rfl
  obtain ⟨t, ht, -, hkept, hsecond, -⟩ := hs.alone hidle (i := 1) (hrest 1 (by decide))
  have hfailed : ((isCommonJs secondTry "./a.js" "/p/b.js").run {}).1 = false := by decide +kernel
  have hmade : ((isCommonJs secondTry "./a.js" "/p/b.js").run
      ((isCommonJs secondTry "./a.js" "/p/b.js").run {}).2).1 = true := by decide +kernel
  refine ⟨hv, t, ht, ht.singleFlight hv, ?_, ?_⟩
  · rw [hkept 0 (by decide), hfirst]
    exact congrArg Stage.given hfailed
  · rw [hsecond, hsession]
    exact congrArg Stage.given hmade

end Verdict
end CjsInterop
