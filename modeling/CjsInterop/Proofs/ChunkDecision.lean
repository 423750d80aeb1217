import CjsInterop.Proofs.Splicing
import Mathlib

/-! Which imports of a chunk are rewritten, whom that takes asking, and what becomes of the chunk. -/

namespace CjsInterop

namespace ImportStatement

/-- The user is asked about every import but those of types and those that only run a builtin. -/
def needsWord (stmt : ImportStatement) : Bool :=
  !stmt.isType && !(stmt.isSideEffectOnly && Builtin.isBuiltin stmt.source)

/-- What an import gives way to, if it is rewritten. -/
def plan (stmt : ImportStatement) : Plan :=
  if stmt.isSideEffectOnly then
    if Builtin.isBuiltin stmt.source then .remove else .bareRequire stmt.source
  else .bindings (Shim.ofImport stmt (Target.ofSpecifier stmt.source (Builtin.isBuiltin stmt.source)))

end ImportStatement

/-- What a user's predicate says of specifiers, if there is one, and what the file system says. -/
structure Answers where
  predicate? : Option (Text → Option Bool) := none
  isCommonJs : Text → Bool

namespace Answers

/-- The user's word on a specifier. -/
def word (a : Answers) (specifier : Text) : Option Bool :=
  a.predicate?.bind fun p => p specifier

/-- The judges that give these answers. A specifier that the predicate is asked about is noted. -/
def judges (a : Answers) : Judges (StateM (List Text)) where
  override specifier := do
    match a.predicate? with
    | some p =>
      modify (· ++ [specifier])
      return p specifier
    | none => return none
  isCommonJs specifier := return a.isCommonJs specifier

variable (a : Answers) (rewriteBuiltins : Bool)

/-- An import of values is rewritten if the user says so, or if the user says nothing and the module either is
no builtin and certainly CommonJS, or is a builtin that is to be rewritten. Without values a builtin always is
rewritten, namely removed. -/
def Rewrites (stmt : ImportStatement) : Prop :=
  stmt.isType = false ∧
    (stmt.isSideEffectOnly ∧ Builtin.isBuiltin stmt.source ∨
      a.word stmt.source = some true ∨
      a.word stmt.source = none ∧
        (Builtin.isBuiltin stmt.source = false ∧ a.isCommonJs stmt.source ∨
          Builtin.isBuiltin stmt.source ∧ stmt.isSideEffectOnly = false ∧ rewriteBuiltins))

instance (stmt : ImportStatement) : Decidable (a.Rewrites rewriteBuiltins stmt) :=
  inferInstanceAs (Decidable (_ ∧ _))

/-- The imports that are rewritten, each with its plan. -/
def edits (imports : List ImportStatement) : List (Span × Plan) :=
  (imports.filter fun stmt => a.Rewrites rewriteBuiltins stmt).map fun stmt => (stmt.span, stmt.plan)

/-- The specifiers that the predicate is asked about. -/
def questions (imports : List ImportStatement) : List Text :=
  if a.predicate?.isSome then (imports.filter ImportStatement.needsWord).map ImportStatement.source else []

variable {a rewriteBuiltins}

theorem ruling_run (specifier : Text) (verdict : Bool) (asked : List Text) :
    (a.judges.ruling specifier (pure verdict)).run asked =
      pure ((a.word specifier).getD verdict, asked ++ if a.predicate?.isSome then [specifier] else []) := by
  unfold Judges.ruling judges word
  cases a.predicate? with
  | none => simp
  | some p => cases hp : p specifier <;> simp [hp]

/-- One import is decided on. -/
theorem decide_run (stmt : ImportStatement) (asked : List Text) :
    (stmt.decide a.judges rewriteBuiltins).run asked =
      pure (if a.Rewrites rewriteBuiltins stmt then some stmt.plan else none, asked ++ a.questions [stmt]) := by
  have hfile : a.judges.isCommonJs stmt.source = pure (a.isCommonJs stmt.source) := rfl
  unfold ImportStatement.decide
  by_cases ht : stmt.isType
  · simp [ht, Rewrites, questions, ImportStatement.needsWord]
  by_cases hs : stmt.isSideEffectOnly
  · by_cases hb : Builtin.isBuiltin stmt.source
    · simp [ht, hs, hb, Rewrites, questions, ImportStatement.needsWord, ImportStatement.plan]
    · cases hw : a.word stmt.source <;>
        simp [ht, hs, hb, hw, hfile, ruling_run, Rewrites, questions, ImportStatement.needsWord,
          ImportStatement.plan]
  · by_cases hb : Builtin.isBuiltin stmt.source
    · cases hw : a.word stmt.source <;>
        simp [ht, hs, hb, hw, ruling_run, Rewrites, questions, ImportStatement.needsWord, ImportStatement.plan]
    · cases hw : a.word stmt.source <;>
        simp [ht, hs, hb, hw, hfile, ruling_run, Rewrites, questions, ImportStatement.needsWord,
          ImportStatement.plan]

/-- Every import is decided on, in order. -/
theorem plannedEdits_run (imports : List ImportStatement) (asked : List Text) :
    (plannedEdits a.judges rewriteBuiltins imports).run asked =
      pure (a.edits rewriteBuiltins imports, asked ++ a.questions imports) := by
  induction imports generalizing asked with
  | nil => simp [plannedEdits, edits, questions]
  | cons stmt imports ih =>
    have hedits : a.edits rewriteBuiltins (stmt :: imports) =
        ((if a.Rewrites rewriteBuiltins stmt then some stmt.plan else none).map
          fun plan => (stmt.span, plan)).toList ++ a.edits rewriteBuiltins imports := by
      by_cases hr : a.Rewrites rewriteBuiltins stmt <;> simp [edits, hr]
    have hquestions : a.questions (stmt :: imports) = a.questions [stmt] ++ a.questions imports := by
      unfold questions
      split
      · rw [← List.map_append, ← List.filter_append]
        rfl
      · rfl
    rw [hedits, hquestions]
    simp [plannedEdits, decide_run, ih]

end Answers

open Syntax

theorem edits_laid {a : Answers} {rewriteBuiltins : Bool} {dialect : Dialect} {source : Text} {program : Program}
    (hs : dialect.script = false) (h : Program.ofSource? dialect source = some program) :
    Laid 0 source ((a.edits rewriteBuiltins program.imports).map Prod.fst) := by
  refine (Program.imports_laid hs h).sublist ?_
  rw [Answers.edits, List.map_map]
  exact (List.filter_sublist (l := program.imports)).map _

theorem ofFileName_script (fileName : Text) : (Dialect.ofFileName fileName).script = false := by
  unfold Dialect.ofFileName
  grind

/-- A chunk with imports to rewrite is edited. -/
theorem Settings.render_run {settings : Settings} {a : Answers} {fileName source : Text} {program : Program}
    (hc : settings.covers fileName) (h : Program.ofSource? (.ofFileName fileName) source = some program)
    (he : a.edits settings.rewriteBuiltins program.imports ≠ []) (wantMap : Bool) (asked : List Text) :
    (settings.render a.judges wantMap fileName source).run asked =
      pure ((editedChunk source (a.edits settings.rewriteBuiltins program.imports) settings.rewriteBuiltins fileName
        wantMap).elim (.error .misplacedEdit) (fun output => .ok (some output)), asked ++ a.questions program.imports) := by
  unfold Settings.render
  simp only [hc, h, Bool.not_true, Bool.false_eq_true, if_false, StateT.run_bind, Answers.plannedEdits_run, pure_bind,
    if_neg he]
  cases editedChunk source (a.edits settings.rewriteBuiltins program.imports) settings.rewriteBuiltins fileName wantMap <;>
    rfl

/-- The whole decision on a chunk that is a module. An import is replaced if and only if the file is covered and
the import is one that `Answers.Rewrites` speaks of; the predicate is asked once about each import that needs its
word, in order; the chunk stays as it is if and only if no import is replaced; and the definition of the function
is put in if and only if a new text calls it. -/
theorem Settings.render_decides (settings : Settings) (a : Answers) (wantMap : Bool) {fileName source : Text}
    {program : Program} (h : Program.ofSource? (.ofFileName fileName) source = some program) (asked : List Text) :
    let edits := a.edits settings.rewriteBuiltins program.imports
    ∃ result, (settings.render a.judges wantMap fileName source).run asked =
        pure (result, asked ++ if settings.covers fileName then a.questions program.imports else []) ∧
      (result = .ok none ↔ settings.covers fileName = false ∨ edits = []) ∧
      (settings.covers fileName ∧ edits ≠ [] → ∃ code code? map,
        Spliced 0 source (Rewriting.replacements edits) code ∧
        result = code?.elim (.error .misplacedEdit) (fun code => .ok (some ⟨code, map⟩)) ∧
        if edits.any fun e => e.2.usesRequire then
          Rewriting.Framed source (edits.map Prod.fst) (preamble settings.rewriteBuiltins) code code?
        else code? = some code) := by
  intro edits
  unfold Settings.render
  by_cases hc : settings.covers fileName
  · by_cases he : edits = []
    · refine ⟨.ok none, ?_, by simp [he], fun hr => absurd he hr.2⟩
      simp [hc, h, Answers.plannedEdits_run, show a.edits settings.rewriteBuiltins program.imports = [] from he]
    · have hl : Laid 0 source (edits.map Prod.fst) := edits_laid (ofFileName_script fileName) h
      obtain ⟨code, code?, map, hspliced, hchunk, hframed⟩ := editedChunk_eq hl
        (hl.ne_nil (by simpa using he)) settings.rewriteBuiltins fileName wantMap
      refine ⟨_, ?_, ?_, fun _ => ⟨code, code?, map, hspliced, rfl, hframed⟩⟩
      · have he' : a.edits settings.rewriteBuiltins program.imports ≠ [] := he
        have hchunk' : editedChunk source (a.edits settings.rewriteBuiltins program.imports) settings.rewriteBuiltins
            fileName wantMap = code?.map fun code => ⟨code, map⟩ := hchunk
        simp only [hc, h, Bool.not_true, Bool.false_eq_true, if_false, StateT.run_bind, Answers.plannedEdits_run,
          pure_bind, if_neg he', hchunk']
        cases code? <;> simp
      · cases code? <;> simp [hc, he]
  · refine ⟨.ok none, ?_, by simp [hc], fun hr => absurd hr.1 hc⟩
    simp [hc]

/-- A predicate that is asked about everything and settles nothing. -/
def Answers.undecided (isCommonJs : Text → Bool) : Answers := ⟨some fun _ => none, isCommonJs⟩

theorem render_decides_default : ∃ program result,
    Program.ofSource? (.ofFileName "a.js") "import 'x'" = some program ∧
      (({} : Options).settings.render (Answers.undecided fun _ => true).judges false "a.js" "import 'x'").run [] =
        pure (result, ["x".toList]) ∧ result ≠ .ok none := by
  have h : Program.ofSource? (.ofFileName "a.js") "import 'x'" =
      some ⟨[⟨⟨0, 10⟩, .leaf (.importDeclaration ⟨⟨0, 10⟩, "x", false, []⟩)⟩]⟩ := by cbv
  have hc : ({} : Options).settings.covers "a.js" = true := by decide +kernel
  obtain ⟨result, hrun, hnone, -⟩ :=
    Settings.render_decides ({} : Options).settings (Answers.undecided fun _ => true) false h []
  rw [if_pos hc] at hrun
  refine ⟨_, result, h, hrun, fun hr => ?_⟩
  rcases hnone.1 hr with hf | he
  · exact Bool.noConfusion (hc.symm.trans hf)
  · exact absurd (congrArg List.length he) (by decide +kernel)

end CjsInterop
