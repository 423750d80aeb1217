import CjsInterop.Proofs.DefinitionReading
import CjsInterop.Proofs.PreamblePlace
import CjsInterop.Surface

/-! A chunk that calls the function after its rewriting is no CommonJS, as the definition of the function takes
module syntax. A chunk of which imports are only removed may well become CommonJS. -/

namespace CjsInterop

open Syntax

/-- A source with an import at its top, or with `import.meta`, is no CommonJS. -/
theorem Surface.ofSource_eq_error {source : Text} {program : Program}
    (hp : Program.ofSource? commonJsDialect source = some program)
    (h : (∃ item ∈ program.items, ∃ stmt, item.tree.form = .importDeclaration stmt) ∨
      Form.importMeta ∈ program.forms) : ∃ e, Surface.ofSource source = .error e := by
  unfold Surface.ofSource
  simp only [hp]
  cases hm : moduleSyntax? program with
  | some e => exact ⟨e, rfl⟩
  | none =>
    rcases h with ⟨item, hitem, stmt, hform⟩ | hmeta
    · have hnone := List.findSome?_eq_none_iff.1 hm item hitem
      rw [hform] at hnone
      cases hnone
    · have hany : (program.forms.any fun f => f == .importMeta) = true :=
        List.any_eq_true.2 ⟨.importMeta, hmeta, beq_self_eq_true _⟩
      exact ⟨.importMeta, if_pos hany⟩

/-- Another text may stand behind the line of a hashbang. Without such a line it may not begin with `#`. -/
theorem Headed.replace {source line body : Text} (h : Headed source line body) {text : Text}
    (ht : text.head? ≠ some '#') : Headed (line ++ text) line text := by
  cases h with
  | plain => exact .plain ht
  | hashbang hc he => exact .hashbang hc he

/-- A source is read from the token behind its line on. -/
theorem Headed.firstCursor_eq {source line body : Text} (h : Headed source line body) (dialect : Dialect)
    (hb : ∀ html atStart, Lexer.skipBlanks html .between atStart false body = some (false, body)) :
    ∃ gap, Lexer.Skipped gap ∧ Program.firstCursor dialect source = Reader.standing dialect (gap ++ body) := by
  cases h with
  | plain hhash =>
    have hsource : withoutHashbang source = source := by
      unfold withoutHashbang
      split
      · exact absurd rfl hhash
      · rfl
    refine ⟨[], Lexer.skipped_nil, ?_⟩
    simp only [Program.firstCursor, Reader.standing, hsource, List.nil_append, Lexer.next, hb]
  | @hashbang comment lineEnd body hc he =>
    have hskip : ∀ atStart, Lexer.skipBlanks dialect.script .between atStart false (lineEnd ++ body) =
        Lexer.skipBlanks dialect.script .between true true body := by
      rcases he with rfl | rfl <;> exact fun _ => rfl
    refine ⟨lineEnd, fun html _ _ text => ⟨true, true, by rcases he with rfl | rfl <;> rfl⟩, ?_⟩
    simp only [Program.firstCursor, Reader.standing, Headed.withoutHashbang_eq hc he, Lexer.next, hskip]

/-- The definition of the function is module syntax. -/
theorem preambleTrees_error {rewriteBuiltins : Bool} {span : Span} {items : List Item}
    (h : items.map Item.tree = Reader.preambleTrees rewriteBuiltins span) :
    (∃ item ∈ items, ∃ stmt, item.tree.form = .importDeclaration stmt) ∨
      Form.importMeta ∈ items.flatMap fun item => item.tree.forms := by
  cases rewriteBuiltins with
  | true =>
    obtain ⟨item, rfl, hitem⟩ := List.map_eq_singleton_iff.1 h
    refine .inr (List.mem_flatMap.2 ⟨item, List.mem_singleton_self _, ?_⟩)
    rw [hitem]
    decide +kernel
  | false =>
    obtain ⟨item, items, rfl, hitem, -⟩ := List.map_eq_cons_iff.1 h
    exact .inl ⟨item, List.mem_cons_self, _, congrArg Tree.form hitem⟩

/-- A text that the definition stands in is no CommonJS. -/
theorem Surface.ofSource_preamble {source line body : Text} (h : Headed source line body) (rewriteBuiltins : Bool)
    (code : Text) : ∃ e, Surface.ofSource (line ++ preamble rewriteBuiltins ++ code) = .error e := by
  have hhead : (preamble rewriteBuiltins ++ code).head? ≠ some '#' := by
    obtain ⟨tail, htail⟩ := Reader.preamble_eq rewriteBuiltins
    rw [htail, List.append_assoc]
    cases rewriteBuiltins <;> simp [Reader.preambleWord]
  have htoken : ∀ html atStart, Lexer.skipBlanks html .between atStart false (preamble rewriteBuiltins ++ code) =
      some (false, preamble rewriteBuiltins ++ code) := by
    obtain ⟨tail, htail⟩ := Reader.preamble_eq rewriteBuiltins
    rw [htail, List.append_assoc]
    exact fun html atStart => Lexer.skipBlanks_name (Reader.preambleWord_isName rewriteBuiltins) _ html atStart false
  rw [List.append_assoc]
  obtain ⟨gap, hgap, hfirst⟩ := (h.replace hhead).firstCursor_eq commonJsDialect htoken
  cases hp : Program.ofSource? commonJsDialect (line ++ (preamble rewriteBuiltins ++ code)) with
  | none => exact ⟨.unreadable, by simp only [Surface.ofSource, hp]⟩
  | some program =>
    obtain ⟨final, hrun, -⟩ := Program.ofSource?_eq_some_iff.1 hp
    generalize hsource : line ++ (preamble rewriteBuiltins ++ code) = output at *
    obtain ⟨depth, hdepth⟩ := exists_depthBound (n := 4) (by decide) output
    have hlimit : 5 < (Program.topContext commonJsDialect output).limit := by
      have hlong := Reader.lt_length_preamble rewriteBuiltins
      change 5 < output.length + 2
      rw [← hsource, List.length_append, List.length_append]
      omega
    obtain ⟨span, hall⟩ := @Reader.readsAll_preamble _ depth rewriteBuiltins hlimit rfl _ hgap code
    rw [hdepth, hfirst] at hrun
    obtain ⟨taken, more, hitems, htaken⟩ := hall.run_inv hrun
    refine Surface.ofSource_eq_error hp ?_
    rw [Program.forms, hitems, List.flatMap_append]
    rcases preambleTrees_error htaken with ⟨item, hitem, stmt, hform⟩ | hmeta
    · exact .inl ⟨item, List.mem_append_left _ hitem, stmt, hform⟩
    · exact .inr (List.mem_append_left _ hmeta)

/-- A chunk that calls the function after its rewriting is no CommonJS then, whatever is done with its imports. -/
theorem Settings.render_stays_module (settings : Settings) (a : Answers) (wantMap : Bool)
    {fileName source line body : Text} {program : Program} (h : Headed source line body)
    (hc : settings.covers fileName) (hp : Program.ofSource? (.ofFileName fileName) source = some program)
    (hr : (a.edits settings.rewriteBuiltins program.imports).any fun e => e.2.usesRequire) (asked : List Text) :
    ∃ output e, (settings.render a.judges wantMap fileName source).run asked =
        pure (.ok (some output), asked ++ a.questions program.imports) ∧
      Surface.ofSource output.code = .error e := by
  obtain ⟨code, map, -, hrun⟩ := settings.render_headed a wantMap h hc hp hr asked
  obtain ⟨e, he⟩ := Surface.ofSource_preamble h settings.rewriteBuiltins code
  exact ⟨_, e, hrun, he⟩

def sideEffectProgram : Program := ⟨[⟨⟨0, 10⟩, .leaf (.importDeclaration ⟨⟨0, 10⟩, "x", false, []⟩)⟩]⟩

set_option maxRecDepth 2000 in
theorem render_stays_module_sideEffect :
    Program.ofSource? (.ofFileName "a.js") "import 'x'" = some sideEffectProgram ∧
      ∃ output e, (({} : Options).settings.render (Answers.undecided fun _ => true).judges false "a.js"
          "import 'x'").run [] = pure (.ok (some output), ["x".toList]) ∧
        Surface.ofSource output.code = .error e := by
  have h : Program.ofSource? (.ofFileName "a.js") "import 'x'" = some sideEffectProgram := by cbv
  have hc : ({} : Options).settings.covers "a.js" = true := by decide +kernel
  exact ⟨h, Settings.render_stays_module ({} : Options).settings (Answers.undecided fun _ => true) false
    (Headed.plain (by decide)) hc h (by decide +kernel) []⟩

/-- The rewriting of a chunk of which all imports name modules of the runtime. -/
theorem render_builtins {source code : Text} {imports : List ImportStatement}
    (hp : (Program.ofSource? (.ofFileName "a.js") source).map Program.imports = some imports)
    (he : (Answers.undecided fun _ => false).edits ({} : Options).settings.rewriteBuiltins imports ≠ [])
    (hq : (Answers.undecided fun _ => false).questions imports = [])
    (hcode : editedChunk source ((Answers.undecided fun _ => false).edits ({} : Options).settings.rewriteBuiltins imports)
      ({} : Options).settings.rewriteBuiltins "a.js" false = some ⟨code, none⟩) :
    (({} : Options).settings.render (Answers.undecided fun _ => false).judges false "a.js" source).run [] =
      pure (.ok (some ⟨code, none⟩), []) := by
  obtain ⟨program, hprogram, rfl⟩ := Option.map_eq_some_iff.1 hp
  have hc : ({} : Options).settings.covers "a.js" = true := by decide +kernel
  rw [Settings.render_run hc hprogram he, hcode, hq]
  rfl

/-- A chunk of nothing but an import becomes an empty text, which is CommonJS. Module syntax that stays does not
always show either: what is a comparison in a module opens a comment in CommonJS. -/
theorem render_becomes_commonJs :
    Surface.ofSource "import 'fs'" = .error .importStatement ∧
      (({} : Options).settings.render (Answers.undecided fun _ => false).judges false "a.js" "import 'fs'").run [] =
        pure (.ok (some ⟨[], none⟩), []) ∧
      Surface.ofSource [] = .ok ⟨[], []⟩ ∧
      (({} : Options).settings.render (Answers.undecided fun _ => false).judges false "a.js"
          "import 'fs';a <!--b; export \x7b\x7d;").run [] =
        pure (.ok (some ⟨"a <!--b; export \x7b\x7d;", none⟩), []) ∧
      Surface.ofSource "a <!--b; export \x7b\x7d;" = .ok ⟨[], []⟩ := by
  have hremoved := @render_builtins "import 'fs'" [] [⟨⟨0, 11⟩, "fs", false, []⟩] (by decide +kernel) (by decide +kernel)
    (by decide +kernel) (by decide +kernel)
  have hhidden := @render_builtins "import 'fs';a <!--b; export \x7b\x7d;" "a <!--b; export \x7b\x7d;"
    [⟨⟨0, 12⟩, "fs", false, []⟩] (by decide +kernel) (by decide +kernel) (by decide +kernel) (by decide +kernel)
  exact ⟨by decide +kernel, hremoved, by decide +kernel, hhidden, by decide +kernel⟩

end CjsInterop
