import CjsInterop.Proofs.ChunkDecision
import CjsInterop.Proofs.StatementReading

/-! Where the definition of the function stands in a rewritten chunk: in front of everything, or behind the
line of a hashbang. That line has to end with a line feed, and not with another line end. -/

namespace CjsInterop

namespace Syntax

namespace Token

@[simp] theorem isMark_invalid (m : Text) : invalid.isMark m = false := rfl

@[simp] theorem isWord_invalid (w : Text) : invalid.isWord w = false := rfl

@[simp] theorem isOneOfMarks_invalid (marks : List String) : invalid.isOneOfMarks marks = false := rfl

@[simp] theorem isOneOfWords_invalid (words : List String) : invalid.isOneOfWords words = false := rfl

end Token

namespace Reader

variable {context : Context} {cursor : Cursor}

theorem assignment_invalid (p : Rules) (returnType : Bool) (h : cursor.lexeme.token = .invalid) :
    assignment p returnType context cursor = none := by
  simp [assignment, isYield, parenthesizedArrow?, isAsyncArrow, binaryExpression, unary, isAwait, isAtAngle,
    postfixExpression, operand, memberStart, primary, h]

theorem item_invalid (depth : Nat) (h : cursor.lexeme.token = .invalid) :
    rules (depth + 1) .item context cursor = none := by
  have hassignment : ∀ n context, rules n (.assignment true) context cursor = none := by
    intro n context
    cases n with
    | zero => rfl
    | succ n => exact assignment_invalid (rules n) true h
  have hexpression : ∀ n context, rules n .expression context cursor = none := by
    intro n context
    cases n with
    | zero => rfl
    | succ n => simp [rules, rule, expression, hassignment]
  have hplain : plainExpression (rules depth) context cursor = none := hexpression depth _
  rw [rules, rule, item_expression (fun w _ => by rw [h]; rfl) (fun m _ => by rw [h]; rfl)]
  simp only [expressionStatement, bind_apply, hplain, Option.bind_none]

theorem place_mono {a b : Text} (h : a <:+ b) : place context b ≤ place context a := by
  obtain ⟨front, rfl⟩ := h
  simp only [place, Text.byteLength_append]
  omega

/-- No item begins before `body` when the first token does not. -/
theorem ItemRun.start_le {depth : Nat} {final : Cursor} {items : List Item} {body : Text}
    (hs : context.dialect.script = false) (h : ItemRun (rules (depth + 1)) context cursor items final)
    (hc : Fresh context cursor) (hf : final.flawed = false)
    (hb : cursor.lexeme.here <:+ body ∨ cursor.lexeme.token = .invalid) :
    ∀ item ∈ items, place context body ≤ item.span.start := by
  induction h with
  | stop => exact nofun
  | @item cursor after final tree items ht hitem hrun ih =>
    have hhere : cursor.lexeme.here <:+ body := hb.resolve_right fun hi => by
      rw [item_invalid depth hi] at hitem
      cases hitem
    obtain ⟨ha, hmoved⟩ := ItemRun.moves hs hc ht hitem hrun hf
    have hnext : after.lexeme.here <:+ body :=
      ha.ordered.here.trans (hmoved.trans ((List.tail_suffix _).trans hhere))
    intro item hmem
    rcases List.mem_cons.1 hmem with rfl | hmem
    · exact place_mono hhere
    · exact ih ha hf (.inl hnext) item hmem

end Reader
end Syntax

open Syntax

/-- A source and what stays in front of a definition: nothing, or a hashbang comment with its line feed. -/
inductive Headed : (source line body : Text) → Prop
  | plain {source : Text} (h : source.head? ≠ some '#') : Headed source [] source
  | hashbang {comment lineEnd body : Text} (hc : ∀ c ∈ comment, Lexer.isLineEnd c = false)
      (he : lineEnd = "\n".toList ∨ lineEnd = "\r\n".toList) :
      Headed ("#!".toList ++ comment ++ lineEnd ++ body) ("#!".toList ++ comment ++ lineEnd) body

namespace Headed

variable {source line body : Text}

theorem eq_append (h : Headed source line body) : source = line ++ body := by
  cases h <;> rfl

theorem withoutHashbang_eq {comment lineEnd body : Text} (hc : ∀ c ∈ comment, Lexer.isLineEnd c = false)
    (he : lineEnd = "\n".toList ∨ lineEnd = "\r\n".toList) :
    withoutHashbang ("#!".toList ++ comment ++ lineEnd ++ body) = lineEnd ++ body := by
  have hdrop : (comment ++ (lineEnd ++ body)).dropWhile (fun c => !Lexer.isLineEnd c) =
      (lineEnd ++ body).dropWhile fun c => !Lexer.isLineEnd c :=
    List.dropWhile_append_of_pos fun c hm => by simp [hc c hm]
  change ((comment ++ lineEnd ++ body).dropWhile fun c => !Lexer.isLineEnd c) = _
  rw [List.append_assoc, hdrop]
  rcases he with rfl | rfl <;> rfl

theorem firstLineLength_eq {comment lineEnd body : Text} (hc : ∀ c ∈ comment, Lexer.isLineEnd c = false)
    (he : lineEnd = "\n".toList ∨ lineEnd = "\r\n".toList) :
    Rewriting.firstLineLength ("#!".toList ++ comment ++ lineEnd ++ body) =
      some (Text.byteLength ("#!".toList ++ comment ++ lineEnd)) := by
  obtain ⟨before, hb, rfl⟩ : ∃ before : Text, (∀ c ∈ before, c ≠ '\n') ∧ lineEnd = before ++ ['\n'] := by
    rcases he with rfl | rfl
    · exact ⟨[], nofun, rfl⟩
    · exact ⟨['\r'], by simp, rfl⟩
  have hfirst : ∀ c ∈ "#!".toList ++ comment ++ before, decide (c ≠ '\n') = true := by
    intro c hm
    simp only [List.mem_append] at hm
    rw [decide_eq_true_eq]
    rcases hm with (hm | hm) | hm
    · rintro rfl
      exact absurd hm (by decide)
    · rintro rfl
      exact absurd (hc _ hm) (by decide)
    · exact hb c hm
  have hline : ("#!".toList ++ comment ++ (before ++ ['\n']) ++ body).takeWhile (· ≠ '\n') =
      "#!".toList ++ comment ++ before := by
    rw [show "#!".toList ++ comment ++ (before ++ ['\n']) ++ body =
      ("#!".toList ++ comment ++ before) ++ '\n' :: body by simp, List.takeWhile_append_of_pos hfirst]
    simp
  rw [Rewriting.firstLineLength, if_pos (by simp), hline, ← List.append_assoc,
    Text.byteLength_append _ ['\n']]
  rfl

/-- What is read of the source begins behind the line. -/
theorem first_here (h : Headed source line body) (dialect : Dialect) :
    (Program.firstCursor dialect source).lexeme.here <:+ body ∨
      (Program.firstCursor dialect source).lexeme.token = .invalid := by
  cases h with
  | plain h =>
    have hsource : withoutHashbang source = source := by
      unfold withoutHashbang
      split
      · exact absurd rfl h
      · rfl
    have hhere := Lexer.next_here dialect.script true (withoutHashbang source)
    rw [hsource] at hhere
    exact .inl (by rwa [Program.firstCursor, hsource])
  | @hashbang comment lineEnd body hc he =>
    have hskip : Lexer.skipBlanks dialect.script .between true false (lineEnd ++ body) =
        Lexer.skipBlanks dialect.script .between true true body := by
      rcases he with rfl | rfl <;> rfl
    simp only [Program.firstCursor, withoutHashbang_eq hc he, Lexer.next, hskip]
    cases hblanks : Lexer.skipBlanks dialect.script .between true true body with
    | none => exact .inr rfl
    | some found =>
      refine .inl ?_
      rw [Lexer.lexemeAt_here]
      exact Lexer.skipBlanks_ends _ _ _ _ _ _ hblanks

/-- No statement or declaration begins on the line. -/
theorem start_le (h : Headed source line body) {dialect : Dialect} {program : Program}
    (hs : dialect.script = false) (hp : Program.ofSource? dialect source = some program) :
    ∀ item ∈ program.items, Text.byteLength line ≤ item.span.start := by
  obtain ⟨depth, final, hrun, hf⟩ := Program.exists_run hp
  have hplace : Reader.place (Program.topContext dialect source) body = Text.byteLength line := by
    change Text.byteLength source - Text.byteLength body = _
    rw [h.eq_append, Text.byteLength_append]
    omega
  rw [← hplace]
  exact hrun.start_le hs (Program.firstCursor_fresh _ _) hf (h.first_here dialect)

end Headed

/-- The definition goes behind the line, and the edits are made behind it. -/
theorem editedChunk_headed {source line body : Text} {edits : List (Span × Plan)} (h : Headed source line body)
    (hl : Laid 0 source (edits.map Prod.fst)) (hne : edits ≠ []) (hr : edits.any fun e => e.2.usesRequire)
    (hstart : ∀ span ∈ edits.map Prod.fst, Text.byteLength line ≤ span.start) (rewriteBuiltins : Bool)
    (fileName : Text) (wantMap : Bool) :
    ∃ code map, Spliced (Text.byteLength line) body (Rewriting.replacements edits) code ∧
      editedChunk source edits rewriteBuiltins fileName wantMap =
        some ⟨line ++ preamble rewriteBuiltins ++ code, map⟩ := by
  obtain ⟨after, code, hspliced, hafter, hchunk⟩ :=
    editedChunk_edited hl (hl.ne_nil (by simpa using hne)) rewriteBuiltins fileName wantMap
  rw [hchunk, if_pos hr]
  have hdrop : ∃ tail, code = line ++ tail ∧
      Spliced (Text.byteLength line) body (Rewriting.replacements edits) tail := by
    rw [h.eq_append] at hspliced
    rw [← Nat.zero_add (Text.byteLength line)]
    refine hspliced.drop fun e he => ?_
    obtain ⟨⟨span, plan⟩, hmem, rfl⟩ := List.mem_map.1 he
    rw [Nat.zero_add]
    exact hstart span (List.mem_map_of_mem hmem)
  obtain ⟨tail, rfl, htail⟩ := hdrop
  cases h with
  | plain hhash =>
    obtain ⟨code?, map, hframed, hfinish⟩ := Rewriting.insertPreamble_finish rewriteBuiltins hafter fileName wantMap
    obtain rfl : code? = some (preamble rewriteBuiltins ++ tail) := by
      cases hframed <;> first | rfl | contradiction
    exact ⟨tail, map, htail, hfinish⟩
  | @hashbang comment lineEnd body hc he =>
    have hline := @Headed.firstLineLength_eq _ _ body hc he
    have htorn : ¬Buffer.Torn (Text.byteLength ("#!".toList ++ comment ++ lineEnd)) (edits.map Prod.fst) := by
      rintro ⟨span, hmem, hlt, -⟩
      have := hstart span hmem
      omega
    obtain ⟨before, behind, map, hcode, hbefore, hfinish⟩ :=
      Rewriting.insertPreamble_behindLine rewriteBuiltins hafter rfl rfl hline (Rewriting.firstLine_boundary hline).1
        htorn fileName wantMap
    obtain rfl := hbefore hstart
    obtain rfl := List.append_cancel_left hcode
    exact ⟨tail, map, htail, hfinish⟩

/-- A chunk that calls the function is its line, the definition, and the rest of the chunk with its edits. -/
theorem Settings.render_headed (settings : Settings) (a : Answers) (wantMap : Bool)
    {fileName source line body : Text} {program : Program} (h : Headed source line body)
    (hc : settings.covers fileName) (hp : Program.ofSource? (.ofFileName fileName) source = some program)
    (hr : (a.edits settings.rewriteBuiltins program.imports).any fun e => e.2.usesRequire) (asked : List Text) :
    ∃ code map,
      Spliced (Text.byteLength line) body
        (Rewriting.replacements (a.edits settings.rewriteBuiltins program.imports)) code ∧
      (settings.render a.judges wantMap fileName source).run asked =
        pure (.ok (some ⟨line ++ preamble settings.rewriteBuiltins ++ code, map⟩),
          asked ++ a.questions program.imports) := by
  have hs := ofFileName_script fileName
  have hne : a.edits settings.rewriteBuiltins program.imports ≠ [] := by
    rintro he
    simp [he] at hr
  have hstart : ∀ span ∈ (a.edits settings.rewriteBuiltins program.imports).map Prod.fst,
      Text.byteLength line ≤ span.start := by
    intro span hm
    simp only [Answers.edits, List.map_map, List.mem_map, List.mem_filter, Function.comp_apply] at hm
    obtain ⟨stmt, ⟨hstmt, -⟩, rfl⟩ := hm
    obtain ⟨item, hitem, he⟩ := List.mem_map.1 ((Program.imports_sublist hp).subset (List.mem_map_of_mem hstmt))
    exact he ▸ h.start_le hs hp item hitem
  obtain ⟨code, map, hspliced, hchunk⟩ := editedChunk_headed h (edits_laid hs hp) hne hr hstart
    settings.rewriteBuiltins fileName wantMap
  exact ⟨code, map, hspliced, by rw [Settings.render_run hc hp hne, hchunk]; rfl⟩

/-- The definition of the function has its place in every chunk that has no `#` in front or whose hashbang ends at
a line feed: the line of the hashbang stays where it is, no statement or declaration begins on it, and all imports
are replaced behind the definition. -/
theorem Settings.render_defines_first (settings : Settings) (a : Answers) (wantMap : Bool)
    {fileName source line body : Text} {program : Program} (h : Headed source line body)
    (hc : settings.covers fileName) (hp : Program.ofSource? (.ofFileName fileName) source = some program)
    (hr : (a.edits settings.rewriteBuiltins program.imports).any fun e => e.2.usesRequire) (asked : List Text) :
    ∃ code map,
      Spliced (Text.byteLength line) body
        (Rewriting.replacements (a.edits settings.rewriteBuiltins program.imports)) code ∧
      (settings.render a.judges wantMap fileName source).run asked =
        pure (.ok (some ⟨line ++ preamble settings.rewriteBuiltins ++ code, map⟩),
          asked ++ a.questions program.imports) ∧
      ∀ item ∈ program.items, Text.byteLength line ≤ item.span.start := by
  obtain ⟨code, map, hspliced, hrun⟩ := settings.render_headed a wantMap h hc hp hr asked
  exact ⟨code, map, hspliced, hrun, h.start_le (ofFileName_script fileName) hp⟩

/-- A hashbang, and `import 'x'` behind the line end. -/
def hashbangChunk (lineEnd : Char) : Text := "#!a".toList ++ lineEnd :: "import 'x'\n".toList

def hashbangProgram : Program := ⟨[⟨⟨4, 14⟩, .leaf (.importDeclaration ⟨⟨4, 14⟩, "x", false, []⟩)⟩]⟩

set_option maxRecDepth 2000 in
theorem render_defines_first_hashbangChunk :
    Program.ofSource? (.ofFileName "a.js") (hashbangChunk '\n') = some hashbangProgram ∧
      ∃ code map, (({} : Options).settings.render (Answers.undecided fun _ => true).judges false "a.js"
        (hashbangChunk '\n')).run [] =
          pure (.ok (some ⟨"#!a\n".toList ++ importedPreamble ++ code, map⟩), ["x".toList]) := by
  have h : Program.ofSource? (.ofFileName "a.js") (hashbangChunk '\n') = some hashbangProgram := by cbv
  have hheaded : Headed (hashbangChunk '\n') "#!a\n" "import 'x'\n" :=
    @Headed.hashbang "a" "\n" _ (by simp [Lexer.isLineEnd]) (.inl rfl)
  have hc : ({} : Options).settings.covers "a.js" = true := by decide +kernel
  obtain ⟨code, map, -, hrun, -⟩ := Settings.render_defines_first ({} : Options).settings
    (Answers.undecided fun _ => true) false hheaded hc h (by decide +kernel) []
  exact ⟨h, code, map, hrun⟩

set_option maxRecDepth 2000 in
/-- Behind a carriage return the function is called before it is defined. -/
theorem render_calls_first :
    Program.ofSource? (.ofFileName "a.js") (hashbangChunk '\r') = some hashbangProgram ∧
      (({} : Options).settings.render (Answers.undecided fun _ => true).judges false "a.js" (hashbangChunk '\r')).run [] =
        pure (.ok (some ⟨"#!a\r__cjs_require(\"x\");\n".toList ++ importedPreamble, none⟩), ["x".toList]) := by
  have h : Program.ofSource? (.ofFileName "a.js") (hashbangChunk '\r') = some hashbangProgram := by cbv
  have hc : ({} : Options).settings.covers "a.js" = true := by decide +kernel
  have hchunk : editedChunk (hashbangChunk '\r') ((Answers.undecided fun _ => true).edits
      ({} : Options).settings.rewriteBuiltins hashbangProgram.imports) ({} : Options).settings.rewriteBuiltins "a.js" false =
        some ⟨"#!a\r__cjs_require(\"x\");\n".toList ++ importedPreamble, none⟩ := by decide +kernel
  refine ⟨h, ?_⟩
  rw [Settings.render_run hc h (by decide +kernel), hchunk]
  rfl

end CjsInterop
