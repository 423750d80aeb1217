import CjsInterop.Proofs.ImportSpan
import Mathlib

/-! The items of a source stand in it in order, with nothing shared, and each is read from the place that
the one before left. -/

namespace CjsInterop

namespace Text

theorem length_le_byteLength (a : Text) : a.length ≤ byteLength a := by
  induction a with
  | nil => simp
  | cons c a ih =>
    have hc := Char.utf8Size_pos c
    simp only [List.length_cons, byteLength]
    omega

theorem byteLength_pos {a : Text} (h : a ≠ []) : 0 < byteLength a := by
  have hl := length_le_byteLength a
  have hp := List.length_pos_iff.2 h
  omega

/-- Ends of one text are told apart by the bytes in them. -/
theorem eq_of_suffix {a b text : Text} (ha : a <:+ text) (hb : b <:+ text) (h : byteLength a = byteLength b) :
    a = b := by
  have hnil : ∀ more rest : Text, byteLength (more ++ rest) = byteLength rest → more = [] := by
    intro more rest he
    by_cases hne : more = []
    · exact hne
    · have hp := byteLength_pos hne
      rw [byteLength_append] at he
      omega
  rcases List.suffix_or_suffix_of_suffix ha hb with ⟨more, rfl⟩ | ⟨more, rfl⟩
  · rw [hnil more a h.symm, List.nil_append]
  · rw [hnil more b h, List.nil_append]

end Text

/-- Stretches of a text that begins at byte `start` of a source, in order. -/
inductive Laid : (start : Nat) → Text → List Span → Prop
  | done {start : Nat} {text : Text} : Laid start text []
  | span {start : Nat} {gap body text : Text} {spans : List Span} (hb : body ≠ []) :
      Laid (start + Text.byteLength gap + Text.byteLength body) text spans →
      Laid start (gap ++ body ++ text)
        (⟨start + Text.byteLength gap, start + Text.byteLength gap + Text.byteLength body⟩ :: spans)

theorem Laid.gap {start : Nat} {gap text : Text} {spans : List Span}
    (h : Laid (start + Text.byteLength gap) text spans) : Laid start (gap ++ text) spans := by
  cases h with
  | done => exact .done
  | @span _ more body text spans hb h =>
    have hl : Laid start ((gap ++ more) ++ body ++ text) _ :=
      .span hb (by simpa [Nat.add_assoc] using h)
    simpa [Nat.add_assoc] using hl

theorem Laid.ne_nil {start : Nat} {text : Text} {spans : List Span} (h : Laid start text spans)
    (hs : spans ≠ []) : text ≠ [] := by
  cases h with
  | done => exact absurd rfl hs
  | span hb _ => simp [hb]

/-- Some of the stretches are in order too. -/
theorem Laid.sublist {start : Nat} {text : Text} {spans some : List Span} (h : Laid start text spans)
    (hs : some.Sublist spans) : Laid start text some := by
  induction h generalizing some with
  | done =>
    rw [List.sublist_nil] at hs
    exact hs ▸ .done
  | span hb _ ih =>
    cases hs with
    | cons _ hs =>
      refine .gap ?_
      simpa [Nat.add_assoc] using ih hs
    | cons_cons _ hs => exact .span hb (ih hs)

namespace Syntax
namespace Reader

/-! ## Runs -/

theorem bind_apply {α β : Type} (x : Reader α) (f : α → Reader β) (context : Context) (cursor : Cursor) :
    (x >>= f) context cursor = (x context cursor).bind fun (a, after) => f a context after := rfl

/-- Items up to the end of the source, each read from where the one before left off. -/
inductive ItemRun (p : Rules) (context : Context) : Cursor → List Item → Cursor → Prop
  | stop {cursor : Cursor} (h : cursor.lexeme.token = .eof) : ItemRun p context cursor [] cursor
  | item {cursor after final : Cursor} {tree : Tree} {items : List Item} (ht : cursor.lexeme.token ≠ .eof)
      (h : p .item context cursor = some (tree, after)) (hrun : ItemRun p context after items final) :
      ItemRun p context cursor
        (⟨⟨place context cursor.lexeme.here, place context after.behind⟩, tree⟩ :: items) final

theorem readItems_succ (p : Rules) (n : Nat) (done : List Item) (context : Context) (cursor : Cursor) :
    readItems p (n + 1) done context cursor =
      if cursor.lexeme.token = .eof then some (done.reverse, cursor)
      else (p .item context cursor).bind fun (tree, after) =>
        readItems p n (⟨⟨place context cursor.lexeme.here, place context after.behind⟩, tree⟩ :: done)
          context after := by
  have hend : isAtEnd context cursor = some (cursor.lexeme.token == .eof, cursor) := rfl
  conv => lhs; unfold readItems
  rw [bind_apply, hend, Option.bind_some]
  by_cases h : cursor.lexeme.token = .eof
  · simp only [h, BEq.rfl, if_true]
    rfl
  · simp only [h, beq_eq_false_iff_ne.2 h, if_false]
    rfl

theorem readItems_eq_some_iff {p : Rules} {n : Nat} {done items : List Item} {context : Context}
    {cursor final : Cursor} :
    readItems p n done context cursor = some (items, final) ↔
      ∃ more, items = done.reverse ++ more ∧ more.length < n ∧ ItemRun p context cursor more final := by
  induction n generalizing done cursor with
  | zero =>
    constructor
    · intro h
      cases h
    · rintro ⟨more, -, hl, -⟩
      omega
  | succ n ih =>
    rw [readItems_succ]
    by_cases ht : cursor.lexeme.token = .eof
    · rw [if_pos ht]
      constructor
      · intro h
        obtain ⟨rfl, rfl⟩ := Prod.mk.inj (Option.some.inj h)
        exact ⟨[], by simp, by simp, .stop ht⟩
      · rintro ⟨more, rfl, -, hrun⟩
        cases hrun with
        | stop => simp
        | item ht' => exact absurd ht ht'
    · rw [if_neg ht, Option.bind_eq_some_iff]
      constructor
      · rintro ⟨⟨tree, after⟩, hitem, h⟩
        obtain ⟨more, rfl, hl, hrun⟩ := ih.1 h
        exact ⟨_ :: more, by simp, by simpa using hl, .item ht hitem hrun⟩
      · rintro ⟨more, rfl, hl, hrun⟩
        cases hrun with
        | stop ht' => exact absurd ht' ht
        | item _ hitem hrun =>
          exact ⟨_, hitem, ih.2 ⟨_, by simp, by simpa using hl, hrun⟩⟩

theorem ItemRun.unflawed {p : Rules} [SteadyRules p] {context : Context} {cursor final : Cursor} {items : List Item}
    (h : ItemRun p context cursor items final) (hc : Fresh context cursor) (hf : final.flawed = false) :
    cursor.flawed = false := by
  induction h with
  | stop => exact hf
  | @item cursor after _ _ _ _ hitem _ ih =>
    obtain ⟨ho, hon, ha⟩ := Steady.leads (x := p .item) _ _ _ _ hc.ordered hc hitem
    by_cases hb : cursor.flawed = true
    · exact absurd (ih ha hf) (by simp [hon.flawed hb])
    · simpa using hb

/-- A run never comes back to where it was. -/
theorem ItemRun.item_ne {p : Rules} {context : Context} {cursor final : Cursor} {tree : Tree} {items : List Item}
    (h : p .item context cursor = some (tree, cursor)) (ht : cursor.lexeme.token ≠ .eof) :
    ¬ItemRun p context cursor items final := by
  induction items with
  | nil =>
    intro hrun
    cases hrun
    contradiction
  | cons item items ih =>
    intro hrun
    cases hrun with
    | item _ hitem hrun =>
      obtain ⟨-, rfl⟩ := Prod.mk.inj (Option.some.inj (hitem.symm.trans h))
      exact ih hrun

theorem Fresh.here_ne_nil {context : Context} {cursor : Cursor} (h : Fresh context cursor)
    (ht : cursor.lexeme.token ≠ .eof) : cursor.lexeme.here ≠ [] := by
  obtain ⟨atStart, h⟩ := h
  rw [h] at ht ⊢
  exact fun he => ht (Lexer.next_token_of_here_nil he)

/-- In a module the next token does not depend on what stands before it on the line. -/
theorem Fresh.lexeme_eq {context : Context} {cursor : Cursor} (h : Fresh context cursor)
    (hs : context.dialect.script = false) : cursor.lexeme = Lexer.next false false cursor.behind := by
  obtain ⟨atStart, h⟩ := h
  rw [h, hs, Lexer.next, Lexer.next, Lexer.skipBlanks_lineStart _ atStart false]

/-- Every item takes something of the source. -/
theorem ItemRun.moves {p : Rules} [SteadyRules p] {context : Context} {cursor after final : Cursor} {tree : Tree}
    {items : List Item} (hs : context.dialect.script = false) (hc : Fresh context cursor)
    (ht : cursor.lexeme.token ≠ .eof) (h : p .item context cursor = some (tree, after))
    (hrun : ItemRun p context after items final) (hf : final.flawed = false) :
    Fresh context after ∧ after.behind <:+ cursor.lexeme.here.tail := by
  obtain ⟨-, hon, ha⟩ := Steady.leads (x := p .item) _ _ _ _ hc.ordered hc h
  refine ⟨ha, ?_⟩
  rcases hon.moved with ⟨hb, -⟩ | hm
  · exfalso
    have hstay : after = cursor := by
      have hl : after.lexeme = cursor.lexeme := by rw [ha.lexeme_eq hs, hc.lexeme_eq hs, hb]
      have hfa := hrun.unflawed ha hf
      have hfc := (ItemRun.item ht h hrun).unflawed hc hf
      cases after
      cases cursor
      simp_all
    subst hstay
    exact ItemRun.item_ne h ht hrun
  · exact hm

theorem ItemRun.laid {p : Rules} [SteadyRules p] {context : Context} {source : Text} {cursor final : Cursor}
    {items : List Item} (hs : context.dialect.script = false) (hz : context.size = Text.byteLength source)
    (h : ItemRun p context cursor items final) (hc : Fresh context cursor) (hb : cursor.behind <:+ source)
    (hf : final.flawed = false) :
    Laid (place context cursor.behind) cursor.behind (items.map Item.span) := by
  induction h with
  | stop => exact .done
  | @item cursor after final tree items ht hitem hrun ih =>
    obtain ⟨ha, more, hmore⟩ := ItemRun.moves hs hc ht hitem hrun hf
    obtain ⟨gap, hgap⟩ := hc.ordered.here
    obtain ⟨c, rest, hhere⟩ := List.exists_cons_of_ne_nil (hc.here_ne_nil ht)
    obtain ⟨front, rfl⟩ := hb
    rw [hhere, List.tail_cons] at hmore
    have hbehind : cursor.behind = gap ++ (c :: more) ++ after.behind := by
      rw [← hgap, hhere, ← hmore]
      simp
    have hplace : ∀ a b, a ++ b = cursor.behind → place context b = Text.byteLength (front ++ a) := by
      intro a b hab
      simp only [place, hz, ← hab, Text.byteLength_append]
      omega
    have hl := ih ha ⟨front ++ gap ++ (c :: more), by simp [hbehind]⟩ hf
    rw [List.map_cons, hplace [] _ rfl, hplace gap _ hgap, hplace (gap ++ (c :: more)) _ hbehind.symm] at *
    rw [hbehind]
    rw [Text.byteLength_append] at hl ⊢
    have hspan := @Laid.span (Text.byteLength front) gap (c :: more) after.behind (items.map Item.span) (by simp)
      (by simpa [Nat.add_assoc] using hl)
    simpa [Nat.add_assoc] using hspan

/-- An import declaration among the items knows the stretch that it takes. -/
theorem ItemRun.span_eq {depth : Nat} {context : Context} {cursor final : Cursor} {items : List Item}
    (h : ItemRun (rules (depth + 1)) context cursor items final) (hc : Fresh context cursor) :
    ∀ i ∈ items, ∀ decl, i.tree.form = .importDeclaration decl → decl.span = i.span := by
  induction h with
  | stop => simp
  | item ht hitem hrun ih =>
    obtain ⟨-, -, ha⟩ := Steady.leads (x := rules (depth + 1) .item) _ _ _ _ hc.ordered hc hitem
    intro i hi decl hf
    rcases List.mem_cons.1 hi with rfl | hi
    · exact item_span hc.ordered hitem decl hf
    · exact ih ha i hi decl hf

end Reader

/-! ## Programs -/

namespace Program

open Reader

/-- What is allowed at the top of a source. -/
def topContext (dialect : Dialect) (source : Text) : Context where
  dialect := dialect
  size := Text.byteLength source
  limit := source.length + 2
  await := !dialect.script
  returning := dialect.topLevelReturn
  ambient := dialect.ambient

/-- Where the reading of a source begins. -/
def firstCursor (dialect : Dialect) (source : Text) : Cursor where
  lexeme := Lexer.next dialect.script true (withoutHashbang source)
  behind := withoutHashbang source

theorem withoutHashbang_suffix (source : Text) : withoutHashbang source <:+ source := by
  unfold withoutHashbang
  split
  · exact (List.dropWhile_suffix _).trans ((List.suffix_cons _ _).trans (List.suffix_cons _ _))
  · exact List.suffix_rfl

theorem firstCursor_fresh (dialect : Dialect) (source : Text) :
    Fresh (topContext dialect source) (firstCursor dialect source) := ⟨true, rfl⟩

theorem ofSource?_eq_some_iff {dialect : Dialect} {source : Text} {program : Program} :
    ofSource? dialect source = some program ↔
      ∃ final, ItemRun (rules (depthBound source)) (topContext dialect source) (firstCursor dialect source)
          program.items final ∧
        program.items.length < source.length + 2 ∧ final.flawed = false ∧ isSound dialect program = true := by
  have hunfold : ofSource? dialect source =
      (readItems (rules (depthBound source)) (source.length + 2) [] (topContext dialect source)
        (firstCursor dialect source)).bind fun (items, final) =>
          if !final.flawed && isSound dialect ⟨items⟩ then some ⟨items⟩ else none := by
    unfold ofSource? topContext firstCursor
    cases hr : readItems (rules (depthBound source)) (source.length + 2) [] (topContext dialect source)
      (firstCursor dialect source) with
    | none =>
      unfold topContext firstCursor at hr
      simp only [hr, Option.bind_none]
    | some found =>
      unfold topContext firstCursor at hr
      simp only [hr, Option.bind_some]
  rw [hunfold, Option.bind_eq_some_iff]
  constructor
  · rintro ⟨⟨items, final⟩, hread, h⟩
    obtain ⟨more, rfl, hl, hrun⟩ := readItems_eq_some_iff.1 hread
    simp only at h
    split at h
    · next hc =>
      obtain rfl := Option.some.inj h
      rw [Bool.and_eq_true, Bool.not_eq_true'] at hc
      exact ⟨final, hrun, hl, hc.1, hc.2⟩
    · cases h
  · rintro ⟨final, hrun, hl, hf, hsound⟩
    refine ⟨(program.items, final), readItems_eq_some_iff.2 ⟨_, by simp, hl, hrun⟩, ?_⟩
    simp [hf, hsound]

/-- A program is a run over its source, without errors. -/
theorem exists_run {dialect : Dialect} {source : Text} {program : Program} (h : ofSource? dialect source = some program) :
    ∃ depth final, ItemRun (rules (depth + 1)) (topContext dialect source) (firstCursor dialect source) program.items
      final ∧ final.flawed = false := by
  obtain ⟨final, hrun, -, hf, -⟩ := ofSource?_eq_some_iff.1 h
  obtain ⟨depth, hdepth⟩ := exists_depthBound (n := 1) (by decide) source
  exact ⟨depth, final, hdepth ▸ hrun, hf⟩

theorem imports_cons_import {item : Item} {decl : ImportStatement} (h : item.tree.form = .importDeclaration decl)
    (items : List Item) : imports ⟨item :: items⟩ = decl :: imports ⟨items⟩ := by
  unfold imports
  rw [List.filterMap_cons, h]

theorem imports_cons_other {item : Item} (h : ∀ decl, item.tree.form ≠ .importDeclaration decl) (items : List Item) :
    imports ⟨item :: items⟩ = imports ⟨items⟩ := by
  unfold imports
  rw [List.filterMap_cons]
  split
  · rfl
  · next decl hdecl =>
    split at hdecl
    · next hform => exact absurd hform (h _)
    · cases hdecl

theorem exists_item {program : Program} {stmt : ImportStatement} (h : stmt ∈ program.imports) :
    ∃ item ∈ program.items, item.tree.form = .importDeclaration stmt := by
  obtain ⟨item, hitem, he⟩ := List.mem_filterMap.1 h
  refine ⟨item, hitem, ?_⟩
  split at he
  · next decl hform => rw [hform, Option.some.inj he]
  · cases he

theorem laid {dialect : Dialect} {source : Text} {program : Program} (hs : dialect.script = false)
    (h : ofSource? dialect source = some program) : Laid 0 source (program.items.map Item.span) := by
  obtain ⟨final, hrun, -, hf, -⟩ := ofSource?_eq_some_iff.1 h
  have hsize : (topContext dialect source).size = Text.byteLength source := rfl
  have hl := hrun.laid hs hsize (firstCursor_fresh _ _) (withoutHashbang_suffix source) hf
  obtain ⟨hashbang, he⟩ := withoutHashbang_suffix source
  have hplace : place (topContext dialect source) (firstCursor dialect source).behind = Text.byteLength hashbang := by
    change Text.byteLength source - Text.byteLength (withoutHashbang source) = _
    rw [← he, Text.byteLength_append, he]
    omega
  rw [hplace, ← Nat.zero_add (Text.byteLength hashbang)] at hl
  rw [← he]
  exact hl.gap

theorem spans_sublist (items : List Item)
    (h : ∀ i ∈ items, ∀ decl, i.tree.form = .importDeclaration decl → decl.span = i.span) :
    ((Program.imports ⟨items⟩).map ImportStatement.span).Sublist (items.map Item.span) := by
  induction items with
  | nil => simp [Program.imports]
  | cons i items ih =>
    have hmore := ih fun i hi => h i (List.mem_cons_of_mem _ hi)
    by_cases hform : ∃ decl, i.tree.form = .importDeclaration decl
    · obtain ⟨decl, hdecl⟩ := hform
      rw [imports_cons_import hdecl, List.map_cons, List.map_cons, h i List.mem_cons_self decl hdecl]
      exact hmore.cons_cons _
    · rw [imports_cons_other (not_exists.1 hform)]
      exact hmore.cons _

/-- The stretches of the imports are among those of the items, in order. -/
theorem imports_sublist {dialect : Dialect} {source : Text} {program : Program}
    (h : ofSource? dialect source = some program) :
    (program.imports.map ImportStatement.span).Sublist (program.items.map Item.span) := by
  obtain ⟨depth, final, hrun, -⟩ := exists_run h
  exact spans_sublist program.items (hrun.span_eq (firstCursor_fresh _ _))

/-- The imports of a module stand in it in order. -/
theorem imports_laid {dialect : Dialect} {source : Text} {program : Program} (hs : dialect.script = false)
    (h : ofSource? dialect source = some program) : Laid 0 source (program.imports.map ImportStatement.span) :=
  (laid hs h).sublist (imports_sublist h)

end Program
end Syntax
end CjsInterop
