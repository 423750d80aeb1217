import CjsInterop.Bundle.Render
import CjsInterop.Proofs.ChunkDecision
import Mathlib.Data.List.Nodup
import Mathlib.Data.List.Perm.Subperm

/-! The names that a chunk declares before and after its imports are rewritten. The names that the rewriting
brings in never meet each other, but nothing keeps a chunk from having one of them already. -/

namespace CjsInterop

def Binding.name : Binding → Text
  | namespaceAs name => name
  | defaultAs name => name
  | named _ name _ => name

def ImportStatement.names (stmt : ImportStatement) : List Text := stmt.bindings.map Binding.name

def Declaration.names : Declaration → List Text
  | value name _ => [name]
  | namespaceObject name _ => [name]
  | pattern named _ => named.map Prod.snd

/-- The names that a replacement declares. -/
def Plan.names : Plan → List Text
  | remove => []
  | bareRequire _ => []
  | bindings shim => shim.declarations.flatMap Declaration.names

/-- The names that the definition of the function declares. -/
def preambleNames (rewriteBuiltins : Bool) : List Text :=
  if rewriteBuiltins then [requireName] else ["__cjs_createRequire", requireName]

/-- What a statement at the top of a chunk declares by `import`, `const`, `let` or `var`. -/
def Syntax.Tree.topNames : Syntax.Tree → List Text
  | .node (.importDeclaration stmt) _ => stmt.names
  | t => t.declaredNames

theorem preamble_topNames (rewriteBuiltins : Bool) :
    (Syntax.Program.ofSource? {} (preamble rewriteBuiltins)).map
        (fun program => program.items.flatMap fun item => item.tree.topNames) =
      some (preambleNames rewriteBuiltins) := by
  cases rewriteBuiltins <;> decide +kernel

namespace ImportStatement

variable (stmt : ImportStatement)

/-- The names that an import keeps when it is rewritten: names of types are gone. -/
def valueNames : List Text :=
  stmt.defaultName?.toList ++ stmt.namespaceName?.toList ++ stmt.named.map Prod.snd

/-- A namespace that no default comes with. -/
def loneNamespace? : Option Text :=
  if stmt.defaultName?.isSome then none else stmt.namespaceName?

/-- The names of the values of bindings, sorted by kind. -/
def sortedNames (bindings : List Binding) : List Text :=
  bindings.filterMap Binding.defaultName? ++ bindings.filterMap Binding.namespaceName? ++
    (bindings.filterMap Binding.namedValue?).map Prod.snd

theorem sortedNames_subperm (bindings : List Binding) :
    (sortedNames bindings).Subperm (bindings.map Binding.name) := by
  induction bindings with
  | nil => exact List.Subperm.refl _
  | cons b bindings ih =>
    cases b with
    | defaultAs name => exact (List.subperm_cons name).2 ih
    | namespaceAs name =>
      refine List.Subperm.trans ?_ ((List.subperm_cons name).2 ih)
      exact (List.perm_middle.append_right _).subperm
    | named imported name isType =>
      cases isType with
      | true => exact ih.cons_right name
      | false => exact List.perm_middle.subperm.trans ((List.subperm_cons name).2 ih)

theorem sortedNames_of_types {bindings : List Binding} (h : bindings.all Binding.isTypeOnly) :
    sortedNames bindings = [] := by
  induction bindings with
  | nil => rfl
  | cons b bindings ih =>
    rw [List.all_cons, Bool.and_eq_true] at h
    obtain ⟨imported, name, rfl⟩ : ∃ imported name, b = .named imported name true := by
      rcases b with _ | _ | ⟨imported, name, _ | _⟩
      case named.true => exact ⟨imported, name, rfl⟩
      all_goals exact Bool.noConfusion h.1
    exact ih h.2

theorem findSome?_toList_sublist {α β : Type} (f : α → Option β) (l : List α) :
    (l.findSome? f).toList.Sublist (l.filterMap f) := by
  rw [← List.head?_filterMap]
  cases l.filterMap f <;> simp

theorem valueNames_sublist : stmt.valueNames.Sublist (sortedNames stmt.bindings) :=
  ((findSome?_toList_sublist _ _).append (findSome?_toList_sublist _ _)).append_right _

theorem valueNames_subperm : stmt.valueNames.Subperm stmt.names :=
  stmt.valueNames_sublist.subperm.trans (sortedNames_subperm stmt.bindings)

theorem loneNamespace?_sublist : stmt.loneNamespace?.toList.Sublist stmt.valueNames := by
  unfold loneNamespace? valueNames
  cases hd : stmt.defaultName? <;> simp

/-- The names of a replacement: those of the import, and one made up for a namespace that stands alone. -/
theorem plan_names : stmt.plan.names.Perm ((stmt.loneNamespace?.map Shim.madeUpDefault).toList ++ stmt.valueNames) := by
  by_cases hs : stmt.isSideEffectOnly
  · have hvalue : stmt.valueNames = [] :=
      List.sublist_nil.1 (sortedNames_of_types hs ▸ stmt.valueNames_sublist)
    have hlone : stmt.loneNamespace? = none := by
      have := stmt.loneNamespace?_sublist
      rw [hvalue, List.sublist_nil] at this
      simpa using this
    by_cases hb : Builtin.isBuiltin stmt.source <;> simp [plan, hs, hb, Plan.names, hvalue, hlone]
  · generalize htarget : Target.ofSpecifier stmt.source (Builtin.isBuiltin stmt.source) = target
    have hnamed : (Shim.ofImport stmt target).namedDeclarations.flatMap Declaration.names =
        stmt.named.map Prod.snd := by
      unfold Shim.namedDeclarations
      split
      · next h => simp [show stmt.named = [] from h]
      · simp [Declaration.names, Shim.ofImport]
    have hnames : stmt.plan.names =
        ((Shim.ofImport stmt target).valueDeclarations ++ (Shim.ofImport stmt target).namespaceDeclarations).flatMap
          Declaration.names ++ stmt.named.map Prod.snd := by
      simp [plan, hs, htarget, Plan.names, Shim.declarations, hnamed]
    rw [hnames, valueNames, ← List.append_assoc]
    refine List.Perm.append_right _ (List.Perm.of_eq ?_)
    cases hd : stmt.defaultName? <;> cases hn : stmt.namespaceName? <;>
      simp [Shim.valueDeclarations, Shim.namespaceDeclarations, Shim.ofImport, loneNamespace?, hd, hn,
        Declaration.names]

end ImportStatement

/-- Imports of a chunk, each with whether it is rewritten. -/
abbrev Choice := List (ImportStatement × Bool)

namespace Choice

variable (choice : Choice) (rewriteBuiltins : Bool) (others : List Text)

/-- The names that a chunk declares, by its imports and otherwise. -/
def namesBefore : List Text := choice.flatMap (fun (stmt, _) => stmt.names) ++ others

def usesRequire : Bool := choice.any fun (stmt, rewritten) => rewritten && stmt.plan.usesRequire

/-- The names that the chunk declares when it is rewritten. -/
def namesAfter : List Text :=
  (if choice.usesRequire then preambleNames rewriteBuiltins else []) ++
    choice.flatMap (fun (stmt, rewritten) => if rewritten then stmt.plan.names else stmt.names) ++ others

/-- The namespaces that a name is made up for. -/
def loneNamespaces : List Text :=
  choice.filterMap fun (stmt, rewritten) => if rewritten then stmt.loneNamespace? else none

/-- The names that the rewriting brings in. -/
def broughtIn : List Text :=
  (if choice.usesRequire then preambleNames rewriteBuiltins else []) ++ choice.loneNamespaces.map Shim.madeUpDefault

/-- The names of the chunk that are left. -/
def kept : List Text :=
  choice.flatMap (fun (stmt, rewritten) => if rewritten then stmt.valueNames else stmt.names) ++ others

variable {choice rewriteBuiltins others}

theorem kept_subperm : (choice.kept others).Subperm (choice.namesBefore others) := by
  refine List.Subperm.append ?_ (List.Subperm.refl others)
  induction choice with
  | nil => exact List.Subperm.refl _
  | cons entry choice ih =>
    obtain ⟨stmt, rewritten⟩ := entry
    cases rewritten with
    | true => exact stmt.valueNames_subperm.append ih
    | false => exact (List.Subperm.refl stmt.names).append ih

theorem loneNamespaces_sublist : choice.loneNamespaces.Sublist (choice.kept others) := by
  refine List.Sublist.trans ?_ (List.sublist_append_left _ others)
  induction choice with
  | nil => exact List.Sublist.refl _
  | cons entry choice ih =>
    obtain ⟨stmt, rewritten⟩ := entry
    cases rewritten with
    | true =>
      have hstmt := stmt.loneNamespace?_sublist.append ih
      cases hl : stmt.loneNamespace? <;> simpa [loneNamespaces, hl] using hstmt
    | false => exact ih.trans (List.sublist_append_right _ _)

theorem namesAfter_perm :
    (choice.namesAfter rewriteBuiltins others).Perm (choice.broughtIn rewriteBuiltins ++ choice.kept others) := by
  have himports : (choice.flatMap fun (stmt, rewritten) => if rewritten then stmt.plan.names else stmt.names).Perm
      (choice.loneNamespaces.map Shim.madeUpDefault ++
        choice.flatMap fun (stmt, rewritten) => if rewritten then stmt.valueNames else stmt.names) := by
    rw [loneNamespaces, List.map_filterMap, List.filterMap_eq_flatMap_toList]
    refine List.Perm.trans ?_ (List.flatMap_append_perm _ _ _).symm
    refine List.Perm.flatMap_left _ fun entry _ => ?_
    obtain ⟨stmt, rewritten⟩ := entry
    cases rewritten with
    | true => exact stmt.plan_names
    | false => exact List.Perm.refl _
  simp only [namesAfter, broughtIn, kept, List.append_assoc]
  exact ((himports.append_right others).trans (List.Perm.of_eq (List.append_assoc _ _ _))).append_left _

theorem madeUpDefault_injective : Function.Injective Shim.madeUpDefault := fun a b h => by
  simpa [Shim.madeUpDefault] using h

/-- The names that the definition declares do not end as made-up names do. -/
theorem madeUpDefault_notMem_preambleNames (name : Text) : Shim.madeUpDefault name ∉ preambleNames rewriteBuiltins := by
  have hends : ∀ n ∈ preambleNames rewriteBuiltins, ¬"_default".toList <:+ n := by
    cases rewriteBuiltins <;> decide
  exact fun h => hends _ h (List.suffix_append ("__cjs_".toList ++ name) "_default".toList)

theorem broughtIn_nodup (h : choice.loneNamespaces.Nodup) : (choice.broughtIn rewriteBuiltins).Nodup := by
  have hpreamble : (preambleNames rewriteBuiltins).Nodup := by cases rewriteBuiltins <;> decide
  have hmade := h.map madeUpDefault_injective
  unfold broughtIn
  split
  · refine hpreamble.append hmade fun n hn hm => ?_
    obtain ⟨name, -, rfl⟩ := List.mem_map.1 hm
    exact madeUpDefault_notMem_preambleNames name hn
  · exact hmade

/-- When no name is declared twice before, none is afterwards if and only if no name that the rewriting brings
in is one that the chunk keeps. -/
theorem namesAfter_nodup_iff (h : (choice.namesBefore others).Nodup) :
    (choice.namesAfter rewriteBuiltins others).Nodup ↔
      ∀ name ∈ choice.broughtIn rewriteBuiltins, name ∉ choice.kept others := by
  have hkept : (choice.kept others).Nodup :=
    List.nodup_iff_count_le_one.2 fun name =>
      (kept_subperm.count_le name).trans (List.nodup_iff_count_le_one.1 h name)
  have hbrought : (choice.broughtIn rewriteBuiltins).Nodup := broughtIn_nodup (hkept.sublist loneNamespaces_sublist)
  rw [namesAfter_perm.nodup_iff, List.nodup_append']
  exact ⟨fun hn _ hb hk => hn.2.2 hb hk, fun hd => ⟨hbrought, hkept, hd⟩⟩

/-- `import * as ns from 'x'` and `import d, { default as e } from 'y'`, both rewritten -/
def namespaceAndDefault : Choice :=
  [(⟨{}, "x", false, [.namespaceAs "ns"]⟩, true), (⟨{}, "y", false, [.defaultAs "d", .named "default" "e" false]⟩, true)]

theorem namesAfter_nodup_namespaceAndDefault :
    (namespaceAndDefault.namesBefore ["__cjs_d_default"]).Nodup ∧
      (namespaceAndDefault.namesAfter false ["__cjs_d_default"]).Nodup := by
  have h : (namespaceAndDefault.namesBefore ["__cjs_d_default"]).Nodup := by decide
  exact ⟨h, (namesAfter_nodup_iff h).2 (by decide)⟩

/-- A chunk may have the name already that is made up for a namespace. -/
theorem namesAfter_not_nodup_namespaceAndDefault :
    (namespaceAndDefault.namesBefore ["__cjs_ns_default"]).Nodup ∧
      ¬(namespaceAndDefault.namesAfter false ["__cjs_ns_default"]).Nodup := by
  decide

end Choice

end CjsInterop
