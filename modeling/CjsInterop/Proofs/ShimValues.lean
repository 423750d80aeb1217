import CjsInterop.Rewrite.Plan
import Mathlib.Data.List.Basic
import Mathlib.Logic.Function.Basic

/-! What the declarations of a shim bind when they run. The default binding is the module's value and
the namespace its properties with that value under `default`, but a named binding is read from the
module's value itself, where `default` is whatever the module put there. -/

namespace CjsInterop

/-- What a name holds: a value of the module's, an object that a declaration built out of such values,
or nothing at all. -/
inductive Held (V : Type) where
  | value (v : V)
  | object (entries : Text → Option V)
  | missing

/-- What the names in scope hold. -/
abbrev Scope (V : Type) := Text → Option (Held V)

variable {V : Type} (properties : V → Text → Option V)

def Held.ofOption : Option V → Held V
  | some v => value v
  | none => missing

/-- The value under a key. -/
def Held.get : Held V → Text → Held V
  | value v, key => ofOption (properties v key)
  | object entries, key => ofOption (entries key)
  | missing, _ => missing

/-- The properties of `v`, with `v` itself under `default`. -/
def namespaceOf (v : V) : Text → Option V :=
  Function.update (properties v) "default".toList (some v)

/-- What a declaration reads from when the module's value is `whole`. -/
def Origin.held (whole : V) (scope : Scope V) : Origin → Option (Held V)
  | target _ => some (.value whole)
  | name n => scope n

def bindNamed (held : Held V) (scope : Scope V) (entry : Text × Text) : Scope V :=
  Function.update scope entry.2 (some (held.get properties entry.1))

/-- The scope after a declaration. One that reads a name which holds nothing yet has no result. -/
def Declaration.run (whole : V) (scope : Scope V) : Declaration → Option (Scope V)
  | value name origin =>
    (origin.held whole scope).map fun held => Function.update scope name (some held)
  | namespaceObject name wholeName =>
    match scope wholeName with
    | some (.value v) => some (Function.update scope name (some (.object (namespaceOf properties v))))
    | _ => none
  | pattern named origin =>
    match origin.held whole scope with
    | none => none
    | some .missing => none
    | some held => some (named.foldl (bindNamed properties held) scope)

def Shim.run (whole : V) (scope : Scope V) (shim : Shim) : Option (Scope V) :=
  shim.declarations.foldlM (Declaration.run properties whole) scope

/-- The name that a binding gives a value. -/
def Binding.valueName? : Binding → Option Text
  | namespaceAs name => some name
  | defaultAs name => some name
  | named _ name isType => if isType then none else some name

/-- The bindings of an import as the grammar has them: a default first, then a namespace or named
bindings, and no two values under one name. -/
structure ImportStatement.Grammatical (stmt : ImportStatement) : Prop where
  clause : ∃ (default? : Option Text) (rest : List Binding),
    stmt.bindings = (default?.map Binding.defaultAs).toList ++ rest ∧
      ((∃ name, rest = [.namespaceAs name]) ∨ ∀ b ∈ rest, ∃ imported name isType, b = .named imported name isType)
  distinct : (stmt.bindings.filterMap Binding.valueName?).Nodup

/-- What a binding should hold: the module's value, its namespace, or what the namespace has under a
name. -/
def Binding.promised (v : V) : Binding → Held V
  | namespaceAs _ => .object (namespaceOf properties v)
  | defaultAs _ => .value v
  | named imported _ _ => Held.ofOption (namespaceOf properties v imported)

/-- What a binding does hold: as promised, but a name is looked up in the module's value. -/
def Binding.taken (v : V) : Binding → Held V
  | namespaceAs _ => .object (namespaceOf properties v)
  | defaultAs _ => .value v
  | named imported _ _ => Held.ofOption (properties v imported)

/-- All values of an import are held as `held` says. -/
def ImportStatement.Holds (stmt : ImportStatement) (held : Binding → Held V) (scope : Scope V) : Prop :=
  ∀ b ∈ stmt.bindings, ∀ name, b.valueName? = some name → scope name = some (held b)

variable {properties}

theorem bindNamed_foldl_of_not_mem {held : Held V} {named : List (Text × Text)} {scope : Scope V} {name : Text}
    (h : name ∉ named.map Prod.snd) : named.foldl (bindNamed properties held) scope name = scope name := by
  induction named generalizing scope with
  | nil => rfl
  | cons entry named ih =>
    simp only [List.map_cons, List.mem_cons, not_or] at h
    rw [List.foldl_cons, ih h.2]
    exact Function.update_of_ne h.1 _ _

theorem bindNamed_foldl_of_mem {held : Held V} {named : List (Text × Text)} {scope : Scope V}
    (hn : (named.map Prod.snd).Nodup) {imported name : Text} (h : (imported, name) ∈ named) :
    named.foldl (bindNamed properties held) scope name = some (held.get properties imported) := by
  induction named generalizing scope with
  | nil => simp at h
  | cons entry named ih =>
    rw [List.map_cons, List.nodup_cons] at hn
    rcases List.mem_cons.1 h with rfl | h
    · rw [List.foldl_cons, bindNamed_foldl_of_not_mem hn.1]
      exact Function.update_self _ _ _
    · exact ih hn.2 h

theorem madeUpDefault_ne (name : Text) : Shim.madeUpDefault name ≠ name := by
  intro h
  have hl := congrArg List.length h
  simp [Shim.madeUpDefault] at hl
  omega

/-- The default binding and the namespace run, whether the default is named or made up. -/
theorem run_namespace (whole name : Text) (target : Target) (v : V) (scope : Scope V) :
    Shim.run properties v scope ⟨target, some whole, some name, []⟩ =
      some (Function.update (Function.update scope whole (some (.value v))) name
        (some (.object (namespaceOf properties v)))) := by
  simp [Shim.run, Shim.declarations, Shim.valueDeclarations, Shim.namespaceDeclarations,
    Shim.namedDeclarations, Declaration.run, Origin.held]

theorem run_named (default? : Option Text) (named : List (Text × Text)) (target : Target) (v : V)
    (scope : Scope V) :
    Shim.run properties v scope ⟨target, default?, none, named⟩ =
      some (named.foldl (bindNamed properties (.value v))
        ((default?.map fun d => Function.update scope d (some (.value v))).getD scope)) := by
  by_cases hn : named = []
  · subst hn
    cases default? <;> simp [Shim.run, Shim.declarations, Shim.valueDeclarations, Shim.namespaceDeclarations,
      Shim.namedDeclarations, Declaration.run, Origin.held]
  · cases default? <;> simp [Shim.run, Shim.declarations, Shim.valueDeclarations, Shim.namespaceDeclarations,
      Shim.namedDeclarations, Declaration.run, Origin.held, hn]

theorem ofImport_namespace {stmt : ImportStatement} {default? : Option Text} {name : Text}
    (hb : stmt.bindings = (default?.map Binding.defaultAs).toList ++ [.namespaceAs name]) (target : Target) :
    Shim.ofImport stmt target = ⟨target, some (default?.getD (Shim.madeUpDefault name)), some name, []⟩ := by
  cases default? <;>
    simp [Shim.ofImport, ImportStatement.defaultName?, ImportStatement.namespaceName?, ImportStatement.named, hb,
      List.findSome?_cons, Binding.defaultName?, Binding.namespaceName?, Binding.namedValue?]

theorem ofImport_named {stmt : ImportStatement} {default? : Option Text} {rest : List Binding}
    (hb : stmt.bindings = (default?.map Binding.defaultAs).toList ++ rest)
    (hrest : ∀ b ∈ rest, ∃ imported name isType, b = .named imported name isType) (target : Target) :
    Shim.ofImport stmt target = ⟨target, default?, none, rest.filterMap Binding.namedValue?⟩ := by
  have hdefault : rest.findSome? Binding.defaultName? = none := by
    refine List.findSome?_eq_none_iff.2 fun b hm => ?_
    obtain ⟨imported, name, isType, rfl⟩ := hrest b hm
    rfl
  have hnamespace : rest.findSome? Binding.namespaceName? = none := by
    refine List.findSome?_eq_none_iff.2 fun b hm => ?_
    obtain ⟨imported, name, isType, rfl⟩ := hrest b hm
    rfl
  cases default? <;>
    simp [Shim.ofImport, ImportStatement.defaultName?, ImportStatement.namespaceName?, ImportStatement.named, hb,
      List.findSome?_cons, List.filterMap_cons, hdefault, hnamespace, Binding.defaultName?,
      Binding.namespaceName?, Binding.namedValue?]

theorem valueName?_named {rest : List Binding}
    (hrest : ∀ b ∈ rest, ∃ imported name isType, b = .named imported name isType) :
    rest.filterMap Binding.valueName? = (rest.filterMap Binding.namedValue?).map Prod.snd := by
  rw [List.map_filterMap]
  refine List.filterMap_congr fun b hm => ?_
  obtain ⟨imported, name, isType, rfl⟩ := hrest b hm
  cases isType <;> rfl

/-- The declarations run, and each name holds what its binding takes. -/
theorem run_ofImport {stmt : ImportStatement} (hg : stmt.Grammatical) (target : Target) (v : V) (scope : Scope V) :
    ∃ after, (Shim.ofImport stmt target).run properties v scope = some after ∧
      stmt.Holds (Binding.taken properties v) after := by
  obtain ⟨⟨default?, rest, hb, hrest⟩, hdistinct⟩ := hg
  rw [hb, List.filterMap_append] at hdistinct
  rcases hrest with ⟨name, rfl⟩ | hnamed
  · refine ⟨_, by rw [ofImport_namespace hb, run_namespace], ?_⟩
    intro b hm local' hl
    rw [hb] at hm
    cases default? with
    | none =>
      obtain rfl : b = .namespaceAs name := by simpa using hm
      obtain rfl : name = local' := by simpa [Binding.valueName?] using hl
      exact Function.update_self _ _ _
    | some d =>
      have hne : d ≠ name := by simpa [Binding.valueName?] using hdistinct
      rcases List.mem_append.1 hm with hm | hm
      · obtain rfl : b = .defaultAs d := by simpa using hm
        obtain rfl : d = local' := by simpa [Binding.valueName?] using hl
        simp [hne, Binding.taken]
      · obtain rfl : b = .namespaceAs name := by simpa using hm
        obtain rfl : name = local' := by simpa [Binding.valueName?] using hl
        exact Function.update_self _ _ _
  · rw [valueName?_named hnamed] at hdistinct
    refine ⟨_, by rw [ofImport_named hb hnamed, run_named], ?_⟩
    intro b hm local' hl
    rw [hb] at hm
    rcases List.mem_append.1 hm with hm | hm
    · cases default? with
      | none => simp at hm
      | some d =>
        obtain rfl : b = .defaultAs d := by simpa using hm
        obtain rfl : d = local' := by simpa [Binding.valueName?] using hl
        have hd : d ∉ (rest.filterMap Binding.namedValue?).map Prod.snd := by
          simpa [Binding.valueName?] using (List.nodup_cons.1 hdistinct).1
        rw [bindNamed_foldl_of_not_mem hd]
        simp [Binding.taken]
    · obtain ⟨imported, name, isType, rfl⟩ := hnamed b hm
      cases isType with
      | true => simp [Binding.valueName?] at hl
      | false =>
        obtain rfl : name = local' := by simpa [Binding.valueName?] using hl
        have hmem : (imported, name) ∈ rest.filterMap Binding.namedValue? :=
          List.mem_filterMap.2 ⟨_, hm, rfl⟩
        exact bindNamed_foldl_of_mem (List.nodup_append.1 hdistinct).2.1 hmem

theorem taken_eq_promised_iff {b : Binding} {v : V} :
    b.taken properties v = b.promised properties v ↔
      ∀ name isType, b = .named "default" name isType → properties v "default" = some v := by
  cases b with
  | namespaceAs name => simp [Binding.taken, Binding.promised]
  | defaultAs name => simp [Binding.taken, Binding.promised]
  | named imported name isType =>
    simp only [Binding.taken, Binding.promised, namespaceOf, Binding.named.injEq]
    by_cases hi : imported = "default".toList
    · subst hi
      rw [Function.update_self]
      cases hp : properties v "default".toList with
      | none => simp [Held.ofOption]
      | some w => simp [Held.ofOption]
    · rw [Function.update_of_ne hi]
      exact iff_of_true rfl fun _ _ h => absurd h.1 hi

/-- A shim always runs, and keeps the promise of its import exactly when no value is imported by the
name `default` from a module whose `default` is another value than the module itself. -/
theorem run_ofImport_promised_iff {stmt : ImportStatement} (hg : stmt.Grammatical) (target : Target) (v : V)
    (scope : Scope V) :
    ∃ after, (Shim.ofImport stmt target).run properties v scope = some after ∧
      stmt.Holds (Binding.taken properties v) after ∧
      (stmt.Holds (Binding.promised properties v) after ↔
        ∀ name, .named "default" name false ∈ stmt.bindings → properties v "default" = some v) := by
  obtain ⟨after, hrun, htaken⟩ := run_ofImport hg target v scope
  refine ⟨after, hrun, htaken, ?_, ?_⟩
  · intro hpromised name hm
    have ht := htaken _ hm name rfl
    rw [hpromised _ hm name rfl, Option.some.injEq] at ht
    exact taken_eq_promised_iff.1 ht.symm name false rfl
  · intro hdefault b hm name hname
    have he : b.taken properties v = b.promised properties v := by
      refine taken_eq_promised_iff.2 fun local' isType hb => ?_
      subst hb
      cases isType with
      | true => simp [Binding.valueName?] at hname
      | false => exact hdefault local' hm
    rw [htaken b hm name hname, he]

/-- `import d, { default as e, a } from "x"` -/
def defaultAndNamed : ImportStatement where
  source := "x"
  bindings := [.defaultAs "d", .named "default" "e" false, .named "a" "a" false]

theorem defaultAndNamed_grammatical : defaultAndNamed.Grammatical where
  clause := ⟨some "d", [.named "default" "e" false, .named "a" "a" false], rfl, .inr (by simp)⟩
  distinct := by decide

/-- A module that is its own `default` keeps the promise for every mix of bindings. -/
theorem run_defaultAndNamed_promised :
    ∃ after, (Shim.ofImport defaultAndNamed (.require "x")).run (fun n _ => some n) 0 (fun _ => none) = some after ∧
      defaultAndNamed.Holds (Binding.promised (fun n _ => some n) 0) after := by
  obtain ⟨after, hrun, -, hiff⟩ := @run_ofImport_promised_iff Nat (fun n _ => some n) _
    defaultAndNamed_grammatical (.require "x") 0 (fun _ => none)
  exact ⟨after, hrun, hiff.2 fun _ _ => rfl⟩

/-- `import { default as d } from "x"` -/
def defaultByName : ImportStatement where
  source := "x"
  bindings := [.named "default" "d" false]

/-- From a module without a property `default`, that name takes nothing, and not the module's value. -/
theorem run_defaultByName_not_promised :
    defaultByName.Grammatical ∧
      ∃ after, (Shim.ofImport defaultByName (.require "x")).run (fun (_ : Nat) _ => none) 0 (fun _ => none) =
          some after ∧
        after "d" = some .missing ∧ ¬ defaultByName.Holds (Binding.promised (fun _ _ => none) 0) after := by
  have hg : defaultByName.Grammatical :=
    ⟨⟨none, defaultByName.bindings, rfl, .inr fun _ hb => ⟨_, _, _, List.mem_singleton.1 hb⟩⟩, by decide⟩
  refine ⟨hg, _, rfl, rfl, fun h => ?_⟩
  have hd : some Held.missing = some (Held.value 0) :=
    h (.named "default" "d" false) (List.mem_singleton.2 rfl) "d" rfl
  simp at hd

end CjsInterop
