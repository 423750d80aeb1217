import CjsInterop.Proofs.AcceptedScripts

/-! The export surface of a script: the names and specifiers that its nodes add, wherever they stand, each once and
where it first comes up. A script behind another one adds to the surface of the first. -/

namespace CjsInterop

namespace Text

theorem distinct_concat (l : List Text) (x : Text) :
    distinct (l ++ [x]) = if x ∈ distinct l then distinct l else distinct l ++ [x] := by
  simp only [distinct, List.foldl_append, List.foldl_cons, List.foldl_nil, List.mem_reverse]
  split <;> simp

theorem mem_distinct {l : List Text} {x : Text} : x ∈ distinct l ↔ x ∈ l := by
  induction l using List.reverseRecOn with
  | nil => rfl
  | append_singleton l y ih =>
    rw [distinct_concat]
    split
    · next hy =>
      rw [List.mem_append, List.mem_singleton, ih]
      constructor
      · exact .inl
      · rintro (h | rfl)
        · exact h
        · exact ih.1 hy
    · rw [List.mem_append, List.mem_append, ih]

theorem nodup_distinct (l : List Text) : (distinct l).Nodup := by
  induction l using List.reverseRecOn with
  | nil => exact .nil
  | append_singleton l y ih =>
    rw [distinct_concat]
    split
    · exact ih
    · next hy => exact List.nodup_append.2 ⟨ih, List.nodup_singleton y, by
        rintro a ha _ hb rfl
        exact hy (List.mem_singleton.1 hb ▸ ha)⟩

theorem distinct_append (a b : List Text) : distinct (a ++ b) = distinct a ++ (distinct b).filter (· ∉ a) := by
  induction b using List.reverseRecOn with
  | nil => simp [show distinct [] = [] from rfl]
  | append_singleton b y ih =>
    rw [← List.append_assoc, distinct_concat, distinct_concat, ih]
    by_cases hb : y ∈ distinct b
    · have hmem : y ∈ distinct a ++ (distinct b).filter (· ∉ a) := by
        by_cases ha : y ∈ a
        · exact List.mem_append_left _ (mem_distinct.2 ha)
        · exact List.mem_append_right _ (List.mem_filter.2 ⟨hb, by simpa using ha⟩)
      rw [if_pos hb, if_pos hmem]
    · by_cases ha : y ∈ a
      · rw [if_neg hb, if_pos (List.mem_append_left _ (mem_distinct.2 ha))]
        simp [ha]
      · have hmem : y ∉ distinct a ++ (distinct b).filter (· ∉ a) := by
          rw [List.mem_append, mem_distinct, List.mem_filter]
          rintro (h | h)
          · exact ha h
          · exact hb h.1
        rw [if_neg hb, if_neg hmem]
        simp [ha]

end Text

/-! ## Lists in the order of places -/

section Places

variable {κ κ' α β τ : Type} {before : κ → κ → Prop} {R : κ → α → Prop} {l : List α}

/-- The list holds what is at each place, the places in order. -/
def Enumerates (before : κ → κ → Prop) (R : κ → α → Prop) (l : List α) : Prop :=
  ∃ placed : List (κ × α), placed.map Prod.snd = l ∧ (placed.Pairwise fun a b => before a.1 b.1) ∧
    ∀ k a, (k, a) ∈ placed ↔ R k a

theorem Enumerates.mem (h : Enumerates before R l) {a : α} : a ∈ l ↔ ∃ k, R k a := by
  obtain ⟨placed, rfl, -, hmem⟩ := h
  simp [hmem]

theorem enumerates_nil (h : ∀ k a, ¬R k a) : Enumerates before R [] := ⟨[], rfl, .nil, by simpa using h⟩

theorem enumerates_one (k : κ) {a : α} (h : ∀ l b, R l b ↔ l = k ∧ b = a) : Enumerates before R [a] :=
  ⟨[(k, a)], rfl, List.pairwise_singleton _ _, by simpa [Prod.ext_iff] using fun l b => (h l b).symm⟩

theorem Enumerates.congr {S : κ → α → Prop} (h : Enumerates before R l) (hs : ∀ k a, R k a ↔ S k a) :
    Enumerates before S l := by
  obtain ⟨placed, hl, hp, hmem⟩ := h
  exact ⟨placed, hl, hp, fun k a => (hmem k a).trans (hs k a)⟩

/-- The places may be named otherwise, if that keeps their order. -/
theorem Enumerates.rename {before' : κ' → κ' → Prop} (h : Enumerates before R l) (f : κ → κ')
    (hf : ∀ k m, before k m → before' (f k) (f m)) : Enumerates before' (fun k a => ∃ m, f m = k ∧ R m a) l := by
  obtain ⟨placed, rfl, hp, hmem⟩ := h
  refine ⟨placed.map fun e => (f e.1, e.2), by simp, List.pairwise_map.2 (hp.imp fun hab => hf _ _ hab), fun k a => ?_⟩
  simp only [List.mem_map, Prod.mk.injEq, Prod.exists, ← hmem]
  constructor
  · rintro ⟨m, a, hm, rfl, rfl⟩
    exact ⟨m, rfl, hm⟩
  · rintro ⟨m, rfl, hm⟩
    exact ⟨m, a, hm, rfl, rfl⟩

/-- What is made in one way only, and no more than once from each element, keeps its place. -/
theorem Enumerates.filterMap (h : Enumerates before R l) {f : α → Option β} {g : β → α}
    (hf : ∀ a b, f a = some b ↔ a = g b) : Enumerates before (fun k b => R k (g b)) (l.filterMap f) := by
  obtain ⟨placed, rfl, hp, hmem⟩ := h
  refine ⟨placed.filterMap fun e => (f e.2).map (e.1, ·), ?_, ?_, fun k b => ?_⟩
  · rw [List.map_filterMap, List.filterMap_map]
    refine congrArg (List.filterMap · placed) (funext fun e => ?_)
    cases he : f e.2 <;> simp [he]
  · refine List.pairwise_filterMap.2 (hp.imp fun {a b} hab x hx y hy => ?_)
    obtain ⟨-, -, rfl⟩ := Option.map_eq_some_iff.1 hx
    obtain ⟨-, -, rfl⟩ := Option.map_eq_some_iff.1 hy
    exact hab
  · simp only [List.mem_filterMap, Option.map_eq_some_iff, Prod.mk.injEq, Prod.exists, hf, ← hmem]
    constructor
    · rintro ⟨k, a, hm, b, rfl, rfl, rfl⟩
      exact hm
    · exact fun hm => ⟨k, g b, hm, b, rfl, rfl, rfl⟩

/-- Lists one after the other: a place is the number of a list and a place in it. -/
theorem Enumerates.flatMap {f : τ → List α} {R : τ → κ → α → Prop} {ts : List τ}
    (h : ∀ t ∈ ts, Enumerates before (R t) (f t)) :
    Enumerates (Prod.Lex (· < ·) before) (fun (k : Nat × κ) a => ∃ t, ts[k.1]? = some t ∧ R t k.2 a)
      (ts.flatMap f) := by
  induction ts with
  | nil => exact enumerates_nil (by simp)
  | cons t ts ih =>
    obtain ⟨first, hfirst, hp, hmem⟩ := h t List.mem_cons_self
    obtain ⟨rest, hrest, hp', hmem'⟩ := ih fun s hs => h s (List.mem_cons_of_mem _ hs)
    refine ⟨first.map (fun e => ((0, e.1), e.2)) ++ rest.map (fun e => ((e.1.1 + 1, e.1.2), e.2)), ?_, ?_, ?_⟩
    · simp only [List.map_append, List.map_map, List.flatMap_cons, ← hfirst, ← hrest]
      rfl
    · refine List.pairwise_append.2 ⟨List.pairwise_map.2 (hp.imp fun hab => .right _ hab), ?_, ?_⟩
      · refine List.pairwise_map.2 (hp'.imp fun {a b} hab => ?_)
        rcases Prod.lex_def.1 hab with hlt | ⟨he, hlt⟩
        · exact Prod.lex_def.2 (.inl (Nat.succ_lt_succ hlt))
        · exact Prod.lex_def.2 (.inr ⟨congrArg (· + 1) he, hlt⟩)
      · intro a ha b hb
        obtain ⟨_, -, rfl⟩ := List.mem_map.1 ha
        obtain ⟨_, -, rfl⟩ := List.mem_map.1 hb
        exact .left _ _ (Nat.succ_pos _)
    · rintro ⟨n, k⟩ a
      cases n with
      | zero => simp [hmem]
      | succ n =>
        refine Iff.trans ?_ (hmem' (n, k) a)
        simp

end Places

/-- Names without repetition, each at the first of its places. -/
structure InFirstOrder {κ : Type} (before : κ → κ → Prop) (standsAt : κ → Text → Prop) (names : List Text) : Prop where
  distinct : names.Nodup
  complete : ∀ name, name ∈ names ↔ ∃ k, standsAt k name
  order : names.Pairwise fun a b => ∃ k, standsAt k a ∧ ∀ l, standsAt l b → before k l

theorem Enumerates.distinct {κ : Type} {before : κ → κ → Prop} {R : κ → Text → Prop} {l : List Text}
    (h : Enumerates before R l) : InFirstOrder before R (Text.distinct l) := by
  refine ⟨Text.nodup_distinct l, fun name => Text.mem_distinct.trans h.mem, ?_⟩
  obtain ⟨placed, rfl, hp, hmem⟩ := h
  simp only [← hmem]
  clear hmem
  induction placed using List.reverseRecOn with
  | nil => exact .nil
  | append_singleton placed e ih =>
    obtain ⟨hplaced, -, hlast⟩ := List.pairwise_append.1 hp
    have hbefore : ∀ k a, (k, a) ∈ placed → before k e.1 := fun k a hka => hlast _ hka e List.mem_cons_self
    have hold : (Text.distinct (placed.map Prod.snd)).Pairwise fun a b =>
        ∃ k, (k, a) ∈ placed ++ [e] ∧ ∀ l, (l, b) ∈ placed ++ [e] → before k l := by
      refine (ih hplaced).imp fun {a b} ⟨k, hk, hl⟩ => ⟨k, List.mem_append_left _ hk, fun l hm => ?_⟩
      rcases List.mem_append.1 hm with hm | hm
      · exact hl l hm
      · obtain rfl := List.mem_singleton.1 hm
        exact hbefore k a hk
    rw [List.map_append, List.map_singleton, Text.distinct_concat]
    split
    · exact hold
    · next hnew =>
      refine List.pairwise_append.2 ⟨hold, List.pairwise_singleton _ _, fun a ha b hb => ?_⟩
      obtain rfl := List.mem_singleton.1 hb
      obtain ⟨⟨k, a'⟩, hk, rfl⟩ := List.mem_map.1 (Text.mem_distinct.1 ha)
      refine ⟨k, List.mem_append_left _ hk, fun l hm => ?_⟩
      rcases List.mem_append.1 hm with hm | hm
      · exact absurd (Text.mem_distinct.2 (List.mem_map_of_mem hm)) hnew
      · obtain rfl : l = e.1 := congrArg Prod.fst (List.mem_singleton.1 hm)
        exact hbefore k a' hk

/-! ## What a node adds -/

namespace Syntax

/-- `exports` or `module.exports` -/
inductive Tree.IsExports : Tree → Prop
  | own {ps : List Tree} : IsExports (.node (.identifier "exports") ps)
  | ofModule {ps : List Tree} : IsExports (.node (.member "exports") [.node (.identifier "module") ps])

/-- `object.name` or `object['name']` -/
inductive Tree.NamesProperty : Tree → Tree → Text → Prop
  | dot {object : Tree} {name : Text} : NamesProperty (.node (.member name) [object]) object name
  | bracket {object : Tree} {name : Text} {ps : List Tree} :
      NamesProperty (.node .index [object, .node (.string name) ps]) object name

/-- `require('specifier')` -/
inductive Tree.Requires : Tree → Text → Prop
  | call {specifier : Text} {ps qs : List Tree} :
      Requires (.node .call [.node (.identifier "require") ps, .node (.string specifier) qs]) specifier

/-- What a member of an object that is assigned to `module.exports` adds. -/
inductive Tree.AddsAsMember : Tree → Contribution → Prop
  | key {key : Tree} {rest : List Tree} {name : Text} (hname : staticName? key = some name) :
      AddsAsMember (.node .property (key :: rest)) (.exported name)
  | spread {t : Tree} {specifier : Text} (ht : t.Requires specifier) :
      AddsAsMember (.node .spread [t]) (.reexport specifier)

/-- What a value assigned to `module.exports` adds, member by member when it is an object. -/
inductive Tree.AddsAsValue : Tree → Nat → Contribution → Prop
  | member {members : List Tree} {i : Nat} {m : Tree} {c : Contribution} (hi : members[i]? = some m)
      (hm : m.AddsAsMember c) : AddsAsValue (.node .object members) i c
  | whole {t : Tree} {specifier : Text} (ht : t.Requires specifier) : AddsAsValue t 0 (.reexport specifier)

/-- What a node adds of itself, and at which place among that. -/
inductive Tree.Adds : Tree → Nat → Contribution → Prop
  | property {operator : String} {target object value : Tree} {name : Text} (hn : target.NamesProperty object name)
      (ho : object.IsExports) : Adds (.node (.assignment operator) [target, value]) 0 (.exported name)
  | value {operator : String} {target value : Tree} {ps : List Tree} {i : Nat} {c : Contribution}
      (hn : target.NamesProperty (.node (.identifier "module") ps) "exports") (hv : value.AddsAsValue i c) :
      Adds (.node (.assignment operator) [target, value]) i c
  | defined {target : Tree} {ps qs rest : List Tree} {name : Text} (ht : target.IsExports) :
      Adds (.node .call (.node (.member "defineProperty") [.node (.identifier "Object") ps] :: target ::
        .node (.string name) qs :: rest)) 0 (.exported name)
  | passed {t : Tree} {ps rest : List Tree} {helper specifier : Text}
      (hh : helper = "__exportStar".toList ∨ helper = "__export".toList) (ht : t.Requires specifier) :
      Adds (.node .call (.node (.identifier helper) ps :: t :: rest)) 0 (.reexport specifier)

variable {t object : Tree} {name specifier : Text}

theorem isIdentifier_iff : isIdentifier name t ↔ ∃ ps, t = .node (.identifier name) ps := by
  unfold isIdentifier
  split
  · simp
  · next h =>
    constructor
    · intro hf
      cases hf
    · rintro ⟨ps, rfl⟩
      exact absurd rfl (h name ps)

theorem isExportsObject_iff : isExportsObject t ↔ t.IsExports := by
  constructor
  · unfold isExportsObject
    split
    · intro h
      obtain rfl := beq_iff_eq.1 h
      exact .own
    · intro h
      obtain ⟨hn, ho⟩ := Bool.and_eq_true_iff.1 h
      obtain rfl := beq_iff_eq.1 hn
      obtain ⟨ps, rfl⟩ := isIdentifier_iff.1 ho
      exact .ofModule
    · intro h
      cases h
  · rintro (_ | _) <;> rfl

theorem requireCall?_eq_some_iff : requireCall? t = some specifier ↔ t.Requires specifier := by
  constructor
  · unfold requireCall?
    split
    · split
      · next hr =>
        intro h
        obtain ⟨ps, rfl⟩ := isIdentifier_iff.1 hr
        obtain rfl := Option.some.inj h
        exact .call
      · intro h
        cases h
    · intro h
      cases h
  · rintro ⟨⟩
    rfl

theorem Tree.NamesProperty.unique {other : Tree} {otherName : Text} (h : t.NamesProperty object name)
    (h' : t.NamesProperty other otherName) : other = object ∧ otherName = name := by
  cases h <;> cases h' <;> exact ⟨rfl, rfl⟩

/-- What a call of `require` passes on is one thing at one place. -/
theorem enumerates_required {κ : Type} {before : κ → κ → Prop} {R : κ → Contribution → Prop} (place : κ)
    (h : ∀ k c, R k c ↔ k = place ∧ ∃ specifier, t.Requires specifier ∧ c = .reexport specifier) :
    Enumerates before R ((requireCall? t).map .reexport).toList := by
  cases hr : requireCall? t with
  | none =>
    refine enumerates_nil fun k c hc => ?_
    obtain ⟨-, specifier, hs, -⟩ := (h k c).1 hc
    cases hr.symm.trans (requireCall?_eq_some_iff.2 hs)
  | some specifier =>
    refine enumerates_one place fun k c => (h k c).trans (and_congr_right' ?_)
    simp [← requireCall?_eq_some_iff, hr]

theorem enumerates_member (m : Tree) :
    Enumerates (fun _ _ : Unit => False) (fun _ c => m.AddsAsMember c) (memberContribution m) := by
  unfold memberContribution
  split
  · next key rest =>
    cases hk : staticName? key with
    | none =>
      refine enumerates_nil fun _ c hc => ?_
      obtain ⟨hname⟩ := hc
      cases hk.symm.trans hname
    | some name =>
      refine enumerates_one () fun _ c => ?_
      constructor
      · rintro ⟨hname⟩
        exact ⟨rfl, congrArg _ (Option.some.inj (hname.symm.trans hk))⟩
      · rintro ⟨-, rfl⟩
        exact .key hk
  · next t =>
    refine enumerates_required () fun _ c => ?_
    constructor
    · rintro (_ | ht)
      exact ⟨rfl, _, ht, rfl⟩
    · rintro ⟨-, specifier, ht, rfl⟩
      exact .spread ht
  · next hkey hspread =>
    refine enumerates_nil fun _ c hc => ?_
    cases hc with
    | key => exact hkey _ _ rfl
    | spread => exact hspread _ rfl

theorem enumerates_value (value : Tree) : Enumerates (· < ·) value.AddsAsValue (valueContributions value) := by
  unfold valueContributions
  split
  · next members =>
    have hlt : ∀ k m : Nat × Unit, Prod.Lex (· < ·) (fun _ _ => False) k m → k.1 < m.1 := by
      intro k m h
      rcases Prod.lex_def.1 h with hlt | ⟨-, hf⟩
      · exact hlt
      · exact hf.elim
    have hmembers := Enumerates.flatMap fun m (_ : m ∈ members) => enumerates_member m
    refine (hmembers.rename Prod.fst hlt).congr fun k c => ?_
    constructor
    · rintro ⟨⟨i, _⟩, rfl, m, hi, hm⟩
      exact .member hi hm
    · intro h
      cases h with
      | member hi hm => exact ⟨(k, ()), rfl, _, hi, hm⟩
      | whole ht => cases ht
  · next hobject =>
    refine enumerates_required 0 fun k c => ?_
    constructor
    · rintro (_ | ht)
      · exact (hobject _ rfl).elim
      · exact ⟨rfl, _, ht, rfl⟩
    · rintro ⟨rfl, specifier, ht, rfl⟩
      exact .whole ht

theorem enumerates_assignment {operator : String} {target value : Tree} (hn : target.NamesProperty object name) :
    Enumerates (· < ·) (Tree.Adds (.node (.assignment operator) [target, value]))
      (assignmentContributions object name value) := by
  unfold assignmentContributions
  split
  · next ho =>
    have ho := isExportsObject_iff.1 ho
    refine enumerates_one 0 fun k c => ?_
    constructor
    · intro h
      cases h with
      | property hn' _ => exact ⟨rfl, by rw [(hn.unique hn').2]⟩
      | value hn' _ =>
        obtain ⟨rfl, -⟩ := hn.unique hn'
        cases ho
    · rintro ⟨rfl, rfl⟩
      exact .property hn ho
  · next ho =>
    split
    · next hm =>
      obtain ⟨rfl, hm⟩ := hm
      obtain ⟨ps, rfl⟩ := isIdentifier_iff.1 hm
      refine (enumerates_value value).congr fun k c => ?_
      constructor
      · exact .value hn
      · intro h
        cases h with
        | property hn' ho' =>
          obtain ⟨rfl, -⟩ := hn.unique hn'
          cases ho'
        | value _ hv => exact hv
    · next hm =>
      refine enumerates_nil fun k c h => ?_
      cases h with
      | property hn' ho' =>
        obtain ⟨rfl, -⟩ := hn.unique hn'
        exact ho (isExportsObject_iff.2 ho')
      | value hn' _ =>
        obtain ⟨rfl, rfl⟩ := hn.unique hn'
        exact hm ⟨rfl, isIdentifier_iff.2 ⟨_, rfl⟩⟩

theorem enumerates_call (callee : Tree) (args : List Tree) :
    Enumerates (· < ·) (Tree.Adds (.node .call (callee :: args))) (callContributions callee args) := by
  unfold callContributions
  split
  · split
    · next hc =>
      obtain ⟨rfl, hc⟩ := hc
      obtain ⟨ps, rfl⟩ := isIdentifier_iff.1 hc
      split
      · split
        · next ht =>
          refine enumerates_one 0 fun k c => ?_
          constructor
          · rintro ⟨⟩
            exact ⟨rfl, rfl⟩
          · rintro ⟨rfl, rfl⟩
            exact .defined (isExportsObject_iff.1 ht)
        · next ht =>
          refine enumerates_nil fun k c h => ?_
          cases h with
          | defined ht' => exact ht (isExportsObject_iff.2 ht')
      · next hargs =>
        refine enumerates_nil fun k c h => ?_
        cases h with
        | defined => exact hargs _ _ _ _ rfl
    · next hc =>
      refine enumerates_nil fun k c h => ?_
      cases h with
      | defined => exact hc ⟨rfl, rfl⟩
  · split
    · next helper ps hh =>
      cases args with
      | nil =>
        refine enumerates_nil fun k c h => ?_
        cases h
      | cons t rest =>
        refine enumerates_required 0 fun k c => ?_
        constructor
        · intro h
          cases h with
          | passed _ ht => exact ⟨rfl, _, ht, rfl⟩
        · rintro ⟨rfl, specifier, ht, rfl⟩
          exact .passed hh ht
    · next hh =>
      refine enumerates_nil fun k c h => ?_
      cases h with
      | passed hh' _ => exact hh hh'
  · next hmember hidentifier =>
    refine enumerates_nil fun k c h => ?_
    cases h with
    | defined => exact hmember _ _ rfl
    | passed => exact hidentifier _ _ rfl

theorem enumerates_own (t : Tree) : Enumerates (· < ·) t.Adds (ownContributions t) := by
  unfold ownContributions
  split
  · exact enumerates_assignment .dot
  · exact enumerates_assignment .bracket
  · exact enumerates_call _ _
  · next hdot hbracket hcall =>
    refine enumerates_nil fun k c h => ?_
    cases h with
    | property hn _ => cases hn with
      | dot => exact hdot _ _ _ _ rfl
      | bracket => exact hbracket _ _ _ _ _ rfl
    | value hn _ => cases hn with
      | dot => exact hdot _ _ _ _ rfl
      | bracket => exact hbracket _ _ _ _ _ rfl
    | defined => exact hcall _ _ rfl
    | passed => exact hcall _ _ rfl

mutual

theorem contributions_eq (t : Tree) : contributions t = t.subtrees.flatMap ownContributions := by
  obtain ⟨f, ps⟩ := t
  rw [contributions, contributionsOf_eq ps, Tree.subtrees, List.flatMap_cons]

theorem contributionsOf_eq (ps : List Tree) : contributionsOf ps = (Tree.subtreesOf ps).flatMap ownContributions := by
  cases ps with
  | nil => rfl
  | cons p ps => rw [contributionsOf, contributions_eq p, contributionsOf_eq ps, Tree.subtreesOf, List.flatMap_append]

end

/-- What a program adds, and where: at the number of a node in the order of the source, each before its parts, and
at a place among what that node adds. -/
def Program.AddsAt (program : Program) (place : Nat × Nat) (c : Contribution) : Prop :=
  ∃ t, (Tree.subtreesOf program.trees)[place.1]? = some t ∧ t.Adds place.2 c

theorem Program.mem_subtreesOf_trees {program : Program} {t : Tree} :
    t ∈ Tree.subtreesOf program.trees ↔ program.Holds t := by
  simp [Tree.mem_subtreesOf, trees, Holds]

theorem Program.exists_addsAt_iff {program : Program} {c : Contribution} :
    (∃ place, program.AddsAt place c) ↔ ∃ t, program.Holds t ∧ ∃ i, t.Adds i c := by
  simp only [← mem_subtreesOf_trees, List.mem_iff_getElem?, AddsAt]
  constructor
  · rintro ⟨⟨n, i⟩, t, ht, hadds⟩
    exact ⟨t, ⟨n, ht⟩, i, hadds⟩
  · rintro ⟨t, ⟨n, ht⟩, i, hadds⟩
    exact ⟨(n, i), t, ht, hadds⟩

/-- The surface has what the nodes of the program add and nothing else, each once and in the order of first places. -/
structure Program.Shows (program : Program) (surface : Surface) : Prop where
  exported : ∀ name, name ∈ surface.exports ↔ ∃ t, program.Holds t ∧ ∃ i, t.Adds i (.exported name)
  reexported : ∀ name, name ∈ surface.reexports ↔ ∃ t, program.Holds t ∧ ∃ i, t.Adds i (.reexport name)
  exports : InFirstOrder (Prod.Lex (· < ·) (· < ·)) (fun place name => program.AddsAt place (.exported name))
    surface.exports
  reexports : InFirstOrder (Prod.Lex (· < ·) (· < ·)) (fun place name => program.AddsAt place (.reexport name))
    surface.reexports

theorem Program.shows_contributions (program : Program) :
    program.Shows (Surface.ofContributions (contributionsOf program.trees)) := by
  have hall : Enumerates (Prod.Lex (· < ·) (· < ·)) program.AddsAt (contributionsOf program.trees) := by
    rw [contributionsOf_eq]
    exact Enumerates.flatMap fun t _ => enumerates_own t
  have hexports : InFirstOrder (Prod.Lex (· < ·) (· < ·)) (fun place name => program.AddsAt place (.exported name))
      (Surface.ofContributions (contributionsOf program.trees)).exports :=
    (hall.filterMap fun c name => by cases c <;> simp).distinct
  have hreexports : InFirstOrder (Prod.Lex (· < ·) (· < ·)) (fun place name => program.AddsAt place (.reexport name))
      (Surface.ofContributions (contributionsOf program.trees)).reexports :=
    (hall.filterMap fun c name => by cases c <;> simp).distinct
  exact ⟨fun name => (hexports.complete name).trans exists_addsAt_iff,
    fun name => (hreexports.complete name).trans exists_addsAt_iff, hexports, hreexports⟩

mutual

def Tree.decTreeEq : (s t : Tree) → Decidable (s = t)
  | .node f ps, .node g qs =>
    match decEq f g, decTreesEq ps qs with
    | isTrue hf, isTrue hps => isTrue (by rw [hf, hps])
    | isFalse hf, _ => isFalse (by rintro ⟨⟩; exact hf rfl)
    | _, isFalse hps => isFalse (by rintro ⟨⟩; exact hps rfl)

def Tree.decTreesEq : (ss ts : List Tree) → Decidable (ss = ts)
  | [], [] => isTrue rfl
  | [], _ :: _ => isFalse (by rintro ⟨⟩)
  | _ :: _, [] => isFalse (by rintro ⟨⟩)
  | s :: ss, t :: ts =>
    match decTreeEq s t, decTreesEq ss ts with
    | isTrue hs, isTrue hss => isTrue (by rw [hs, hss])
    | isFalse hs, _ => isFalse (by rintro ⟨⟩; exact hs rfl)
    | _, isFalse hss => isFalse (by rintro ⟨⟩; exact hss rfl)

end

instance : DecidableEq Tree := Tree.decTreeEq

end Syntax

open Syntax

namespace Surface

/-- The names of both, those of the first in front, each once. -/
def followedBy (first second : Surface) : Surface where
  exports := first.exports ++ second.exports.filter (· ∉ first.exports)
  reexports := first.reexports ++ second.reexports.filter (· ∉ first.reexports)

theorem ofContributions_append (a b : List Contribution) :
    ofContributions (a ++ b) = (ofContributions a).followedBy (ofContributions b) := by
  simp [ofContributions, followedBy, List.filterMap_append, Text.distinct_append, Text.mem_distinct]

/-- A text that is read as one program and then another shows what the first shows, then what the second shows. -/
theorem ofSource_append {first second joined : Text} {firstSurface secondSurface : Surface} {p q both : Program}
    (hfirst : ofSource first = .ok firstSurface) (hsecond : ofSource second = .ok secondSurface)
    (hp : Program.ofSource? commonJsDialect first = some p) (hq : Program.ofSource? commonJsDialect second = some q)
    (hboth : Program.ofSource? commonJsDialect joined = some both) (htrees : both.trees = p.trees ++ q.trees) :
    ofSource joined = .ok (firstSurface.followedBy secondSurface) := by
  obtain ⟨_, hp', hptop, hpmeta, rfl⟩ := ofSource_eq_ok_iff.1 hfirst
  obtain rfl := Option.some.inj (hp.symm.trans hp')
  obtain ⟨_, hq', hqtop, hqmeta, rfl⟩ := ofSource_eq_ok_iff.1 hsecond
  obtain rfl := Option.some.inj (hq.symm.trans hq')
  refine ofSource_eq_ok_iff.2 ⟨both, hboth, ?_, fun t ht => ?_, ?_⟩
  · have htop : ∀ program : Program, (∀ item ∈ program.items, ¬item.tree.form.isModuleDeclaration) ↔
        ∀ t ∈ program.trees, ¬t.form.isModuleDeclaration := by
      intro program
      simp [Program.trees]
    rw [htop] at hptop hqtop ⊢
    rw [htrees]
    exact List.forall_mem_append.2 ⟨hptop, hqtop⟩
  · rw [← Program.mem_subtreesOf_trees, htrees, Tree.subtreesOf_append, List.mem_append] at ht
    rcases ht with ht | ht
    · exact hpmeta t (Program.mem_subtreesOf_trees.1 ht)
    · exact hqmeta t (Program.mem_subtreesOf_trees.1 ht)
  · rw [htrees, ← ofContributions_append]
    simp only [contributionsOf_eq, Tree.subtreesOf_append, List.flatMap_append]

/-- The surface of a text has the names that its nodes export and the specifiers that they re-export, however deep
the nodes stand, each once and in the order in which they first come up. It grows by what comes behind. -/
theorem ofSource_exact {source : Text} {surface : Surface} (h : ofSource source = .ok surface) :
    ∃ program, Program.ofSource? commonJsDialect source = some program ∧ program.Shows surface ∧
      ∀ more moreSurface moreProgram joined both, ofSource more = .ok moreSurface →
        Program.ofSource? commonJsDialect more = some moreProgram →
        Program.ofSource? commonJsDialect joined = some both → both.trees = program.trees ++ moreProgram.trees →
        ofSource joined = .ok (surface.followedBy moreSurface) := by
  obtain ⟨program, hp, -, -, rfl⟩ := ofSource_eq_ok_iff.1 h
  refine ⟨program, hp, program.shows_contributions, ?_⟩
  intro more moreSurface moreProgram joined both hmore hq hboth htrees
  exact ofSource_append h hmore hp hq hboth htrees

/-- An assignment inside a call, and an object with a member of another module's exports. -/
def listedScript : Text := "f(exports.a=exports['b']);module.exports=\x7bc:1,...require('x')\x7d;"

/-- Assignments inside each other, one of them to a name that was exported before. -/
def laterScript : Text := "exports.b=exports.a=1"

theorem ofSource_exact_listedScript :
    ofSource listedScript = .ok ⟨["a", "c"], ["x"]⟩ ∧
      (∃ program, Program.ofSource? commonJsDialect listedScript = some program ∧ program.Shows ⟨["a", "c"], ["x"]⟩) ∧
      ofSource (listedScript ++ laterScript) = .ok ⟨["a", "c", "b"], ["x"]⟩ := by
  have hfirst : ofSource listedScript = .ok ⟨["a", "c"], ["x"]⟩ := by decide +kernel
  have hlater : ofSource laterScript = .ok ⟨["b", "a"], []⟩ := by decide +kernel
  have hjoined : (do
      let p ← Program.ofSource? commonJsDialect listedScript
      let q ← Program.ofSource? commonJsDialect laterScript
      pure (p.trees ++ q.trees)) =
        (Program.ofSource? commonJsDialect (listedScript ++ laterScript)).map Program.trees := by decide +kernel
  obtain ⟨program, hp, hshows, happend⟩ := ofSource_exact hfirst
  obtain ⟨later, hq, -⟩ := ofSource_eq_ok_iff.1 hlater
  rw [hp, hq] at hjoined
  obtain ⟨both, hboth, htrees⟩ := Option.map_eq_some_iff.1 hjoined.symm
  exact ⟨hfirst, ⟨program, hp, hshows⟩, happend _ _ _ _ _ hlater hq hboth htrees⟩

end Surface

end CjsInterop
