import CjsInterop.Proofs.ImportGrammar

/-! Whatever a reader takes for an import declaration is spelled as the grammar has it, unless it is one of types. -/

namespace CjsInterop.Syntax

theorem Spells.append {text middle rest : Text} {tokens more : List Token} (h : Spells text tokens middle)
    (hmore : Spells middle more rest) : Spells text (tokens ++ more) rest := by
  induction h with
  | nil => exact hmore
  | cons h _ ih => exact .cons h (ih hmore)

namespace Reader

variable {context : Context} {text rest : Text} {t : Token}

/-! ## Names -/

theorem finds_looksLike (x : Reader Bool) (text : Text) : Finds (looksLike x) context text fun _ after => after = text := by
  intro cursor b after hc hrun
  unfold looksLike at hrun
  split at hrun <;> exact ⟨text, (Prod.mk.inj (Option.some.inj hrun)).2 ▸ hc, rfl⟩

theorem finds_read (text : Text) : Finds (read : Reader Context) context text fun _ after => after = text := by
  intro cursor a after hc hrun
  exact ⟨text, (Prod.mk.inj (Option.some.inj hrun)).2 ▸ hc, rfl⟩

theorem finds_moduleName (h : Next text t rest) : Finds moduleName context text fun name after =>
    isNameToken t = true ∧ name = .ofToken t ∧ after = rest := by
  cases t with
  | word name escaped => exact (draws_moduleName h).finds ⟨rfl, rfl, rfl⟩
  | string value wellFormed => exact (draws_moduleName h).finds ⟨rfl, rfl, rfl⟩
  | _ => exact (draws_token h).andThen finds_failure

theorem finds_localName (name : ModuleName) (text : Text) : Finds (localName name) context text fun _ after =>
    name.isVariable = true ∧ after = text := by
  refine (finds_refuseIf _ _).bind fun _ _ hr => ?_
  obtain ⟨hrefuse, rfl⟩ := hr
  rw [Bool.or_eq_false_iff, Bool.not_eq_false'] at hrefuse
  exact (draws_checkName _ _).andThen ((draws_flawIf _ _).andThen (finds_pure ⟨hrefuse.1, rfl⟩))

theorem finds_bindingName (h : Next text t rest) : Finds bindingName context text fun name after =>
    t.asVariable? = some name ∧ after = rest := by
  refine (draws_token h).andThen ?_
  cases hv : t.asVariable? with
  | none => exact finds_failure
  | some name => exact (draws_checkName _ _).andThen ((draws_bump h).andThen (finds_pure ⟨rfl, rfl⟩))

theorem ofToken_isVariable (h : (ModuleName.ofToken t).isVariable = true) : t.isVariable = true := by
  cases t with
  | word name escaped => exact h
  | _ => cases h

/-! ## Members of the braces -/

/-- The specifier is spelled as a member of the braces, if its local name is one. -/
def SpellsMember (typescript : Bool) (text : Text) (s : ModuleSpecifier) (rest : Text) : Prop :=
  ∃ tokens t, Spells text tokens rest ∧ s.local = .ofToken t ∧
    ∀ name, t.asVariable? = some name → ImportMember typescript tokens (if s.isType then [] else [name])

theorem finds_moduleSpecifier : Finds moduleSpecifier context text (SpellsMember context.dialect.typescript text) := by
  obtain ⟨t₁, text₁, h₁⟩ := exists_next text
  obtain ⟨t₂, text₂, h₂⟩ := exists_next text₁
  obtain ⟨t₃, text₃, h₃⟩ := exists_next text₂
  obtain ⟨t₄, text₄, h₄⟩ := exists_next text₃
  refine (draws_isAtWord h₁ _).andThen ((finds_moduleName h₁).bind ?_)
  rintro _ _ ⟨hname₁, rfl, rfl⟩
  refine draws_isTypescript.andThen ((draws_token h₂).andThen (finds_ite (fun hc => ?_) fun _ => ?_))
  · rw [Bool.and_eq_true, Bool.and_eq_true] at hc
    obtain ⟨⟨htype, hts⟩, hname₂⟩ := hc
    obtain rfl := eq_of_isWord htype
    cases has : t₂.isWord "as" with
    | true =>
      obtain rfl := eq_of_isWord has
      refine (draws_eatWord h₂ has).andThen ((draws_isAtWord h₃ _).andThen ?_)
      cases hmore : t₃.isWord "as" with
      | true =>
        obtain rfl := eq_of_isWord hmore
        refine (draws_moduleName h₃).andThen ((draws_token h₄).andThen (finds_ite (fun _ => ?_) fun _ => ?_))
        · exact (draws_moduleName h₄).andThen (finds_pure ⟨_, t₄, .cons h₁ (.cons h₂ (.cons h₃ (.cons h₄ .nil))), rfl,
            fun name hn => .renamedType hts rfl (isVariable_of_asVariable? hn)⟩)
        · exact finds_pure ⟨_, .word "as" false, .cons h₁ (.cons h₂ (.cons h₃ .nil)), rfl,
            fun name hn => .renamed rfl hn⟩
      | false =>
        refine (draws_token h₃).andThen (finds_ite (fun _ => ?_) fun _ => ?_)
        · exact (draws_moduleName h₃).andThen (finds_pure ⟨_, t₃, .cons h₁ (.cons h₂ (.cons h₃ .nil)), rfl,
            fun name hn => .renamed rfl hn⟩)
        · exact finds_pure ⟨_, .word "as" false, .cons h₁ (.cons h₂ .nil), rfl,
            fun name hn => .type hts (isVariable_of_asVariable? hn)⟩
    | false =>
      refine (draws_eatWord_not h₂ has).andThen ((draws_moduleName h₂).andThen ?_)
      cases hmore : t₃.isWord "as" with
      | true =>
        obtain rfl := eq_of_isWord hmore
        exact (draws_eatWord h₃ hmore).andThen ((draws_moduleName h₄).andThen (finds_pure ⟨_, t₄,
          .cons h₁ (.cons h₂ (.cons h₃ (.cons h₄ .nil))), rfl,
          fun name hn => .renamedType hts hname₂ (isVariable_of_asVariable? hn)⟩))
      | false =>
        exact (draws_eatWord_not h₃ hmore).andThen (finds_pure ⟨_, t₂, .cons h₁ (.cons h₂ .nil), rfl,
          fun name hn => .type hts (isVariable_of_asVariable? hn)⟩)
  · cases has : t₂.isWord "as" with
    | true =>
      obtain rfl := eq_of_isWord has
      exact (draws_eatWord h₂ has).andThen ((draws_moduleName h₃).andThen (finds_pure ⟨_, t₃,
        .cons h₁ (.cons h₂ (.cons h₃ .nil)), rfl, fun name hn => .renamed hname₁ hn⟩))
    | false =>
      exact (draws_eatWord_not h₂ has).andThen (finds_pure ⟨_, t₁, .cons h₁ .nil, rfl, fun name hn => .plain hn⟩)

theorem finds_namedBinding : Finds namedBinding context text fun _ after =>
    ∃ tokens names, Spells text tokens after ∧ ImportMember context.dialect.typescript tokens names := by
  refine finds_moduleSpecifier.bind ?_
  rintro s middle ⟨tokens, t, hs, hlocal, hmember⟩
  refine (finds_localName _ _).bind ?_
  rintro _ _ ⟨hv, rfl⟩
  have hvariable : s.local.isVariable = true := hv
  rw [hlocal] at hvariable
  obtain ⟨name, hn⟩ := Option.isSome_iff_exists.1 (ofToken_isVariable hvariable)
  exact finds_pure ⟨tokens, _, hs, hmember name hn⟩

theorem finds_members (n : Nat) (done : List Binding) :
    Finds (collectUntil.go "\x7d" namedBinding n done) context text fun _ after =>
      ∃ tokens names, Spells text tokens after ∧ ImportMembers context.dialect.typescript tokens names := by
  induction n generalizing text done with
  | zero => exact finds_failure
  | succ n ih =>
    obtain ⟨t, second, ht⟩ := exists_next text
    cases hclose : t.isMark "\x7d" with
    | true =>
      obtain rfl := eq_of_isMark hclose
      exact (draws_eat ht hclose).andThen (finds_pure ⟨_, _, .cons ht .nil, .close⟩)
    | false =>
      refine (draws_eat_not ht hclose).andThen (finds_namedBinding.bind ?_)
      rintro b middle ⟨tokens, names, hs, hmember⟩
      obtain ⟨u, after, hu⟩ := exists_next middle
      cases hend : u.isMark "\x7d" with
      | true =>
        obtain rfl := eq_of_isMark hend
        exact (draws_eat hu hend).andThen (finds_pure ⟨_, _, hs.append (.cons hu .nil), .last hmember⟩)
      | false =>
        refine (draws_eat_not hu hend).andThen ((finds_expect hu ",").bind ?_)
        rintro _ _ ⟨rfl, rfl⟩
        refine (ih (b :: done)).weaken ?_
        rintro _ last ⟨more, others, hmore, hmembers⟩
        exact ⟨_, _, hs.append (.cons hu hmore), .more hmember hmembers⟩

theorem finds_namedBindings : Finds namedBindings context text fun _ after =>
    ∃ tokens names, Spells text (.mark "\x7b" :: tokens) after ∧ ImportMembers context.dialect.typescript tokens names := by
  obtain ⟨t, second, ht⟩ := exists_next text
  refine (finds_expect ht "\x7b").bind ?_
  rintro _ _ ⟨rfl, rfl⟩
  refine (finds_read _).bind ?_
  rintro limit _ rfl
  refine (finds_members _ []).weaken ?_
  rintro _ after ⟨tokens, names, hs, hmembers⟩
  exact ⟨tokens, names, .cons ht hs, hmembers⟩

/-! ## Clauses -/

theorem finds_namespaceBinding : Finds namespaceBinding context text fun _ after =>
    ∃ u name, Spells text [.mark "*", .word "as" false, u] after ∧ u.asVariable? = some name := by
  obtain ⟨t₁, text₁, h₁⟩ := exists_next text
  obtain ⟨t₂, text₂, h₂⟩ := exists_next text₁
  obtain ⟨t₃, text₃, h₃⟩ := exists_next text₂
  refine (finds_expect h₁ "*").bind ?_
  rintro _ _ ⟨rfl, rfl⟩
  refine (finds_expectWord h₂ "as").bind ?_
  rintro _ _ ⟨rfl, rfl⟩
  refine (finds_bindingName h₃).bind ?_
  rintro name _ ⟨hn, rfl⟩
  exact finds_pure ⟨t₃, name, .cons h₁ (.cons h₂ (.cons h₃ .nil)), hn⟩

/-- The rest of a clause behind its default binding. -/
theorem finds_importClause_default (name : Text) : Finds (importClause (some name)) context text fun _ after =>
    ∃ tokens, Spells text tokens after ∧ ∀ t, t.asVariable? = some name →
      ∃ names, ImportClause context.dialect.typescript (t :: tokens) names := by
  obtain ⟨t, second, ht⟩ := exists_next text
  cases hcomma : t.isMark "," with
  | true =>
    obtain rfl := eq_of_isMark hcomma
    obtain ⟨u, third, hu⟩ := exists_next second
    refine (draws_eat ht hcomma).andThen ((draws_isAt hu _).andThen (finds_ite (fun _ => ?_) fun _ => ?_))
    · refine finds_namespaceBinding.bind ?_
      rintro _ _ ⟨v, whole, hs, hv⟩
      exact finds_pure ⟨_, .cons ht hs, fun t hn => ⟨_, .defaultAndNamespace hn hv⟩⟩
    · refine finds_namedBindings.bind ?_
      rintro _ _ ⟨tokens, names, hs, hmembers⟩
      exact finds_pure ⟨_, .cons ht hs, fun t hn => ⟨_, .defaultAndNamed hn hmembers⟩⟩
  | false => exact (draws_eat_not ht hcomma).andThen (finds_pure ⟨[], .nil, fun t hn => ⟨_, .defaultAs hn⟩⟩)

theorem finds_importClause_mark : Finds (importClause none) context text fun _ after =>
    ∃ tokens names, Spells text tokens after ∧ ImportClause context.dialect.typescript tokens names := by
  obtain ⟨t, second, ht⟩ := exists_next text
  refine (draws_isAt ht _).andThen (finds_ite (fun _ => ?_) fun _ => ?_)
  · refine finds_namespaceBinding.bind ?_
    rintro _ _ ⟨u, name, hs, hu⟩
    exact finds_pure ⟨_, _, hs, .namespaceAs hu⟩
  · refine finds_namedBindings.weaken ?_
    rintro _ _ ⟨tokens, names, hs, hmembers⟩
    exact ⟨_, _, hs, .named hmembers⟩

/-- A clause and `from`, behind a default binding if there is one. -/
theorem finds_clauseFrom (isType : Bool) (first : Option Text) : Finds (do
    let bindings ← importClause first
    expectWord "from"
    return ⟨isType, bindings⟩ : Reader ImportHead) context text fun head after => head.isType = isType ∧
      ∃ tokens, Spells text (tokens ++ [.word "from" false]) after ∧ match first with
        | some name => ∀ t, t.asVariable? = some name → ∃ names, ImportClause context.dialect.typescript (t :: tokens) names
        | none => ∃ names, ImportClause context.dialect.typescript tokens names := by
  cases first with
  | some name =>
    refine (finds_importClause_default name).bind ?_
    rintro _ middle ⟨tokens, hs, hclause⟩
    obtain ⟨t, last, ht⟩ := exists_next middle
    refine (finds_expectWord ht "from").bind ?_
    rintro _ _ ⟨rfl, rfl⟩
    exact finds_pure ⟨rfl, tokens, hs.append (.cons ht .nil), hclause⟩
  | none =>
    refine finds_importClause_mark.bind ?_
    rintro _ middle ⟨tokens, names, hs, hclause⟩
    obtain ⟨t, last, ht⟩ := exists_next middle
    refine (finds_expectWord ht "from").bind ?_
    rintro _ _ ⟨rfl, rfl⟩
    exact finds_pure ⟨rfl, tokens, hs.append (.cons ht .nil), names, hclause⟩

/-! ## Heads -/

/-- A head is one of types, or spelled as the grammar has it. -/
def SpellsPrefix (typescript : Bool) (text : Text) (head : ImportHead) (rest : Text) : Prop :=
  head.isType = true ∨ ∃ tokens names, Spells text tokens rest ∧ ImportPrefix typescript tokens names

theorem finds_isTypeImport (text : Text) : Finds isTypeImport context text fun _ after => after = text := by
  obtain ⟨t, second, ht⟩ := exists_next text
  refine draws_isTypescript.andThen ((draws_isAtWord ht _).andThen (finds_ite (fun _ => ?_) fun _ => finds_pure rfl))
  exact finds_looksLike _ _

/-- The head of an import of types. -/
theorem finds_typeHead (first : Option Text) : Finds (do
    let bindings ← importClause first
    expectWord "from"
    return ⟨true, bindings⟩ : Reader ImportHead) context text fun head _ => head.isType = true :=
  (finds_clauseFrom true first).weaken fun _ _ h => h.1

theorem finds_isSourceImport {u : Token} {last : Text} (ht : Next text t rest) (hu : Next rest u last) :
    Finds isSourceImport context text fun found after =>
      after = text ∧ (found = true → t = .word "source" false ∧ u.isVariable = true) := by
  refine (draws_isAtWord ht _).andThen (finds_ite (fun hw => ?_) fun _ => finds_pure ⟨rfl, nofun⟩)
  exact (draws_nextIs ht hu Token.isVariable).finds ⟨rfl, fun hv => ⟨eq_of_isWord hw, hv⟩⟩

/-- Behind a default binding a clause ends, or goes on with a comma. -/
theorem importClause_behindDefault {typescript : Bool} {tokens : List Token} {names : List Text} (ht : t.isVariable)
    (h : ImportClause typescript (t :: tokens) names) : tokens = [] ∨ ∃ more, tokens = .mark "," :: more := by
  cases h with
  | defaultAs => exact .inl rfl
  | defaultAndNamespace => exact .inr ⟨_, rfl⟩
  | defaultAndNamed => exact .inr ⟨_, rfl⟩
  | _ => cases ht

/-- A source that is imported: one that is called `from` has nothing behind it. -/
theorem finds_sourceImport {second third last : Text} {u v : Token} (ht : Next text (.word "source" false) second)
    (hu : Next second u third) (hv : Next third v last) (hvariable : u.isVariable) : Finds (do
      bump
      if (← isAtWord "from") && !(← nextIs fun t _ => t.isWord "from") then
        bump
        return ⟨false, []⟩
      else
        let bindings ← importClause (some (← bindingName))
        expectWord "from"
        return ⟨false, bindings⟩) context text (SpellsPrefix context.dialect.typescript text) := by
  refine (draws_bump ht).andThen ((draws_isAtWord hu _).andThen ((draws_nextIs hu hv fun t => t.isWord "from").andThen
    (finds_ite (fun hc => ?_) fun hc => ?_)))
  · rw [Bool.and_eq_true] at hc
    obtain rfl := eq_of_isWord hc.1
    refine (draws_bump hu).andThen (finds_pure (.inr ⟨_, ["source".toList], .cons ht (.cons hu .nil), ?_⟩))
    exact .clause (.defaultAs (t := .word "source" false) (by decide))
  · refine (finds_bindingName hu).bind ?_
    rintro name _ ⟨hn, rfl⟩
    refine (finds_clauseFrom false (some name)).weaken ?_
    rintro head after ⟨-, tokens, hs, hclause⟩
    obtain ⟨names, hnames⟩ := hclause u hn
    refine .inr ⟨_, names, .cons ht (.cons hu hs), .source hvariable ?_ hnames⟩
    refine (importClause_behindDefault hvariable hnames).symm.imp_left ?_
    rintro ⟨more, rfl⟩
    obtain ⟨_, hcomma, -⟩ := hs.cons_inv
    obtain rfl : v = .mark "," := hv.1.symm.trans hcomma.1
    simpa using hc

theorem finds_importHead : Finds importHead context text (SpellsPrefix context.dialect.typescript text) := by
  obtain ⟨t₁, text₁, h₁⟩ := exists_next text
  obtain ⟨t₂, text₂, h₂⟩ := exists_next text₁
  obtain ⟨t₃, text₃, h₃⟩ := exists_next text₂
  refine (finds_isTypeImport text).bind ?_
  rintro isType _ rfl
  refine finds_ite (fun _ => ?_) fun _ => (finds_isSourceImport h₁ h₂).bind ?_
  · refine (draws_bump h₁).andThen ((draws_token h₂).andThen (finds_ite (fun _ => ?_) fun _ => ?_))
    · refine (finds_bindingName h₂).bind ?_
      rintro name _ ⟨-, rfl⟩
      exact (draws_pure _ _).andThen ((finds_typeHead (some name)).weaken fun _ _ h => .inl h)
    · exact (draws_pure _ _).andThen ((finds_typeHead none).weaken fun _ _ h => .inl h)
  rintro isSource _ ⟨rfl, hsource⟩
  refine finds_ite (fun hs => ?_) fun _ => ?_
  · obtain ⟨rfl, hvariable⟩ := hsource hs
    exact finds_sourceImport h₁ h₂ h₃ hvariable
  refine (draws_isAtWord h₁ _).andThen ((draws_nextIs h₁ h₂ fun t => t.isMark "*").andThen
    (finds_ite (fun hc => ?_) fun _ => ?_))
  · rw [Bool.and_eq_true] at hc
    obtain rfl := eq_of_isWord hc.1
    refine (draws_bump h₁).andThen (finds_namespaceBinding.bind ?_)
    rintro _ middle ⟨u, name, hs, hn⟩
    obtain ⟨v, last, hv⟩ := exists_next middle
    refine (finds_expectWord hv "from").bind ?_
    rintro _ _ ⟨rfl, rfl⟩
    exact finds_pure (.inr ⟨_, _, .cons h₁ (hs.append (.cons hv .nil)), .deferred hn⟩)
  refine draws_isTypescript.andThen ((draws_isAtWord h₁ _).andThen ((draws_token h₁).andThen
    (finds_ite (fun _ => ?_) fun _ => ?_)))
  · refine (finds_bindingName h₁).bind ?_
    rintro name _ ⟨hn, rfl⟩
    refine (draws_pure _ _).andThen ((draws_token h₂).andThen (finds_ite (fun hc => ?_) fun _ => ?_))
    · rw [Bool.and_eq_true, Bool.and_eq_true] at hc
      obtain rfl := eq_of_isWord hc.1.2
      exact finds_pure (.inr ⟨_, _, .cons h₁ .nil, .loneType hc.1.1⟩)
    · refine (finds_clauseFrom false (some name)).weaken ?_
      rintro head after ⟨-, tokens, hs, hclause⟩
      obtain ⟨names, hnames⟩ := hclause t₁ hn
      exact .inr ⟨_, names, .cons h₁ hs, .clause hnames⟩
  · refine (draws_pure _ _).andThen ((draws_token h₁).andThen (finds_ite (fun _ => ?_) fun _ => ?_))
    · exact finds_pure (.inr ⟨_, _, .nil, .none⟩)
    · refine (finds_clauseFrom false none).weaken ?_
      rintro head after ⟨-, tokens, hs, names, hnames⟩
      exact .inr ⟨_, names, hs, .clause hnames⟩

/-! ## Declarations -/

theorem finds_headAt (h : Next text t rest) : Finds (headAt t) context text (SpellsPrefix context.dialect.typescript text) := by
  cases t with
  | string value wellFormed => exact finds_pure (.inr ⟨_, _, .nil, .none⟩)
  | _ => exact finds_importHead

theorem declarationEnd_string {start : Nat} {head : ImportHead} {cursor after : Cursor} {tree : Tree}
    (hc : Before context cursor text) (h : declarationEnd start head context cursor = some (tree, after)) :
    ∃ source wellFormed rest, Next text (.string source wellFormed) rest := by
  obtain ⟨source, middle, hstring, -⟩ := bind_inv h
  obtain ⟨t, _, htoken, hstring⟩ := bind_inv hstring
  obtain ⟨rfl, rfl⟩ := Prod.mk.inj (Option.some.inj htoken)
  cases ht : cursor.lexeme.token with
  | string value wellFormed => exact ⟨value, wellFormed, _, hc.token.symm.trans ht, rfl⟩
  | _ =>
    rw [ht] at hstring
    cases hstring

/-- An import declaration is one of types, or spelled as the grammar has it. -/
theorem importDeclaration_spelled {cursor after : Cursor} {tree : Tree} {decl : ImportStatement}
    (hc : Before context cursor text) (h : importDeclaration context cursor = some (tree, after))
    (hf : tree.form = .importDeclaration decl) :
    decl.isType = true ∨ ∃ tokens names, Imports text tokens ∧ ImportPrefix context.dialect.typescript tokens names := by
  obtain ⟨middle, second, start, head, third, himport, hsecond, hhead, hend⟩ := importDeclaration_inv hc h hf
  obtain ⟨rest, hthird, htype | ⟨tokens, names, hs, hprefix⟩⟩ := finds_headAt ⟨hsecond.token.symm, rfl⟩ _ _ _ hsecond hhead
  · exact .inl ((declarationEnd_head _ _ _ _ _ _ hend decl hf).1.trans htype)
  · obtain ⟨source, wellFormed, last, hstring⟩ := declarationEnd_string hthird hend
    exact .inr ⟨tokens, names, ⟨source, wellFormed, last, .cons himport (hs.append (.cons hstring .nil))⟩, hprefix⟩

end Reader
end CjsInterop.Syntax
