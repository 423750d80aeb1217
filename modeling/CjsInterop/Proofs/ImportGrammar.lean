import CjsInterop.Proofs.DeclaredNames
import CjsInterop.Proofs.ImportNames
import CjsInterop.Proofs.KnownTokens

/-! Import declarations as the grammar has them, in tokens, with the names that each introduces for values. In front of
the tokens of a declaration the reader comes to bindings with those names. -/

namespace CjsInterop.Syntax

/-- A member of the braces. One that is marked with `type` introduces no value. -/
inductive ImportMember (typescript : Bool) : List Token → List Text → Prop
  | plain {t : Token} {name : Text} (h : t.asVariable? = some name) : ImportMember typescript [t] [name]
  | renamed {imported t : Token} {name : Text} (hi : Reader.isNameToken imported) (h : t.asVariable? = some name) :
      ImportMember typescript [imported, .word "as" false, t] [name]
  | type {t : Token} (hts : typescript) (h : t.isVariable) : ImportMember typescript [.word "type" false, t] []
  | renamedType {imported t : Token} (hts : typescript) (hi : Reader.isNameToken imported) (h : t.isVariable) :
      ImportMember typescript [.word "type" false, imported, .word "as" false, t] []

/-- Members with commas between them, up to the closing brace. A comma may follow the last one. -/
inductive ImportMembers (typescript : Bool) : List Token → List Text → Prop
  | close : ImportMembers typescript [.mark "\x7d"] []
  | last {tokens : List Token} {names : List Text} (h : ImportMember typescript tokens names) :
      ImportMembers typescript (tokens ++ [.mark "\x7d"]) names
  | more {tokens tokens' : List Token} {names names' : List Text} (h : ImportMember typescript tokens names)
      (hmore : ImportMembers typescript tokens' names') :
      ImportMembers typescript (tokens ++ .mark "," :: tokens') (names ++ names')

/-- What stands between `import` and `from`. -/
inductive ImportClause (typescript : Bool) : List Token → List Text → Prop
  | defaultAs {t : Token} {name : Text} (h : t.asVariable? = some name) : ImportClause typescript [t] [name]
  | namespaceAs {t : Token} {name : Text} (h : t.asVariable? = some name) :
      ImportClause typescript [.mark "*", .word "as" false, t] [name]
  | named {tokens : List Token} {names : List Text} (h : ImportMembers typescript tokens names) :
      ImportClause typescript (.mark "\x7b" :: tokens) names
  | defaultAndNamespace {t u : Token} {name whole : Text} (h : t.asVariable? = some name)
      (hu : u.asVariable? = some whole) :
      ImportClause typescript [t, .mark ",", .mark "*", .word "as" false, u] [name, whole]
  | defaultAndNamed {t : Token} {name : Text} {tokens : List Token} {names : List Text} (h : t.asVariable? = some name)
      (hmore : ImportMembers typescript tokens names) :
      ImportClause typescript (t :: .mark "," :: .mark "\x7b" :: tokens) (name :: names)

/-- What stands between `import` and the string that names the module. The source of a module may be imported, with more
bindings behind it unless it is called `from`, and a namespace may be deferred. In TypeScript a default binding called
`type` goes without `from`. -/
inductive ImportPrefix (typescript : Bool) : List Token → List Text → Prop
  | none : ImportPrefix typescript [] []
  | clause {tokens : List Token} {names : List Text} (h : ImportClause typescript tokens names) :
      ImportPrefix typescript (tokens ++ [.word "from" false]) names
  | source {t : Token} {tokens : List Token} {names : List Text} (ht : t.isVariable)
      (hfrom : t.isWord "from" = false ∨ tokens = []) (h : ImportClause typescript (t :: tokens) names) :
      ImportPrefix typescript (.word "source" false :: t :: (tokens ++ [.word "from" false])) names
  | deferred {t : Token} {name : Text} (h : t.asVariable? = some name) :
      ImportPrefix typescript [.word "defer" false, .mark "*", .word "as" false, t, .word "from" false] [name]
  | loneType (hts : typescript) : ImportPrefix typescript [.word "type" false] ["type".toList]

/-- `import source from 'x'` is read as the import of a source that is not named. -/
def unnamedSource : List Token := [.word "source" false, .word "from" false]

/-- An import of a module stands here; between `import` and its string are the tokens. -/
def Imports (text : Text) (tokens : List Token) : Prop :=
  ∃ source wellFormed rest, Spells text (.word "import" false :: tokens ++ [.string source wellFormed]) rest

namespace Reader

/-! ## Names -/

/-- The name that a token is in an import. -/
def ModuleName.ofToken : Token → ModuleName
  | .word name escaped => ⟨name, (Token.word name escaped).isVariable, false⟩
  | .string value _ => ⟨value, false, true⟩
  | _ => ⟨[], false, false⟩

theorem ofToken_text {t : Token} {name : Text} (h : t.asVariable? = some name) : (ModuleName.ofToken t).text = name := by
  obtain ⟨escaped, rfl, -⟩ := asVariable?_eq_some h
  rfl

theorem isNameToken_of_isVariable {t : Token} (h : t.isVariable) : isNameToken t = true := by
  obtain ⟨name, hn⟩ := Option.isSome_iff_exists.1 h
  obtain ⟨escaped, rfl, -⟩ := asVariable?_eq_some hn
  rfl

theorem isVariable_of_asVariable? {t : Token} {name : Text} (h : t.asVariable? = some name) : t.isVariable = true := by
  rw [Token.isVariable, h]
  rfl

section Names

variable {context : Context} {text rest last : Text} {t u : Token}

theorem draws_moduleName (h : Next text t rest) : Draws moduleName context text (.ofToken t) rest := by
  refine (draws_token h).bind ?_
  cases t with
  | word name escaped => exact (draws_token h).bind ((draws_bump h).bind (draws_pure _ _))
  | string value wellFormed => exact (draws_flawIf _ _).bind ((draws_bump h).bind (draws_pure _ _))
  | _ => exact draws_failure

theorem draws_localName (name : ModuleName) (text : Text) : Draws (localName name) context text name.text text :=
  (draws_refuseIf _ _).bind ((draws_checkName _ _).bind ((draws_flawIf _ _).bind (draws_pure _ _)))

theorem draws_bindingName {name : Text} (h : Next text t rest) (hn : t.asVariable? = some name) :
    Draws bindingName context text name rest := by
  refine (draws_token h).bind ?_
  rw [hn]
  exact (draws_checkName _ _).bind ((draws_bump h).bind (draws_pure _ _))

/-- A token behind a member of the braces. -/
structure EndsMember (u : Token) : Prop where
  isNameToken : isNameToken u = false
  isWord : u.isWord "as" = false

/-- The names of values in a member of the braces. -/
def ModuleSpecifier.names (s : ModuleSpecifier) : List Text := if s.isType then [] else [s.local.text]

theorem draws_moduleSpecifier {tokens : List Token} {names : List Text}
    (h : ImportMember context.dialect.typescript tokens names) (hs : Spells text tokens rest) (hu : Next rest u last)
    (he : EndsMember u) : ∃ s, Draws moduleSpecifier context text s rest ∧ s.names = names := by
  cases h with
  | @plain t name h =>
    obtain ⟨_, ht, hs⟩ := hs.cons_inv
    cases hs
    refine ⟨⟨.ofToken t, none, false⟩, ?_, congrArg ([·]) (ofToken_text h)⟩
    refine (draws_isAtWord ht _).bind ((draws_moduleName ht).bind (draws_isTypescript.bind ((draws_token hu).bind ?_)))
    rw [he.isNameToken, Bool.and_false]
    exact (draws_eatWord_not hu he.isWord).bind (draws_pure _ _)
  | @renamed imported t name hi h =>
    obtain ⟨_, himported, hs⟩ := hs.cons_inv
    obtain ⟨_, has, hs⟩ := hs.cons_inv
    obtain ⟨_, ht, hs⟩ := hs.cons_inv
    cases hs
    refine ⟨⟨.ofToken imported, some (.ofToken t), false⟩, ?_, congrArg ([·]) (ofToken_text h)⟩
    refine (draws_isAtWord himported _).bind ((draws_moduleName himported).bind
      (draws_isTypescript.bind ((draws_token has).bind ?_)))
    split
    · refine (draws_eatWord has rfl).bind ((draws_isAtWord ht _).bind ?_)
      cases hw : t.isWord "as" with
      | true =>
        refine (draws_moduleName ht).bind ((draws_token hu).bind ?_)
        rw [he.isNameToken]
        exact draws_pure _ _
      | false =>
        refine (draws_token ht).bind ?_
        rw [isNameToken_of_isVariable (isVariable_of_asVariable? h)]
        exact (draws_moduleName ht).bind (draws_pure _ _)
    · exact (draws_eatWord has rfl).bind ((draws_moduleName ht).bind (draws_pure _ _))
  | @type t hts h =>
    obtain ⟨_, htype, hs⟩ := hs.cons_inv
    obtain ⟨_, ht, hs⟩ := hs.cons_inv
    cases hs
    refine ⟨⟨.ofToken t, none, true⟩, ?_, rfl⟩
    refine (draws_isAtWord htype _).bind ((draws_moduleName htype).bind
      (draws_isTypescript.bind ((draws_token ht).bind ?_)))
    rw [isNameToken_of_isVariable h, hts]
    cases hw : t.isWord "as" with
    | true =>
      obtain rfl := eq_of_isWord hw
      refine (draws_eatWord ht hw).bind ((draws_isAtWord hu _).bind ?_)
      rw [he.isWord]
      refine (draws_token hu).bind ?_
      rw [he.isNameToken]
      exact draws_pure _ _
    | false =>
      exact (draws_eatWord_not ht hw).bind ((draws_moduleName ht).bind
        ((draws_eatWord_not hu he.isWord).bind (draws_pure _ _)))
  | @renamedType imported t hts hi h =>
    obtain ⟨_, htype, hs⟩ := hs.cons_inv
    obtain ⟨_, himported, hs⟩ := hs.cons_inv
    obtain ⟨_, has, hs⟩ := hs.cons_inv
    obtain ⟨_, ht, hs⟩ := hs.cons_inv
    cases hs
    refine ⟨⟨.ofToken imported, some (.ofToken t), true⟩, ?_, rfl⟩
    refine (draws_isAtWord htype _).bind ((draws_moduleName htype).bind
      (draws_isTypescript.bind ((draws_token himported).bind ?_)))
    rw [hi, hts]
    cases hw : imported.isWord "as" with
    | true =>
      obtain rfl := eq_of_isWord hw
      refine (draws_eatWord himported hw).bind ((draws_isAtWord has _).bind
        ((draws_moduleName has).bind ((draws_token ht).bind ?_)))
      rw [isNameToken_of_isVariable h]
      exact (draws_moduleName ht).bind (draws_pure _ _)
    | false =>
      exact (draws_eatWord_not himported hw).bind ((draws_moduleName himported).bind
        ((draws_eatWord has rfl).bind ((draws_moduleName ht).bind (draws_pure _ _))))

/-! ## Bindings -/

/-- A member of the braces as a binding. -/
def namedBinding : Reader Binding := do
  let s ← moduleSpecifier
  let name ← localName (s.inner.getD s.outer)
  return .named s.outer.text name s.isType

/-- Bindings of the braces, with the values among them. -/
structure Braced (bindings : List Binding) (names : List Text) : Prop where
  named : ∀ b ∈ bindings, b.defaultName? = none ∧ b.namespaceName? = none
  names : (bindings.filterMap Binding.namedValue?).map Prod.snd = names

theorem Braced.append {bindings more : List Binding} {names others : List Text} (h : Braced bindings names)
    (hmore : Braced more others) : Braced (bindings ++ more) (names ++ others) := by
  refine ⟨fun b hb => (List.mem_append.1 hb).elim (h.named b) (hmore.named b), ?_⟩
  rw [List.filterMap_append, List.map_append, h.names, hmore.names]

theorem draws_namedBinding {tokens : List Token} {names : List Text}
    (h : ImportMember context.dialect.typescript tokens names) (hs : Spells text tokens rest) (hu : Next rest u last)
    (he : EndsMember u) : ∃ b, Draws namedBinding context text b rest ∧ Braced [b] names := by
  obtain ⟨s, hdraws, hnames⟩ := draws_moduleSpecifier h hs hu he
  refine ⟨.named s.outer.text s.local.text s.isType, hdraws.bind ((draws_localName _ _).bind (draws_pure _ _)), ?_, ?_⟩
  · exact List.forall_mem_singleton.2 ⟨rfl, rfl⟩
  · rw [← hnames, ModuleSpecifier.names]
    cases s.isType <;> rfl

theorem importMember_first {typescript : Bool} {tokens : List Token} {names : List Text}
    (h : ImportMember typescript tokens names) : ∃ t more, tokens = t :: more ∧ isNameToken t = true := by
  cases h with
  | plain h => exact ⟨_, _, rfl, isNameToken_of_isVariable (isVariable_of_asVariable? h)⟩
  | renamed hi h => exact ⟨_, _, rfl, hi⟩
  | type => exact ⟨_, _, rfl, rfl⟩
  | renamedType => exact ⟨_, _, rfl, rfl⟩

theorem isMark_of_isNameToken {t : Token} (h : isNameToken t = true) (m : Text) : t.isMark m = false := by
  cases t with
  | mark spelling => cases h
  | _ => rfl

/-- The members up to the closing brace, behind those that were read before. -/
theorem draws_members {tokens : List Token} {names : List Text}
    (h : ImportMembers context.dialect.typescript tokens names) (hs : Spells text tokens rest) :
    ∃ bindings, (∀ n done, Draws (collectUntil.go "\x7d" namedBinding n done) context text (done.reverse ++ bindings) rest) ∧
      Braced bindings names := by
  induction h generalizing text with
  | close =>
    obtain ⟨_, hclose, hs⟩ := hs.cons_inv
    cases hs
    refine ⟨[], fun n done => ?_, nofun, rfl⟩
    cases n with
    | zero => exact draws_failure
    | succ n =>
      rw [List.append_nil]
      exact (draws_eat hclose rfl).bind (draws_pure _ _)
  | last h =>
    obtain ⟨_, hmember, hs⟩ := hs.append_inv
    obtain ⟨_, hclose, hs⟩ := hs.cons_inv
    cases hs
    obtain ⟨b, hb, hbraced⟩ := draws_namedBinding h hmember hclose ⟨rfl, rfl⟩
    obtain ⟨t, more, rfl, ht⟩ := importMember_first h
    obtain ⟨_, hfirst, -⟩ := hmember.cons_inv
    refine ⟨[b], fun n done => ?_, hbraced⟩
    cases n with
    | zero => exact draws_failure
    | succ n =>
      rw [← List.reverse_cons]
      exact (draws_eat_not hfirst (isMark_of_isNameToken ht _)).bind (hb.bind ((draws_eat hclose rfl).bind (draws_pure _ _)))
  | more h hmore ih =>
    obtain ⟨_, hmember, hs⟩ := hs.append_inv
    obtain ⟨_, hcomma, hs⟩ := hs.cons_inv
    obtain ⟨b, hb, hbraced⟩ := draws_namedBinding h hmember hcomma ⟨rfl, rfl⟩
    obtain ⟨bindings, hgo, hbindings⟩ := ih hs
    obtain ⟨t, more, rfl, ht⟩ := importMember_first h
    obtain ⟨_, hfirst, -⟩ := hmember.cons_inv
    refine ⟨b :: bindings, fun n done => ?_, hbraced.append hbindings⟩
    cases n with
    | zero => exact draws_failure
    | succ n =>
      rw [← List.singleton_append, ← List.append_assoc, ← List.reverse_cons]
      exact (draws_eat_not hfirst (isMark_of_isNameToken ht _)).bind (hb.bind ((draws_eat_not hcomma rfl).bind
        ((draws_expect hcomma rfl).bind (hgo n (b :: done)))))

theorem draws_namedBindings {tokens : List Token} {names : List Text}
    (h : ImportMembers context.dialect.typescript tokens names) (hs : Spells text (.mark "\x7b" :: tokens) rest) :
    ∃ bindings, Draws namedBindings context text bindings rest ∧ Braced bindings names := by
  obtain ⟨_, hopen, hs⟩ := hs.cons_inv
  obtain ⟨bindings, hgo, hbraced⟩ := draws_members h hs
  have hread : ∀ text, Draws (read : Reader Context) context text context text := by
    intro text cursor b after hc hrun
    obtain ⟨rfl, rfl⟩ := Prod.mk.inj (Option.some.inj hrun)
    exact ⟨rfl, hc⟩
  exact ⟨bindings, (draws_expect hopen rfl).bind ((hread _).bind (hgo _ [])), hbraced⟩

theorem draws_namespaceBinding {name : Text} (h : t.asVariable? = some name)
    (hs : Spells text [.mark "*", .word "as" false, t] rest) :
    Draws namespaceBinding context text (.namespaceAs name) rest := by
  obtain ⟨_, hstar, hs⟩ := hs.cons_inv
  obtain ⟨_, has, hs⟩ := hs.cons_inv
  obtain ⟨_, ht, hs⟩ := hs.cons_inv
  cases hs
  exact (draws_expect hstar rfl).bind ((draws_expectWord has rfl).bind ((draws_bindingName ht h).bind (draws_pure _ _)))

/-! ## Heads -/

/-- The names of values that an import with these bindings has. -/
def Declares (bindings : List Binding) (names : List Text) : Prop :=
  ∀ stmt : ImportStatement, stmt.bindings = bindings → stmt.valueNames = names

theorem declares_valueNames (bindings : List Binding) : Declares bindings (ImportStatement.valueNames ⟨{}, [], false, bindings⟩) := by
  rintro ⟨span, source, isType, _⟩ rfl
  rfl

theorem Braced.findSome? {bindings : List Binding} {names : List Text} (h : Braced bindings names) :
    bindings.findSome? Binding.defaultName? = none ∧ bindings.findSome? Binding.namespaceName? = none :=
  ⟨List.findSome?_eq_none_iff.2 fun b hb => (h.named b hb).1, List.findSome?_eq_none_iff.2 fun b hb => (h.named b hb).2⟩

theorem Braced.declares {bindings : List Binding} {names : List Text} (h : Braced bindings names) :
    Declares bindings names := by
  rintro ⟨span, source, isType, _⟩ rfl
  simp only [ImportStatement.valueNames, ImportStatement.defaultName?, ImportStatement.namespaceName?,
    ImportStatement.named, h.findSome?, h.names, Option.toList_none, List.nil_append]

theorem Braced.declares_default {bindings : List Binding} {names : List Text} (h : Braced bindings names) (name : Text) :
    Declares (.defaultAs name :: bindings) (name :: names) := by
  rintro ⟨span, source, isType, _⟩ rfl
  have hnamed : (Binding.defaultAs name :: bindings).filterMap Binding.namedValue? =
      bindings.filterMap Binding.namedValue? := rfl
  simp only [ImportStatement.valueNames, ImportStatement.defaultName?, ImportStatement.namespaceName?,
    ImportStatement.named, List.findSome?_cons, Binding.defaultName?, Binding.namespaceName?, h.findSome?, hnamed, h.names,
    Option.toList_none, Option.toList_some, List.nil_append, List.append_nil, List.cons_append]

/-- Behind a default binding stands a comma, or `from` and the string of the module. -/
inductive BehindDefault (text : Text) : Token → Prop
  | comma {rest : Text} (h : Next text (.mark ",") rest) : BehindDefault text (.mark ",")
  | string {rest last source : Text} {wellFormed : Bool} (h : Next text (.word "from" false) rest)
      (hs : Next rest (.string source wellFormed) last) : BehindDefault text (.word "from" false)

theorem BehindDefault.next (h : BehindDefault text u) : ∃ rest, Next text u rest := by
  cases h with
  | comma h => exact ⟨_, h⟩
  | string h => exact ⟨_, h⟩

/-- The word `type` is the default binding. -/
theorem draws_isTypeImport (ht : Next text t rest) (hu : BehindDefault rest u) :
    Draws isTypeImport context text false text := by
  refine draws_isTypescript.bind ((draws_isAtWord ht _).bind ?_)
  split
  · cases hu with
    | comma hu =>
      exact draws_looksLike ((draws_bump ht).bind ((draws_token hu).bind (draws_pure _ _)))
    | string hu hs =>
      exact draws_looksLike ((draws_bump ht).bind ((draws_token hu).bind ((draws_bump hu).bind
        ((draws_token hs).bind (draws_pure _ _)))))
  · exact draws_pure _ _

/-- No type is imported where the first word is another one. -/
theorem draws_isTypeImport_other (ht : Next text t rest) (hw : t.isWord "type" = false) :
    Draws isTypeImport context text false text := by
  refine draws_isTypescript.bind ((draws_isAtWord ht _).bind ?_)
  rw [hw, Bool.and_false]
  exact draws_pure _ _

theorem draws_importHead_default {name : Text} {bindings : List Binding} (ht : Next text t rest)
    (hn : t.asVariable? = some name) (hu : BehindDefault rest u)
    (hsource : t.isWord "source" = true → u.isVariable = false) {behind after : Text}
    (hc : Draws (importClause (some name)) context rest bindings behind) (hfrom : Next behind (.word "from" false) after) :
    Draws importHead context text ⟨false, bindings⟩ after := by
  obtain ⟨last, hnext⟩ := hu.next
  have hisSource : Draws isSourceImport context text false text := by
    refine (draws_isAtWord ht _).bind ?_
    cases hw : t.isWord "source" with
    | true =>
      have hlook := @draws_nextIs context _ _ _ _ _ ht hnext Token.isVariable
      rw [hsource hw] at hlook
      exact hlook
    | false => exact draws_pure _ _
  have hstar : u.isMark "*" = false := by cases hu <;> rfl
  refine (draws_isTypeImport ht hu).bind (hisSource.bind ((draws_isAtWord ht _).bind
    ((draws_nextIs ht hnext fun t => t.isMark "*").bind ?_)))
  rw [hstar, Bool.and_false]
  refine draws_isTypescript.bind ((draws_isAtWord ht _).bind ((draws_token ht).bind ?_))
  rw [isVariable_of_asVariable? hn]
  refine (draws_bindingName ht hn).bind ((draws_pure _ _).bind ((draws_token hnext).bind ?_))
  have hrest : Draws (do
      let bindings ← importClause (some name)
      expectWord "from"
      return ⟨false, bindings⟩ : Reader ImportHead) context rest ⟨false, bindings⟩ after :=
    hc.bind ((draws_expectWord hfrom rfl).bind (draws_pure _ _))
  cases hu <;> simpa only [Bool.and_false, Bool.false_eq_true, if_false] using hrest

theorem draws_importHead_mark {m : Text} {bindings : List Binding} (ht : Next text (.mark m) rest) {behind after : Text}
    (hc : Draws (importClause none) context text bindings behind) (hfrom : Next behind (.word "from" false) after) :
    Draws importHead context text ⟨false, bindings⟩ after := by
  have hsource : Draws isSourceImport context text false text := (draws_isAtWord ht _).bind (draws_pure _ _)
  refine (draws_isTypeImport_other ht rfl).bind (hsource.bind ((draws_isAtWord ht _).bind
    ((draws_nextIs ht ⟨rfl, rfl⟩ fun t => t.isMark "*").bind ?_)))
  rw [Token.isWord_mark, Bool.false_and]
  refine draws_isTypescript.bind ((draws_isAtWord ht _).bind ((draws_token ht).bind
    ((draws_pure _ _).bind ((draws_token ht).bind ?_))))
  rw [Token.isWord_mark, Bool.and_false]
  exact hc.bind ((draws_expectWord hfrom rfl).bind (draws_pure _ _))

/-- A clause behind its default binding. -/
theorem draws_importClause_default {name : Text} {tokens : List Token} {names : List Text}
    (h : ImportClause context.dialect.typescript (t :: tokens) names) (hn : t.asVariable? = some name)
    (hs : Spells text tokens rest) (hfrom : Next rest (.word "from" false) last) :
    (tokens = [] ∨ ∃ second, Next text (.mark ",") second) ∧
      ∃ bindings, Draws (importClause (some name)) context text bindings rest ∧ Declares bindings names := by
  obtain ⟨escaped, rfl, -⟩ := asVariable?_eq_some hn
  cases h with
  | defaultAs h =>
    obtain rfl := Option.some.inj (hn.symm.trans h)
    cases hs
    exact ⟨.inl rfl, [.defaultAs _], (draws_eat_not hfrom rfl).bind (draws_pure _ _), declares_valueNames _⟩
  | defaultAndNamespace h hu =>
    obtain rfl := Option.some.inj (hn.symm.trans h)
    obtain ⟨_, hcomma, hs⟩ := hs.cons_inv
    obtain ⟨_, hstar, -⟩ := hs.cons_inv
    refine ⟨.inr ⟨_, hcomma⟩, [.defaultAs _, .namespaceAs _], ?_, declares_valueNames _⟩
    exact (draws_eat hcomma rfl).bind ((draws_isAt hstar _).bind ((draws_namespaceBinding hu hs).bind (draws_pure _ _)))
  | defaultAndNamed h hmore =>
    obtain rfl := Option.some.inj (hn.symm.trans h)
    obtain ⟨_, hcomma, hs⟩ := hs.cons_inv
    obtain ⟨bindings, hdraws, hbraced⟩ := draws_namedBindings hmore hs
    obtain ⟨_, hopen, -⟩ := hs.cons_inv
    refine ⟨.inr ⟨_, hcomma⟩, .defaultAs _ :: bindings, ?_, hbraced.declares_default _⟩
    exact (draws_eat hcomma rfl).bind ((draws_isAt hopen _).bind (hdraws.bind (draws_pure _ _)))

/-- A clause without a default binding. -/
theorem draws_importClause_mark {m : Text} {tokens : List Token} {names : List Text}
    (h : ImportClause context.dialect.typescript (.mark m :: tokens) names) (hs : Spells text (.mark m :: tokens) rest) :
    ∃ bindings, Draws (importClause none) context text bindings rest ∧ Declares bindings names := by
  obtain ⟨_, hfirst, -⟩ := hs.cons_inv
  cases h with
  | namespaceAs h =>
    refine ⟨[.namespaceAs _], ?_, declares_valueNames _⟩
    exact (draws_isAt hfirst _).bind ((draws_namespaceBinding h hs).bind (draws_pure _ _))
  | named h =>
    obtain ⟨bindings, hdraws, hbraced⟩ := draws_namedBindings h hs
    exact ⟨bindings, (draws_isAt hfirst _).bind hdraws, hbraced.declares⟩
  | _ h => cases h

/-- A clause begins with its default binding or with a mark. -/
theorem importClause_first {typescript : Bool} {tokens : List Token} {names : List Text}
    (h : ImportClause typescript tokens names) :
    ∃ t more, tokens = t :: more ∧ ((∃ name, t.asVariable? = some name) ∨ ∃ m, t = .mark m) := by
  cases h with
  | defaultAs h => exact ⟨_, _, rfl, .inl ⟨_, h⟩⟩
  | namespaceAs => exact ⟨_, _, rfl, .inr ⟨_, rfl⟩⟩
  | named => exact ⟨_, _, rfl, .inr ⟨_, rfl⟩⟩
  | defaultAndNamespace h => exact ⟨_, _, rfl, .inl ⟨_, h⟩⟩
  | defaultAndNamed h => exact ⟨_, _, rfl, .inl ⟨_, h⟩⟩

theorem draws_importHead_clause {tokens : List Token} {names : List Text} {source : Text} {wellFormed : Bool}
    (h : ImportClause context.dialect.typescript tokens names) (hs : Spells text tokens rest)
    (hfrom : Next rest (.word "from" false) last) {behind : Text} (hstring : Next last (.string source wellFormed) behind)
    (hne : tokens ≠ [.word "source" false]) :
    ∃ bindings, Draws importHead context text ⟨false, bindings⟩ last ∧ Declares bindings names := by
  obtain ⟨t, more, rfl, ⟨name, hn⟩ | ⟨m, rfl⟩⟩ := importClause_first h
  · obtain ⟨second, ht, hs⟩ := hs.cons_inv
    obtain ⟨hcomma, bindings, hdraws, hdeclares⟩ := draws_importClause_default h hn hs hfrom
    refine ⟨bindings, ?_, hdeclares⟩
    rcases hcomma with rfl | ⟨_, hcomma⟩
    · cases hs
      refine draws_importHead_default ht hn (.string hfrom hstring) (fun hw => ?_) hdraws hfrom
      exact absurd (congrArg ([·]) (eq_of_isWord hw)) hne
    · exact draws_importHead_default ht hn (.comma hcomma) (fun _ => rfl) hdraws hfrom
  · obtain ⟨_, ht, -⟩ := hs.cons_inv
    obtain ⟨bindings, hdraws, hdeclares⟩ := draws_importClause_mark h hs
    exact ⟨bindings, draws_importHead_mark ht hdraws hfrom, hdeclares⟩

/-- The word `source` is taken for a mark of what is imported unless it is followed by no name. -/
theorem draws_isSourceImport (ht : Next text (.word "source" false) rest) (hu : Next rest u last) :
    Draws isSourceImport context text u.isVariable text :=
  (draws_isAtWord ht _).bind (draws_nextIs ht hu Token.isVariable)

/-- The default binding `source` is lost. -/
theorem draws_importHead_lost {source : Text} {wellFormed : Bool}
    (hs : Spells text [.word "source" false, .word "from" false] rest) (hstring : Next rest (.string source wellFormed) last) :
    Draws importHead context text ⟨false, []⟩ rest := by
  obtain ⟨_, hsource, hs⟩ := hs.cons_inv
  obtain ⟨_, hfrom, hs⟩ := hs.cons_inv
  cases hs
  refine (draws_isTypeImport_other hsource rfl).bind ((draws_isSourceImport hsource hfrom).bind ?_)
  exact (draws_bump hsource).bind ((draws_isAtWord hfrom _).bind ((draws_nextIs hfrom hstring fun t => t.isWord "from").bind
    ((draws_bump hfrom).bind (draws_pure _ _))))

theorem draws_importHead_source {tokens : List Token} {names : List Text} {behind : Text} (ht : t.isVariable)
    (hword : t.isWord "from" = false ∨ tokens = []) (h : ImportClause context.dialect.typescript (t :: tokens) names)
    (hsource : Next text (.word "source" false) behind)
    (hs : Spells behind (t :: tokens) rest) (hfrom : Next rest (.word "from" false) last) :
    ∃ bindings, Draws importHead context text ⟨false, bindings⟩ last ∧ Declares bindings names := by
  obtain ⟨name, hn⟩ := Option.isSome_iff_exists.1 ht
  obtain ⟨second, hfirst, hs⟩ := hs.cons_inv
  obtain ⟨-, bindings, hdraws, hdeclares⟩ := draws_importClause_default h hn hs hfrom
  refine ⟨bindings, ?_, hdeclares⟩
  have hisSource := @draws_isSourceImport context _ _ _ _ hsource hfirst
  rw [ht] at hisSource
  obtain ⟨u, third, hu⟩ := exists_next second
  have hnamed : (t.isWord "from" && !u.isWord "from") = false := by
    rcases hword with hword | rfl
    · rw [hword, Bool.false_and]
    · cases hs
      obtain rfl : u = .word "from" false := hu.1.symm.trans hfrom.1
      exact Bool.and_false _
  refine (draws_isTypeImport_other hsource rfl).bind (hisSource.bind ((draws_bump hsource).bind
    ((draws_isAtWord hfirst _).bind ((draws_nextIs hfirst hu fun t => t.isWord "from").bind ?_))))
  rw [hnamed]
  exact (draws_bindingName hfirst hn).bind (hdraws.bind ((draws_expectWord hfrom rfl).bind (draws_pure _ _)))

/-- In TypeScript `type` may go without `from`. -/
theorem draws_importHead_loneType {source : Text} {wellFormed : Bool} (hts : context.dialect.typescript)
    (ht : Next text (.word "type" false) rest) (hstring : Next rest (.string source wellFormed) last) :
    Draws importHead context text ⟨false, [.defaultAs "type"]⟩ rest := by
  have htype : Draws isTypeImport context text false text := by
    refine draws_isTypescript.bind ((draws_isAtWord ht _).bind ?_)
    rw [hts]
    exact draws_looksLike ((draws_bump ht).bind ((draws_token hstring).bind (draws_pure _ _)))
  have hsource : Draws isSourceImport context text false text := (draws_isAtWord ht _).bind (draws_pure _ _)
  refine htype.bind (hsource.bind ((draws_isAtWord ht _).bind ((draws_nextIs ht hstring fun t => t.isMark "*").bind
    (draws_isTypescript.bind ((draws_isAtWord ht _).bind ((draws_token ht).bind ?_))))))
  rw [hts]
  have hname : (Token.word "type" false).asVariable? = some "type".toList := by decide
  exact (draws_bindingName ht hname).bind ((draws_pure _ _).bind ((draws_token hstring).bind (draws_pure _ _)))

theorem draws_importHead_deferred {name : Text} (h : t.asVariable? = some name)
    (hs : Spells text [.word "defer" false, .mark "*", .word "as" false, t, .word "from" false] rest) :
    Draws importHead context text ⟨false, [.namespaceAs name]⟩ rest := by
  obtain ⟨_, hdefer, hs⟩ := hs.cons_inv
  obtain ⟨_, hs, hfrom⟩ := (show Spells _ ([.mark "*", .word "as" false, t] ++ [.word "from" false]) _ from hs).append_inv
  obtain ⟨_, hstar, -⟩ := hs.cons_inv
  obtain ⟨_, hfrom, hend⟩ := hfrom.cons_inv
  cases hend
  have hsource : Draws isSourceImport context text false text := (draws_isAtWord hdefer _).bind (draws_pure _ _)
  exact (draws_isTypeImport_other hdefer rfl).bind (hsource.bind ((draws_isAtWord hdefer _).bind
    ((draws_nextIs hdefer hstar fun t => t.isMark "*").bind ((draws_bump hdefer).bind
      ((draws_namespaceBinding h hs).bind ((draws_expectWord hfrom rfl).bind (draws_pure _ _)))))))

/-! ## Declarations -/

theorem isImportEquals_stays {cursor after : Cursor} {b : Bool} (h : isImportEquals context cursor = some (b, after)) :
    after = cursor := by
  simp only [isImportEquals, bind_apply, isTypescript_apply, Option.bind_some] at h
  split at h
  · unfold looksLike at h
    split at h <;> exact (Prod.mk.inj (Option.some.inj h)).2.symm
  · exact (Prod.mk.inj (Option.some.inj h)).2.symm

/-- What stands between `import` and the string is the head of the declaration. -/
def headAt (t : Token) : Reader ImportHead :=
  match t with
  | .string _ _ => pure ⟨false, []⟩
  | _ => importHead

/-- A declaration from the string that names its module on. -/
def declarationEnd (start : Nat) (head : ImportHead) : Reader Tree := do
  let source ← moduleString
  importAttributes
  semicolon
  return .leaf (.importDeclaration ⟨⟨start, ← Reader.behind⟩, source, head.isType, head.bindings⟩)

theorem declarationEnd_head (start : Nat) (head : ImportHead) : Gives (declarationEnd start head) fun tree _ _ =>
    ∀ decl, tree.form = .importDeclaration decl → decl.isType = head.isType ∧ decl.bindings = head.bindings :=
  .bind fun _ => .bind fun _ => .bind fun _ => .bind fun _ => .pure fun _ _ decl hf => by
    cases hf
    exact ⟨rfl, rfl⟩

theorem importDeclaration_eq : importDeclaration = (do
    let start ← here
    expectWord "import"
    if ← isImportEquals then
      if (← isAtWord "type") && (← nextIs fun t _ => t.isVariable) then bump
      importEquals
      return .leaf .statement
    else declarationEnd start (← headAt (← token))) := by
  refine bind_congr fun start => bind_congr fun _ => bind_congr fun equals => ?_
  cases equals
  · exact bind_congr fun t => by cases t <;> rfl
  · rfl

theorem importDeclaration_begins {cursor after : Cursor} {tree : Tree}
    (h : importDeclaration context cursor = some (tree, after)) : cursor.lexeme.token = .word "import" false := by
  rw [importDeclaration_eq] at h
  obtain ⟨_, _, hstart, h⟩ := bind_inv h
  obtain ⟨-, rfl⟩ := Prod.mk.inj (Option.some.inj hstart)
  obtain ⟨_, _, hexpect, -⟩ := bind_inv h
  obtain ⟨found, _, heat, hrefuse⟩ := bind_inv hexpect
  cases hw : cursor.lexeme.token.isWord "import" with
  | true => exact eq_of_isWord hw
  | false =>
    simp only [eatWord, bind_apply, isAtWord_apply, hw, Option.bind_some, Bool.false_eq_true, if_false, pure_apply,
      Option.some.injEq, Prod.mk.injEq] at heat
    obtain ⟨rfl, -⟩ := heat
    cases hrefuse

/-- A declaration is the word `import`, a head, and what begins with the string that names the module. -/
theorem importDeclaration_inv {cursor after : Cursor} {tree : Tree} {decl : ImportStatement} (hc : Before context cursor text)
    (h : importDeclaration context cursor = some (tree, after)) (hf : tree.form = .importDeclaration decl) :
    ∃ middle second start head third, Next text (.word "import" false) middle ∧ Before context second middle ∧
      headAt second.lexeme.token context second = some (head, third) ∧
      declarationEnd start head context third = some (tree, after) := by
  have hstatement : Ordinary (do
      if (← isAtWord "type") && (← nextIs fun t _ => t.isVariable) then bump
      importEquals
      return .leaf .statement) := by infer_instance
  have himport : Next text (.word "import" false) _ := ⟨hc.token.symm.trans (importDeclaration_begins h), rfl⟩
  rw [importDeclaration_eq] at h
  obtain ⟨start, _, hstart, h⟩ := bind_inv h
  obtain ⟨-, rfl⟩ := Prod.mk.inj (Option.some.inj hstart)
  obtain ⟨_, second, hword, h⟩ := bind_inv h
  obtain ⟨-, hsecond⟩ := draws_expectWord himport rfl _ _ _ hc hword
  obtain ⟨equals, _, hequals, h⟩ := bind_inv h
  obtain rfl := isImportEquals_stays hequals
  cases equals with
  | true => exact absurd hf (hstatement.gives _ _ _ _ h decl)
  | false =>
    obtain ⟨_, _, htoken, h⟩ := bind_inv h
    obtain ⟨rfl, rfl⟩ := Prod.mk.inj (Option.some.inj htoken)
    obtain ⟨head, third, hhead, h⟩ := bind_inv h
    exact ⟨_, _, start, head, third, himport, hsecond, hhead, h⟩

theorem importDeclaration_head {cursor after : Cursor} {tree : Tree} {decl : ImportStatement} {head : ImportHead}
    {middle behind : Text} (hc : Before context cursor text) (h : importDeclaration context cursor = some (tree, after))
    (hf : tree.form = .importDeclaration decl) (himport : Next text (.word "import" false) middle)
    (ht : Next middle t rest) (hhead : Draws (headAt t) context middle head behind) :
    decl.isType = head.isType ∧ decl.bindings = head.bindings := by
  obtain ⟨_, second, start, _, third, hnext, hsecond, hrun, hend⟩ := importDeclaration_inv hc h hf
  obtain rfl := hnext.2.symm.trans himport.2
  rw [hsecond.token.trans ht.1] at hrun
  obtain ⟨rfl, -⟩ := hhead _ _ _ hsecond hrun
  exact declarationEnd_head _ _ _ _ _ _ hend decl hf

theorem headAt_variable (h : t.isVariable) : headAt t = importHead := by
  cases t with
  | string value wellFormed => cases h
  | _ => rfl

/-- What a head is taken for: a source that is not named binds nothing, and everything else all its values. -/
theorem draws_head {tokens : List Token} {names : List Text} {source : Text} {wellFormed : Bool}
    (h : ImportPrefix context.dialect.typescript tokens names)
    (hs : Spells text (tokens ++ [.string source wellFormed]) last) :
    ∃ t rest behind bindings, Next text t rest ∧ Draws (headAt t) context text ⟨false, bindings⟩ behind ∧
      if tokens = unnamedSource then bindings = [] else Declares bindings names := by
  obtain ⟨_, hs, hstring⟩ := hs.append_inv
  obtain ⟨_, hstring, hend⟩ := hstring.cons_inv
  cases hend
  cases h with
  | none =>
    cases hs
    exact ⟨_, _, _, [], hstring, draws_pure _ _, by rw [if_neg nofun]; exact declares_valueNames []⟩
  | @clause tokens _ h =>
    by_cases hlost : tokens = [.word "source" false]
    · rw [hlost] at hs ⊢
      obtain ⟨_, hfirst, -⟩ := hs.cons_inv
      have he : [.word "source" false] ++ [.word "from" false] = unnamedSource := rfl
      exact ⟨_, _, _, [], hfirst, draws_importHead_lost hs hstring, by rw [if_pos he]⟩
    · have hne : tokens ++ [.word "from" false] ≠ unnamedSource := fun he => hlost (List.append_inj_left' he rfl)
      obtain ⟨_, hs, hfrom⟩ := hs.append_inv
      obtain ⟨_, hfrom, hend⟩ := hfrom.cons_inv
      cases hend
      obtain ⟨bindings, hdraws, hdeclares⟩ := draws_importHead_clause h hs hfrom hstring hlost
      obtain ⟨t, more, rfl, hfirst⟩ := importClause_first h
      obtain ⟨_, ht, -⟩ := hs.cons_inv
      have hhead : headAt t = importHead := by
        rcases hfirst with ⟨name, hn⟩ | ⟨m, rfl⟩
        · exact headAt_variable (isVariable_of_asVariable? hn)
        · rfl
      exact ⟨t, _, _, bindings, ht, hhead ▸ hdraws, by rw [if_neg hne]; exact hdeclares⟩
  | source ht hword h =>
    obtain ⟨_, hfirst, hs⟩ := hs.cons_inv
    obtain ⟨_, hs, hfrom⟩ := (show Spells _ ((_ :: _) ++ [.word "from" false]) _ from hs).append_inv
    obtain ⟨_, hfrom, hend⟩ := hfrom.cons_inv
    cases hend
    obtain ⟨bindings, hdraws, hdeclares⟩ := draws_importHead_source ht hword h hfirst hs hfrom
    exact ⟨_, _, _, bindings, hfirst, hdraws, by rw [if_neg (by simp [unnamedSource])]; exact hdeclares⟩
  | deferred h =>
    obtain ⟨_, hfirst, -⟩ := hs.cons_inv
    exact ⟨_, _, _, _, hfirst, draws_importHead_deferred h hs, by rw [if_neg nofun]; exact declares_valueNames _⟩
  | loneType hts =>
    obtain ⟨_, hfirst, hs⟩ := hs.cons_inv
    cases hs
    exact ⟨_, _, _, _, hfirst, draws_importHead_loneType hts hfirst hstring, by
      rw [if_neg nofun]
      exact declares_valueNames _⟩

/-- An import that stands in front of a reader declares the names of its values, unless it is that of a source that is
not named. -/
theorem importDeclaration_names {cursor after : Cursor} {tree : Tree} {decl : ImportStatement} {tokens : List Token}
    {names : List Text} (hc : Before context cursor text) (h : importDeclaration context cursor = some (tree, after))
    (hf : tree.form = .importDeclaration decl) (ht : Imports text tokens)
    (hn : ImportPrefix context.dialect.typescript tokens names) :
    decl.isType = false ∧ if tokens = unnamedSource then decl.bindings = [] else decl.valueNames = names := by
  obtain ⟨source, wellFormed, last, hs⟩ := ht
  obtain ⟨_, himport, hs⟩ := hs.cons_inv
  obtain ⟨t, rest, behind, bindings, ht, hdraws, hnames⟩ := draws_head hn hs
  obtain ⟨htype, hbindings⟩ := importDeclaration_head hc h hf himport ht hdraws
  refine ⟨htype, ?_⟩
  by_cases he : tokens = unnamedSource
  · rw [if_pos he] at hnames ⊢
    exact hbindings.trans hnames
  · rw [if_neg he] at hnames ⊢
    exact hnames decl hbindings

end Names

end Reader
end CjsInterop.Syntax
