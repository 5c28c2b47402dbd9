import SelectorCheck.Proofs.Selector.Parsed

/-!
# The trees that are read

A tree made by a caller may hold anything. One that was read is in order at
every node: names are there where their kind calls for them and are in the
tables of the level, combinators are one of four, and a function is the one
that its node names, built from the argument text of the node. The argument of
a negation is in order too, and is neither a pseudo-element nor a negation, so
no negation is ever inside another.

## Main definitions

* `SimpleOf.InOrder`, `Negatable`, `Simple.InOrder` — simple selectors in
  order, those that a negation may hold, and those with their arguments.
* `Selector.InOrder` — a whole tree in order.

## Main results

* `Selector.inOrder_of_parse` — every tree that is read is in order.
* `SimpleOf.plain?_eq_none_iff` — in such a tree kind and name tell a negation.
-/

namespace SelectorCheck

open Text

/-- The name is in the table. -/
def Listed (table : Option NameTable) (name : Text) : Prop :=
  ∃ names, table = some names ∧ name ∈ names

theorem listed_iff {table : Option NameTable} {name : Text} :
    Listed table name ↔ holds table name = true := by
  cases table with
  | none => simp [Listed]
  | some names => simp [Listed]

/-! ## Nodes in order -/

section Nodes

variable {A : Type} (level : Level) (kindOf : A → FunctionKind) (ok : A → Prop)

/-- The function is the one with this name, built from this argument text. -/
structure Carries (f : FunctionOf A) (name arg : Text) : Prop where
  kind : (kindOf f.argument).name = name
  called : f.name = name
  value : f.value = arg
  argument : ok f.argument

/-- A simple selector in order, if the arguments `ok` of functions are. -/
structure SimpleOf.InOrder (s : SimpleOf (FunctionOf A)) : Prop where
  kind : s.kind ∈ SimpleKind.known
  named : s.kind = .tag ∨ s.kind = .id ∨ s.kind = .className →
    ∃ name, s.name = some name ∧ name ≠ []
  pseudoClass : s.kind = .pseudoClass → ∃ name, s.name = some name ∧ Listed level.classes name
  pseudoElement : s.kind = .pseudoElement → ∃ name, s.name = some name ∧ Listed level.elements name
  pseudoFunction : s.kind = .pseudoFunction → ∃ name arg f, s.name = some name ∧ s.arg = some arg ∧
    s.function = some f ∧ Listed level.functions name ∧ Carries kindOf ok f name arg
  other : s.kind ≠ .pseudoFunction → s.arg = none ∧ s.function = none

end Nodes

/-- What a negation may hold. -/
structure Negatable (level : Level) (s : PlainSimple) : Prop where
  inOrder : s.InOrder level PlainArgument.kind fun _ => True
  not_element : s.kind ≠ .pseudoElement
  not_negation : ¬ (s.kind = .pseudoFunction ∧ s.name = some FunctionKind.negation.name)

/-- A simple selector in order, with what its function holds. -/
def Simple.InOrder (level : Level) (s : Simple) : Prop :=
  SimpleOf.InOrder level Argument.kind
    (fun a => ∀ inner, a = .negated inner → Negatable level inner) s

/-- The combinators of a tree that was read. -/
def combinators : List (Option Text) := [" ", ">", "+", "~"].map fun c => some c.toList

/-- A tree in order. -/
structure Selector.InOrder (level : Level) (s : Selector) : Prop where
  list : (∀ c, s ≠ .complex c) → 2 ≤ s.members.length
  first : ∀ c ∈ s.members, c.parts.head?.map Link.combinator = some none
  later : ∀ c ∈ s.members, ∀ l ∈ c.parts.tail, l.combinator ∈ combinators
  compound : ∀ c ∈ s.members, ∀ l ∈ c.parts, l.compound.simples ≠ []
  simple : ∀ simple ∈ s.simples, Simple.InOrder level simple

private theorem FunctionKind.eq_of_name {k k' : FunctionKind} (h : k.name = k'.name) : k = k' := by
  have hk := FunctionKind.ofName?_name k
  rw [h, FunctionKind.ofName?_name] at hk
  exact (Option.some.inj hk).symm

private theorem PlainArgument.kind_ne_negation (a : PlainArgument) : a.kind ≠ .negation := by
  cases a <;> simp [kind]

/-- Among the simple selectors in order the negations are those that have its kind and name. -/
theorem SimpleOf.plain?_eq_none_iff {level : Level} {s : Simple} (h : Simple.InOrder level s) :
    s.plain? = none ↔ s.kind = .pseudoFunction ∧ s.name = some FunctionKind.negation.name := by
  by_cases hkind : s.kind = .pseudoFunction
  · obtain ⟨name, arg, ⟨called, value, argument⟩, hname, -, hf, -, hcarries⟩ :=
      h.pseudoFunction hkind
    have hcalled : argument.kind.name = name := hcarries.kind
    rw [plain?, hf, hname, ← hcalled]
    cases argument with
    | plain argument =>
      constructor
      · intro hnone
        cases hnone
      · rintro ⟨-, hnegation⟩
        exact absurd (FunctionKind.eq_of_name (Option.some.inj hnegation))
          argument.kind_ne_negation
    | negated inner => exact ⟨fun _ => ⟨hkind, rfl⟩, fun _ => rfl⟩
  · have hnone : s.function = none := (h.other hkind).2
    simp [plain?, hnone, hkind]

namespace Spelling

/-! ## What is written is in order -/

section Written

variable {level : Level}

/-- A simple selector that is written is in order, if the functions that its arguments make are. -/
private theorem Item.inOrder {A : Type} {kindOf : A → FunctionKind} {ok : A → Prop}
    {F : Text → Text → FunctionOf A → Prop}
    (hF : ∀ {name arg f}, F name arg f → Carries kindOf ok f name arg)
    (hlevel : ∀ {name}, level.admitsLegacyElement name = true → level.admitsElement name = true)
    {p : Nat} {simple : SimpleOf (FunctionOf A)} {text after : Text}
    (h : Item level F p simple text after) : simple.InOrder level kindOf ok := by
  cases h with
  | universal => constructor <;> simp [SimpleKind.known]
  | id hname | className hname =>
    have hne := hname.ne_nil
    constructor <;> simp [SimpleKind.known, hne]
  | tag hname _ =>
    have hne : text.lowercase ≠ [] := by
      rw [ne_eq, lowercase_eq_nil_iff]
      exact hname.ne_nil
    constructor <;> simp [SimpleKind.known, hne]
  | @pseudoClass name _ _ _ hadmits =>
    have hlisted : Listed level.classes name.lowercase := listed_iff.mpr hadmits
    constructor <;> simp [SimpleKind.known, hlisted]
  | @legacyElement name _ _ _ _ hadmits =>
    have hlisted : Listed level.elements name.lowercase := listed_iff.mpr (hlevel hadmits)
    constructor <;> simp [SimpleKind.known, hlisted]
  | @element name _ _ _ hadmits =>
    have hlisted : Listed level.elements name.lowercase := listed_iff.mpr hadmits
    constructor <;> simp [SimpleKind.known, hlisted]
  | @function name _ arg _ _ f _ hadmits _ _ hf =>
    have hlisted : Listed level.functions name.lowercase := listed_iff.mpr hadmits
    have hcarries : Carries kindOf ok f name.lowercase arg := hF hf
    constructor <;> simp [SimpleKind.known, hlisted, hcarries]

private theorem PlainBuilt.carries {name arg : Text} {f : PlainFunction}
    (h : PlainBuilt name arg f) : Carries PlainArgument.kind (fun _ => True) f name arg := by
  cases h with
  | lang _ => exact ⟨rfl, rfl, rfl, trivial⟩
  | nth _ => exact ⟨rfl, rfl, rfl, trivial⟩

private theorem PlainBuilt.name_ne {name arg : Text} {f : PlainFunction}
    (h : PlainBuilt name arg f) : name ≠ FunctionKind.negation.name := by
  cases h with
  | lang _ => decide
  | @nth kind _ _ _ => cases kind <;> decide

/-- A simple selector without a negation has not the name of one. -/
private theorem Item.not_negation {p : Nat} {simple : PlainSimple} {text after : Text}
    (h : Item level PlainBuilt p simple text after) :
    ¬ (simple.kind = .pseudoFunction ∧ simple.name = some FunctionKind.negation.name) := by
  rintro ⟨hkind, hname⟩
  cases h with
  | universal | id _ | className _ | tag _ _ | pseudoClass _ _ _ | legacyElement _ _ _ _
  | element _ _ _ => cases hkind
  | function _ _ _ _ hf => exact hf.name_ne (Option.some.inj hname)

private theorem Joint.mem_combinators {combinator joint : Text} (h : Joint combinator joint) :
    some combinator ∈ combinators := by
  cases h with
  | blanks _ _ => decide
  | mark _ hc _ => rcases Lexer.isCombinator_iff.mp hc with rfl | rfl | rfl <;> decide

private theorem Links.mem_combinators {p : Nat} {row : List Link} {text after : Text}
    (h : Links level (Built level) p row text after) : ∀ l ∈ row, l.combinator ∈ combinators := by
  induction h with
  | nil => simp
  | cons hjoint _ _ ih =>
    intro l hl
    rcases List.mem_cons.mp hl with rfl | hothers
    · exact hjoint.mem_combinators
    · exact ih l hothers

private theorem Members.mem_combinators {p : Nat} {members : List Complex} {text after : Text}
    (h : Members level (Built level) p members text after) :
    ∀ c ∈ members, ∀ l ∈ c.links, l.combinator ∈ combinators := by
  induction h with
  | nil => simp
  | cons _ _ hchain _ ih =>
    intro c hc
    rcases List.mem_cons.mp hc with rfl | hothers
    · obtain ⟨-, hlinks⟩ := hchain
      exact hlinks.mem_combinators
    · exact ih c hothers

private theorem Whole.mem_combinators {selector : Selector} {text : Text}
    (h : Whole level (Built level) selector text) :
    ∀ c ∈ selector.members, ∀ l ∈ c.links, l.combinator ∈ combinators := by
  obtain ⟨-, -, ⟨-, hlinks⟩, hmembers⟩ := h
  intro c hc
  rw [Selector.members_ofMembers] at hc
  rcases List.mem_cons.mp hc with rfl | hothers
  · exact hlinks.mem_combinators
  · exact hmembers.mem_combinators c hothers

variable (hlevel : ∀ {name}, level.admitsLegacyElement name = true →
  level.admitsElement name = true)
include hlevel

private theorem Built.carries {name arg : Text} {f : PseudoFunction}
    (h : Built level name arg f) :
    Carries Argument.kind (fun a => ∀ inner, a = .negated inner → Negatable level inner) f name
      arg := by
  cases h with
  | plain h =>
    obtain ⟨hkind, hcalled, hvalue, -⟩ := h.carries
    refine ⟨hkind, hcalled, hvalue, ?_⟩
    intro inner hinner
    cases hinner
  | @negation _ simple hitem hkind =>
    refine ⟨rfl, rfl, rfl, ?_⟩
    intro inner hinner
    cases hinner
    exact ⟨hitem.inOrder PlainBuilt.carries hlevel, hkind, hitem.not_negation⟩

/-- A tree that is written is in order. -/
theorem Whole.inOrder {selector : Selector} {text : Text}
    (h : Whole level (Built level) selector text) : selector.InOrder level where
  list := by
    intro hlist
    obtain ⟨first, members, rfl⟩ := selector.exists_ofMembers
    cases members with
    | nil => exact absurd rfl (hlist first)
    | cons second others => simp
  first := fun _ _ => rfl
  later := h.mem_combinators
  compound := by
    intro c _ l _
    simp [Compound.simples]
  simple := h.forall_simples fun hitem _ => hitem.inOrder (Built.carries hlevel) hlevel

end Written

end Spelling

/-- Every tree that is read is in order. -/
theorem Selector.inOrder_of_parse {context : Option Context} {source : Text} {selector : Selector}
    (h : (parse context source).result = .ok selector) : selector.InOrder (levelOf context) :=
  (parse_eq_ok_iff.mp h).inOrder levelOf_admitsElement

/-- A list whose first member holds a negation. -/
theorem Selector.inOrder_of_list :
    Selector.InOrder (levelOf none)
      (.list
        ⟨⟨⟨.tag, some "a".toList, none, none, 0⟩,
          [⟨.pseudoFunction, some "not".toList, some "#b".toList,
            some ⟨"not".toList, "#b".toList, .negated ⟨.id, some "b".toList, none, none, 0⟩⟩, 1⟩]⟩,
          [⟨some ">".toList, ⟨⟨.universal, none, none, none, 14⟩, []⟩⟩]⟩
        ⟨⟨⟨.pseudoElement, some "before".toList, none, none, 17⟩, []⟩, []⟩ []) :=
  @inOrder_of_parse none "a:not( #b ) > *, :before".toList _ (by decide +kernel)

end SelectorCheck
