import SelectorCheck.Proofs.Selector.Parsed

/-!
# The language of selectors

Which texts are selectors, without regard to the trees that they stand for.
The rules are those of the written selectors with everything left out that only
the tree needs, so that the language can be read as a grammar:

    selector = blanks* complex (blanks* "," blanks* complex)* blanks*
    complex  = compound (joint compound)*
    joint    = blanks* (">" | "+" | "~") blanks*  |  blank blanks*
    compound = item item*

An item is an asterisk, a name behind one of the marks, or a pseudo name with
an argument if it is a function. Names are taken as long as they can be, which
is what the text behind an item is carried along for.

## Main definitions

* `Language.Condition`, `Language.Element` — items that are no pseudo-elements
  and items that are.
* `Language.Argument` — the arguments of functions.
* `Language.Compound`, `Language.Chain`, `Language.Members`,
  `Language.IsSelector` — the layers.

## Main results

* `Selector.exists_parse_eq_ok_iff` — the parser accepts exactly the language.
-/

namespace SelectorCheck.Language

open Text

/-! ## The grammar -/

/-- A pseudo name in front of `after`, which does not open an argument. -/
structure BareName (name after : Text) : Prop extends NameRun name after where
  bare : after.head? ≠ some '('

/-- An item that is no pseudo-element. The functions in it have the arguments `A`. -/
inductive Condition (level : Level) (A : Text → Text → Prop) : (text after : Text) → Prop where
  | universal {after : Text} : Condition level A ['*'] after
  | id {name after : Text} (hname : NameRun name after) : Condition level A ('#' :: name) after
  | className {name after : Text} (hname : NameRun name after) :
      Condition level A ('.' :: name) after
  | tag {name after : Text} (hname : NameRun name after)
      (hstart : ∀ c ∈ name.head?, isNameStart c = true) : Condition level A name after
  | pseudoClass {name after : Text} (hname : BareName name after)
      (hadmits : level.admitsClass name.lowercase = true) : Condition level A (':' :: name) after
  | function {name before arg behind after : Text} (hname : NameRun name ['('])
      (hadmits : level.admitsFunction name.lowercase = true) (hbefore : allBlank before = true)
      (hbehind : allBlank behind = true) (harg : A name.lowercase arg) :
      Condition level A (':' :: (name ++ '(' :: (before ++ (arg ++ (behind ++ [')']))))) after

/-- An item that is a pseudo-element. What is a pseudo-class too is a pseudo-class. -/
inductive Element (level : Level) : (text after : Text) → Prop where
  | single {name after : Text} (hname : BareName name after)
      (hclass : level.admitsClass name.lowercase = false)
      (hadmits : level.admitsLegacyElement name.lowercase = true) :
      Element level (':' :: name) after
  | double {name after : Text} (hname : BareName name after)
      (hadmits : level.admitsElement name.lowercase = true) :
      Element level (':' :: ':' :: name) after

/-- An argument without a selector in it: a language tag or an expression. -/
def PlainArgument (name arg : Text) : Prop :=
  (name = FunctionKind.lang.name ∧ ∃ tag, LanguageTag.Written arg tag) ∨
    ∃ kind : NthKind, name = (FunctionKind.nth kind).name ∧ ∃ e, Nth.Written arg e

/-- An argument. That of a negation is a single item, and neither a pseudo-element nor a
negation. -/
def Argument (level : Level) (name arg : Text) : Prop :=
  PlainArgument name arg ∨
    name = FunctionKind.negation.name ∧ Condition level PlainArgument arg []

section Layers

variable (level : Level)

def Item (text after : Text) : Prop :=
  Condition level (Argument level) text after ∨ Element level text after

/-- Items without anything between them. -/
inductive Compound : (text after : Text) → Prop where
  | item {text after : Text} (h : Item level text after) : Compound text after
  | cons {text others after : Text} (h : Item level text (others ++ after))
      (hothers : Compound others after) : Compound (text ++ others) after

/-- What joins two compound selectors. -/
inductive Joint : (text : Text) → Prop where
  | blanks {blanks : Text} (hblanks : allBlank blanks = true) (hne : blanks ≠ []) : Joint blanks
  | mark {before behind : Text} {c : Char} (hbefore : allBlank before = true)
      (hc : c = '>' ∨ c = '+' ∨ c = '~') (hbehind : allBlank behind = true) :
      Joint (before ++ c :: behind)

/-- A complex selector. -/
inductive Chain : (text after : Text) → Prop where
  | compound {text after : Text} (h : Compound level text after) : Chain text after
  | join {text joint others after : Text} (h : Compound level text (joint ++ (others ++ after)))
      (hjoint : Joint joint) (hothers : Chain others after) :
      Chain (text ++ (joint ++ others)) after

/-- Complex selectors with commas between them. -/
inductive Members : (text after : Text) → Prop where
  | chain {text after : Text} (h : Chain level text after) : Members text after
  | comma {text before behind others after : Text}
      (h : Chain level text (before ++ ',' :: (behind ++ (others ++ after))))
      (hbefore : allBlank before = true) (hbehind : allBlank behind = true)
      (hothers : Members others after) :
      Members (text ++ (before ++ ',' :: (behind ++ others))) after

/-- A text that is a selector. -/
inductive IsSelector : (text : Text) → Prop where
  | padded {before text behind : Text} (hbefore : allBlank before = true)
      (hbehind : allBlank behind = true) (h : Members level text behind) :
      IsSelector (before ++ (text ++ behind))

end Layers

/-! ## Items with and without trees -/

section Items

variable {level : Level} {text after : Text}

/-- The items that are no pseudo-elements, with and without their trees. -/
theorem condition_iff {G : Type} {F : Text → Text → G → Prop} {A : Text → Text → Prop}
    (hF : ∀ name arg, A name arg ↔ ∃ f, F name arg f) (p : Nat) :
    Condition level A text after ↔
      ∃ simple, Spelling.Item level F p simple text after ∧ simple.kind ≠ .pseudoElement := by
  constructor
  · intro h
    cases h with
    | universal => exact ⟨_, .universal, by simp⟩
    | id hname => exact ⟨_, .id hname, by simp⟩
    | className hname => exact ⟨_, .className hname, by simp⟩
    | tag hname hstart => exact ⟨_, .tag hname hstart, by simp⟩
    | pseudoClass hname hadmits =>
      exact ⟨_, .pseudoClass hname.toNameRun hname.bare hadmits, by simp⟩
    | function hname hadmits hbefore hbehind harg =>
      obtain ⟨f, hf⟩ := (hF _ _).mp harg
      exact ⟨_, .function hname hadmits hbefore hbehind hf, by simp⟩
  · rintro ⟨simple, h, hkind⟩
    cases h with
    | universal => exact .universal
    | id hname => exact .id hname
    | className hname => exact .className hname
    | tag hname hstart => exact .tag hname hstart
    | pseudoClass hname hbare hadmits => exact .pseudoClass ⟨hname, hbare⟩ hadmits
    | legacyElement _ _ _ _ | element _ _ _ => exact absurd rfl hkind
    | function hname hadmits hbefore hbehind hf =>
      exact .function hname hadmits hbefore hbehind ((hF _ _).mpr ⟨_, hf⟩)

/-- The pseudo-elements, with and without their trees. -/
theorem element_iff {G : Type} (F : Text → Text → G → Prop) (p : Nat) :
    Element level text after ↔
      ∃ simple, Spelling.Item level F p simple text after ∧ simple.kind = .pseudoElement := by
  constructor
  · intro h
    cases h with
    | single hname hclass hadmits =>
      exact ⟨_, .legacyElement hname.toNameRun hname.bare hclass hadmits, rfl⟩
    | double hname hadmits => exact ⟨_, .element hname.toNameRun hname.bare hadmits, rfl⟩
  · rintro ⟨simple, h, hkind⟩
    cases h with
    | universal | id _ | className _ | tag _ _ | pseudoClass _ _ _ | function _ _ _ _ _ =>
      cases hkind
    | legacyElement hname hbare hclass hadmits => exact .single ⟨hname, hbare⟩ hclass hadmits
    | element hname hbare hadmits => exact .double ⟨hname, hbare⟩ hadmits

theorem plainArgument_iff (name arg : Text) :
    PlainArgument name arg ↔ ∃ f, Spelling.PlainBuilt name arg f := by
  constructor
  · rintro (⟨rfl, tag, h⟩ | ⟨kind, rfl, e, h⟩)
    · exact ⟨_, .lang h⟩
    · exact ⟨_, .nth h⟩
  · rintro ⟨f, h⟩
    cases h with
    | lang h => exact .inl ⟨rfl, _, h⟩
    | nth h => exact .inr ⟨_, rfl, _, h⟩

theorem argument_iff (name arg : Text) :
    Argument level name arg ↔ ∃ f, Spelling.Built level name arg f := by
  constructor
  · rintro (h | ⟨rfl, h⟩)
    · obtain ⟨f, hf⟩ := (plainArgument_iff name arg).mp h
      exact ⟨_, .plain hf⟩
    · obtain ⟨simple, hsimple, hkind⟩ := (condition_iff plainArgument_iff 0).mp h
      exact ⟨_, .negation hsimple hkind⟩
  · rintro ⟨f, h⟩
    cases h with
    | plain h => exact .inl ((plainArgument_iff name arg).mpr ⟨_, h⟩)
    | negation hsimple hkind =>
      exact .inr ⟨rfl, (condition_iff plainArgument_iff 0).mpr ⟨_, hsimple, hkind⟩⟩

theorem item_iff (p : Nat) :
    Item level text after ↔
      ∃ simple, Spelling.Item level (Spelling.Built level) p simple text after := by
  rw [Item, condition_iff argument_iff p, element_iff (Spelling.Built level) p]
  constructor
  · rintro (⟨simple, h, -⟩ | ⟨simple, h, -⟩) <;> exact ⟨simple, h⟩
  · rintro ⟨simple, h⟩
    by_cases hkind : simple.kind = .pseudoElement
    · exact .inr ⟨simple, h, hkind⟩
    · exact .inl ⟨simple, h, hkind⟩

end Items

/-! ## Layers with and without trees -/

section LayersOfTrees

variable {level : Level} {text after : Text}

/-- Items that a tree is written in are a compound selector, unless there are none. -/
private theorem compound_of_items {p : Nat} {simples : List Simple}
    (h : Spelling.Items level (Spelling.Built level) p simples text after) (hne : simples ≠ []) :
    Compound level text after := by
  induction h with
  | nil => exact absurd rfl hne
  | @cons p simple simples text others after hitem hothers ih =>
    have hfirst : Item level text (others ++ after) := (item_iff p).mpr ⟨simple, hitem⟩
    cases simples with
    | nil =>
      cases hothers
      rw [List.append_nil]
      exact .item hfirst
    | cons _ _ => exact .cons hfirst (ih (by simp))

private theorem Compound.exists_items (h : Compound level text after) (p : Nat) :
    ∃ compound : SelectorCheck.Compound,
      Spelling.Items level (Spelling.Built level) p compound.simples text after := by
  induction h generalizing p with
  | @item text after h =>
    obtain ⟨simple, hitem⟩ := (item_iff p).mp h
    have hitems : Spelling.Items level (Spelling.Built level) p [simple] (text ++ []) after :=
      .cons hitem .nil
    rw [List.append_nil] at hitems
    exact ⟨⟨simple, []⟩, hitems⟩
  | @cons text others after h _ ih =>
    obtain ⟨simple, hitem⟩ := (item_iff p).mp h
    obtain ⟨compound, hothers⟩ := ih (p + text.length)
    exact ⟨⟨simple, compound.simples⟩, .cons hitem hothers⟩

theorem compound_iff (p : Nat) :
    Compound level text after ↔ ∃ compound : SelectorCheck.Compound,
      Spelling.Items level (Spelling.Built level) p compound.simples text after := by
  constructor
  · intro h
    exact h.exists_items p
  · rintro ⟨compound, h⟩
    exact compound_of_items h (by simp [SelectorCheck.Compound.simples])

theorem joint_iff {joint : Text} : Joint joint ↔ ∃ combinator, Spelling.Joint combinator joint := by
  constructor
  · rintro (⟨hblanks, hne⟩ | ⟨hbefore, hc, hbehind⟩)
    · exact ⟨_, .blanks hblanks hne⟩
    · exact ⟨_, .mark hbefore (Lexer.isCombinator_iff.mpr hc) hbehind⟩
  · rintro ⟨combinator, ⟨hblanks, hne⟩ | ⟨hbefore, hc, hbehind⟩⟩
    · exact .blanks hblanks hne
    · exact .mark hbefore (Lexer.isCombinator_iff.mp hc) hbehind

private theorem chain_of_links {p : Nat} {row : List Link} {others : Text}
    (h : Spelling.Links level (Spelling.Built level) p row others after)
    (hfirst : Compound level text (others ++ after)) : Chain level (text ++ others) after := by
  induction h generalizing text with
  | nil =>
    rw [List.append_nil]
    exact .compound hfirst
  | @cons p combinator joint inner others after compound row hjoint hitems _ ih =>
    rw [List.append_assoc, List.append_assoc] at hfirst
    have hothers : Chain level (inner ++ others) after :=
      ih ((compound_iff (p + joint.length)).mpr ⟨compound, hitems⟩)
    refine .join ?_ (joint_iff.mpr ⟨combinator, hjoint⟩) hothers
    rw [List.append_assoc]
    exact hfirst

private theorem Chain.exists_links (h : Chain level text after) (p : Nat) :
    ∃ complex, Spelling.Chain level (Spelling.Built level) p complex text after := by
  induction h generalizing p with
  | @compound text after h =>
    obtain ⟨compound, hitems⟩ := h.exists_items p
    have hchain : Spelling.Chain level (Spelling.Built level) p ⟨compound, []⟩ (text ++ []) after :=
      .mk hitems .nil
    rw [List.append_nil] at hchain
    exact ⟨⟨compound, []⟩, hchain⟩
  | @join text joint others after h hjoint _ ih =>
    obtain ⟨compound, hitems⟩ := h.exists_items p
    obtain ⟨combinator, hcombinator⟩ := joint_iff.mp hjoint
    obtain ⟨complex, hothers⟩ := ih (p + text.length + joint.length)
    rcases hothers with @⟨inner, others, _, hinner, hlinks⟩
    refine ⟨⟨compound, ⟨some combinator, complex.first⟩ :: complex.links⟩,
      .mk ?_ (.cons hcombinator hinner hlinks)⟩
    simpa using hitems

theorem chain_iff (p : Nat) :
    Chain level text after ↔
      ∃ complex, Spelling.Chain level (Spelling.Built level) p complex text after := by
  constructor
  · intro h
    exact h.exists_links p
  · rintro ⟨complex, hitems, hlinks⟩
    exact chain_of_links hlinks ((compound_iff p).mpr ⟨complex.first, hitems⟩)

private theorem members_of_trees {p : Nat} {members : List Complex} {others : Text}
    (h : Spelling.Members level (Spelling.Built level) p members others after)
    (hfirst : Chain level text (others ++ after)) : Members level (text ++ others) after := by
  induction h generalizing text with
  | nil =>
    rw [List.append_nil]
    exact .chain hfirst
  | @cons p complex members before behind inner others after hbefore hbehind hchain _ ih =>
    have hothers : Members level (inner ++ others) after := ih ((chain_iff _).mpr ⟨complex, hchain⟩)
    refine .comma ?_ hbefore hbehind hothers
    simpa using hfirst

private theorem Members.exists_trees (h : Members level text after) (p : Nat) :
    ∃ first members inner others, text = inner ++ others ∧
      Spelling.Chain level (Spelling.Built level) p first inner (others ++ after) ∧
      Spelling.Members level (Spelling.Built level) (p + inner.length) members others after := by
  induction h generalizing p with
  | @chain text after h =>
    obtain ⟨first, hchain⟩ := h.exists_links p
    exact ⟨first, [], text, [], by simp, hchain, .nil⟩
  | @comma text before behind others after h hbefore hbehind _ ih =>
    obtain ⟨first, hchain⟩ := h.exists_links p
    obtain ⟨second, members, inner, others, rfl, hsecond, hmembers⟩ :=
      ih (p + text.length + before.length + 1 + behind.length)
    refine ⟨first, second :: members, text, before ++ ',' :: (behind ++ (inner ++ others)), rfl, ?_,
      .cons hbefore hbehind hsecond hmembers⟩
    simpa using hchain

/-- A text is a selector exactly if a tree is written in it. -/
theorem isSelector_iff :
    IsSelector level text ↔
      ∃ selector, Spelling.Whole level (Spelling.Built level) selector text := by
  constructor
  · rintro @⟨before, text, behind, hbefore, hbehind, h⟩
    obtain ⟨first, members, inner, others, rfl, hchain, hmembers⟩ := h.exists_trees before.length
    rw [List.append_assoc]
    exact ⟨_, .mk hbefore hbehind hchain hmembers⟩
  · rintro ⟨selector, @⟨first, members, before, behind, text, others, hbefore, hbehind, hchain,
      hmembers⟩⟩
    rw [← List.append_assoc text]
    exact .padded hbefore hbehind (members_of_trees hmembers ((chain_iff _).mpr ⟨_, hchain⟩))

end LayersOfTrees

end SelectorCheck.Language

namespace SelectorCheck.Selector

/-- The parser accepts exactly the language of selectors. -/
theorem exists_parse_eq_ok_iff (context : Option Context) (source : Text) :
    (∃ selector, (parse context source).result = .ok selector) ↔
      Language.IsSelector (levelOf context) source := by
  rw [Language.isSelector_iff]
  exact exists_congr fun selector => parse_eq_ok_iff

end SelectorCheck.Selector
