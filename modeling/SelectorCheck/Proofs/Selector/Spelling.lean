import SelectorCheck.Proofs.Argument.Expression
import SelectorCheck.Proofs.Argument.LanguageTag
import SelectorCheck.Proofs.Level.Widened
import SelectorCheck.Proofs.Token.Lexed
import SelectorCheck.Selector.Function

/-!
# How selectors are written

The grammar of selectors as a relation between texts and trees. It knows of no
tokens and no reading order: each rule says which text stands for which part of
a tree, at which position, and in front of which text. What follows matters to
names only, which end where no name character follows, and to names without an
argument, which no parenthesis follows.

Every layer is given for any level and for any relation between the arguments
of functions and the functions that they make. The relation that selectors use
comes last: it is made in two steps, because a negation holds a simple selector
that is no negation.

## Main definitions

* `Spelling.Item`, `Spelling.Items`, `Spelling.Links`, `Spelling.Chain`,
  `Spelling.Members`, `Spelling.Whole` — the layers.
* `Spelling.PlainBuilt`, `Spelling.Built` — the arguments of functions.
* `Spelling.Replaces` — the texts that may stand in place of another.

## Main results

* `Spelling.Whole.imp` — a selector depends on the level and on the arguments
  in it only.
* `Spelling.Whole.widened` — a wider level reads the same.
* `Spelling.Whole.forall_simples` — what holds of every item holds throughout
  a tree.
* `Spelling.Built.solid`, `Spelling.Built.balanced` — every argument is cut
  out as a whole.
-/

namespace SelectorCheck.Spelling

open Text Lexer RawArgument

/-! ## Layers -/

section Layers

variable (level : Level)

/-- A simple selector, in front of `after`. -/
inductive Item {G : Type} (F : Text → Text → G → Prop) (p : Nat) :
    (simple : SimpleOf G) → (text after : Text) → Prop where
  | universal {after : Text} : Item F p ⟨.universal, none, none, none, p⟩ ['*'] after
  | id {name after : Text} (hname : NameRun name after) :
      Item F p ⟨.id, some name, none, none, p⟩ ('#' :: name) after
  | className {name after : Text} (hname : NameRun name after) :
      Item F p ⟨.className, some name, none, none, p⟩ ('.' :: name) after
  | tag {name after : Text} (hname : NameRun name after)
      (hstart : ∀ c ∈ name.head?, isNameStart c = true) :
      Item F p ⟨.tag, some name.lowercase, none, none, p⟩ name after
  | pseudoClass {name after : Text} (hname : NameRun name after) (hbare : after.head? ≠ some '(')
      (hadmits : level.admitsClass name.lowercase = true) :
      Item F p ⟨.pseudoClass, some name.lowercase, none, none, p⟩ (':' :: name) after
  /-- A pseudo-element behind a single colon. A pseudo-class of the same name comes first. -/
  | legacyElement {name after : Text} (hname : NameRun name after)
      (hbare : after.head? ≠ some '(') (hclass : level.admitsClass name.lowercase = false)
      (hadmits : level.admitsLegacyElement name.lowercase = true) :
      Item F p ⟨.pseudoElement, some name.lowercase, none, none, p⟩ (':' :: name) after
  | element {name after : Text} (hname : NameRun name after) (hbare : after.head? ≠ some '(')
      (hadmits : level.admitsElement name.lowercase = true) :
      Item F p ⟨.pseudoElement, some name.lowercase, none, none, p⟩ (':' :: ':' :: name) after
  | function {name before arg behind after : Text} {f : G} (hname : NameRun name ['('])
      (hadmits : level.admitsFunction name.lowercase = true) (hbefore : allBlank before = true)
      (hbehind : allBlank behind = true) (hf : F name.lowercase arg f) :
      Item F p ⟨.pseudoFunction, some name.lowercase, some arg, some f, p⟩
        (':' :: (name ++ '(' :: (before ++ (arg ++ (behind ++ [')']))))) after

variable (F : Text → Text → PseudoFunction → Prop)

/-- Simple selectors without anything between them. -/
inductive Items : (p : Nat) → (simples : List Simple) → (text after : Text) → Prop where
  | nil {p : Nat} {after : Text} : Items p [] [] after
  | cons {p : Nat} {simple : Simple} {simples : List Simple} {text others after : Text}
      (h : Item level F p simple text (others ++ after))
      (hothers : Items (p + text.length) simples others after) :
      Items p (simple :: simples) (text ++ others) after

/-- What joins two compound selectors, with the combinator that it is. -/
inductive Joint : (combinator text : Text) → Prop where
  | blanks {blanks : Text} (hblanks : allBlank blanks = true) (hne : blanks ≠ []) :
      Joint [' '] blanks
  | mark {before behind : Text} {c : Char} (hbefore : allBlank before = true)
      (hc : isCombinator c = true) (hbehind : allBlank behind = true) :
      Joint [c] (before ++ c :: behind)

/-- Compound selectors, each behind what joins it to the one before. -/
inductive Links : (p : Nat) → (row : List Link) → (text after : Text) → Prop where
  | nil {p : Nat} {after : Text} : Links p [] [] after
  | cons {p : Nat} {combinator joint text others after : Text} {compound : Compound}
      {row : List Link} (hjoint : Joint combinator joint)
      (h : Items level F (p + joint.length) compound.simples text (others ++ after))
      (hothers : Links (p + joint.length + text.length) row others after) :
      Links p (⟨some combinator, compound⟩ :: row) (joint ++ (text ++ others)) after

/-- A complex selector. -/
inductive Chain (p : Nat) : (complex : Complex) → (text after : Text) → Prop where
  | mk {complex : Complex} {text others after : Text}
      (h : Items level F p complex.first.simples text (others ++ after))
      (hothers : Links level F (p + text.length) complex.links others after) :
      Chain p complex (text ++ others) after

/-- Complex selectors, each behind a comma. -/
inductive Members : (p : Nat) → (members : List Complex) → (text after : Text) → Prop where
  | nil {p : Nat} {after : Text} : Members p [] [] after
  | cons {p : Nat} {complex : Complex} {members : List Complex}
      {before behind text others after : Text} (hbefore : allBlank before = true)
      (hbehind : allBlank behind = true)
      (h : Chain level F (p + before.length + 1 + behind.length) complex text (others ++ after))
      (hothers : Members (p + before.length + 1 + behind.length + text.length) members others
        after) :
      Members p (complex :: members) (before ++ ',' :: (behind ++ (text ++ others))) after

/-- A whole selector. -/
inductive Whole : (selector : Selector) → (text : Text) → Prop where
  | mk {first : Complex} {members : List Complex} {before behind text others : Text}
      (hbefore : allBlank before = true) (hbehind : allBlank behind = true)
      (h : Chain level F before.length first text (others ++ behind))
      (hothers : Members level F (before.length + text.length) members others behind) :
      Whole (.ofMembers first members) (before ++ (text ++ (others ++ behind)))

end Layers

/-! ## Arguments -/

/-- The text `arg` is an argument, without a selector in it, that makes the function `f`. -/
inductive PlainBuilt : (name arg : Text) → (f : PlainFunction) → Prop where
  | lang {arg tag : Text} (h : LanguageTag.Written arg tag) :
      PlainBuilt FunctionKind.lang.name arg ⟨FunctionKind.lang.name, arg, .language tag⟩
  | nth {kind : NthKind} {arg : Text} {e : Nth} (h : Nth.Written arg e) :
      PlainBuilt (FunctionKind.nth kind).name arg
        ⟨(FunctionKind.nth kind).name, arg, .counting kind e⟩

/-- The text `arg` is an argument that makes the function `f`. -/
inductive Built (level : Level) : (name arg : Text) → (f : PseudoFunction) → Prop where
  | plain {name arg : Text} {f : PlainFunction} (h : PlainBuilt name arg f) :
      Built level name arg (.ofPlain f)
  | negation {arg : Text} {simple : PlainSimple} (h : Item level PlainBuilt 0 simple arg [])
      (hkind : simple.kind ≠ .pseudoElement) :
      Built level FunctionKind.negation.name arg
        ⟨FunctionKind.negation.name, arg, .negated simple⟩

/-! ## What a layer begins with -/

section Heads

variable {level : Level} {G : Type} {F : Text → Text → G → Prop} {p : Nat} {text after : Text}

/-- A simple selector is where its position says. -/
theorem Item.pos_eq {simple : SimpleOf G} (h : Item level F p simple text after) :
    simple.pos = p := by
  cases h <;> rfl

private theorem name_head {name rest : Text} (h : NameRun name rest) :
    ∃ c t, name = c :: t ∧ isBlank c = false ∧ absorbsBlanks c = false := by
  obtain ⟨c, t, rfl, hc⟩ := h.eq_cons
  exact ⟨c, t, rfl, isBlank_of_isNameChar hc, absorbsBlanks_of_isNameChar hc⟩

/-- A simple selector begins with a character that blanks in front of it do not vanish before. -/
theorem Item.head {simple : SimpleOf G} (h : Item level F p simple text after) :
    ∃ c t, text = c :: t ∧ isBlank c = false ∧ absorbsBlanks c = false := by
  cases h with
  | universal | id _ | className _ | pseudoClass _ _ _ | legacyElement _ _ _ _ | element _ _ _
  | function _ _ _ _ _ =>
    exact ⟨_, _, rfl, by decide, by decide⟩
  | tag hname _ => exact name_head hname

/-- So do simple selectors, if there are any. -/
theorem Items.head {F : Text → Text → PseudoFunction → Prop} {simple : Simple}
    {simples : List Simple} (h : Items level F p (simple :: simples) text after) :
    ∃ c t, text = c :: t ∧ isBlank c = false ∧ absorbsBlanks c = false := by
  cases h with
  | cons hfirst _ =>
    obtain ⟨c, t, rfl, hc⟩ := hfirst.head
    exact ⟨c, _, rfl, hc⟩

theorem Chain.head {F : Text → Text → PseudoFunction → Prop} {complex : Complex}
    (h : Chain level F p complex text after) :
    ∃ c t, text = c :: t ∧ isBlank c = false ∧ absorbsBlanks c = false := by
  cases h with
  | mk hfirst _ =>
    obtain ⟨c, t, rfl, hc⟩ := Items.head hfirst
    exact ⟨c, _, rfl, hc⟩

end Heads

/-! ## Other surroundings -/

/-- No name and no argument begins with the text. -/
def EndsItems (after : Text) : Prop := ∀ c ∈ after.head?, c ≠ '(' ∧ isNameChar c = false

theorem EndsItems.of_blanks {blanks : Text} (h : allBlank blanks = true) : EndsItems blanks := by
  intro c hc
  have hblank : isBlank c = true := allBlank_iff.mp h c (List.mem_of_head? hc)
  refine ⟨?_, ?_⟩
  · rintro rfl
    cases hblank
  · by_cases hname : isNameChar c = true
    · rw [isBlank_of_isNameChar hname] at hblank
      cases hblank
    · simpa using hname

theorem EndsItems.blanks_append {blanks t : Text} (hblanks : allBlank blanks = true)
    (ht : EndsItems t) : EndsItems (blanks ++ t) := by
  cases blanks with
  | nil => exact ht
  | cons c blanks => exact fun d hd => EndsItems.of_blanks hblanks d hd

theorem EndsItems.cons {c : Char} (hparen : c ≠ '(') (hname : isNameChar c = false) (t : Text) :
    EndsItems (c :: t) := by
  intro d hd
  cases hd
  exact ⟨hparen, hname⟩

/-- The text `other` may stand where `after` does. It begins alike, or with nothing that an item in
front of it could go on with. -/
def Replaces (other after : Text) : Prop := other.head? = after.head? ∨ EndsItems other

namespace Replaces

variable {other after name : Text}

theorem refl (after : Text) : Replaces after after := .inl rfl

/-- What stands in front of both texts makes them alike. -/
theorem append (h : Replaces other after) (t : Text) : Replaces (t ++ other) (t ++ after) := by
  cases t with
  | nil => exact h
  | cons c t => exact .inl rfl

theorem nameRun (h : Replaces other after) (hname : NameRun name after) : NameRun name other := by
  refine hname.before ?_
  rcases h with hhead | hends
  · rw [hhead]
    exact hname.stops
  · exact fun c hc => (hends c hc).2

theorem bare (h : Replaces other after) (hbare : after.head? ≠ some '(') :
    other.head? ≠ some '(' := by
  rcases h with hhead | hends
  · rw [hhead]
    exact hbare
  · exact fun hparen => (hends '(' hparen).1 rfl

end Replaces

section Surroundings

variable {level wider : Level} {F F' : Text → Text → PseudoFunction → Prop}

/-- A simple selector at a wider level, in front of another text and with the function in it
replaced. The text is the same, and the argument in it is shorter by the name and the three
marks. -/
theorem Item.map {G G' : Type} {F : Text → Text → G → Prop} {F' : Text → Text → G' → Prop}
    {p : Nat} {simple : SimpleOf G} {text after other : Text}
    (h : Item level F p simple text after) (hlevel : level.Widened wider)
    (hother : Replaces other after) (φ : G → G')
    (hF : ∀ (name arg : Text) (f : G), simple.function = some f →
      name.length + arg.length + 3 ≤ text.length →
      F name.lowercase arg f → F' name.lowercase arg (φ f)) :
    Item wider F' p (simple.withFunction (simple.function.map φ)) text other := by
  cases h with
  | universal => exact .universal
  | id hname => exact .id (hother.nameRun hname)
  | className hname => exact .className (hother.nameRun hname)
  | tag hname hstart => exact .tag (hother.nameRun hname) hstart
  | pseudoClass hname hbare hadmits =>
    exact .pseudoClass (hother.nameRun hname) (hother.bare hbare) (hlevel.classes hadmits)
  | legacyElement hname hbare hclass hadmits =>
    obtain ⟨hclass, hadmits⟩ := hlevel.legacy hclass hadmits
    exact .legacyElement (hother.nameRun hname) (hother.bare hbare) hclass hadmits
  | element hname hbare hadmits =>
    exact .element (hother.nameRun hname) (hother.bare hbare) (hlevel.elements hadmits)
  | @function name before arg behind after f hname hadmits hbefore hbehind hf =>
    refine .function hname (hlevel.functions hadmits) hbefore hbehind (hF name arg f rfl ?_ hf)
    simp only [List.length_cons, List.length_append, List.length_nil]
    omega

theorem Item.imp {G : Type} {F F' : Text → Text → G → Prop} {p : Nat} {simple : SimpleOf G}
    {text after other : Text} (h : Item level F p simple text after)
    (hlevel : level.Widened wider) (hother : Replaces other after)
    (hF : ∀ (name arg : Text) (f : G), name.length + arg.length + 3 ≤ text.length →
      F name.lowercase arg f → F' name.lowercase arg f) : Item wider F' p simple text other := by
  have hmap : Item wider F' p (simple.withFunction (simple.function.map fun f => f)) text other :=
    h.map hlevel hother (fun f => f) fun name arg f _ => hF name arg f
  rwa [Option.map_id'] at hmap

variable {n : Nat} (hlevel : level.Widened wider)
  (hF : ∀ (name arg : Text) (f : PseudoFunction),
    name.length + arg.length + 3 ≤ n → F name.lowercase arg f → F' name.lowercase arg f)
include hlevel hF

theorem Items.imp {p : Nat} {simples : List Simple} {text after other : Text}
    (h : Items level F p simples text after) (hother : Replaces other after)
    (hn : text.length ≤ n) : Items wider F' p simples text other := by
  induction h with
  | nil => exact .nil
  | @cons _ _ _ _ others _ hfirst _ ih =>
    rw [List.length_append] at hn
    refine .cons (hfirst.imp hlevel (hother.append others) fun name arg f hlength =>
      hF name arg f ?_) (ih hother ?_)
    · omega
    · omega

theorem Links.imp {p : Nat} {row : List Link} {text after other : Text}
    (h : Links level F p row text after) (hother : Replaces other after)
    (hn : text.length ≤ n) : Links wider F' p row text other := by
  induction h with
  | nil => exact .nil
  | @cons _ _ _ _ others _ _ _ hjoint hfirst _ ih =>
    rw [List.length_append, List.length_append] at hn
    refine .cons hjoint (hfirst.imp hlevel hF (hother.append others) ?_) (ih hother ?_)
    · omega
    · omega

theorem Chain.imp {p : Nat} {complex : Complex} {text after other : Text}
    (h : Chain level F p complex text after) (hother : Replaces other after)
    (hn : text.length ≤ n) : Chain wider F' p complex text other := by
  cases h with
  | @mk _ others _ hfirst hothers =>
    rw [List.length_append] at hn
    refine .mk (hfirst.imp hlevel hF (hother.append others) ?_) (hothers.imp hlevel hF hother ?_)
    · omega
    · omega

theorem Members.imp {p : Nat} {members : List Complex} {text after other : Text}
    (h : Members level F p members text after) (hother : Replaces other after)
    (hn : text.length ≤ n) : Members wider F' p members text other := by
  induction h with
  | nil => exact .nil
  | @cons _ _ _ _ _ _ others _ hbefore hbehind hfirst _ ih =>
    simp only [List.length_append, List.length_cons] at hn
    refine .cons hbefore hbehind (hfirst.imp hlevel hF (hother.append others) ?_) (ih hother ?_)
    · omega
    · omega

/-- A selector depends on the level and on the arguments in it only, and they are shorter than
it. -/
theorem Whole.imp {selector : Selector} {text : Text} (h : Whole level F selector text)
    (hn : text.length ≤ n) : Whole wider F' selector text := by
  cases h with
  | mk hbefore hbehind hfirst hothers =>
    simp only [List.length_append] at hn
    refine .mk hbefore hbehind (hfirst.imp hlevel hF (.refl _) ?_)
      (hothers.imp hlevel hF (.refl _) ?_)
    · omega
    · omega

end Surroundings

/-- Functions of one level are functions of a wider one. -/
theorem Built.imp {level wider : Level} {name arg : Text} {f : PseudoFunction}
    (h : Built level name arg f) (hlevel : level.Widened wider) : Built wider name arg f := by
  cases h with
  | plain h => exact .plain h
  | negation h hkind =>
    exact .negation (h.imp hlevel (.refl _) fun name arg f _ hf => hf) hkind

/-- A selector of one level is the same selector of a wider one. -/
theorem Whole.widened {level wider : Level} {selector : Selector} {text : Text}
    (h : Whole level (Built level) selector text) (hlevel : level.Widened wider) :
    Whole wider (Built wider) selector text :=
  h.imp hlevel (fun _ _ _ _ hf => hf.imp hlevel) (Nat.le_refl _)

/-! ## All simple selectors of a tree -/

theorem drop_behind {source t u : Text} {p : Nat} (h : source.drop p = t ++ u) :
    source.drop (p + t.length) = u := by
  rw [← List.drop_drop, h, List.drop_left]

section Everywhere

variable {level : Level} {F : Text → Text → PseudoFunction → Prop} {P : Simple → Prop}
  {source : Text}
  (hP : ∀ {p simple text after}, Item level F p simple text after → source.drop p = text ++ after →
    P simple)
include hP

theorem Items.forall_simples {p : Nat} {simples : List Simple} {text after : Text}
    (h : Items level F p simples text after) (ht : source.drop p = text ++ after) :
    ∀ simple ∈ simples, P simple := by
  induction h with
  | nil => simp
  | cons hitem _ ih =>
    rw [List.append_assoc] at ht
    intro simple hsimple
    rcases List.mem_cons.mp hsimple with rfl | hothers
    · exact hP hitem ht
    · exact ih (drop_behind ht) simple hothers

theorem Links.forall_simples {p : Nat} {row : List Link} {text after : Text}
    (h : Links level F p row text after) (ht : source.drop p = text ++ after) :
    ∀ l ∈ row, ∀ simple ∈ l.compound.simples, P simple := by
  induction h with
  | nil => simp
  | cons _ hitems _ ih =>
    rw [List.append_assoc, List.append_assoc] at ht
    have hbehind := drop_behind ht
    intro l hl
    rcases List.mem_cons.mp hl with rfl | hothers
    · exact hitems.forall_simples hP hbehind
    · exact ih (drop_behind hbehind) l hothers

theorem Chain.forall_simples {p : Nat} {complex : Complex} {text after : Text}
    (h : Chain level F p complex text after) (ht : source.drop p = text ++ after) :
    ∀ simple ∈ complex.simples, P simple := by
  obtain ⟨hitems, hlinks⟩ := h
  rw [List.append_assoc] at ht
  intro simple hsimple
  rw [Complex.simples, Complex.parts, List.flatMap_cons, List.mem_append, List.mem_flatMap]
    at hsimple
  rcases hsimple with hfirst | ⟨l, hl, hsimple⟩
  · exact hitems.forall_simples hP ht simple hfirst
  · exact hlinks.forall_simples hP (drop_behind ht) l hl simple hsimple

theorem Members.forall_simples {p : Nat} {members : List Complex} {text after : Text}
    (h : Members level F p members text after) (ht : source.drop p = text ++ after) :
    ∀ c ∈ members, ∀ simple ∈ c.simples, P simple := by
  induction h with
  | nil => simp
  | @cons p _ _ before behind text others after _ _ hchain _ ih =>
    have hcomma : source.drop p = before ++ ([','] ++ (behind ++ (text ++ (others ++ after)))) := by
      rw [ht]
      simp
    have hmember := drop_behind (drop_behind (drop_behind hcomma))
    intro c hc
    rcases List.mem_cons.mp hc with rfl | hothers
    · exact hchain.forall_simples hP hmember
    · exact ih (drop_behind hmember) c hothers

/-- What holds of every simple selector that is written holds of all in a tree that is. -/
theorem Whole.forall_simples {selector : Selector} (h : Whole level F selector source) :
    ∀ simple ∈ selector.simples, P simple := by
  generalize htext : source = whole at h
  obtain @⟨first, members, before, behind, text, others, -, -, hchain, hmembers⟩ := h
  have hfirst : source.drop before.length = text ++ (others ++ behind) := by
    rw [htext, List.drop_left]
  intro simple hsimple
  rw [Selector.simples, Selector.members_ofMembers, List.flatMap_cons, List.mem_append,
    List.mem_flatMap] at hsimple
  rcases hsimple with hsimple | ⟨c, hc, hsimple⟩
  · exact hchain.forall_simples hP hfirst simple hsimple
  · exact hmembers.forall_simples hP (drop_behind hfirst) c hc simple hsimple

end Everywhere

/-! ## Arguments are cut out as a whole -/

theorem PlainBuilt.solid {name arg : Text} {f : PlainFunction} (h : PlainBuilt name arg f) :
    Solid arg := by
  cases h with
  | lang h => exact h.solid
  | nth h => exact h.solid

theorem PlainBuilt.balanced {name arg : Text} {f : PlainFunction} (h : PlainBuilt name arg f) :
    Balanced arg := by
  cases h with
  | lang h => exact h.balanced
  | nth h => exact h.balanced

private theorem balanced_name {name rest : Text} (h : NameRun name rest) : Balanced name :=
  .of_inert fun c hc => isInert_of isNameChar (h.all c hc) (by decide)

theorem balanced_blanks {blanks : Text} (h : allBlank blanks = true) : Balanced blanks :=
  .of_inert fun c hc => isInert_of_isBlank (allBlank_iff.mp h c hc)

section Items

variable {level : Level} {G : Type} {F : Text → Text → G → Prop} {p : Nat}
  {simple : SimpleOf G} {text after : Text}

theorem Item.balanced (h : Item level F p simple text after)
    (hF : ∀ {name arg f}, F name arg f → Balanced arg) : Balanced text := by
  cases h with
  | universal => exact .singleton (by decide)
  | id hname | className hname | pseudoClass hname _ _ | legacyElement hname _ _ _ =>
    exact .cons (by decide) (balanced_name hname)
  | element hname _ _ => exact .cons (by decide) (.cons (by decide) (balanced_name hname))
  | tag hname _ => exact balanced_name hname
  | @function name before arg behind _ _ hname _ hbefore hbehind hf =>
    have hinner : Balanced (before ++ (arg ++ behind)) :=
      (balanced_blanks hbefore).append ((hF hf).append (balanced_blanks hbehind))
    have hparens := hinner.parenthesized
    simp only [List.append_assoc] at hparens
    exact .cons (by decide) ((balanced_name hname).append hparens)

private theorem isBlank_of_getLast?_name {name rest : Text} (h : NameRun name rest) {t : Text} :
    ∀ c ∈ (t ++ name).getLast?, isBlank c = false := by
  intro c hc
  rw [getLast?_append_right h.ne_nil] at hc
  exact isBlank_of_isNameChar (h.all c (List.mem_of_getLast? hc))

theorem Item.solid (h : Item level F p simple text after) : Solid text := by
  obtain ⟨c, t, ht, hc, -⟩ := h.head
  refine ⟨by simp [ht], by simp [ht, hc], ?_⟩
  cases h with
  | universal => simp [isBlank]
  | id hname => exact isBlank_of_getLast?_name hname (t := ['#'])
  | className hname => exact isBlank_of_getLast?_name hname (t := ['.'])
  | pseudoClass hname _ _ | legacyElement hname _ _ _ =>
    exact isBlank_of_getLast?_name hname (t := [':'])
  | element hname _ _ => exact isBlank_of_getLast?_name hname (t := [':', ':'])
  | tag hname _ => exact isBlank_of_getLast?_name hname (t := [])
  | @function name before arg behind =>
    have hclose : ':' :: (name ++ '(' :: (before ++ (arg ++ (behind ++ [')'])))) =
        ':' :: (name ++ '(' :: (before ++ (arg ++ behind))) ++ [')'] := by simp
    rw [hclose, List.getLast?_concat]
    simp [isBlank]

end Items

theorem Built.solid {level : Level} {name arg : Text} {f : PseudoFunction}
    (h : Built level name arg f) : Solid arg := by
  cases h with
  | plain h => exact h.solid
  | negation h _ => exact h.solid

theorem Built.balanced {level : Level} {name arg : Text} {f : PseudoFunction}
    (h : Built level name arg f) : Balanced arg := by
  cases h with
  | plain h => exact h.balanced
  | negation h _ => exact h.balanced PlainBuilt.balanced

/-! ## Single functions -/

/-- The function `name` with the text `inner` between its parentheses. -/
def call (name inner : Text) : Text := ':' :: (name ++ '(' :: (inner ++ [')']))

theorem nameRun_name (kind : FunctionKind) (t : Text) : NameRun kind.name ('(' :: t) := by
  have hall : kind.name.all isNameChar = true := by
    rcases kind with _ | _ | (_ | _ | _ | _) <;> decide
  exact ⟨⟨List.all_eq_true.mp hall, fun c hc => by cases hc; decide⟩, kind.name_ne_nil⟩

theorem lowercase_name (kind : FunctionKind) : kind.name.lowercase = kind.name := by
  rcases kind with _ | _ | (_ | _ | _ | _) <;> decide +kernel

/-- A function that is called by the name of its kind, with blanks around its argument. -/
theorem Item.call {level : Level} {G : Type} {F : Text → Text → G → Prop} {p : Nat}
    {before arg behind : Text} {f : G} {kind : FunctionKind}
    (hadmits : level.admitsFunction kind.name = true) (hbefore : allBlank before = true)
    (hbehind : allBlank behind = true) (hf : F kind.name arg f) (after : Text) :
    Item level F p ⟨.pseudoFunction, some kind.name, some arg, some f, p⟩
      (Spelling.call kind.name (before ++ (arg ++ behind))) after := by
  have hitem : Item level F p ⟨.pseudoFunction, some kind.name.lowercase, some arg, some f, p⟩
      (':' :: (kind.name ++ '(' :: (before ++ (arg ++ (behind ++ [')']))))) after :=
    .function (nameRun_name kind []) (by rwa [lowercase_name]) hbefore hbehind
      (by rwa [lowercase_name])
  rw [lowercase_name] at hitem
  unfold Spelling.call
  rw [List.append_assoc, List.append_assoc]
  exact hitem

end SelectorCheck.Spelling
