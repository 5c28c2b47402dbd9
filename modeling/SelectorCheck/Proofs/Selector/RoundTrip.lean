import SelectorCheck.Proofs.Selector.Parsed
import SelectorCheck.Selector.Printer

/-!
# Reading what was printed

A selector that was read and is printed again can be read again, and the tree
is the same but for positions. The text need not be the one that was read:
blanks are gone, names are in lower case, and every pseudo-element has two
colons, also one that was written with a single colon. So the second tree is
the same as the first only because lower case is settled, and because a level
that admits a pseudo-element behind one colon admits it behind two.

Two names never merge in the printed text. A name ends where no name character
follows, and the printed text behind it begins with a name character only if the
text that was read did.

## Main definitions

* `Spelling.Follows` — a text that may stand where another one does, as far
  as names are concerned.

## Main results

* `Spelling.Whole.reprinted` — a tree is written in its own text.
* `Selector.parse_text_round_trip` — reading, printing and reading again.
-/

namespace SelectorCheck

open Text

/-! ## The text of a tree -/

/-- Positions and argument texts of functions do not show. -/
theorem SimpleOf.text_bare (s : Simple) : s.bare.text = s.text := rfl

private theorem flatMap_text_bare (simples : List Simple) :
    (simples.map SimpleOf.bare).flatMap SimpleOf.text = simples.flatMap SimpleOf.text := by
  rw [List.flatMap_map]
  rfl

theorem Compound.text_bare (c : Compound) : c.bare.text = c.text := by
  show (c.first.bare :: c.others.map SimpleOf.bare).flatMap SimpleOf.text = c.text
  rw [List.flatMap_cons, flatMap_text_bare]
  rfl

/-- A complex selector begins with its first compound selector. -/
theorem Complex.text_eq (c : Complex) : c.text = c.first.text ++ c.links.flatMap Link.text := by
  rw [text, parts, List.flatMap_cons]
  rfl

theorem Complex.text_bare (c : Complex) : c.bare.text = c.text := by
  have hlink : ∀ l : Link, (Link.mk l.combinator l.compound.bare).text = l.text := by
    intro l
    rw [Link.text, Compound.text_bare, Link.text]
  rw [text_eq, text_eq, bare, Compound.text_bare, List.flatMap_map]
  simp only [hlink]

/-- The text of a list begins with that of its first member. -/
theorem Selector.text_ofMembers (first : Complex) (members : List Complex) :
    (ofMembers first members).text = first.text ++ members.flatMap fun c => ',' :: c.text := by
  rw [text, members_ofMembers]
  induction members generalizing first with
  | nil => simp [List.intercalate]
  | cons second members ih =>
    have hrest := ih second
    simp only [List.map_cons, List.intercalate, List.intersperse_cons_cons,
      List.flatten_cons] at hrest ⊢
    rw [hrest]
    simp

theorem Selector.text_bare (s : Selector) : s.bare.text = s.text := by
  obtain ⟨first, members, rfl⟩ := s.exists_ofMembers
  rw [bare_ofMembers, text_ofMembers, text_ofMembers, Complex.text_bare, List.flatMap_map]
  simp only [Complex.text_bare]

namespace Spelling

/-! ## What may follow a name -/

/-- The text `after'` may follow wherever `after` does: it opens no argument, and a name begins with
it only if one begins with `after`. -/
def Follows (after after' : Text) : Prop :=
  ∀ c ∈ after'.head?, c ≠ '(' ∧ (isNameChar c = true → ∃ d ∈ after.head?, isNameChar d = true)

section Names

variable {name after after' : Text}

theorem EndsItems.follows (h : EndsItems after') : Follows after after' := by
  intro c hc
  obtain ⟨hparen, hname⟩ := h c hc
  refine ⟨hparen, fun hchar => ?_⟩
  rw [hname] at hchar
  cases hchar

theorem Follows.head?_ne_paren (h : Follows after after') : after'.head? ≠ some '(' := by
  intro hparen
  exact (h '(' hparen).1 rfl

private theorem Follows.nameRun (h : Follows after after') (hname : NameRun name after) :
    NameRun name after' := by
  refine hname.before fun c hc => ?_
  cases hchar : isNameChar c with
  | false => rfl
  | true =>
    obtain ⟨d, hd, hnamed⟩ := (h c hc).2 hchar
    rw [hname.stops d hd] at hnamed
    cases hnamed

private theorem nameRun_lowercase (h : NameRun name after) : NameRun name.lowercase after where
  all := isNameChar_of_mem_lowercase h.all
  stops := h.stops
  ne_nil := by
    rw [ne_eq, lowercase_eq_nil_iff]
    exact h.ne_nil

end Names

/-! ## Simple selectors in their own text -/

section Reprinted

variable {level : Level} {F : Text → Text → PseudoFunction → Prop}

/-- The first character of an item is printed as a character of the same sort. -/
private theorem Item.head_text {p : Nat} {simple : Simple} {text after : Text}
    (h : Item level F p simple text after) :
    ∃ c t d u, text = c :: t ∧ simple.text = d :: u ∧ d ≠ '(' ∧
      (isNameChar d = true → isNameChar c = true) := by
  have hmark : ∀ {d : Char}, isNameChar d = false → isNameChar d = true → ∀ c,
      isNameChar c = true := by
    intro d hfalse htrue
    rw [hfalse] at htrue
    cases htrue
  cases h with
  | universal | id _ | className _ | pseudoClass _ _ _ | function _ _ _ _ _ | element _ _ _
  | legacyElement _ _ _ _ =>
    exact ⟨_, _, _, _, rfl, rfl, by decide, fun h => h⟩
  | tag hname hstart =>
    have hlower : NameRun text.lowercase after := nameRun_lowercase hname
    obtain ⟨c, t, hc, hnamed⟩ := hname.eq_cons
    obtain ⟨d, u, hd, hlowered⟩ := hlower.eq_cons
    refine ⟨c, t, d, u, hc, hd, ?_, fun _ => hnamed⟩
    rintro rfl
    have hparen : isNameChar '(' = false := by decide
    rw [hparen] at hlowered
    cases hlowered

private theorem Items.follows {p : Nat} {simples : List Simple} {others after after' : Text}
    (h : Items level F p simples others after) (hends : EndsItems after') :
    Follows (others ++ after) (simples.flatMap SimpleOf.text ++ after') := by
  cases h with
  | nil => exact hends.follows
  | cons hitem _ =>
    obtain ⟨c, t, d, u, rfl, htext, hparen, hname⟩ := hitem.head_text
    intro e he
    rw [List.flatMap_cons, htext] at he
    obtain rfl : d = e := by simpa using he
    exact ⟨hparen, fun hd => ⟨c, by simp, hname hd⟩⟩

/-- A combinator is what joins two compound selectors, without the blanks around it. -/
private theorem Joint.reprinted {combinator joint : Text} (h : Joint combinator joint) :
    Joint combinator combinator ∧ combinator ≠ [] ∧ EndsItems combinator := by
  cases h with
  | blanks _ _ => exact ⟨.blanks rfl (by simp), by simp, by simp [EndsItems]; decide⟩
  | @mark _ _ c _ hc _ =>
    have hmark : Joint [c] ([] ++ c :: []) := .mark rfl hc rfl
    refine ⟨hmark, by simp, ?_⟩
    intro d hd
    obtain rfl : c = d := by simpa using hd
    rcases Lexer.isCombinator_iff.mp hc with rfl | rfl | rfl <;> decide

variable (hlevel : ∀ name, level.admitsLegacyElement name = true →
  level.admitsElement name = true)
include hlevel

/-- A simple selector is written in its own text, wherever it stands. -/
private theorem Item.reprinted {p : Nat} {simple : Simple} {text after after' : Text}
    (h : Item level F p simple text after) (hfollows : Follows after after') (q : Nat) :
    Item level F q { simple with pos := q } simple.text after' := by
  cases h with
  | universal => exact .universal
  | id hname => exact .id (hfollows.nameRun hname)
  | className hname => exact .className (hfollows.nameRun hname)
  | tag hname hstart =>
    have hitem : Item level F q ⟨.tag, some text.lowercase.lowercase, none, none, q⟩
        text.lowercase after' :=
      .tag (nameRun_lowercase (hfollows.nameRun hname)) (isNameStart_of_head?_lowercase hstart)
    rw [lowercase_lowercase] at hitem
    exact hitem
  | @pseudoClass name _ hname _ hadmits =>
    have hitem : Item level F q ⟨.pseudoClass, some name.lowercase.lowercase, none, none, q⟩
        (':' :: name.lowercase) after' :=
      .pseudoClass (nameRun_lowercase (hfollows.nameRun hname)) hfollows.head?_ne_paren
        (by rwa [lowercase_lowercase])
    rw [lowercase_lowercase] at hitem
    exact hitem
  | @legacyElement name _ hname _ _ hadmits =>
    have hitem : Item level F q ⟨.pseudoElement, some name.lowercase.lowercase, none, none, q⟩
        (':' :: ':' :: name.lowercase) after' :=
      .element (nameRun_lowercase (hfollows.nameRun hname)) hfollows.head?_ne_paren
        (by rw [lowercase_lowercase]; exact hlevel _ hadmits)
    rw [lowercase_lowercase] at hitem
    exact hitem
  | @element name _ hname _ hadmits =>
    have hitem : Item level F q ⟨.pseudoElement, some name.lowercase.lowercase, none, none, q⟩
        (':' :: ':' :: name.lowercase) after' :=
      .element (nameRun_lowercase (hfollows.nameRun hname)) hfollows.head?_ne_paren
        (by rwa [lowercase_lowercase])
    rw [lowercase_lowercase] at hitem
    exact hitem
  | @function name before arg behind _ f hname hadmits _ _ hf =>
    -- The blanks around the argument are not printed.
    have hitem : Item level F q
        ⟨.pseudoFunction, some name.lowercase.lowercase, some arg, some f, q⟩
        (':' :: (name.lowercase ++ '(' :: ([] ++ (arg ++ ([] ++ [')']))))) after' :=
      .function (nameRun_lowercase hname) (by rwa [lowercase_lowercase]) rfl rfl
        (by rwa [lowercase_lowercase])
    rw [lowercase_lowercase] at hitem
    have htext : SimpleOf.text (F := PseudoFunction)
        ⟨.pseudoFunction, some name.lowercase, some arg, some f, p⟩ =
          ':' :: (name.lowercase ++ '(' :: ([] ++ (arg ++ ([] ++ [')'])))) := by
      simp [SimpleOf.text]
    rw [htext]
    exact hitem

/-! ## Selectors in their own text -/

private theorem Items.reprinted {p : Nat} {simples : List Simple} {text after after' : Text}
    (h : Items level F p simples text after) (hends : EndsItems after') (q : Nat) :
    ∃ again, Items level F q again (simples.flatMap SimpleOf.text) after' ∧
      again.map SimpleOf.bare = simples.map SimpleOf.bare := by
  induction h generalizing q with
  | nil => exact ⟨[], .nil, rfl⟩
  | @cons p simple simples text others after hitem hothers ih =>
    obtain ⟨again, hagain, hbare⟩ := ih (q + simple.text.length)
    refine ⟨{ simple with pos := q } :: again, ?_, ?_⟩
    · rw [List.flatMap_cons]
      exact .cons (hitem.reprinted hlevel (hothers.follows hends) q) hagain
    · rw [List.map_cons, List.map_cons, hbare]
      rfl

private theorem exists_compound {p : Nat} {compound : Compound} {text after after' : Text}
    (h : Items level F p compound.simples text after) (hends : EndsItems after') (q : Nat) :
    ∃ again : Compound, Items level F q again.simples compound.text after' ∧
      again.bare = compound.bare := by
  obtain ⟨simples, hsimples, hbare⟩ := h.reprinted hlevel hends q
  cases simples with
  | nil => cases hbare
  | cons first others =>
    obtain ⟨hfirst, hothers⟩ := List.cons.inj hbare
    refine ⟨⟨first, others⟩, hsimples, ?_⟩
    rw [Compound.bare, Compound.bare, hfirst, hothers]

private theorem Links.reprinted {p : Nat} {row : List Link} {text after after' : Text}
    (h : Links level F p row text after) (hends : EndsItems after') (q : Nat) :
    EndsItems (row.flatMap Link.text ++ after') ∧
      ∃ again, Links level F q again (row.flatMap Link.text) after' ∧
        again.map (fun l => Link.mk l.combinator l.compound.bare) =
          row.map fun l => ⟨l.combinator, l.compound.bare⟩ := by
  induction h generalizing q with
  | nil => exact ⟨hends, [], .nil, rfl⟩
  | @cons p combinator joint text others after compound row hjoint hitems _ ih =>
    obtain ⟨hcombinator, hne, hstart⟩ := hjoint.reprinted
    obtain ⟨hrest, -⟩ := ih 0
    obtain ⟨again, hagain, hbare⟩ := exists_compound hlevel hitems hrest (q + combinator.length)
    obtain ⟨-, others, hothers, hmap⟩ := ih (q + combinator.length + compound.text.length)
    have htext : (Link.mk (some combinator) compound :: row).flatMap Link.text =
        combinator ++ (compound.text ++ row.flatMap Link.text) := by
      simp [Link.text]
    rw [htext]
    refine ⟨?_, ⟨some combinator, again⟩ :: others, .cons hcombinator hagain hothers, ?_⟩
    · intro c hc
      rw [List.append_assoc, head?_append_left hne] at hc
      exact hstart c hc
    · simp [hbare, hmap]

private theorem Chain.reprinted {p : Nat} {complex : Complex} {text after after' : Text}
    (h : Chain level F p complex text after) (hends : EndsItems after') (q : Nat) :
    ∃ again, Chain level F q again complex.text after' ∧ again.bare = complex.bare := by
  obtain ⟨hitems, hlinks⟩ := h
  obtain ⟨hrest, -⟩ := hlinks.reprinted hlevel hends 0
  obtain ⟨first, hfirst, hbare⟩ := exists_compound hlevel hitems hrest q
  obtain ⟨-, row, hrow, hmap⟩ := hlinks.reprinted hlevel hends (q + complex.first.text.length)
  rw [Complex.text_eq]
  refine ⟨⟨first, row⟩, .mk hfirst hrow, ?_⟩
  rw [Complex.bare, Complex.bare, hbare, hmap]

private theorem Members.reprinted {p : Nat} {members : List Complex} {text after after' : Text}
    (h : Members level F p members text after) (hends : EndsItems after') (q : Nat) :
    EndsItems ((members.flatMap fun c => ',' :: c.text) ++ after') ∧
      ∃ again, Members level F q again (members.flatMap fun c => ',' :: c.text) after' ∧
        again.map Complex.bare = members.map Complex.bare := by
  induction h generalizing q with
  | nil => exact ⟨hends, [], .nil, rfl⟩
  | @cons p complex members before behind text others after hbefore hbehind hchain _ ih =>
    obtain ⟨hrest, -⟩ := ih 0
    obtain ⟨again, hagain, hbare⟩ := hchain.reprinted hlevel hrest (q + 0 + 1 + 0)
    obtain ⟨-, others, hothers, hmap⟩ := ih (q + 0 + 1 + 0 + complex.text.length)
    have hmembers : Members level F q (again :: others)
        ([] ++ ',' :: ([] ++ (complex.text ++ members.flatMap fun c => ',' :: c.text))) after' :=
      .cons rfl rfl hagain hothers
    refine ⟨?_, again :: others, hmembers, ?_⟩
    · intro c hc
      obtain rfl : ',' = c := by simpa using hc
      decide
    · rw [List.map_cons, List.map_cons, hbare, hmap]

/-- A selector is written in its own text. -/
theorem Whole.reprinted {selector : Selector} {text : Text} (h : Whole level F selector text) :
    ∃ again, Whole level F again selector.text ∧ again.bare = selector.bare := by
  obtain @⟨first, members, before, behind, text, others, -, -, hchain, hmembers⟩ := h
  have hend : EndsItems [] := by simp [EndsItems]
  obtain ⟨hrest, -⟩ := hmembers.reprinted hlevel hend 0
  obtain ⟨again, hagain, hbare⟩ := hchain.reprinted hlevel hrest 0
  obtain ⟨-, all, hall, hmap⟩ := hmembers.reprinted hlevel hend (0 + first.text.length)
  have hwhole : Whole level F (.ofMembers again all)
      ([] ++ (first.text ++ ((members.flatMap fun c => ',' :: c.text) ++ []))) :=
    .mk rfl rfl hagain hall
  rw [List.append_nil, List.nil_append, ← Selector.text_ofMembers] at hwhole
  refine ⟨_, hwhole, ?_⟩
  rw [Selector.bare_ofMembers, Selector.bare_ofMembers, hbare, hmap]

end Reprinted

end Spelling

namespace Selector

variable {context : Option Context}

private theorem exists_parse_text {source : Text} {selector : Selector}
    (h : (parse context source).result = .ok selector) :
    ∃ again, (parse context selector.text).result = .ok again ∧ again.bare = selector.bare := by
  have hlevel : ∀ name, (levelOf context).admitsLegacyElement name = true →
      (levelOf context).admitsElement name = true :=
    fun name => levelOf_admitsElement
  obtain ⟨again, hagain, hbare⟩ := (parse_eq_ok_iff.mp h).reprinted hlevel
  exact ⟨again, parse_eq_ok_iff.mpr hagain, hbare⟩

/-- What was read is read again from its own text, and comes to the same. So two selectors that were
read under one context are the same exactly if they have the same text. -/
theorem parse_text_round_trip (context : Option Context) :
    (∀ source selector, (parse context source).result = .ok selector →
      ∃ again, (parse context selector.text).result = .ok again ∧ again.same selector = true) ∧
    ∀ source source' selector selector', (parse context source).result = .ok selector →
      (parse context source').result = .ok selector' →
      (selector.same selector' = true ↔ selector.text = selector'.text) := by
  constructor
  · intro source selector h
    obtain ⟨again, hagain, hbare⟩ := exists_parse_text h
    exact ⟨again, hagain, by rw [same, hbare, beq_self_eq_true]⟩
  · intro source source' selector selector' h h'
    rw [same, beq_iff_eq]
    constructor
    · intro hbare
      rw [← text_bare selector, hbare, text_bare selector']
    · intro htext
      obtain ⟨again, hagain, hbare⟩ := exists_parse_text h
      obtain ⟨again', hagain', hbare'⟩ := exists_parse_text h'
      rw [htext, hagain', Except.ok.injEq] at hagain
      rw [← hbare, ← hbare', hagain]

/-- Letter case and a missing colon go when a selector is printed. -/
theorem parse_text_round_trip_of_legacy :
    ∃ selector selector' again, (parse none "A:Before".toList).result = .ok selector ∧
      (parse none " a::before".toList).result = .ok selector' ∧
      selector.text = "a::before".toList ∧
      (parse none "a::before".toList).result = .ok again ∧ again.same selector = true ∧
      (selector.same selector' = true ↔ selector.text = selector'.text) := by
  have h : (parse none "A:Before".toList).result =
      .ok (.complex ⟨⟨⟨.tag, some "a".toList, none, none, 0⟩,
        [⟨.pseudoElement, some "before".toList, none, none, 1⟩]⟩, []⟩) := by
    decide +kernel
  have h' : (parse none " a::before".toList).result =
      .ok (.complex ⟨⟨⟨.tag, some "a".toList, none, none, 1⟩,
        [⟨.pseudoElement, some "before".toList, none, none, 2⟩]⟩, []⟩) := by
    decide +kernel
  obtain ⟨hround, hsame⟩ := parse_text_round_trip none
  obtain ⟨again, hagain, heq⟩ := hround _ _ h
  exact ⟨_, _, again, h, h', by decide, hagain, heq, hsame _ _ _ _ h h'⟩

end Selector

end SelectorCheck
