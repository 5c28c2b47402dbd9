import SelectorCheck.Proofs.Selector.Sequence
import SelectorCheck.Proofs.Token.Pseudo
import SelectorCheck.Selector.Parser

/-!
# Trees and the tokens they are made of

The grammar reads any tokens, also such that no text is cut into. What it makes of
them is a tree exactly if the tokens in front of the first end, or all of them if
there is no end, are those of the tree in order: members with commas between them,
compound selectors with combinators between them, and for each simple selector one
token, or a colon, a name and what belongs to a call. Nothing is passed over and
nothing is added. What the tree does not keep are the positions of commas, of
combinators and of what follows a colon, and whatever value comes with an asterisk, a
comma, a colon or a parenthesis. The name behind a colon is kept in small letters.

## Main definitions

* `Row.Item`, `Row.Items`, `Row.Links`, `Row.Chain`, `Row.Members`, `Row.Whole` — the
  tokens of each layer of a tree.
* `Row.endIndex` — the place of the first end.

## Main results

* `Row.whole_sound`, `Row.whole_complete` — the grammar reads the tokens of a tree.
* `Selector.ofTokens_eq_iff` — given tokens are read exactly if they are those of a tree.
-/

namespace SelectorCheck.Row

open Grammar Lexer

/-! ## The tokens of a tree -/

section Layers

variable (s : Setting)

/-- The tokens of a simple selector, with a name that is admitted and a function that is built. The
name behind colons is the value of its token in small letters. -/
inductive Item : (simple : Simple) → (row : List Token) → Prop where
  | tag {t : Token} (ht : t.kind = .tag) : Item ⟨.tag, t.value, none, none, t.pos⟩ [t]
  | universal {t : Token} (ht : t.kind = .universal) :
      Item ⟨.universal, none, none, none, t.pos⟩ [t]
  | id {t : Token} (ht : t.kind = .id) : Item ⟨.id, t.value, none, none, t.pos⟩ [t]
  | className {t : Token} (ht : t.kind = .className) :
      Item ⟨.className, t.value, none, none, t.pos⟩ [t]
  | pseudoClass {marker name : Token} (hmarker : marker.kind = .colon) (hname : name.kind = .tag)
      (hadmits : s.context.level.admitsClass (name.value.getD []).lowercase = true) :
      Item ⟨.pseudoClass, some (name.value.getD []).lowercase, none, none, marker.pos⟩
        [marker, name]
  /-- A pseudo-element behind a single colon. A pseudo-class of the same name comes first. -/
  | legacyElement {marker name : Token} (hmarker : marker.kind = .colon) (hname : name.kind = .tag)
      (hclass : s.context.level.admitsClass (name.value.getD []).lowercase = false)
      (hadmits : s.context.level.admitsLegacyElement (name.value.getD []).lowercase = true) :
      Item ⟨.pseudoElement, some (name.value.getD []).lowercase, none, none, marker.pos⟩
        [marker, name]
  | element {marker name : Token} (hmarker : marker.kind = .doubleColon) (hname : name.kind = .tag)
      (hadmits : s.context.level.admitsElement (name.value.getD []).lowercase = true) :
      Item ⟨.pseudoElement, some (name.value.getD []).lowercase, none, none, marker.pos⟩
        [marker, name]
  | function {marker name paren close : Token} {arg : Option Text} {inside : List Token}
      {f : PseudoFunction} (hmarker : marker.kind = .colon) (hname : name.kind = .tag)
      (hparen : paren.kind = .parenOpen) (hinside : Inside arg inside)
      (hclose : close.kind = .parenClose)
      (hadmits : s.context.level.admitsFunction (name.value.getD []).lowercase = true)
      (hf : (s.build (name.value.getD []).lowercase arg).result = .ok f) :
      Item ⟨.pseudoFunction, some (name.value.getD []).lowercase, arg, some f, marker.pos⟩
        (marker :: name :: paren :: (inside ++ [close]))

/-- The tokens of simple selectors without anything between them. -/
inductive Items : (simples : List Simple) → (row : List Token) → Prop where
  | nil : Items [] []
  | cons {simple : Simple} {simples : List Simple} {row others : List Token} (h : Item s simple row)
      (hothers : Items simples others) : Items (simple :: simples) (row ++ others)

/-- The tokens of compound selectors, each behind its combinator. -/
inductive Links : (links : List Link) → (row : List Token) → Prop where
  | nil : Links [] []
  | cons {t : Token} {compound : Compound} {links : List Link} {row others : List Token}
      (ht : t.kind = .combinator) (h : Items s compound.simples row)
      (hothers : Links links others) : Links (⟨t.value, compound⟩ :: links) (t :: (row ++ others))

/-- The tokens of a complex selector. -/
inductive Chain : (complex : Complex) → (row : List Token) → Prop where
  | mk {complex : Complex} {row others : List Token} (h : Items s complex.first.simples row)
      (hothers : Links s complex.links others) : Chain complex (row ++ others)

/-- The tokens of complex selectors, each behind a comma. -/
inductive Members : (members : List Complex) → (row : List Token) → Prop where
  | nil : Members [] []
  | cons {t : Token} {complex : Complex} {members : List Complex} {row others : List Token}
      (ht : t.kind = .comma) (h : Chain s complex row) (hothers : Members members others) :
      Members (complex :: members) (t :: (row ++ others))

/-- The tokens of a whole selector. -/
inductive Whole : (selector : Selector) → (row : List Token) → Prop where
  | mk {first : Complex} {members : List Complex} {row others : List Token}
      (h : Chain s first row) (hothers : Members s members others) :
      Whole (.ofMembers first members) (row ++ others)

end Layers

variable {s : Setting} {tokens behind row : List Token}

/-! ## What is read is made of the tokens -/

private theorem kind_of_isMarker {t : Token} (h : isMarker t.kind = true)
    (hdouble : t.kind ≠ .doubleColon) : t.kind = .colon := by
  simpa [isMarker, hdouble] using h

private theorem unmarked_sound {t : Token} {simple : Simple} (h : unmarked? t = some simple) :
    Item s simple [t] := by
  unfold unmarked? at h
  split at h
  · next ht =>
    cases h
    exact .tag ht
  · next ht =>
    cases h
    exact .universal ht
  · next ht =>
    cases h
    exact .id ht
  · next ht =>
    cases h
    exact .className ht
  · cases h

private theorem named_sound {marker name : Token} {simple : Simple}
    (hmarker : isMarker marker.kind = true) (hname : name.kind = .tag)
    (h : (named s marker name).result = .ok simple) : Item s simple [marker, name] := by
  rcases named_eq_ok_iff.mp h with ⟨hdouble, hadmits, rfl⟩ | ⟨hsingle, hadmits, rfl⟩ |
    ⟨hsingle, hclass, hadmits, rfl⟩
  · exact .element hdouble hname hadmits
  · exact .pseudoClass (kind_of_isMarker hmarker hsingle) hname hadmits
  · exact .legacyElement (kind_of_isMarker hmarker hsingle) hname hclass hadmits

/-- What stands between parentheses that are closed. -/
theorem inside_of_enclosed (paren : Token)
    (h : (peek (enclosed paren tokens).rest).kind = .parenClose) :
    ∃ inside close rest, tokens = inside ++ close :: rest ∧ close.kind = .parenClose ∧
      Inside (enclosed paren tokens).text inside ∧
      (enclosed paren tokens).rest = close :: rest := by
  obtain ⟨close, rest, hrest, hclose⟩ := eq_cons_of_peek h (by decide)
  rw [hrest]
  unfold enclosed at hrest ⊢
  by_cases hstring : (peek tokens).kind = .string
  · obtain ⟨t, others, rfl, ht⟩ := eq_cons_of_peek hstring (by decide)
    rw [if_pos hstring] at hrest ⊢
    obtain rfl : others = close :: rest := hrest
    exact ⟨[t], close, rest, rfl, hclose, .text ht, rfl⟩
  · rw [if_neg hstring] at hrest ⊢
    obtain rfl : tokens = close :: rest := hrest
    exact ⟨[], close, rest, rfl, hclose, .none, rfl⟩

private theorem functional_sound {marker name paren : Token} {simple : Simple}
    (hmarker : isMarker marker.kind = true) (hname : name.kind = .tag)
    (hparen : paren.kind = .parenOpen)
    (h : (functional s marker name paren tokens).Gives simple behind) :
    ∃ row, tokens = row ++ behind ∧ Item s simple (marker :: name :: paren :: row) := by
  by_cases hpeek : (peek (enclosed paren tokens).rest).kind = .parenClose
  · obtain ⟨inside, close, rest, htokens, hclose, hinside, hrest⟩ := inside_of_enclosed paren hpeek
    simp only [functional, if_pos hpeek] at h
    obtain ⟨hcall, hbehind⟩ := h
    obtain rfl : rest = behind := by simpa [hrest] using hbehind
    obtain ⟨hsingle, hadmits, f, hf, rfl⟩ := call_eq_ok_iff.mp hcall
    refine ⟨inside ++ [close], by simp [htokens], ?_⟩
    exact .function (kind_of_isMarker hmarker hsingle) hname hparen hinside hclose hadmits hf
  · simp only [functional, if_neg hpeek, Step.not_gives_error] at h

private theorem pseudo_sound {marker : Token} {simple : Simple}
    (hmarker : isMarker marker.kind = true)
    (h : (pseudo s marker tokens).Gives simple behind) :
    ∃ row, tokens = row ++ behind ∧ Item s simple (marker :: row) := by
  obtain ⟨name, rest, rfl, hname, ⟨-, hnamed, rfl⟩ | ⟨hparen, hcall⟩⟩ := pseudo_gives_iff.mp h
  · exact ⟨[name], rfl, named_sound hmarker hname hnamed⟩
  · obtain ⟨paren, rest, rfl, hopen⟩ := eq_cons_of_peek hparen (by decide)
    obtain ⟨row, hrow, hitem⟩ := functional_sound hmarker hname hopen hcall
    obtain rfl : rest = row ++ behind := hrow
    exact ⟨name :: paren :: row, rfl, hitem⟩

theorem items_sound {simples : List Simple} (h : (items s tokens).Gives simples behind) :
    ∃ row, tokens = row ++ behind ∧ Items s simples row := by
  fun_induction items s tokens generalizing simples
  case case1 =>
    obtain ⟨rfl, rfl⟩ := Step.gives_value.mp h
    exact ⟨[], rfl, .nil⟩
  case case2 t rest simple hsimple ih =>
    obtain ⟨others, hothers, rfl⟩ := Step.gives_map.mp h
    obtain ⟨row, rfl, hitems⟩ := ih hothers
    exact ⟨[t] ++ row, rfl, .cons (unmarked_sound hsimple) hitems⟩
  case case3 t rest _ hmarker step simple hsimple ih =>
    obtain ⟨others, hothers, rfl⟩ := Step.gives_map.mp (Step.gives_before.mp h)
    obtain ⟨first, hfirst, hitem⟩ := pseudo_sound hmarker ⟨hsimple, rfl⟩
    obtain ⟨row, hrow, hitems⟩ := ih hothers
    refine ⟨t :: first ++ row, ?_, .cons hitem hitems⟩
    rw [List.append_assoc, ← hrow, List.cons_append, ← hfirst]
  case case4 =>
    exact absurd h Step.not_gives_stop
  case case5 t rest _ _ =>
    obtain ⟨rfl, rfl⟩ := Step.gives_value.mp h
    exact ⟨[], rfl, .nil⟩

theorem links_sound {all : List Link} (h : (links s tokens).Gives all behind) :
    ∃ row, tokens = row ++ behind ∧ Links s all row := by
  fun_induction links s tokens generalizing all
  case case1 =>
    obtain ⟨rfl, rfl⟩ := Step.gives_value.mp h
    exact ⟨[], rfl, .nil⟩
  case case2 =>
    exact absurd (Step.gives_before.mp h) Step.not_gives_error
  case case3 t rest hkind step first others hitems ih =>
    obtain ⟨links, hlinks, rfl⟩ := Step.gives_map.mp (Step.gives_before.mp h)
    obtain ⟨row, hrow, hcompound⟩ := items_sound ⟨hitems, rfl⟩
    obtain ⟨last, hlast, hothers⟩ := ih hlinks
    refine ⟨t :: (row ++ last), ?_, .cons hkind hcompound hothers⟩
    rw [List.cons_append, List.append_assoc, ← hlast, ← hrow]
  case case4 =>
    exact absurd h Step.not_gives_stop
  case case5 t rest _ =>
    obtain ⟨rfl, rfl⟩ := Step.gives_value.mp h
    exact ⟨[], rfl, .nil⟩

theorem chain_sound {c : Complex} (h : (complex s tokens).Gives c behind) :
    ∃ row, tokens = row ++ behind ∧ Chain s c row := by
  obtain ⟨middle, hcompound, hlinks⟩ := complex_gives_iff.mp h
  obtain ⟨row, rfl, hitems⟩ := items_sound hcompound
  obtain ⟨others, rfl, hothers⟩ := links_sound hlinks
  exact ⟨row ++ others, by simp, .mk hitems hothers⟩

theorem members_sound {all : List Complex} (h : (members s tokens).Gives all behind) :
    ∃ row, tokens = row ++ behind ∧ Members s all row := by
  fun_induction members s tokens generalizing all
  case case1 =>
    obtain ⟨rfl, rfl⟩ := Step.gives_value.mp h
    exact ⟨[], rfl, .nil⟩
  case case2 t rest hkind step c hcomplex ih =>
    obtain ⟨others, hothers, rfl⟩ := Step.gives_map.mp (Step.gives_before.mp h)
    obtain ⟨row, hrow, hchain⟩ := chain_sound ⟨hcomplex, rfl⟩
    obtain ⟨last, hlast, hmembers⟩ := ih hothers
    refine ⟨t :: (row ++ last), ?_, .cons hkind hchain hmembers⟩
    rw [List.cons_append, List.append_assoc, ← hlast, ← hrow]
  case case3 =>
    exact absurd h Step.not_gives_stop
  case case4 t rest _ =>
    obtain ⟨rfl, rfl⟩ := Step.gives_value.mp h
    exact ⟨[], rfl, .nil⟩

/-- The tokens that a selector was read from are its own, and the end is behind them. -/
theorem whole_sound {selector : Selector} (h : (Grammar.selector s tokens).Gives selector behind) :
    ∃ row, tokens = row ++ behind ∧ Whole s selector row ∧ (peek behind).kind = .eof := by
  obtain ⟨first, middle, others, hfirst, hothers, heof, rfl⟩ := selector_gives_iff.mp h
  obtain ⟨row, rfl, hchain⟩ := chain_sound hfirst
  obtain ⟨rest, rfl, hmembers⟩ := members_sound hothers
  exact ⟨row ++ rest, by simp, .mk hchain hmembers, heof⟩

/-! ## The tokens of a tree are read -/

/-- The tokens of a simple selector in front of others that are not an argument. -/
private theorem item_complete {simple : Simple} {simples : List Simple} {others : List Token}
    (h : Item s simple row) (hbare : (peek others).kind ≠ .parenOpen)
    (hothers : (items s others).Gives simples behind) :
    (items s (row ++ others)).Gives (simple :: simples) behind := by
  have hmarked {marker : Token} {rest : List Token} (hunmarked : unmarked? marker = none)
      (hmarker : isMarker marker.kind = true)
      (hpseudo : (pseudo s marker rest).Gives simple others) :
      (items s (marker :: rest)).Gives (simple :: simples) behind :=
    items_gives_iff.mpr
      (.inr (.inl ⟨hunmarked, hmarker, simple, simples, others, hpseudo, hothers, rfl⟩))
  have hsingle {marker : Token} (hmarker : marker.kind = .colon) : marker.kind ≠ .doubleColon := by
    simp [hmarker]
  cases h with
  | tag ht | universal ht | id ht | className ht =>
    exact items_gives_iff.mpr (.inl ⟨_, simples, by simp [unmarked?, ht], hothers, rfl⟩)
  | @pseudoClass marker name hmarker hname hadmits =>
    have hnamed := named_eq_ok_iff.mpr (.inr (.inl ⟨hsingle hmarker, hadmits, rfl⟩))
    refine hmarked (by simp [unmarked?, hmarker]) (by simp [isMarker, hmarker]) ?_
    exact pseudo_gives_iff.mpr ⟨name, others, rfl, hname, .inl ⟨hbare, hnamed, rfl⟩⟩
  | @legacyElement marker name hmarker hname hclass hadmits =>
    have hnamed := named_eq_ok_iff.mpr (.inr (.inr ⟨hsingle hmarker, hclass, hadmits, rfl⟩))
    refine hmarked (by simp [unmarked?, hmarker]) (by simp [isMarker, hmarker]) ?_
    exact pseudo_gives_iff.mpr ⟨name, others, rfl, hname, .inl ⟨hbare, hnamed, rfl⟩⟩
  | @element marker name hmarker hname hadmits =>
    have hnamed := named_eq_ok_iff.mpr (.inl ⟨hmarker, hadmits, rfl⟩)
    refine hmarked (by simp [unmarked?, hmarker]) (by simp [isMarker, hmarker]) ?_
    exact pseudo_gives_iff.mpr ⟨name, others, rfl, hname, .inl ⟨hbare, hnamed, rfl⟩⟩
  | @function marker name paren close arg inside f hmarker hname hparen hinside hclose hadmits hf =>
    obtain ⟨start, henclosed⟩ := hinside.enclosed hclose paren others
    have hcall : (call s marker name arg start).result = .ok _ :=
      call_eq_ok_iff.mpr ⟨hsingle hmarker, hadmits, f, hf, rfl⟩
    have hrow : marker :: name :: paren :: (inside ++ [close]) ++ others =
        marker :: name :: paren :: (inside ++ close :: others) := by simp
    rw [hrow]
    refine hmarked (by simp [unmarked?, hmarker]) (by simp [isMarker, hmarker]) ?_
    rw [pseudo_call hname hparen hclose henclosed]
    exact ⟨hcall, rfl⟩

/-- A simple selector begins with what no other one goes on with. -/
private theorem Item.peek_ne_parenOpen {simple : Simple} {others : List Token}
    (h : Item s simple row) : (peek (row ++ others)).kind ≠ .parenOpen := by
  cases h <;> simp [*]

private theorem Items.peek_ne_parenOpen {simples : List Simple} (h : Items s simples row)
    (hbehind : (peek behind).kind ≠ .parenOpen) : (peek (row ++ behind)).kind ≠ .parenOpen := by
  cases h with
  | nil => exact hbehind
  | cons hitem _ =>
    rw [List.append_assoc]
    exact hitem.peek_ne_parenOpen

theorem items_complete {simples : List Simple} (h : Items s simples row)
    (hstop : isSeparator (peek behind).kind = true) :
    (items s (row ++ behind)).Gives simples behind := by
  induction h with
  | nil =>
    rw [List.nil_append, items_of_isSeparator hstop]
    exact Step.gives_value.mpr ⟨rfl, rfl⟩
  | cons hitem hothers ih =>
    have hbehind : (peek behind).kind ≠ .parenOpen := by
      intro hopen
      rw [hopen] at hstop
      cases hstop
    rw [List.append_assoc]
    exact item_complete hitem (hothers.peek_ne_parenOpen hbehind) ih

/-- A complex selector ends at a comma or at the end. -/
private theorem Links.isSeparator_peek {all : List Link} (h : Links s all row)
    (hstop : isSeparator (peek behind).kind = true) :
    isSeparator (peek (row ++ behind)).kind = true := by
  cases h with
  | nil => exact hstop
  | @cons t compound links row others ht _ _ =>
    rw [List.cons_append, peek_cons, ht]
    rfl

theorem links_complete {all : List Link} (h : Links s all row)
    (hstop : isSeparator (peek behind).kind = true) (hend : (peek behind).kind ≠ .combinator) :
    (links s (row ++ behind)).Gives all behind := by
  induction h with
  | nil =>
    rw [List.nil_append, links_of_ne hend]
    exact Step.gives_value.mpr ⟨rfl, rfl⟩
  | @cons t compound links row others ht hitems hothers ih =>
    have hcompound : GivesCompound s (row ++ (others ++ behind)) compound (others ++ behind) :=
      items_complete hitems (hothers.isSeparator_peek hstop)
    rw [List.cons_append, List.append_assoc]
    exact links_gives_iff.mpr (.inl ⟨ht, compound, others ++ behind, links, hcompound, ih, rfl⟩)

theorem chain_complete {c : Complex} (h : Chain s c row)
    (hstop : isSeparator (peek behind).kind = true) (hend : (peek behind).kind ≠ .combinator) :
    (complex s (row ++ behind)).Gives c behind := by
  cases h with
  | @mk row others hitems hlinks =>
    have hcompound : GivesCompound s (row ++ (others ++ behind)) c.first (others ++ behind) :=
      items_complete hitems (hlinks.isSeparator_peek hstop)
    rw [List.append_assoc]
    exact complex_gives_iff.mpr ⟨others ++ behind, hcompound, links_complete hlinks hstop hend⟩

/-- Behind a member there is a comma, or the end. -/
private theorem Members.peek {all : List Complex} (h : Members s all row)
    (heof : (peek behind).kind = .eof) :
    (peek (row ++ behind)).kind = .comma ∨ (peek (row ++ behind)).kind = .eof := by
  cases h with
  | nil => exact .inr heof
  | cons ht _ _ => exact .inl ht

/-- A complex selector in front of further members. -/
private theorem chain_complete_before {c : Complex} {all : List Complex} {others : List Token}
    (h : Chain s c row) (hothers : Members s all others) (heof : (peek behind).kind = .eof) :
    (complex s (row ++ (others ++ behind))).Gives c (others ++ behind) := by
  apply chain_complete h
  · rcases hothers.peek heof with hkind | hkind <;> rw [hkind] <;> rfl
  · rcases hothers.peek heof with hkind | hkind <;> rw [hkind] <;> decide

theorem members_complete {all : List Complex} (h : Members s all row)
    (heof : (peek behind).kind = .eof) : (members s (row ++ behind)).Gives all behind := by
  induction h with
  | nil =>
    rw [List.nil_append, members_of_ne (by simp [heof])]
    exact Step.gives_value.mpr ⟨rfl, rfl⟩
  | @cons t c all row others ht hchain hothers ih =>
    rw [List.cons_append, List.append_assoc]
    exact members_gives_iff.mpr
      (.inl ⟨ht, c, others ++ behind, all, chain_complete_before hchain hothers heof, ih, rfl⟩)

/-- The tokens of a selector in front of the end are read as that selector. -/
theorem whole_complete {selector : Selector} (h : Whole s selector row)
    (heof : (peek behind).kind = .eof) :
    (Grammar.selector s (row ++ behind)).Gives selector behind := by
  cases h with
  | @mk first members row others hchain hmembers =>
    rw [List.append_assoc]
    exact selector_gives_iff.mpr ⟨first, others ++ behind, members,
      chain_complete_before hchain hmembers heof, members_complete hmembers heof, heof, rfl⟩

/-! ## The end is no token of a tree -/

private theorem Item.kind_ne_eof {simple : Simple} (h : Item s simple row) :
    ∀ t ∈ row, t.kind ≠ .eof := by
  cases h with
  | function hmarker hname hparen hinside hclose hadmits hf =>
    cases hinside <;> simp [*]
  | tag _ | universal _ | id _ | className _ => simp [*]
  | pseudoClass _ _ _ | legacyElement _ _ _ _ | element _ _ _ => simp [*]

private theorem Items.kind_ne_eof {simples : List Simple} (h : Items s simples row) :
    ∀ t ∈ row, t.kind ≠ .eof := by
  induction h with
  | nil => simp
  | cons hitem _ ih =>
    exact List.forall_mem_append.mpr ⟨hitem.kind_ne_eof, ih⟩

private theorem Links.kind_ne_eof {all : List Link} (h : Links s all row) :
    ∀ t ∈ row, t.kind ≠ .eof := by
  induction h with
  | nil => simp
  | cons ht hitems _ ih =>
    refine List.forall_mem_cons.mpr ⟨by simp [ht], ?_⟩
    exact List.forall_mem_append.mpr ⟨hitems.kind_ne_eof, ih⟩

private theorem Chain.kind_ne_eof {c : Complex} (h : Chain s c row) :
    ∀ t ∈ row, t.kind ≠ .eof := by
  cases h with
  | mk hitems hlinks =>
    exact List.forall_mem_append.mpr ⟨hitems.kind_ne_eof, hlinks.kind_ne_eof⟩

private theorem Members.kind_ne_eof {all : List Complex} (h : Members s all row) :
    ∀ t ∈ row, t.kind ≠ .eof := by
  induction h with
  | nil => simp
  | cons ht hchain _ ih =>
    refine List.forall_mem_cons.mpr ⟨by simp [ht], ?_⟩
    exact List.forall_mem_append.mpr ⟨hchain.kind_ne_eof, ih⟩

theorem Whole.kind_ne_eof {selector : Selector} (h : Whole s selector row) :
    ∀ t ∈ row, t.kind ≠ .eof := by
  cases h with
  | mk hchain hmembers =>
    exact List.forall_mem_append.mpr ⟨hchain.kind_ne_eof, hmembers.kind_ne_eof⟩

/-! ## Where the end is -/

/-- How many tokens are in front of the first end. Without one, all are. -/
def endIndex (tokens : List Token) : Nat := tokens.findIdx fun t => t.kind == .eof

/-- The first end is the one that comes behind tokens that are none. -/
theorem endIndex_append (hrow : ∀ t ∈ row, t.kind ≠ .eof) (heof : (peek behind).kind = .eof) :
    endIndex (row ++ behind) = row.length := by
  have hnone : row.findIdx (fun t => t.kind == .eof) = row.length := by
    apply List.findIdx_eq_length_of_false
    intro t ht
    exact beq_eq_false_iff_ne.mpr (hrow t ht)
  have hbehind : behind.findIdx (fun t => t.kind == .eof) = 0 := by
    cases behind with
    | nil => rfl
    | cons t rest =>
      rw [peek_cons] at heof
      simp [List.findIdx_cons, heof]
  rw [endIndex, List.findIdx_append, hnone, if_neg (Nat.lt_irrefl _), hbehind, Nat.zero_add]

/-- The tokens from the first end on. -/
theorem peek_drop_endIndex (tokens : List Token) :
    (peek (tokens.drop (endIndex tokens))).kind = .eof := by
  unfold endIndex
  by_cases hlength : tokens.findIdx (fun t => t.kind == .eof) < tokens.length
  · rw [List.drop_eq_getElem_cons hlength, peek_cons]
    exact beq_iff_eq.mp (List.findIdx_getElem (w := hlength))
  · rw [List.drop_of_length_le (Nat.le_of_not_lt hlength)]
    rfl

theorem endIndex_le_length (tokens : List Token) : endIndex tokens ≤ tokens.length :=
  List.findIdx_le_length

/-- The grammar reads the tokens of a tree in front of the first end, and leaves the others. -/
theorem selector_iff {selector : Selector} :
    (Grammar.selector s tokens).Gives selector behind ↔
      Whole s selector (tokens.take (endIndex tokens)) ∧
        tokens.drop (endIndex tokens) = behind := by
  constructor
  · intro h
    obtain ⟨row, rfl, hwhole, heof⟩ := whole_sound h
    rw [endIndex_append hwhole.kind_ne_eof heof, List.take_left, List.drop_left]
    exact ⟨hwhole, rfl⟩
  · rintro ⟨hwhole, rfl⟩
    have hgives := whole_complete hwhole (peek_drop_endIndex tokens)
    rw [List.take_append_drop] at hgives
    exact hgives

end SelectorCheck.Row

namespace SelectorCheck.Selector

variable {context : Option Context} {source : Option Text} {tokens : List Token}

/-- Given tokens are read as a tree exactly if those in front of the first end are the tokens of the
tree, and then just these are gone. -/
theorem ofTokens_eq_iff {selector : Selector} {pos : Nat} :
    (∃ log, ofTokens context source 1 tokens = [(⟨log, .ok selector⟩, pos)]) ↔
      Row.Whole (setting parse context source) selector (tokens.take (Row.endIndex tokens)) ∧
        pos = Row.endIndex tokens := by
  have hlength :
      tokens.length - (tokens.drop (Row.endIndex tokens)).length = Row.endIndex tokens := by
    have hle := Row.endIndex_le_length tokens
    rw [List.length_drop]
    omega
  simp only [ofTokens, Grammar.selectors, List.map_cons, List.map_nil]
  constructor
  · rintro ⟨log, h⟩
    obtain ⟨houtcome, rfl⟩ := Prod.mk.inj (List.singleton_inj.mp h)
    obtain ⟨hwhole, hrest⟩ := Row.selector_iff.mp ⟨by rw [houtcome], rfl⟩
    exact ⟨hwhole, by rw [← hrest, hlength]⟩
  · rintro ⟨hwhole, rfl⟩
    obtain ⟨hresult, hrest⟩ := Row.selector_iff.mpr ⟨hwhole, rfl⟩
    refine ⟨(Grammar.selector (setting parse context source) tokens).outcome.log, ?_⟩
    rw [hrest, hlength, ← hresult]

/-- A value that comes with an asterisk is no part of the tree. -/
theorem ofTokens_universal_of_value : ∃ node : Simple,
    ofTokens none none 1 [⟨.universal, some ['x'], 0⟩, ⟨.eof, none, 1⟩] =
        [(.value (.complex ⟨⟨node, []⟩, []⟩), 1)] ∧
      node.kind = .universal ∧ node.pos = 0 ∧ node.name ≠ some ['x'] := by
  refine ⟨⟨.universal, none, none, none, 0⟩, ?_, rfl, rfl, by decide⟩
  simp [ofTokens, Grammar.selectors, Grammar.selector, Grammar.complex, Grammar.items,
    Grammar.links, Grammar.members, Grammar.ending, Grammar.unmarked?, Grammar.isMarker,
    Grammar.peek, Grammar.Step.map, Grammar.Step.before, Grammar.Step.value, Traced.map,
    Traced.value, Traced.following, Except.map, ofMembers]

end SelectorCheck.Selector
