import SelectorCheck.Proofs.Selector.Failure
import SelectorCheck.Proofs.Token.Fit

/-!
# The grammar on the tokens of a selector

On tokens that the lexer made the grammar misses no token. It finds a name behind
colons and a closing parenthesis behind an argument, and where it is done it is at
the end. What is left are four ways to fail: a complex selector is to begin and does
not, nothing follows a mark, a pseudo name is not admitted, or a function cannot be
built. Blanks are never a combinator that nothing follows.

## Main definitions

* `Grammar.Step.Meets` — what a step comes to, failed or not.
* `Grammar.Opens` — a complex selector is to begin with a token.
* `Grammar.Stops` — the ways to fail.
* `Grammar.Expected` — no token is missing behind colons.
* `Selector.Refused`, `Selector.Marked` — the tokens that can be at fault;
  `Selector.RefusedAs` has the words for them.

## Main results

* `Grammar.selector_meets` — the grammar on a row of tokens that the lexer makes.
* `Selector.tokens_fit` — the tokens of a selector are fit for the grammar.
-/

namespace SelectorCheck.Grammar

open Traced Token

variable {α β : Type}

/-! ## Steps -/

/-- A step that fails only as `P` says and otherwise has a value and leaves tokens as `Q` says. -/
structure Step.Meets (P : Failure → Prop) (Q : α → List Token → Prop) (step : Step α) : Prop where
  failure : ∀ f, step.outcome.result = .error f → P f
  value : ∀ a, step.outcome.result = .ok a → Q a step.rest

namespace Step

variable {P : Failure → Prop} {Q : α → List Token → Prop} {R : β → List Token → Prop}
  {step : Step α} {rest : List Token}

theorem meets_value {a : α} (h : Q a rest) : (value rest a).Meets P Q := by
  refine ⟨fun f hf => (by cases hf), fun b hb => ?_⟩
  cases hb
  exact h

theorem meets_error {e : SelectorError} (h : P (.ofError e)) :
    (error rest e : Step α).Meets P Q := by
  refine ⟨fun f hf => ?_, fun a ha => by cases ha⟩
  cases hf
  exact h

theorem Meets.map {f : α → β} (h : step.Meets P Q) (hQ : ∀ a rest, Q a rest → R (f a) rest) :
    (step.map f).Meets P R := by
  refine ⟨fun failure hf => h.failure failure (result_of_map_error hf), fun b hb => ?_⟩
  obtain ⟨a, ha, rfl⟩ := result_map_eq_ok_iff.mp hb
  exact hQ a step.rest (h.value a ha)

/-- A sequence of steps meets what its second part does behind the first one. -/
theorem Meets.bind {next : α → List Token → Step β} (h : step.Meets P Q)
    (hnext : ∀ a rest, Q a rest → (next a rest).Meets P R) : (step.bind next).Meets P R := by
  cases hresult : step.outcome.result with
  | ok a =>
    rw [bind_of_ok hresult]
    have hmeets := hnext a step.rest (h.value a hresult)
    exact ⟨hmeets.failure, hmeets.value⟩
  | error failure =>
    rw [bind_of_error hresult]
    refine ⟨fun f hf => ?_, fun b hb => by cases hb⟩
    cases hf
    exact h.failure failure hresult

end Step

/-! ## The ways to fail -/

/-- A complex selector is to begin with the token `t`: it is the first one of the tokens `all`, or
it stands behind a comma. -/
inductive Opens (all : List Token) : (t : Token) → Prop where
  | first {t : Token} {rest : List Token} (h : all = t :: rest) : Opens all t
  | comma {before rest : List Token} {comma t : Token} (h : all = before ++ comma :: t :: rest)
      (hcomma : comma.kind = .comma) : Opens all t

/-- The ways in which the grammar fails on a row `all` of tokens that the lexer makes. -/
inductive Stops (s : Setting) (all : List Token) : Failure → Prop where
  /-- A complex selector is to begin with a token that none begins with. -/
  | refused {t : Token} (h : Opens all t) (ht : Lexer.isSeparator t.kind = true) :
      Stops s all (.ofError (unexpected s t))
  /-- Nothing follows a mark. -/
  | dangling {t : Token} {c : Char} (h : t ∈ all) (ht : t.kind = .combinator)
      (hvalue : t.value = some [c]) (hc : Lexer.isCombinator c = true) :
      Stops s all (.ofError (dangling s t))
  | name {name : Token} {code : ErrorCode} (hcode : code.errorClass = .unknownName) :
      Stops s all (.ofError (unknownName s code (calledBy name) name))
  | argument {called : Text} {arg : Option Text} {start : Int} {cause : Failure}
      (hcause : (s.build called arg).result = .error cause) : Stops s all (cause.relocated start)

variable {s : Setting} {all tokens rest : List Token} {marker name : Token}

private theorem named_stops {f : Failure} (h : (named s marker name).result = .error f) :
    Stops s all f := by
  obtain ⟨code, hcode, rfl⟩ := named_eq_error h
  exact .name hcode

private theorem call_stops {arg : Option Text} {start : Int} {f : Failure}
    (h : (call s marker name arg start).result = .error f) : Stops s all f := by
  rcases call_eq_error h with ⟨code, hcode, rfl⟩ | ⟨cause, hcause, rfl⟩
  · exact .name hcode
  · exact .argument hcause

/-! ## The layers -/

/-- What items leave. If they are none, they leave all tokens. -/
structure Taken (tokens : List Token) (simples : List Simple) (rest : List Token) : Prop where
  fit : Fit rest
  suffix : rest <:+ tokens
  separator : Lexer.isSeparator (peek rest).kind = true
  none : simples = [] → rest = tokens

/-- Behind a simple selector items go on. -/
private theorem Taken.cons {simples : List Simple} (h : Taken tokens simples rest)
    (front : List Token) (simple : Simple) : Taken (front ++ tokens) (simple :: simples) rest :=
  ⟨h.fit, h.suffix.trans (List.suffix_append front tokens), h.separator, fun hnil => by cases hnil⟩

private theorem items_separator {t : Token} (ht : Lexer.isSeparator t.kind = true)
    (h : Fit (t :: rest)) :
    (items s (t :: rest)).Meets (Stops s all) (Taken (t :: rest)) := by
  have hpeek : Lexer.isSeparator (peek (t :: rest)).kind = true := ht
  rw [items_of_isSeparator hpeek]
  exact Step.meets_value ⟨h, List.suffix_refl _, ht, fun _ => rfl⟩

/-- A pseudo name takes the tokens `first` behind its colons, and the items behind it go on. -/
private theorem items_pseudo {first : List Token} (hmarker : isMarker marker.kind = true)
    (hpseudo : (pseudo s marker (first ++ rest)).Meets (Stops s all) fun _ left => left = rest)
    (hitems : (items s rest).Meets (Stops s all) (Taken rest)) :
    (items s (marker :: first ++ rest)).Meets (Stops s all) (Taken (marker :: first ++ rest)) := by
  rw [List.cons_append, items_cons, unmarked?_of_isMarker hmarker]
  simp only [hmarker, if_true]
  refine hpseudo.bind fun simple left hleft => ?_
  subst hleft
  exact hitems.map fun simples _ htaken => htaken.cons (marker :: first) simple

/-- Items take what they can, up to a separator. -/
theorem items_meets (h : Fit tokens) :
    (items s tokens).Meets (Stops s all) (Taken tokens) := by
  induction h with
  | done ht => exact items_separator (by rw [ht]; rfl) (.done ht)
  | comma ht h _ => exact items_separator (by rw [ht]; rfl) (.comma ht h)
  | mark ht hvalue hc h _ => exact items_separator (by rw [ht]; rfl) (.mark ht hvalue hc h)
  | blanks ht hahead h _ => exact items_separator (by rw [ht]; rfl) (.blanks ht hahead h)
  | @unmarked t rest simple ht _ ih =>
    rw [items_cons, ht]
    exact ih.map fun simples _ htaken => htaken.cons [t] simple
  | @named marker name rest hmarker hname h ih =>
    show (items s (marker :: [name] ++ rest)).Meets _ (Taken (marker :: [name] ++ rest))
    refine items_pseudo hmarker ?_ ih
    rw [List.singleton_append, pseudo_named hname h.kind_ne_parenOpen]
    exact ⟨fun _ => named_stops, fun _ _ => rfl⟩
  | @called marker name paren close arg inside rest hmarker hname hparen hinside hclose _ ih =>
    obtain ⟨start, henclosed⟩ := hinside.enclosed hclose paren rest
    have hrow : name :: paren :: (inside ++ close :: rest) =
        name :: paren :: (inside ++ [close]) ++ rest := by simp
    rw [hrow]
    refine items_pseudo hmarker ?_ ih
    rw [← hrow, pseudo_call hname hparen hclose henclosed]
    exact ⟨fun _ => call_stops, fun _ _ => rfl⟩

/-- What complex selectors leave. -/
structure Passed (tokens rest : List Token) : Prop where
  fit : Fit rest
  suffix : rest <:+ tokens
  ending : (peek rest).kind = .comma ∨ (peek rest).kind = .eof

private theorem Passed.trans {middle : List Token} (h : Passed middle rest)
    (hmiddle : middle <:+ tokens) : Passed tokens rest :=
  ⟨h.fit, h.suffix.trans hmiddle, h.ending⟩

/-- No compound selector is missing behind blanks. Behind a mark, that is a way to fail. -/
theorem links_meets (h : Fit tokens) (hall : tokens <:+ all)
    (hseparator : Lexer.isSeparator (peek tokens).kind = true) :
    (links s tokens).Meets (Stops s all) fun _ => Passed tokens := by
  induction hn : tokens.length using Nat.strongRecOn generalizing tokens with
  | _ n ih =>
    obtain ⟨t, rest, rfl⟩ := h.eq_cons
    rw [links_cons]
    by_cases ht : t.kind = .combinator
    · obtain ⟨hrest, hmark⟩ := h.of_combinator ht
      rw [if_pos ht]
      refine (items_meets hrest).bind fun simples left htaken => ?_
      have hleft : left <:+ t :: rest := htaken.suffix.trans (List.suffix_cons t rest)
      cases simples with
      | nil =>
        obtain rfl := htaken.none rfl
        obtain ⟨c, hvalue, hc⟩ := hmark htaken.separator
        exact Step.meets_error (.dangling (hall.mem List.mem_cons_self) ht hvalue hc)
      | cons first others =>
        have hshorter : left.length < n := by
          rw [← hn, List.length_cons]
          exact Nat.lt_succ_of_le htaken.suffix.length_le
        have hothers := ih _ hshorter htaken.fit (hleft.trans hall) htaken.separator rfl
        exact hothers.map fun _ _ hpassed => hpassed.trans hleft
    · rw [if_neg ht]
      refine Step.meets_value ⟨h, List.suffix_refl _, ?_⟩
      simpa [Lexer.isSeparator, ht] using hseparator

theorem complex_meets (h : Fit tokens) (hall : tokens <:+ all) (hopens : Opens all (peek tokens)) :
    (complex s tokens).Meets (Stops s all) fun _ => Passed tokens := by
  rw [complex_eq]
  refine (items_meets h).bind fun simples left htaken => ?_
  cases simples with
  | nil =>
    obtain rfl := htaken.none rfl
    exact Step.meets_error (.refused hopens htaken.separator)
  | cons first others =>
    have hlinks := links_meets (s := s) htaken.fit (htaken.suffix.trans hall) htaken.separator
    exact hlinks.map fun _ _ hpassed => hpassed.trans htaken.suffix

/-- The token behind a comma is one that a complex selector is to begin with. -/
private theorem opens_behind_comma {t : Token} (h : Fit rest) (hall : t :: rest <:+ all)
    (ht : t.kind = .comma) : Opens all (peek rest) := by
  obtain ⟨before, rfl⟩ := hall
  obtain ⟨head, tail, rfl⟩ := h.eq_cons
  exact .comma rfl ht

/-- Where members end, the end is ahead. -/
theorem members_meets (h : Fit tokens) (hall : tokens <:+ all)
    (hending : (peek tokens).kind = .comma ∨ (peek tokens).kind = .eof) :
    (members s tokens).Meets (Stops s all) fun _ rest => (peek rest).kind = .eof := by
  induction hn : tokens.length using Nat.strongRecOn generalizing tokens with
  | _ n ih =>
    obtain ⟨t, rest, rfl⟩ := h.eq_cons
    rw [members_cons]
    by_cases ht : t.kind = .comma
    · have hrest : rest <:+ all := (List.suffix_cons t rest).trans hall
      have hfit := h.of_comma ht
      rw [if_pos ht]
      refine (complex_meets hfit hrest (opens_behind_comma hfit hall ht)).bind
        fun c left hpassed => ?_
      have hshorter : left.length < n := by
        rw [← hn, List.length_cons]
        exact Nat.lt_succ_of_le hpassed.suffix.length_le
      have hothers := ih _ hshorter hpassed.fit (hpassed.suffix.trans hrest) hpassed.ending rfl
      exact hothers.map fun _ _ heof => heof
    · rw [if_neg ht]
      exact Step.meets_value (hending.resolve_left ht)

private theorem opens_front (h : Fit tokens) : Opens tokens (peek tokens) := by
  obtain ⟨t, rest, rfl⟩ := h.eq_cons
  exact .first rfl

/-- The grammar fails in one of the ways, or it comes to the end. -/
theorem selector_meets (h : Fit tokens) :
    (selector s tokens).Meets (Stops s tokens) fun _ rest => (peek rest).kind = .eof := by
  rw [selector_eq]
  refine (complex_meets h (List.suffix_refl _) (opens_front h)).bind
    fun first middle hpassed => ?_
  have hmembers : ((members s middle).map (Selector.ofMembers first)).Meets (Stops s tokens)
      fun _ rest => (peek rest).kind = .eof :=
    (members_meets hpassed.fit hpassed.suffix hpassed.ending).map fun _ _ heof => heof
  refine hmembers.bind fun selector behind heof => ?_
  rw [valueAtEnd, if_pos heof]
  exact Step.meets_value heof

/-- Where a complex selector and the members behind it have been read, the end is ahead. -/
theorem end_of_members {first : Complex} {middle behind : List Token} {others : List Complex}
    (h : Fit tokens) (hfirst : (complex s tokens).Gives first middle)
    (hothers : (members s middle).Gives others behind) : (peek behind).kind = .eof := by
  obtain ⟨hresult, rfl⟩ := hfirst
  obtain ⟨hmembers, rfl⟩ := hothers
  have hpassed := (complex_meets h (List.suffix_refl _) (opens_front h)).value first hresult
  exact (members_meets hpassed.fit hpassed.suffix hpassed.ending).value others hmembers

/-! ## Tokens that are expected -/

/-- With the tokens `ahead` behind the colons `marker`, the step comes to what the name is without
an argument, or to the call that it is. No token is missing for either. -/
inductive Expected (s : Setting) (marker : Token) :
    (ahead : List Token) → (step : Step Simple) → Prop where
  | named {name : Token} {behind : List Token} (hname : name.kind = .tag) :
      Expected s marker (name :: behind) ⟨behind, named s marker name⟩
  | call {name paren close : Token} {arg : Option Text} {inside behind : List Token} {start : Int}
      (hname : name.kind = .tag) (hparen : paren.kind = .parenOpen) (hinside : Inside arg inside)
      (hclose : close.kind = .parenClose) :
      Expected s marker (name :: paren :: (inside ++ close :: behind))
        ⟨behind, call s marker name arg start⟩

private theorem eq_cons_of_prefix {kind : TokenKind} {kinds : List TokenKind}
    (h : kind :: kinds <+: rest.map Token.kind) :
    ∃ t others, rest = t :: others ∧ t.kind = kind ∧ kinds <+: others.map Token.kind := by
  obtain ⟨behind, hbehind⟩ := h
  rw [List.cons_append] at hbehind
  obtain ⟨t, others, rfl, hkind, hothers⟩ := List.map_eq_cons_iff.mp hbehind.symm
  exact ⟨t, others, rfl, hkind, behind, hothers.symm⟩

/-- Behind an opening parenthesis that has its place stands what is expected there. -/
private theorem exists_inside {before : List Token} {paren : Token}
    (h : Placed before paren rest) (hparen : paren.kind = .parenOpen) :
    ∃ arg inside close behind, rest = inside ++ close :: behind ∧ Inside arg inside ∧
      close.kind = .parenClose := by
  rcases (h.parenOpen hparen).2 with hclose | hstring
  · obtain ⟨close, behind, rfl, hkind, -⟩ := eq_cons_of_prefix hclose
    exact ⟨none, [], close, behind, rfl, .none, hkind⟩
  · obtain ⟨string, _, rfl, hkind, hclose⟩ := eq_cons_of_prefix hstring
    obtain ⟨close, behind, rfl, hcloseKind, -⟩ := eq_cons_of_prefix hclose
    exact ⟨string.value, [string], close, behind, rfl, .text hkind, hcloseKind⟩

/-- Among tokens that all have their places, nothing is missing behind colons. -/
theorem pseudo_expected
    (hplaced : ∀ before t rest, tokens = before ++ t :: rest → Placed before t rest)
    (h : marker :: rest <:+ tokens) (hmarker : isMarker marker.kind = true) :
    Expected s marker rest (pseudo s marker rest) := by
  obtain ⟨before, rfl⟩ := h
  have hname := (hplaced before marker rest rfl).marker hmarker
  obtain ⟨name, others, rfl, hkind, -⟩ := eq_cons_of_prefix hname
  by_cases hopen : (peek others).kind = .parenOpen
  · obtain ⟨paren, inner, rfl, hparen⟩ := eq_cons_of_peek hopen (by decide)
    have hbefore : before ++ marker :: name :: paren :: inner =
        (before ++ [marker, name]) ++ paren :: inner := by simp
    obtain ⟨arg, inside, close, behind, rfl, hinside, hclose⟩ :=
      exists_inside (hplaced _ paren inner hbefore) hparen
    obtain ⟨start, henclosed⟩ := hinside.enclosed hclose paren behind
    rw [pseudo_call hkind hparen hclose henclosed]
    exact .call hkind hparen hinside hclose
  · rw [pseudo_named hkind hopen]
    exact .named hkind

end SelectorCheck.Grammar

namespace SelectorCheck

open Lexer

variable {source : Text} {tokens : List Token}

/-- The tokens of a selector are a row in which every token has its place. -/
theorem Token.fit_of_ofSelector (htokens : Token.ofSelector source = .ok tokens) :
    Token.Fit tokens := by
  obtain ⟨_, _, -, -, hlexed⟩ := Token.ofSelector_eq_ok_iff.mp htokens
  exact hlexed.fit

/-- A selector that is not blank does not begin with the end. -/
theorem Token.head_ne_eof {t : Token} {rest : List Token} (hblank : source.allBlank = false)
    (htokens : Token.ofSelector source = .ok (t :: rest)) : t.kind ≠ .eof := by
  intro heof
  obtain ⟨blanks, ahead, rfl, hblanks, hlexed⟩ := Token.ofSelector_eq_ok_iff.mp htokens
  rw [Text.allBlank_append, hlexed.of_eof heof, Text.allBlank_iff.mpr hblanks.all] at hblank
  cases hblank

/-- What is wrong with a function is not the form of the selector that it stands in. -/
theorem Unbuilt.errorClass_ne {read : Text → Traced Selector} {name : Text} {value : Option Text}
    {context : Option Context} {f : Failure} (h : Unbuilt read name value context f) :
    f.error.code.errorClass ≠ .selector := by
  cases h with
  | unknown _ | unreadable _ _ _ => nofun
  | argument hcode hclass _ =>
    intro hselector
    rcases hclass with hclass | hclass <;>
      cases hselector.symm.trans (hcode.trans hclass)

namespace Selector

/-- The words for the kinds of tokens that are refused. -/
inductive RefusedAs : (kind : TokenKind) → (word : Text) → Prop where
  | comma : RefusedAs .comma "COMMA".toList
  | combinator : RefusedAs .combinator "COMBINATOR".toList
  | eof : RefusedAs .eof "EOF".toList

private theorem refusedAs_label {kind : TokenKind} (h : isSeparator kind = true) :
    RefusedAs kind kind.label := by
  cases kind with
  | comma => exact .comma
  | combinator => exact .combinator
  | eof => exact .eof
  | _ => cases h

/-- The token `t` of a selector is refused with the word `word`: a complex selector is to begin with
it, and it is a comma, a combinator or, behind a comma, the end. -/
structure Refused (tokens : List Token) (t : Token) (word : Text) : Prop where
  opens : Grammar.Opens tokens t
  kind : RefusedAs t.kind word
  eof : t.kind = .eof → ∃ before comma rest, tokens = before ++ comma :: t :: rest ∧
    comma.kind = .comma

/-- The token `t` of a selector is a combinator that is written as the mark `c`. -/
structure Marked (tokens : List Token) (t : Token) (c : Char) : Prop where
  mem : t ∈ tokens
  kind : t.kind = .combinator
  value : t.value = some [c]
  mark : c = '>' ∨ c = '+' ∨ c = '~'

variable {context : Option Context} {f : Failure}

/-- A selector that is not blank fails as the grammar does on its tokens. -/
private theorem stops_of_error (hblank : source.allBlank = false)
    (htokens : Token.ofSelector source = .ok tokens)
    (h : (parse context source).result = .error f) :
    Grammar.Stops (setting (parseWithin (source.length / 6)) context (some source)) tokens f := by
  rw [parse, depthFor, parseWithin_of_tokens _ context hblank htokens] at h
  exact (Grammar.selector_meets (Token.fit_of_ofSelector htokens)).failure f h

private theorem refused_of_opens {t : Token} (hblank : source.allBlank = false)
    (htokens : Token.ofSelector source = .ok tokens) (hopens : Grammar.Opens tokens t)
    (ht : isSeparator t.kind = true) : Refused tokens t t.kind.label := by
  refine ⟨hopens, refusedAs_label ht, fun heof => ?_⟩
  cases hopens with
  | first hfirst =>
    rw [hfirst] at htokens
    exact absurd heof (Token.head_ne_eof hblank htokens)
  | comma hsplit hcomma => exact ⟨_, _, _, hsplit, hcomma⟩

/-- The form of a selector is at fault where a token is refused, or where nothing follows a mark. -/
theorem form_at_fault (htokens : Token.ofSelector source = .ok tokens)
    (h : (parse context source).result = .error f)
    (hclass : f.error.code.errorClass = .selector) :
    (∃ t word, Refused tokens t word ∧
        f = .ofError { code := .unexpectedToken, value := some source,
                       token := some word, position := some t.pos }) ∨
      ∃ t c, Marked tokens t c ∧
        f = .ofError { code := .expectedSelector, value := some source,
                       token := some [c], position := some t.pos } := by
  cases hblank : source.allBlank with
  | true =>
    rw [parse, depthFor, parseWithin, hblank] at h
    cases h
    cases hclass
  | false =>
    cases stops_of_error hblank htokens h with
    | refused hopens ht =>
      exact .inl ⟨_, _, refused_of_opens hblank htokens hopens ht, rfl⟩
    | @dangling t c hmem ht hvalue hc =>
      refine .inr ⟨t, c, ⟨hmem, ht, hvalue, isCombinator_iff.mp hc⟩, ?_⟩
      rw [Grammar.dangling, hvalue]
      rfl
    | name hcode => cases hclass.symm.trans hcode
    | argument hcause => exact absurd hclass (unbuilt_of_error hcause).errorClass_ne

/-- The tokens of a selector are fit for the grammar. Each of them has its place, so whatever the
grammar expects behind colons and behind the last member is there. A token is refused only where a
complex selector is to begin, and a selector is missing only behind a mark. -/
theorem tokens_fit (htokens : Token.ofSelector source = .ok tokens) :
    (∀ before t rest, tokens = before ++ t :: rest → Token.Placed before t rest) ∧
    (∀ s marker rest, marker :: rest <:+ tokens → Grammar.isMarker marker.kind = true →
      Grammar.Expected s marker rest (Grammar.pseudo s marker rest)) ∧
    (∀ s first middle others behind, (Grammar.complex s tokens).Gives first middle →
      (Grammar.members s middle).Gives others behind → (Grammar.peek behind).kind = .eof) ∧
    ∀ context f, (parse context source).result = .error f →
      (f.error.code = .unexpectedToken → ∃ t word, Refused tokens t word ∧
        f = .ofError { code := .unexpectedToken, value := some source,
                       token := some word, position := some t.pos }) ∧
      (f.error.code = .expectedSelector → ∃ t c, Marked tokens t c ∧
        f = .ofError { code := .expectedSelector, value := some source,
                       token := some [c], position := some t.pos }) := by
  have hfit := Token.fit_of_ofSelector htokens
  have hplaced : ∀ before t rest, tokens = before ++ t :: rest → Token.Placed before t rest :=
    fun _ _ _ => hfit.placed
  refine ⟨hplaced, fun s marker rest => Grammar.pseudo_expected hplaced,
    fun s first middle others behind => Grammar.end_of_members hfit, fun context f h => ?_⟩
  constructor
  · intro hcode
    rcases form_at_fault htokens h (by rw [hcode]; rfl) with hrefused | ⟨t, c, -, rfl⟩
    · exact hrefused
    · cases hcode
  · intro hcode
    rcases form_at_fault htokens h (by rw [hcode]; rfl) with ⟨t, word, -, rfl⟩ | hdangling
    · cases hcode
    · exact hdangling

/-- Two members, a call in the second one, and a mark that nothing follows, and the end behind a
comma. -/
theorem tokens_fit_of_mark :
    (∃ tokens t, Token.ofSelector "a , :not( b ) >".toList = .ok tokens ∧ Marked tokens t '>' ∧
      (parse none "a , :not( b ) >".toList).result =
        .error (.ofError
          { code := .expectedSelector, value := some "a , :not( b ) >".toList,
            token := some ['>'], position := some t.pos })) ∧
    ∃ tokens t, Token.ofSelector "a , ".toList = .ok tokens ∧ Refused tokens t "EOF".toList ∧
      (parse none "a , ".toList).result =
        .error (.ofError
          { code := .unexpectedToken, value := some "a , ".toList,
            token := some "EOF".toList, position := some t.pos }) := by
  constructor
  · have htokens : Token.ofSelector "a , :not( b ) >".toList =
        .ok [⟨.tag, some ['a'], 0⟩, ⟨.comma, none, 2⟩, ⟨.colon, none, 4⟩,
          ⟨.tag, some "not".toList, 5⟩, ⟨.parenOpen, none, 8⟩, ⟨.string, some ['b'], 10⟩,
          ⟨.parenClose, none, 12⟩, ⟨.combinator, some ['>'], 14⟩, ⟨.eof, none, 15⟩] := by
      decide +kernel
    have hparse : (parse none "a , :not( b ) >".toList).result =
        .error (.ofError
          { code := .expectedSelector, value := some "a , :not( b ) >".toList,
            token := some ['>'], position := some 14 }) := by
      decide +kernel
    obtain ⟨-, -, -, herrors⟩ := tokens_fit htokens
    obtain ⟨t, c, hmarked, heq⟩ := (herrors none _ hparse).2 rfl
    obtain ⟨rfl, hpos⟩ : c = '>' ∧ t.pos = 14 := by simpa [Failure.ofError, eq_comm] using heq
    exact ⟨_, t, htokens, hmarked, by rw [hpos]; exact hparse⟩
  · have htokens : Token.ofSelector "a , ".toList =
        .ok [⟨.tag, some ['a'], 0⟩, ⟨.comma, none, 2⟩, ⟨.eof, none, 4⟩] := by
      decide +kernel
    have hparse : (parse none "a , ".toList).result =
        .error (.ofError
          { code := .unexpectedToken, value := some "a , ".toList,
            token := some "EOF".toList, position := some 4 }) := by
      decide +kernel
    obtain ⟨-, -, -, herrors⟩ := tokens_fit htokens
    obtain ⟨t, word, hrefused, heq⟩ := (herrors none _ hparse).1 rfl
    obtain ⟨rfl, hpos⟩ : word = "EOF".toList ∧ t.pos = 4 := by
      simpa [Failure.ofError, eq_comm] using heq
    exact ⟨_, t, htokens, hrefused, by rw [hpos]; exact hparse⟩

end Selector

end SelectorCheck
