import SelectorCheck.Proofs.Token.Pseudo

/-!
# Where the lexer puts tokens

The lexer and the grammar meet in a list of tokens only. What the grammar takes for
granted about that list is said here as a grammar of its own, which any row of
tokens of a text follows: behind colons stands a name, behind the name of a call an
opening parenthesis, at most one argument and a closing parenthesis, and none of
these stands anywhere else. Blanks count as a combinator only in front of a simple
selector, so they never come before a comma, a mark or the end.

## Main definitions

* `Token.Fit` — the rows of tokens that the lexer makes.
* `Token.Placed` — what stands around a token of such a row.

## Main results

* `Lexer.Lexed.fit` — the tokens of a text are such a row.
* `Token.Fit.placed` — every token of it has its place.
-/

namespace SelectorCheck

open Text RawArgument

namespace Token

open Grammar

/-- The rows of tokens that the lexer makes. -/
inductive Fit : (tokens : List Token) → Prop where
  | done {t : Token} (ht : t.kind = .eof) : Fit [t]
  | comma {t : Token} {rest : List Token} (ht : t.kind = .comma) (h : Fit rest) : Fit (t :: rest)
  | mark {t : Token} {rest : List Token} {c : Char} (ht : t.kind = .combinator)
      (hvalue : t.value = some [c]) (hc : Lexer.isCombinator c = true) (h : Fit rest) :
      Fit (t :: rest)
  /-- Blanks that are a descendant combinator. A compound selector is ahead. -/
  | blanks {t : Token} {rest : List Token} (ht : t.kind = .combinator)
      (hahead : Lexer.isSeparator (peek rest).kind = false) (h : Fit rest) : Fit (t :: rest)
  | unmarked {t : Token} {rest : List Token} {simple : Simple} (ht : unmarked? t = some simple)
      (h : Fit rest) : Fit (t :: rest)
  | named {marker name : Token} {rest : List Token} (hmarker : isMarker marker.kind = true)
      (hname : name.kind = .tag) (h : Fit rest) : Fit (marker :: name :: rest)
  | called {marker name paren close : Token} {arg : Option Text} {inside rest : List Token}
      (hmarker : isMarker marker.kind = true) (hname : name.kind = .tag)
      (hparen : paren.kind = .parenOpen) (hinside : Inside arg inside)
      (hclose : close.kind = .parenClose) (h : Fit rest) :
      Fit (marker :: name :: paren :: (inside ++ close :: rest))

variable {tokens : List Token}

theorem Fit.eq_cons (h : Fit tokens) : ∃ t rest, tokens = t :: rest := by
  cases h <;> exact ⟨_, _, rfl⟩

/-- An opening parenthesis stands behind a name only. -/
theorem Fit.kind_ne_parenOpen (h : Fit tokens) : (peek tokens).kind ≠ .parenOpen := by
  intro hopen
  cases h with
  | done ht | comma ht _ | mark ht _ _ _ | blanks ht _ _ => cases ht.symm.trans hopen
  | @unmarked t rest simple ht _ =>
    have hkind : t.kind = .parenOpen := hopen
    rw [unmarked?, hkind] at ht
    cases ht
  | @named marker name rest hmarker _ _ | @called marker name _ _ _ _ _ hmarker _ _ _ _ _ =>
    have hkind : marker.kind = .parenOpen := hopen
    rw [hkind] at hmarker
    cases hmarker

/-- Behind a comma the row goes on. -/
theorem Fit.of_comma {t : Token} {rest : List Token} (h : Fit (t :: rest))
    (ht : t.kind = .comma) : Fit rest := by
  have hseparator : Lexer.isSeparator t.kind = true := by rw [ht]; rfl
  cases h with
  | done hkind => cases ht.symm.trans hkind
  | comma _ h | mark _ _ _ h | blanks _ _ h | unmarked _ h => exact h
  | named hmarker _ _ | called hmarker _ _ _ _ _ =>
    cases hmarker.symm.trans (isMarker_of_isSeparator hseparator)

/-- Behind a combinator the row goes on. If that is with a separator, the combinator is a mark. -/
theorem Fit.of_combinator {t : Token} {rest : List Token} (h : Fit (t :: rest))
    (ht : t.kind = .combinator) :
    Fit rest ∧ (Lexer.isSeparator (peek rest).kind = true →
      ∃ c, t.value = some [c] ∧ Lexer.isCombinator c = true) := by
  have hseparator : Lexer.isSeparator t.kind = true := by rw [ht]; rfl
  cases h with
  | done hkind | comma hkind _ => cases ht.symm.trans hkind
  | mark _ hvalue hc h => exact ⟨h, fun _ => ⟨_, hvalue, hc⟩⟩
  | blanks _ hahead h =>
    refine ⟨h, fun hbehind => ?_⟩
    cases hahead.symm.trans hbehind
  | unmarked hsimple _ =>
    cases hsimple.symm.trans (unmarked?_of_isSeparator hseparator)
  | named hmarker _ _ | called hmarker _ _ _ _ _ =>
    cases hmarker.symm.trans (isMarker_of_isSeparator hseparator)

end Token

/-! ## The lexer -/

namespace Lexer

variable {source : Text} {p : Nat}

private theorem Parenthesized.exists_inside {q : Nat} {text after : Text} {tokens : List Token}
    (h : Parenthesized q text after tokens) :
    ∃ paren inside close arg, tokens = paren :: (inside ++ [close]) ∧ paren.kind = .parenOpen ∧
      Grammar.Inside arg inside ∧ close.kind = .parenClose := by
  obtain @⟨blanks, content, after, -, -⟩ := h
  obtain ⟨arg, hinside⟩ := Grammar.inside_argumentTokens content
    ⟨q + 1 + blanks.length, content ++ ')' :: after⟩
  exact ⟨_, _, _, arg, rfl, rfl, hinside, rfl⟩

private theorem Colons.isMarker {colons : Text} {kind : TokenKind} (h : Colons colons kind) :
    Grammar.isMarker kind = true := by
  cases h <;> rfl

/-- The tokens of a lexeme in front of such a row are such a row. -/
private theorem Lexeme.fit_append {text after : Text} {first rest : List Token}
    (h : Lexeme p text after first) (hrest : Token.Fit rest) : Token.Fit (first ++ rest) := by
  cases h with
  | combinator hc _ => exact .mark rfl rfl hc hrest
  | comma _ => exact .comma rfl hrest
  | universal | id _ | className _ | tag _ _ => exact .unmarked rfl hrest
  | name hcolons _ _ => exact .named hcolons.isMarker rfl hrest
  | call hcolons _ htext =>
    obtain ⟨paren, inside, close, arg, rfl, hparen, hinside, hclose⟩ := htext.exists_inside
    rw [List.cons_append, List.cons_append, List.cons_append, List.append_assoc]
    exact .called hcolons.isMarker rfl hparen hinside hclose hrest

theorem Lexed.fit {t : Text} {tokens : List Token} (h : Lexed source p t tokens) :
    Token.Fit tokens := by
  induction h with
  | done _ => exact .done rfl
  | lexeme hlexeme _ ih => exact hlexeme.fit_append ih
  | gap _ _ hc hgap hrest ih =>
    obtain ⟨token, others, rfl⟩ := hrest.eq_cons
    exact .blanks rfl (hrest.isSeparator_of_head hc hgap) ih
  | absorbed _ _ _ _ ih => exact ih

end Lexer

/-! ## The places of tokens -/

namespace Token

open Grammar

/-- What stands around a token `t` with the tokens `before` in front of it and `rest` behind it. -/
structure Placed (before : List Token) (t : Token) (rest : List Token) : Prop where
  marker : isMarker t.kind = true → [.tag] <+: rest.map Token.kind
  parenOpen : t.kind = .parenOpen →
    ([.colon, .tag] <:+ before.map Token.kind ∨ [.doubleColon, .tag] <:+ before.map Token.kind) ∧
      ([.parenClose] <+: rest.map Token.kind ∨ [.string, .parenClose] <+: rest.map Token.kind)
  string : t.kind = .string → [.parenOpen] <:+ before.map Token.kind
  parenClose : t.kind = .parenClose →
    [.parenOpen] <:+ before.map Token.kind ∨ [.parenOpen, .string] <:+ before.map Token.kind

variable {before first rest tokens others : List Token} {t : Token}

/-- What is right in front of a token and behind it stays there. -/
theorem Placed.behind (h : Placed before t rest) (first : List Token) :
    Placed (first ++ before) t rest := by
  have hsuffix : before.map Token.kind <:+ (first ++ before).map Token.kind := by
    rw [List.map_append]
    exact List.suffix_append _ _
  refine ⟨h.marker, fun ht => ?_, fun ht => (h.string ht).trans hsuffix, fun ht => ?_⟩
  · obtain ⟨hfront, hbehind⟩ := h.parenOpen ht
    exact ⟨hfront.imp (·.trans hsuffix) (·.trans hsuffix), hbehind⟩
  · exact (h.parenClose ht).imp (·.trans hsuffix) (·.trans hsuffix)

/-- Every token of `first` has its place, in front of `others` and behind the tokens of `first` that
come before it. -/
private def AllPlaced (first others : List Token) : Prop :=
  ∀ front t back, first = front ++ t :: back → Placed front t (back ++ others)

/-- The tokens of a row have their places if those of its first part do, and the others. -/
private theorem AllPlaced.append (hfirst : AllPlaced first others)
    (hothers : ∀ front, others = front ++ t :: rest → Placed front t rest)
    (h : first ++ others = before ++ t :: rest) : Placed before t rest := by
  rcases List.append_eq_append_iff.mp h with ⟨front, rfl, heq⟩ | ⟨inner, rfl, heq⟩
  · exact (hothers front heq).behind first
  · cases inner with
    | nil =>
      have hplaced := (hothers [] heq.symm).behind before
      rwa [List.append_nil] at hplaced
    | cons head back =>
      obtain ⟨rfl, rfl⟩ := List.cons.inj heq
      exact hfirst before t back rfl

/-! ### Single tokens -/

/-- A token of any other kind has its place anywhere. -/
private theorem placed_of_other (hmarker : isMarker t.kind = false) (hopen : t.kind ≠ .parenOpen)
    (hstring : t.kind ≠ .string) (hclose : t.kind ≠ .parenClose) : Placed before t rest := by
  refine ⟨fun ht => ?_, fun ht => absurd ht hopen, fun ht => absurd ht hstring,
    fun ht => absurd ht hclose⟩
  rw [hmarker] at ht
  cases ht

private theorem placed_separator (h : Lexer.isSeparator t.kind = true) : Placed before t rest := by
  apply placed_of_other (isMarker_of_isSeparator h) <;>
  · intro hkind
    rw [hkind] at h
    cases h

private theorem placed_unmarked {simple : Simple} (h : unmarked? t = some simple) :
    Placed before t rest := by
  cases hkind : t.kind <;> simp [unmarked?, hkind] at h <;>
    exact placed_of_other (by simp [isMarker, hkind]) (by simp [hkind]) (by simp [hkind])
      (by simp [hkind])

private theorem placed_name (h : t.kind = .tag) : Placed before t rest :=
  placed_unmarked (by rw [unmarked?, h])

private theorem placed_marker {name : Token} (hmarker : isMarker t.kind = true)
    (hname : name.kind = .tag) : Placed before t (name :: rest) := by
  refine ⟨fun _ => ⟨rest.map Token.kind, by simp [hname]⟩, ?_, ?_, ?_⟩ <;>
  · intro hkind
    rw [hkind] at hmarker
    cases hmarker

private theorem allPlaced_singleton (h : ∀ {before rest}, Placed before t rest) :
    AllPlaced [t] others := by
  intro front head back hsplit
  rcases front with _ | ⟨_, front⟩
  · cases hsplit
    exact h
  · simp at hsplit

/-! ### Pseudo names -/

private theorem allPlaced_named {marker name : Token} (hmarker : isMarker marker.kind = true)
    (hname : name.kind = .tag) : AllPlaced [marker, name] others := by
  intro front head back hsplit
  rcases front with _ | ⟨_, _ | ⟨_, front⟩⟩
  · cases hsplit
    exact placed_marker hmarker hname
  · cases hsplit
    exact placed_name hname
  · simp at hsplit

private theorem placed_parenOpen {marker name paren close : Token} {arg : Option Text}
    {inside : List Token} (hmarker : isMarker marker.kind = true) (hname : name.kind = .tag)
    (hparen : paren.kind = .parenOpen) (hinside : Inside arg inside)
    (hclose : close.kind = .parenClose) :
    Placed [marker, name] paren (inside ++ close :: others) := by
  refine ⟨by simp [hparen, isMarker], fun _ => ⟨?_, ?_⟩, by simp [hparen], by simp [hparen]⟩
  · have hcolons : marker.kind = .colon ∨ marker.kind = .doubleColon := by
      simpa [isMarker] using hmarker
    exact hcolons.imp (fun h => ⟨[], by simp [h, hname]⟩) fun h => ⟨[], by simp [h, hname]⟩
  · cases hinside with
    | none => exact .inl ⟨others.map Token.kind, by simp [hclose]⟩
    | text ht => exact .inr ⟨others.map Token.kind, by simp [ht, hclose]⟩

private theorem placed_string {front : List Token} {paren : Token}
    (hparen : paren.kind = .parenOpen) (ht : t.kind = .string) :
    Placed (front ++ [paren]) t rest := by
  refine ⟨by simp [ht, isMarker], by simp [ht], fun _ => ?_, by simp [ht]⟩
  exact ⟨front.map Token.kind, by simp [hparen]⟩

private theorem placed_parenClose {front inside : List Token} {paren : Token} {arg : Option Text}
    (hparen : paren.kind = .parenOpen) (hinside : Inside arg inside)
    (ht : t.kind = .parenClose) : Placed (front ++ paren :: inside) t rest := by
  refine ⟨by simp [ht, isMarker], by simp [ht], by simp [ht], fun _ => ?_⟩
  cases hinside with
  | none => exact .inl ⟨front.map Token.kind, by simp [hparen]⟩
  | text hstring => exact .inr ⟨front.map Token.kind, by simp [hparen, hstring]⟩

private theorem allPlaced_called {marker name paren close : Token} {arg : Option Text}
    {inside : List Token} (hmarker : isMarker marker.kind = true) (hname : name.kind = .tag)
    (hparen : paren.kind = .parenOpen) (hinside : Inside arg inside)
    (hclose : close.kind = .parenClose) :
    AllPlaced (marker :: name :: paren :: (inside ++ [close])) others := by
  intro front head back hsplit
  rcases front with _ | ⟨_, _ | ⟨_, _ | ⟨_, front⟩⟩⟩
  · cases hsplit
    exact placed_marker hmarker hname
  · cases hsplit
    exact placed_name hname
  · cases hsplit
    rw [List.append_assoc]
    exact placed_parenOpen hmarker hname hparen hinside hclose
  · simp only [List.cons_append, List.cons.injEq] at hsplit
    obtain ⟨rfl, rfl, rfl, hsplit⟩ := hsplit
    cases hinside with
    | none =>
      rcases front with _ | ⟨_, front⟩
      · cases hsplit
        show Placed ([_, _] ++ paren :: []) close others
        exact placed_parenClose hparen .none hclose
      · simp at hsplit
    | text hstring =>
      rcases front with _ | ⟨_, _ | ⟨_, front⟩⟩
      · cases hsplit
        show Placed ([_, _] ++ [paren]) _ _
        exact placed_string hparen hstring
      · cases hsplit
        show Placed ([_, _] ++ paren :: [_]) close others
        exact placed_parenClose hparen (.text hstring) hclose
      · simp at hsplit

/-- Every token of a row has its place. -/
theorem Fit.placed (h : Fit tokens) (hsplit : tokens = before ++ t :: rest) :
    Placed before t rest := by
  induction h generalizing before with
  | done ht =>
    have hall : AllPlaced [_] [] := allPlaced_singleton (placed_separator (by rw [ht]; rfl))
    have hplaced := hall before t rest hsplit
    rwa [List.append_nil] at hplaced
  | comma ht _ ih | mark ht _ _ _ ih | blanks ht _ _ ih =>
    exact (allPlaced_singleton (placed_separator (by rw [ht]; rfl))).append (fun _ => ih) hsplit
  | unmarked ht _ ih =>
    exact (allPlaced_singleton (placed_unmarked ht)).append (fun _ => ih) hsplit
  | named hmarker hname _ ih => exact (allPlaced_named hmarker hname).append (fun _ => ih) hsplit
  | called hmarker hname hparen hinside hclose _ ih =>
    refine (allPlaced_called hmarker hname hparen hinside hclose).append (fun _ => ih) ?_
    rw [← hsplit]
    simp

end Token

end SelectorCheck
