import SelectorCheck.Proofs.Argument.Contained
import SelectorCheck.Proofs.Token.Moved

/-!
# The lexer on two selectors

If a comma and another selector stand behind a selector, the lexer goes through the
first one as if it stood alone: no name and no argument of it goes on with a comma,
and the blanks in front of the comma mean nothing, as do those at the end of a
selector. Behind the comma the lexer yields what it yields for the second selector
alone, further on.

## Main results

* `Lexer.Lexed.comma_behind` — the tokens of the comma and the second selector.
* `Token.ofSelector_comma_error` — what is malformed in the second selector is so in
  both together.
-/

namespace SelectorCheck

open Text RawArgument

namespace Lexer

variable {source other : Text} {p : Nat} {tokens : List Token} {e : SelectorError}

/-! ## In front of a comma -/

private theorem run_before_comma {f : Char → Bool} {run after : Text} (h : Run f run after)
    (hcomma : f ',' = false) (rest : Text) : Run f run (after ++ ',' :: rest) :=
  h.before_append fun c hc => by cases hc; exact hcomma

private theorem name_before_comma {name after : Text} (h : NameRun name after) (rest : Text) :
    NameRun name (after ++ ',' :: rest) :=
  ⟨run_before_comma h.toRun rfl rest, h.ne_nil⟩

/-- An argument ends at its parenthesis, whatever stands behind that. -/
theorem Parenthesized.before {q : Nat} {text after : Text} (h : Parenthesized q text after tokens)
    (rest : Text) : Parenthesized q text rest tokens := by
  obtain @⟨blanks, content, after, hblanks, hscan⟩ := h
  refine .mk ⟨hblanks.all, ?_⟩ ((selfContained_of_scan hscan).scan_closing _ _)
  cases content with
  | nil => exact hblanks.stops
  | cons c content => exact hblanks.stops

/-- A lexeme stays one if a comma follows what is behind it. -/
theorem Lexeme.before_comma {text after : Text} (h : Lexeme p text after tokens) (rest : Text) :
    Lexeme p text (after ++ ',' :: rest) tokens := by
  cases h with
  | combinator hc hblanks => exact .combinator hc (run_before_comma hblanks rfl rest)
  | comma hblanks => exact .comma (run_before_comma hblanks rfl rest)
  | universal => exact .universal
  | id hname => exact .id (name_before_comma hname rest)
  | className hname => exact .className (name_before_comma hname rest)
  | tag hname hstart => exact .tag (name_before_comma hname rest) hstart
  | name hcolons hname hbare =>
    refine .name hcolons (name_before_comma hname rest) ?_
    cases after with
    | nil => simp
    | cons c after => exact hbare
  | call hcolons hname htext =>
    have hcalled := name_before_comma hname rest
    rw [List.append_assoc] at hcalled
    exact .call hcolons hcalled (htext.before _)

/-- The error at a place behind a lexeme is the error at the lexeme. -/
private theorem run_error_of_lexeme {text after : Text} (h : Lexeme p text after tokens)
    (hrest : (run source true false ⟨p + text.length, after⟩).result = .error e) :
    (run source true false ⟨p, text ++ after⟩).result = .error e := by
  obtain ⟨c, t, rfl, hc⟩ := h.eq_cons
  have hread : lexeme source p c (t ++ after) = ⟨⟨p + (c :: t).length, after⟩, .ok tokens⟩ :=
    lexeme_eq_ok_iff.mpr ⟨_, _, rfl, rfl, h⟩
  rw [List.cons_append, run_lexeme hc hread]
  exact result_after_eq_error_iff.mpr hrest

private theorem run_error_of_blanks {blanks t : Text} {c : Char} (hblanks : allBlank blanks = true)
    (hc : isBlank c = false)
    (hrest : (run source true false ⟨p + blanks.length, c :: t⟩).result = .error e) :
    (run source true false ⟨p, blanks ++ c :: t⟩).result = .error e := by
  rw [run_blanks true false (c :: t) hblanks, run_gap hc]
  exact result_after_eq_error_iff.mpr hrest

/-- What goes wrong at a comma goes wrong in front of the text before the comma, if that text alone
is cut into tokens. -/
theorem Lexed.error_at_comma {t rest : Text} (h : Lexed source p t tokens)
    (herror : (run other true false ⟨p + t.length, ',' :: rest⟩).result = .error e) :
    (run other true false ⟨p, t ++ ',' :: rest⟩).result = .error e := by
  induction h with
  | done hblanks => exact run_error_of_blanks hblanks rfl herror
  | @lexeme p text after _ _ h _ ih =>
    rw [List.length_append, ← Nat.add_assoc] at herror
    rw [List.append_assoc]
    exact run_error_of_lexeme (h.before_comma rest) (ih herror)
  | @gap p blanks t c _ hblanks _ hc _ _ ih =>
    rw [List.length_append, ← Nat.add_assoc] at herror
    rw [List.append_assoc]
    exact run_error_of_blanks hblanks hc (ih herror)
  | @absorbed p blanks t c _ hblanks _ hc _ ih =>
    rw [List.length_append, ← Nat.add_assoc] at herror
    rw [List.append_assoc]
    exact run_error_of_blanks hblanks (isBlank_of_absorbsBlanks hc) (ih herror)

/-! ## Behind a comma -/

private theorem run_behind_comma {blanks t : Text} {q : Nat}
    (hlength : source.length = (blanks ++ t).length + (q + 1)) :
    run source true false ⟨q + (',' :: blanks).length, t⟩ =
      (run (blanks ++ t) true false ⟨blanks.length, t⟩).moved source (q + 1) := by
  have hplace : q + (',' :: blanks).length = blanks.length + (q + 1) := by
    rw [List.length_cons]
    omega
  rw [hplace, run_moved hlength]

/-- The comma behind blanks and a selector behind it have the tokens of the selector, further on,
behind that of the comma. -/
theorem Lexed.comma_behind {before second : Text} (hbefore : allBlank before = true)
    (hlength : source.length = second.length + (p + before.length + 1))
    (h : Token.ofSelector second = .ok tokens) :
    Lexed source p (before ++ ',' :: second)
      (⟨.comma, none, (p + before.length : Nat)⟩ ::
        tokens.map (Token.moved (p + before.length + 1))) := by
  obtain ⟨blanks, t, rfl, hblanks, hlexed⟩ := Token.ofSelector_eq_ok_iff.mp h
  have hbehind : Lexed source (p + before.length + (',' :: blanks).length) t
      (tokens.map (Token.moved (p + before.length + 1))) := by
    apply run_eq_ok_iff.mp
    rw [run_behind_comma hlength, Outcome.moved, run_eq_ok_iff.mpr hlexed]
  exact Lexed.separator hbefore rfl (.comma hblanks) hbehind

end Lexer

open Lexer

/-- What is malformed in a selector is malformed, further on, in a list that the selector ends. -/
theorem Token.ofSelector_comma_error {first second : Text} {tokens : List Token} {e : SelectorError}
    (hfirst : Token.ofSelector first = .ok tokens) (hsecond : Token.ofSelector second = .error e) :
    Token.ofSelector (first ++ ',' :: second) =
      .error (e.movedTo (first ++ ',' :: second) (first.length + 1)) := by
  obtain ⟨before, t, rfl, hbefore, hlexed⟩ := Token.ofSelector_eq_ok_iff.mp hfirst
  obtain ⟨blanks, u, rfl, hblanks⟩ := Run.of_text isBlank second
  rw [Token.ofSelector_behind_blanks hblanks] at hsecond
  generalize hsource : before ++ t ++ ',' :: (blanks ++ u) = source
  have hlength : source.length = (blanks ++ u).length + (before.length + t.length + 1) := by
    rw [← hsource]
    simp only [List.length_append, List.length_cons]
    omega
  have hcomma : (run source true false
      ⟨before.length + t.length, ',' :: (blanks ++ u)⟩).result =
        .error (e.movedTo source (before.length + t.length + 1)) := by
    refine run_error_of_lexeme (.comma hblanks) ?_
    rw [run_behind_comma hlength, Outcome.moved, hsecond]
  have hrun := run_before_comma hbefore rfl (blanks ++ u)
  rw [List.append_assoc] at hsource
  rw [← hsource, Token.ofSelector_behind_blanks hrun, hsource, List.length_append]
  exact hlexed.error_at_comma hcomma

end SelectorCheck
