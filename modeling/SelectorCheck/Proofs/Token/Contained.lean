import SelectorCheck.Proofs.Argument.Contained
import SelectorCheck.Proofs.Token.Malformed

/-!
# Cutting an argument into tokens

The argument of a negation is cut into tokens like any other selector. It was cut
out of a selector before, by a scan that looked at parentheses and quotations
only, so it is self-contained. Every lexeme leaves a self-contained text: outside
of arguments the lexer passes over characters that mean nothing to a scan, and an
argument closes what it opens. A parenthesis that the lexer meets is therefore
always closed in the text.

## Main results

* `Lexer.Lexeme.contained` — the text behind a lexeme is self-contained.
* `Token.code_ne_of_error` — the lexer does not miss a closing parenthesis in a
  self-contained text.
-/

namespace SelectorCheck

open Text RawArgument

namespace Lexer

variable {source text after : Text} {p : Nat} {tokens : List Token}

/-! ## Behind a lexeme -/

private theorem isInert_of_isCombinator {c : Char} (h : isCombinator c = true) :
    isInert c = true :=
  isInert_of isCombinator h (by decide)

private theorem isInert_of_mem_name {name rest : Text} (h : NameRun name rest) :
    ∀ c ∈ name, isInert c = true :=
  fun c hc => isInert_of isNameChar (h.all c hc) (by decide)

private theorem isInert_of_mem_blanks {blanks rest : Text} (h : Run isBlank blanks rest) :
    ∀ c ∈ blanks, isInert c = true :=
  fun c hc => isInert_of_isBlank (h.all c hc)

private theorem isInert_of_mem_cons {c : Char} {t : Text} (hc : isInert c = true)
    (ht : ∀ d ∈ t, isInert d = true) : ∀ d ∈ c :: t, isInert d = true :=
  List.forall_mem_cons.mpr ⟨hc, ht⟩

private theorem isInert_of_mem_colons {colons : Text} {kind : TokenKind} (h : Colons colons kind) :
    ∀ c ∈ colons, isInert c = true := by
  have hcolon : ∀ d ∈ [':'], isInert d = true := isInert_of_mem_cons (by decide) (by simp)
  cases h with
  | single => exact hcolon
  | double => exact isInert_of_mem_cons (by decide) hcolon

/-- What stands behind an argument is self-contained if the argument and that together are. -/
private theorem contained_of_parenthesized {q : Nat} (h : Parenthesized q text after tokens)
    (hcontained : SelfContained (text ++ after)) : SelfContained after := by
  obtain @⟨blanks, content, after, hblanks, hscan⟩ := h
  have hinner : SelfContained (blanks ++ content) :=
    .inert_append (isInert_of_mem_blanks hblanks) (selfContained_of_scan hscan)
  refine SelfContained.of_parenthesized hinner ?_
  rwa [List.append_assoc]

/-- What stands behind a lexeme is self-contained if the lexeme and that together are. -/
theorem Lexeme.contained (h : Lexeme p text after tokens)
    (hcontained : SelfContained (text ++ after)) : SelfContained after := by
  cases h with
  | combinator hc hblanks =>
    exact hcontained.of_inert_append
      (isInert_of_mem_cons (isInert_of_isCombinator hc) (isInert_of_mem_blanks hblanks))
  | comma hblanks =>
    exact hcontained.of_inert_append
      (isInert_of_mem_cons (by decide) (isInert_of_mem_blanks hblanks))
  | universal => exact hcontained.of_inert_append (isInert_of_mem_cons (by decide) (by simp))
  | id hname | className hname =>
    exact hcontained.of_inert_append (isInert_of_mem_cons (by decide) (isInert_of_mem_name hname))
  | tag hname _ => exact hcontained.of_inert_append (isInert_of_mem_name hname)
  | name hcolons hname _ =>
    rw [List.append_assoc] at hcontained
    exact (hcontained.of_inert_append (isInert_of_mem_colons hcolons)).of_inert_append
      (isInert_of_mem_name hname)
  | call hcolons hname htext =>
    rw [List.append_assoc, List.append_assoc] at hcontained
    exact contained_of_parenthesized htext
      ((hcontained.of_inert_append (isInert_of_mem_colons hcolons)).of_inert_append
        (isInert_of_mem_name hname))

/-! ## Where a lexeme is malformed -/

variable {t : Text} {e : SelectorError}

/-- A parenthesis in a self-contained text is not what a lexeme is malformed for. -/
theorem Malformed.code_ne (h : Malformed source p t e) (hcontained : SelfContained t) :
    e.code ≠ .expectedClosingParen := by
  cases h with
  | identifier _ _ | bracket | character => simp
  | @parenthesis colons name blanks rest kind place hcolons hname hblanks hscan =>
    have hparen : SelfContained ('(' :: (blanks ++ rest)) :=
      (hcontained.of_inert_append (isInert_of_mem_colons hcolons)).of_inert_append
        (isInert_of_mem_name hname)
    obtain ⟨found, hfound⟩ := hparen.exists_scan (isInert_of_mem_blanks hblanks)
      (p + colons.length + name.length + 1 + blanks.length)
    rw [hscan] at hfound
    cases hfound

/-! ## Whole texts -/

private theorem code_ne_of_run {started blanks : Bool} {start : Cursor}
    (hcontained : SelfContained start.rest)
    (h : (run source started blanks start).result = .error e) :
    e.code ≠ .expectedClosingParen := by
  fun_induction run source started blanks start with
  | case1 => cases h
  | case2 started blanks pos c after hblank ih =>
    refine ih (SelfContained.of_inert_append (u := [c]) ?_ hcontained) h
    intro d hd
    obtain rfl := List.mem_singleton.mp hd
    exact isInert_of_isBlank hblank
  | case3 started blanks pos c after _ place f hread =>
    cases h
    exact (malformed_of_lexeme hread).code_ne hcontained
  | case4 started blanks pos c after _ place tokens hread ih =>
    obtain ⟨text, behind, ht, rfl, hlexeme⟩ := lexeme_eq_ok_iff.mp hread
    refine ih (hlexeme.contained ?_) (result_after_eq_error_iff.mp h)
    rw [← ht]
    exact hcontained

end Lexer

/-- The lexer does not miss a closing parenthesis in a self-contained text. -/
theorem Token.code_ne_of_error {source : Text} {e : SelectorError} (hsource : SelfContained source)
    (h : ofSelector source = .error e) : e.code ≠ .expectedClosingParen := by
  have hstart : SelfContained (Cursor.ofText source).rest := hsource
  exact Lexer.code_ne_of_run hstart h

end SelectorCheck
