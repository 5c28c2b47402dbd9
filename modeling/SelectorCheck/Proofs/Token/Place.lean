import SelectorCheck.Proofs.Argument.Place
import SelectorCheck.Proofs.Token.Malformed

/-!
# Where selectors are malformed

The lexer stops at a character of the selector, or behind the last one. The
tokens that it has cut lie in the selector too, and so does everything that an
error may say about them later: the text of an argument as a whole, and the
character behind the parenthesis of an argument that is not there.

## Main definitions

* `Token.Within` — the token lies in a text of some length.

## Main results

* `Token.ofSelector_within` — the tokens of a selector lie in it.
* `Token.place_of_error` — so does what the lexer stops at.
-/

namespace SelectorCheck

open Text

/-- The number of characters, from where a token begins, that errors can be placed in. -/
def Token.extent (t : Token) : Nat :=
  match t.kind with
  | .string => (t.value.getD []).length
  | .parenOpen => 1
  | _ => 0

/-- The token lies in a text of length `n`. -/
def Token.Within (n : Nat) (t : Token) : Prop := ∃ p : Nat, t.pos = (p : Int) ∧ p + t.extent ≤ n

theorem Token.Within.mono {m n : Nat} {t : Token} (h : t.Within m) (hle : m ≤ n) : t.Within n := by
  obtain ⟨p, hp, hpm⟩ := h
  exact ⟨p, hp, Nat.le_trans hpm hle⟩

namespace Lexer

variable {source text after : Text} {p : Nat} {tokens : List Token}

/-! ## Tokens lie in the selector -/

private theorem within_of_parenthesized (h : Parenthesized p text after tokens) :
    ∀ t ∈ tokens, t.Within (p + text.length) := by
  obtain @⟨blanks, content, after, -, -⟩ := h
  have hlength : p + ('(' :: (blanks ++ (content ++ [')']))).length =
      p + 1 + blanks.length + content.length + 1 := by
    simp only [List.length_cons, List.length_append, List.length_nil]
    omega
  rw [hlength]
  intro t ht
  rcases List.mem_append.mp ht with hinner | hclose
  · rcases List.mem_cons.mp hinner with rfl | harg
    · exact ⟨p, rfl, by simp only [Token.extent]; omega⟩
    · obtain rfl := eq_of_mem_argumentTokens harg
      have htrim := length_trimEnd_le content
      exact ⟨p + 1 + blanks.length, rfl, by simp only [Token.extent, Option.getD_some]; omega⟩
  · obtain rfl := List.mem_singleton.mp hclose
    exact ⟨p + 1 + blanks.length + content.length, rfl, by simp only [Token.extent]; omega⟩

private theorem extent_of_colons {colons : Text} {kind : TokenKind} (h : Colons colons kind)
    (p : Int) : Token.extent ⟨kind, none, p⟩ = 0 := by
  cases h <;> rfl

private theorem within_of_lexeme (h : Lexeme p text after tokens) :
    ∀ t ∈ tokens, t.Within (p + text.length) := by
  cases h with
  | combinator _ _ | comma _ | universal | id _ | className _ | tag _ _ =>
    intro t ht
    obtain rfl := List.mem_singleton.mp ht
    exact ⟨p, rfl, by simp only [Token.extent]; omega⟩
  | @name colons name _ kind hcolons _ _ =>
    intro t ht
    rw [List.length_append]
    rcases List.mem_cons.mp ht with rfl | hname
    · exact ⟨p, rfl, by rw [extent_of_colons hcolons]; omega⟩
    · obtain rfl := List.mem_singleton.mp hname
      exact ⟨p + colons.length, rfl, by simp only [Token.extent]; omega⟩
  | @call colons name text _ kind tokens hcolons _ htext =>
    intro t ht
    rw [List.length_append, List.length_append]
    rcases List.mem_cons.mp ht with rfl | hrest
    · exact ⟨p, rfl, by rw [extent_of_colons hcolons]; omega⟩
    · rcases List.mem_cons.mp hrest with rfl | harg
      · exact ⟨p + colons.length, rfl, by simp only [Token.extent]; omega⟩
      · exact (within_of_parenthesized htext t harg).mono (by omega)

private theorem within_of_lexed {t : Text} (h : Lexed source p t tokens)
    (hlength : p + t.length = source.length) : ∀ token ∈ tokens, token.Within source.length := by
  intro token htoken
  rcases h.mem_cases htoken with rfl | ⟨front, behind, rfl, rfl⟩ |
    ⟨front, text, after, first, rfl, hlexeme, hfirst⟩
  · exact ⟨source.length, rfl, Nat.le_refl _⟩
  · rw [List.length_append] at hlength
    exact ⟨p + front.length, rfl, by simp only [Token.extent]; omega⟩
  · rw [List.length_append, List.length_append] at hlength
    exact (within_of_lexeme hlexeme token hfirst).mono (by omega)

/-! ## What the lexer stops at -/

variable {t : Text} {e : SelectorError}

private theorem place_of_malformed (h : Malformed source p t e)
    (hlength : p + t.length = source.length) : e.PlacedIn source.length := by
  cases h with
  | @identifier mark rest _ _ =>
    rw [List.length_append] at hlength
    exact ⟨p + mark.length, rfl, by omega⟩
  | parenthesis _ _ _ _ => exact ⟨source.length, rfl, Nat.le_refl _⟩
  | bracket | character => exact ⟨p, rfl, by omega⟩

end Lexer

namespace Token

variable {source : Text}

/-- The tokens of a selector lie in it. -/
theorem ofSelector_within {tokens : List Token} (h : ofSelector source = .ok tokens) :
    ∀ t ∈ tokens, t.Within source.length := by
  obtain ⟨blanks, t, rfl, -, hlexed⟩ := ofSelector_eq_ok_iff.mp h
  exact Lexer.within_of_lexed hlexed List.length_append.symm

/-- The lexer stops at a character of the selector, or behind the last one. -/
theorem place_of_error {e : SelectorError} (h : ofSelector source = .error e) :
    e.PlacedIn source.length := by
  obtain ⟨front, t, hsource, hmalformed⟩ := exists_malformed h
  refine Lexer.place_of_malformed hmalformed ?_
  rw [hsource, List.length_append]

end Token

end SelectorCheck
