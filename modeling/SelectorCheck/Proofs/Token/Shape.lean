import SelectorCheck.Proofs.Token.Lexed

/-!
# What the tokens of a selector look like

The last token is the end. An opening parenthesis is a token only where a
function is called: the token in front of it is the name of the function, and an
argument behind it is cut out of the text. Name, argument, colon and parentheses
stand in the text one after the other, so an argument is shorter than the text
by all the others.

## Main results

* `Token.exists_end` — the end comes last.
* `Token.exists_call` — the name in front of a parenthesis, and the argument
  behind it.
-/

namespace SelectorCheck.Lexer

open Text RawArgument

variable {source text after : Text} {p : Nat} {before behind : List Token} {name paren : Token}

private theorem Lexed.exists_end {source t : Text} {tokens : List Token}
    (h : Lexed source p t tokens) : ∃ last ∈ tokens.getLast?, last.kind = .eof := by
  induction h with
  | done _ => exact ⟨_, rfl, rfl⟩
  | lexeme _ hrest ih =>
    obtain ⟨last, hlast, heof⟩ := ih
    refine ⟨last, ?_, heof⟩
    rw [Option.mem_def] at hlast ⊢
    rw [List.getLast?_append, hlast, Option.some_or]
  | gap _ _ _ _ hrest ih =>
    obtain ⟨last, hlast, heof⟩ := ih
    refine ⟨last, ?_, heof⟩
    rw [Option.mem_def] at hlast ⊢
    rw [List.getLast?_cons, hlast, Option.getD_some]
  | absorbed _ _ _ _ ih => exact ih

private theorem kind_ne_parenOpen_of_mem {content : Text} {start : Cursor} {close : Int}
    {t : Token} (h : t ∈ argumentTokens content start ++ [⟨.parenClose, none, close⟩]) :
    t.kind ≠ .parenOpen := by
  rcases List.mem_append.mp h with harg | hclose
  · simp [eq_of_mem_argumentTokens harg]
  · rw [List.mem_singleton] at hclose
    simp [hclose]

private theorem mem_of_cons_eq {first : Token} {inner : List Token}
    (h : first :: inner = before ++ name :: paren :: behind) : paren ∈ inner := by
  cases before with
  | nil =>
    cases h
    exact List.mem_cons_self
  | cons _ before =>
    rw [List.cons_append, List.cons.injEq] at h
    rw [h.2]
    simp

/-- What stands around an opening parenthesis in a lexeme. -/
private theorem Lexeme.of_paren {tokens : List Token} (h : Lexeme p text after tokens)
    (htokens : tokens = before ++ name :: paren :: behind) (hparen : paren.kind = .parenOpen) :
    ∃ called content start close, name.value = some called ∧
      behind = argumentTokens content start ++ [⟨.parenClose, none, close⟩] ∧
      called.length + content.length + 3 ≤ text.length := by
  have hlength := congrArg List.length htokens
  simp only [List.length_append, List.length_cons] at hlength
  cases h with
  | combinator _ _ | comma _ | universal | id _ | className _ | tag _ _ =>
    simp only [List.length_cons, List.length_nil] at hlength
    omega
  | name _ _ _ =>
    -- Colons and a name leave no room for a third token.
    obtain rfl : before = [] := List.length_eq_zero_iff.mp (by simp at hlength; omega)
    cases htokens
    cases hparen
  | @call colons called text after kind tokens hcolons hname htext =>
    obtain @⟨blanks, content, after, hrun, hscan⟩ := htext
    rcases before with _ | ⟨_, _ | ⟨_, before⟩⟩
    · cases htokens
      cases hparen
    · cases htokens
      refine ⟨called, content, _, _, rfl, rfl, ?_⟩
      have hcolon : 1 ≤ colons.length := by cases hcolons <;> decide
      simp only [List.length_append, List.length_cons, List.length_nil]
      omega
    · simp only [List.cons_append, List.cons.injEq] at htokens
      obtain ⟨-, -, hbehind⟩ := htokens
      exact absurd hparen (kind_ne_parenOpen_of_mem (mem_of_cons_eq hbehind))

/-- What stands around an opening parenthesis among the tokens of a text. -/
private theorem Lexed.of_paren {source t : Text} {string : Token} {all behind : List Token}
    (h : Lexed source p t all) (hall : all = before ++ name :: paren :: string :: behind)
    (hparen : paren.kind = .parenOpen) (hstring : string.kind = .string) :
    ∃ called arg, name.value = some called ∧ string.value = some arg ∧
      called.length + arg.length + 3 ≤ t.length := by
  induction h generalizing before with
  | done _ =>
    have hlength := congrArg List.length hall
    simp only [List.length_append, List.length_cons, List.length_nil] at hlength
    omega
  | @lexeme _ text after first rest hlexeme hrest ih =>
    rw [List.length_append]
    rcases List.append_eq_append_iff.mp hall with
      ⟨others, hbefore, hothers⟩ | ⟨inner, hfirst, hinner⟩
    · obtain ⟨called, arg, hname, harg, hlength⟩ := ih hothers
      exact ⟨called, arg, hname, harg, by omega⟩
    · -- The three tokens begin within the lexeme.
      rcases inner with _ | ⟨_, _ | ⟨_, inner⟩⟩
      · have hrest := hinner.symm.trans (List.nil_append _).symm
        obtain ⟨called, arg, hname, harg, hlength⟩ := ih hrest
        exact ⟨called, arg, hname, harg, by omega⟩
      · simp only [List.cons_append, List.nil_append, List.cons.injEq] at hinner
        obtain ⟨-, rfl⟩ := hinner
        exact absurd hparen hrest.kind_ne_parenOpen
      · simp only [List.cons_append, List.cons.injEq] at hinner
        obtain ⟨rfl, rfl, hinner⟩ := hinner
        obtain ⟨called, content, start, close, hname, rfl, hlength⟩ :=
          hlexeme.of_paren hfirst hparen
        by_cases hblank : content.trimEnd = []
        · rw [argumentTokens, if_pos hblank] at hinner
          cases hinner
          cases hstring
        · rw [argumentTokens, if_neg hblank] at hinner
          cases hinner
          have htrim := length_trimEnd_le content
          exact ⟨called, content.trimEnd, hname, rfl, by omega⟩
  | @gap _ blanks t c tokens _ _ _ _ hrest ih =>
    cases before with
    | nil =>
      cases hall
      exact absurd hparen hrest.kind_ne_parenOpen
    | cons _ before =>
      cases hall
      obtain ⟨called, arg, hname, harg, hlength⟩ := ih rfl
      exact ⟨called, arg, hname, harg, by rw [List.length_append]; omega⟩
  | @absorbed _ blanks t c tokens _ _ _ _ ih =>
    obtain ⟨called, arg, hname, harg, hlength⟩ := ih hall
    exact ⟨called, arg, hname, harg, by rw [List.length_append]; omega⟩

end SelectorCheck.Lexer

namespace SelectorCheck

/-- The last token of a selector is the end. -/
theorem Token.exists_end {source : Text} {tokens : List Token}
    (htokens : Token.ofSelector source = .ok tokens) :
    ∃ last ∈ tokens.getLast?, last.kind = .eof := by
  obtain ⟨_, _, -, -, hlexed⟩ := Token.ofSelector_eq_ok_iff.mp htokens
  exact hlexed.exists_end

/-- In front of an opening parenthesis stands a name. An argument behind the parenthesis is shorter
than the selector by the name, the colon and the parentheses. -/
theorem Token.exists_call {source : Text} {tokens : List Token} {name paren string : Token}
    (htokens : Token.ofSelector source = .ok tokens) (h : [name, paren, string] <:+: tokens)
    (hparen : paren.kind = .parenOpen) (hstring : string.kind = .string) :
    ∃ called arg, name.value = some called ∧ string.value = some arg ∧
      called.length + arg.length + 3 ≤ source.length := by
  obtain ⟨blanks, t, rfl, -, hlexed⟩ := Token.ofSelector_eq_ok_iff.mp htokens
  obtain ⟨before, after, heq⟩ := h
  have hall : tokens = before ++ name :: paren :: string :: after := by
    rw [← heq, List.append_assoc]
    rfl
  obtain ⟨called, arg, hname, harg, hlength⟩ := hlexed.of_paren hall hparen hstring
  exact ⟨called, arg, hname, harg, by rw [List.length_append]; omega⟩

end SelectorCheck
