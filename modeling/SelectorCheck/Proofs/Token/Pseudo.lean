import SelectorCheck.Proofs.Argument.Contained
import SelectorCheck.Proofs.Token.Lexed
import SelectorCheck.Selector.Grammar

/-!
# Pseudo names among the tokens

The grammar sees tokens only, and it may stop in the middle of them. Wherever
colons are the token ahead, a pseudo name stands in the text: a colon, the whole
run of name characters behind it and, where the name calls a function, an
argument in parentheses. The tokens of all that follow each other without a gap,
so the tokens ahead tell where in the text the name and its argument are.

## Main definitions

* `Lexer.NameIn` — a token that is a pseudo name in a text.
* `Lexer.CallIn` — tokens that are a call in a text.
* `Grammar.Inside` — the tokens between parentheses.

## Main results

* `Lexer.Lexed.of_suffix` — the text that the tokens from some colons on are.
* `Token.nameIn_of_suffix`, `Token.callIn_of_suffix` — the name behind colons, and
  the argument behind a parenthesis.
-/

namespace SelectorCheck

open Text RawArgument

/-! ## Between compound selectors -/

namespace Grammar

variable {t : Token}

theorem unmarked?_of_isSeparator (h : Lexer.isSeparator t.kind = true) : unmarked? t = none := by
  cases hkind : t.kind <;> simp_all [unmarked?, Lexer.isSeparator]

theorem unmarked?_of_isMarker (h : isMarker t.kind = true) : unmarked? t = none := by
  cases hkind : t.kind <;> simp_all [unmarked?, isMarker]

theorem isMarker_of_isSeparator (h : Lexer.isSeparator t.kind = true) :
    isMarker t.kind = false := by
  cases hkind : t.kind <;> simp_all [isMarker, Lexer.isSeparator]

theorem isSeparator_of_isMarker (h : isMarker t.kind = true) :
    Lexer.isSeparator t.kind = false := by
  cases hkind : t.kind <;> simp_all [isMarker, Lexer.isSeparator]

/-- Items end where a separator is ahead. -/
theorem items_of_isSeparator {s : Setting} {tokens : List Token}
    (h : Lexer.isSeparator (peek tokens).kind = true) : items s tokens = .value tokens [] := by
  cases tokens with
  | nil => rw [items]
  | cons t rest =>
    have ht : Lexer.isSeparator t.kind = true := h
    rw [items, unmarked?_of_isSeparator ht]
    simp only [isMarker_of_isSeparator ht, Bool.false_eq_true, if_false]

end Grammar

namespace Lexer

/-- The token is a pseudo name of `source`, with all the name characters at its place, and a colon
stands in front of it. -/
inductive NameIn (source : Text) : (name : Token) → Prop where
  | mk {before called after : Text} (hsource : source = before ++ ':' :: (called ++ after))
      (hname : NameRun called after) :
      NameIn source ⟨.tag, some called, (before.length + 1 : Nat)⟩

/-- The tokens are a function in `source`, called by the token `name`, and what stands behind its
opening parenthesis. -/
inductive CallIn (source : Text) : (name paren : Token) → (rest : List Token) → Prop where
  | mk {before called blanks content after : Text} {close : Token} {others : List Token}
      (hsource : source =
        before ++ ':' :: (called ++ '(' :: (blanks ++ (content ++ ')' :: after))))
      (hname : NameRun called ['(']) (hblanks : Run isBlank blanks (content ++ ')' :: after))
      (hcontent : SelfContained content) (hclose : close.kind = .parenClose) :
      CallIn source ⟨.tag, some called, (before.length + 1 : Nat)⟩
        ⟨.parenOpen, none, (before.length + 1 + called.length : Nat)⟩
        (argumentTokens content
          ⟨before.length + 1 + called.length + 1 + blanks.length, content ++ ')' :: after⟩ ++
          close :: others)

variable {source text after : Text} {p : Nat} {marker : Token} {tokens rest : List Token}

/-! ## The text from some colons on -/

private theorem isMarker_of_parenthesized (h : Parenthesized p text after tokens) :
    ∀ t ∈ tokens, Grammar.isMarker t.kind = false := by
  intro t ht
  rcases h.kind_of_mem ht with hkind | hkind | hkind <;> rw [hkind] <;> rfl

/-- Colons are the first token of a lexeme and no other one. -/
private theorem isMarker_of_mem_tail {token : Token} {first : List Token}
    (h : Lexeme p text after (token :: first)) : ∀ t ∈ first, Grammar.isMarker t.kind = false := by
  intro t ht
  cases h with
  | combinator _ _ | comma _ | universal | id _ | className _ | tag _ _ => cases ht
  | name _ _ _ =>
    obtain rfl := List.mem_singleton.mp ht
    rfl
  | call _ _ htext =>
    rcases List.mem_cons.mp ht with rfl | hinner
    · rfl
    · exact isMarker_of_parenthesized htext t hinner

/-- What is found in a text is found behind another text in front of it. -/
private theorem exists_behind (text : Text) {t : Text}
    (h : ∃ before behind, t = before ++ behind ∧
      Lexed source (p + text.length + before.length) behind tokens) :
    ∃ before behind, text ++ t = before ++ behind ∧
      Lexed source (p + before.length) behind tokens := by
  obtain ⟨before, behind, rfl, hbehind⟩ := h
  refine ⟨text ++ before, behind, by rw [List.append_assoc], ?_⟩
  rw [List.length_append, ← Nat.add_assoc]
  exact hbehind

/-- The tokens from some colons on are those of the text from the colons on. -/
theorem Lexed.of_suffix {t : Text} (h : Lexed source p t tokens)
    (hsuffix : marker :: rest <:+ tokens) (hmarker : Grammar.isMarker marker.kind = true) :
    ∃ before behind, t = before ++ behind ∧
      Lexed source (p + before.length) behind (marker :: rest) := by
  induction h with
  | done _ =>
    obtain rfl : marker = _ := List.mem_singleton.mp (hsuffix.mem List.mem_cons_self)
    cases hmarker
  | @lexeme p text after first others hlexeme hothers ih =>
    obtain ⟨front, hfront⟩ := hsuffix
    rcases List.append_eq_append_iff.mp hfront with
      ⟨inner, hfirst, hinner⟩ | ⟨inner, hfront, hinner⟩
    · -- The colons are in the lexeme, of which they are the first token, or right behind it.
      cases inner with
      | nil => exact exists_behind text (ih ⟨[], hinner⟩)
      | cons head inner =>
        obtain ⟨rfl, rfl⟩ := List.cons.inj hinner
        cases front with
        | nil =>
          obtain rfl : first = marker :: inner := hfirst
          exact ⟨[], text ++ after, rfl, .lexeme hlexeme hothers⟩
        | cons head front =>
          rw [List.cons_append] at hfirst
          subst hfirst
          have hother := isMarker_of_mem_tail hlexeme marker
            (List.mem_append_right front List.mem_cons_self)
          rw [hother] at hmarker
          cases hmarker
    · exact exists_behind text (ih ⟨inner, hinner.symm⟩)
  | @gap p blanks t c others _ _ _ _ _ ih =>
    rcases List.suffix_cons_iff.mp hsuffix with heq | hothers
    · cases heq
      cases hmarker
    · exact exists_behind blanks (ih hothers)
  | @absorbed p blanks t c others _ _ _ _ ih => exact exists_behind blanks (ih hsuffix)

end Lexer

namespace Token

open Lexer

variable {source : Text} {marker name paren : Token} {tokens rest : List Token}

/-- The lexeme that some colons of a selector begin. -/
private theorem exists_lexeme (htokens : ofSelector source = .ok tokens)
    (hsuffix : marker :: rest <:+ tokens) (hmarker : Grammar.isMarker marker.kind = true) :
    ∃ before text after first others, source = before ++ (text ++ after) ∧
      Lexeme before.length text after (marker :: first) ∧ rest = first ++ others ∧
      Lexed source (before.length + text.length) after others := by
  obtain ⟨blanks, t, rfl, -, hlexed⟩ := ofSelector_eq_ok_iff.mp htokens
  obtain ⟨before, behind, rfl, hbehind⟩ := hlexed.of_suffix hsuffix hmarker
  obtain ⟨text, after, first, others, rfl, hlexeme, rfl, hothers⟩ :=
    hbehind.exists_lexeme (Grammar.isSeparator_of_isMarker hmarker)
  rw [← List.length_append] at hlexeme hothers
  exact ⟨blanks ++ before, text, after, first, others, by simp, hlexeme, rfl, hothers⟩

/-- The last of the colons in front of a name. -/
private theorem exists_colon {colons : Text} {kind : TokenKind} (h : Colons colons kind)
    (before t : Text) : ∃ front : Text, before ++ (colons ++ t) = front ++ ':' :: t ∧
      before.length + colons.length = front.length + 1 := by
  cases h with
  | single => exact ⟨before, rfl, rfl⟩
  | double => exact ⟨before ++ [':'], by simp, by simp⟩

/-- Behind colons stands a pseudo name. -/
theorem nameIn_of_suffix (htokens : ofSelector source = .ok tokens)
    (hsuffix : marker :: name :: rest <:+ tokens)
    (hmarker : Grammar.isMarker marker.kind = true) : NameIn source name := by
  obtain ⟨before, text, after, first, others, rfl, hlexeme, hrest, -⟩ :=
    exists_lexeme htokens hsuffix hmarker
  cases hlexeme with
  | combinator _ _ | comma _ | universal | id _ | className _ | tag _ _ => cases hmarker
  | @name colons called _ kind hcolons hname _ =>
    obtain ⟨front, hsource, hlength⟩ := exists_colon hcolons before (called ++ after)
    cases hrest
    rw [List.append_assoc, hsource, hlength]
    exact .mk rfl hname
  | @call colons called text _ kind inner hcolons hname _ =>
    obtain ⟨front, hsource, hlength⟩ := exists_colon hcolons before (called ++ (text ++ after))
    cases hrest
    rw [List.append_assoc, List.append_assoc, hsource, hlength]
    exact .mk rfl hname

/-- Behind an opening parenthesis stands the argument of a call. -/
theorem callIn_of_suffix (htokens : ofSelector source = .ok tokens)
    (hsuffix : marker :: name :: paren :: rest <:+ tokens)
    (hmarker : Grammar.isMarker marker.kind = true) (hparen : paren.kind = .parenOpen) :
    CallIn source name paren rest := by
  obtain ⟨before, text, after, first, others, rfl, hlexeme, hrest, hothers⟩ :=
    exists_lexeme htokens hsuffix hmarker
  cases hlexeme with
  | combinator _ _ | comma _ | universal | id _ | className _ | tag _ _ => cases hmarker
  | name _ _ _ =>
    cases hrest
    exact absurd hparen hothers.kind_ne_parenOpen
  | @call colons called text _ kind inner hcolons hname htext =>
    obtain @⟨blanks, content, after, hblanks, hscan⟩ := htext
    simp only [List.cons_append, List.cons.injEq] at hrest
    obtain ⟨rfl, rfl, rfl⟩ := hrest
    have hopen : NameRun called ['('] := hname.before_cons rfl
    obtain ⟨front, hsource, hlength⟩ := exists_colon hcolons before
      (called ++ '(' :: (blanks ++ (content ++ ')' :: after)))
    have htext : before ++ (colons ++ (called ++ '(' :: (blanks ++ (content ++ [')']))) ++ after) =
        before ++ (colons ++ (called ++ '(' :: (blanks ++ (content ++ ')' :: after)))) := by
      simp
    rw [htext, hsource, hlength, List.append_assoc]
    exact .mk rfl hopen hblanks (selfContained_of_scan hscan) rfl

end Token

/-! ## Arguments -/

/-- What the argument of a call is, and where it begins. -/
theorem Grammar.enclosed_argumentTokens (paren : Token) (content : Text) (start : Cursor)
    {close : Token} (hclose : close.kind = .parenClose) (rest : List Token) :
    Grammar.enclosed paren (Lexer.argumentTokens content start ++ close :: rest) =
      if content.trimEnd = [] then ⟨none, paren.pos + 1, close :: rest⟩
      else ⟨some content.trimEnd, start.pos, close :: rest⟩ := by
  unfold Lexer.argumentTokens
  by_cases hblank : content.trimEnd = []
  · have hkind : (peek (close :: rest)).kind ≠ .string := by simp [peek, hclose]
    rw [if_pos hblank, if_pos hblank, List.nil_append, enclosed, if_neg hkind]
  · rw [if_neg hblank, if_neg hblank]
    rfl

namespace Grammar

/-- The tokens between the parentheses of a call with the argument text `arg`. -/
inductive Inside : (arg : Option Text) → (row : List Token) → Prop where
  | none : Inside none []
  | text {t : Token} (ht : t.kind = .string) : Inside t.value [t]

/-- What stands between parentheses is found there. -/
theorem Inside.enclosed {arg : Option Text} {inside : List Token} (h : Inside arg inside)
    {close : Token} (hclose : close.kind = .parenClose) (paren : Token) (behind : List Token) :
    ∃ start, Grammar.enclosed paren (inside ++ close :: behind) =
      ⟨arg, start, close :: behind⟩ := by
  cases h with
  | none =>
    have hother : (peek (close :: behind)).kind ≠ .string := by simp [peek, hclose]
    exact ⟨paren.pos + 1, by rw [List.nil_append, Grammar.enclosed, if_neg hother]⟩
  | @text t ht =>
    have hstring : (peek (t :: close :: behind)).kind = .string := ht
    exact ⟨t.pos, by rw [List.singleton_append, Grammar.enclosed, if_pos hstring]; rfl⟩

theorem inside_argumentTokens (content : Text) (start : Cursor) :
    ∃ arg, Inside arg (Lexer.argumentTokens content start) := by
  unfold Lexer.argumentTokens
  split
  · exact ⟨none, .none⟩
  · exact ⟨_, .text rfl⟩

end Grammar

/-- The argument of a call is self-contained. -/
theorem Lexer.CallIn.selfContained {source : Text} {name paren : Token} {rest : List Token}
    (h : CallIn source name paren rest) :
    SelfContained ((Grammar.enclosed paren rest).text.getD []) := by
  obtain @⟨before, called, blanks, content, after, close, others, -, -, -, hcontent, hclose⟩ := h
  rw [Grammar.enclosed_argumentTokens _ _ _ hclose]
  split
  · exact .nil
  · exact hcontent.trimEnd

end SelectorCheck
