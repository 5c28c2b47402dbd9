import SelectorCheck.Proofs.Token.Lexed
import SelectorCheck.Proofs.Token.Spans

/-!
# The tokens of a selector account for all of it

The lexer skips blanks in four places: between lexemes, behind a mark, behind a
comma, and around the argument of a function. Wherever it does, the blanks are
outside of all spans, and they are a descendant combinator only in the first of
these places.

## Main definitions

* `TokenSpan.Boundary` — what holds wherever a lexeme ends.

## Main results

* `Lexer.Lexeme.exists_laid` — the tokens of a lexeme are laid out in it.
* `Lexer.Lexed.exists_laid` — so are those of a row of lexemes.
* `Token.lossless` — the tokens of a selector are an account without loss.
-/

namespace SelectorCheck

open Text

namespace TokenSpan

variable {source before blanks text after ahead : Text} {left : Option Token} {t : Token}
  {row : List TokenSpan}

/-! ## Layouts in parts -/

@[simp] theorem gapsBetween_nil (left : Option Token) (t : Token) : gapsBetween left [] t = [] := by
  simp [gapsBetween]

theorem gapsBetween_of_not_opens (h : opensBehind left = false) (blanks : Text) (t : Token) :
    gapsBetween left blanks t = [] := by
  simp [gapsBetween, h]

/-- A span that no blanks stand in front of. -/
theorem Laid.next (hpos : t.pos = before.length)
    (hspelled : Spelled before after (isColons left) t text)
    (hrest : Laid (before ++ text) (some t) after row) :
    Laid before left (text ++ after) (⟨[], isColons left, t, text⟩ :: row) := by
  have hspelled' : Spelled (before ++ []) after (isColons left) t text := by
    rw [List.append_nil]
    exact hspelled
  have hall : Laid before left ([] ++ (text ++ after))
      (⟨gapsBetween left [] t, isColons left, t, text⟩ :: row) := .cons rfl hpos hspelled' hrest
  rw [gapsBetween_nil] at hall
  exact hall

/-- Blanks that are no descendant combinator may stand in front. -/
theorem Laid.behind_blanks (h : Laid (before ++ blanks) left ahead row)
    (hblanks : allBlank blanks = true) (hopens : opensBehind left = false) :
    Laid before left (blanks ++ ahead) row := by
  cases h with
  | done hahead =>
    have hall : allBlank (blanks ++ ahead) = true := by
      rw [allBlank_append, hblanks, hahead]
      rfl
    have hlength : (before ++ blanks).length + ahead.length =
        before.length + (blanks ++ ahead).length := by
      rw [List.length_append, List.length_append, Nat.add_assoc]
    rw [hlength]
    exact .done hall
  | @cons _ others text after _ t row hothers hpos hspelled hrest =>
    have hall : allBlank (blanks ++ others) = true := by
      rw [allBlank_append, hblanks, hothers]
      rfl
    rw [gapsBetween_of_not_opens hopens others,
      ← gapsBetween_of_not_opens hopens (blanks ++ others), ← List.append_assoc blanks]
    refine .cons hall ?_ ?_ ?_
    · rw [hpos]
      simp only [List.length_append]
      omega
    · rw [← List.append_assoc]
      exact hspelled
    · have hfront : before ++ (blanks ++ others ++ text) =
          before ++ blanks ++ (others ++ text) := by simp
      rw [hfront]
      exact hrest

/-! ## Where lexemes end -/

private theorem not_isNameChar_of_isBlank {c : Char} (h : isBlank c = true) :
    isNameChar c = false := by
  cases hchar : isNameChar c with
  | false => rfl
  | true =>
    rw [isBlank_of_isNameChar hchar] at h
    cases h

/-- What holds between the text `before`, the last token of which is `left`, and the text `ahead`:
blanks are all read where they mean nothing, a name is read behind colons, and no name goes on. -/
structure Boundary (before : Text) (left : Option Token) (ahead : Text) : Prop where
  blanks : opensBehind left = false → ∀ c ∈ ahead.head?, isBlank c = false
  colons : isColons left = false
  name : ∀ c ∈ before.getLast?, ∀ d ∈ ahead.head?, isNameChar d = true → isNameChar c = false

/-- A text that does not end with a character of a name is no part of one. -/
theorem Boundary.of_last (hne : text ≠ []) (hlast : ∀ c ∈ text.getLast?, isNameChar c = false)
    (hblanks : opensBehind left = false → ∀ c ∈ after.head?, isBlank c = false)
    (hcolons : isColons left = false) : Boundary (before ++ (blanks ++ text)) left after where
  blanks := hblanks
  colons := hcolons
  name := by
    intro c hc _ _ _
    rw [← List.append_assoc, getLast?_append_right hne] at hc
    exact hlast c hc

/-- Behind a whole name no name goes on. -/
theorem Boundary.of_nameRun {name : Text} (hname : NameRun name after)
    (hopens : opensBehind left = true) (hcolons : isColons left = false) :
    Boundary before left after where
  blanks := by
    intro hclosed
    rw [hopens] at hclosed
    cases hclosed
  colons := hcolons
  name := by
    intro _ _ d hd hchar
    rw [hname.stops d hd] at hchar
    cases hchar

/-- A name behind blanks is not the end of another one. -/
theorem Boundary.not_isNameChar {name : Text} (h : Boundary before left (blanks ++ (name ++ after)))
    (hblanks : allBlank blanks = true) (hname : NameRun name after) :
    ∀ c ∈ (before ++ blanks).getLast?, isNameChar c = false := by
  intro c hc
  by_cases hnone : blanks = []
  · subst hnone
    rw [List.append_nil] at hc
    obtain ⟨d, rest, rfl, hd⟩ := hname.eq_cons
    exact h.name c hc d rfl hd
  · rw [getLast?_append_right hnone] at hc
    exact not_isNameChar_of_isBlank (allBlank_iff.mp hblanks c (List.mem_of_getLast? hc))

end TokenSpan

namespace Lexer

open TokenSpan

variable {source before blanks text after : Text} {left : Option Token} {p q : Nat}
  {first tokens : List Token}

/-! ## Lexemes -/

/-- A span behind blanks that are no descendant combinator. -/
private theorem laid_behind {t : Token} {row : List TokenSpan} (hopens : opensBehind left = false)
    (hblanks : allBlank blanks = true) (hpos : t.pos = (before ++ blanks).length)
    (hspelled : Spelled (before ++ blanks) after (isColons left) t text)
    (hrest : Laid (before ++ blanks ++ text) (some t) after row) :
    Laid before left (blanks ++ (text ++ after)) (⟨[], isColons left, t, text⟩ :: row) :=
  .behind_blanks (.next hpos hspelled hrest) hblanks hopens

/-- The tokens of an argument in parentheses are laid out in it. -/
theorem Parenthesized.exists_laid (h : Parenthesized q text after tokens) (hq : q = before.length)
    (left : Option Token) :
    ∃ row last, row.flatMap TokenSpan.tokens = tokens ∧ last.kind = .parenClose ∧
      text.getLast? = some ')' ∧
      ∀ rest, Laid (before ++ text) (some last) after rest →
        Laid before left (text ++ after) (row ++ rest) := by
  obtain @⟨blanks, content, after, hblanks, -⟩ := h
  have hall : allBlank blanks = true := allBlank_iff.mpr hblanks.all
  have hlast : ('(' :: (blanks ++ (content ++ [')']))).getLast? = some ')' := by
    simp [List.getLast?_cons]
  obtain ⟨padding, hpadding, hcontent⟩ := exists_trimEnd_append content
  -- Neither behind the opening parenthesis nor behind the argument are blanks a combinator.
  let paren : Token := ⟨.parenOpen, none, q⟩
  let close : Token := ⟨.parenClose, none, (q + 1 + blanks.length + content.length : Nat)⟩
  by_cases hnone : content.trimEnd = []
  · rw [hnone, List.nil_append] at hcontent
    subst hcontent
    have hboth : allBlank (blanks ++ content) = true := by
      rw [allBlank_append, hall, hpadding]
      rfl
    refine ⟨[⟨[], isColons left, paren, ['(']⟩, ⟨[], false, close, [')']⟩], close, ?_, rfl, hlast,
      fun rest hrest => ?_⟩
    · simp [TokenSpan.tokens, argumentTokens, hnone, paren, close]
    · have hinner : Laid (before ++ ['(']) (some paren) ((blanks ++ content) ++ ([')'] ++ after))
          (⟨[], false, close, [')']⟩ :: rest) := by
        refine laid_behind rfl hboth ?_ .parenClose (by simpa using hrest)
        simp only [close, hq, List.length_append, List.length_cons, List.length_nil]
        omega
      have hopen : paren.pos = (before.length : Nat) := by
        simp only [paren, hq]
      simpa using Laid.next hopen .parenOpen hinner
  · generalize harg : content.trimEnd = arg at hcontent hnone
    subst hcontent
    let argument : Token := ⟨.string, some arg, (q + 1 + blanks.length : Nat)⟩
    refine ⟨[⟨[], isColons left, paren, ['(']⟩, ⟨[], false, argument, arg⟩,
      ⟨[], false, close, [')']⟩], close, ?_, rfl, hlast, fun rest hrest => ?_⟩
    · simp [TokenSpan.tokens, argumentTokens, harg, hnone, paren, argument, close]
    · have hbehind : Laid (before ++ ['('] ++ blanks ++ arg) (some argument)
          (padding ++ ([')'] ++ after)) (⟨[], false, close, [')']⟩ :: rest) := by
        refine laid_behind rfl hpadding ?_ .parenClose (by simpa using hrest)
        simp only [close, hq, List.length_append, List.length_cons, List.length_nil]
        omega
      have hinner : Laid (before ++ ['(']) (some paren)
          (blanks ++ (arg ++ (padding ++ ([')'] ++ after))))
          (⟨[], false, argument, arg⟩ :: ⟨[], false, close, [')']⟩ :: rest) := by
        refine laid_behind rfl hall ?_ (.string hnone) hbehind
        simp only [argument, hq, List.length_append, List.length_cons, List.length_nil]
      have hopen : paren.pos = (before.length : Nat) := by
        simp only [paren, hq]
      simpa using Laid.next hopen .parenOpen hinner

/-- A single token that is spelled at its place. -/
private theorem laid_single (left : Option Token) {t : Token} (hblanks : allBlank blanks = true)
    (hpos : t.pos = (before.length + blanks.length : Nat))
    (hspelled : Spelled (before ++ blanks) after (isColons left) t text) :
    ∃ row : List TokenSpan, row.flatMap TokenSpan.tokens = gapsBetween left blanks t ++ [t] ∧
      ∀ rest, Laid (before ++ (blanks ++ text)) (some t) after rest →
        Laid before left (blanks ++ (text ++ after)) (row ++ rest) :=
  ⟨[⟨gapsBetween left blanks t, isColons left, t, text⟩], by simp [TokenSpan.tokens],
    fun _ hrest => .cons hblanks hpos hspelled hrest⟩

/-- A mark with the blanks behind it does not end with a character of a name. -/
private theorem not_isNameChar_of_mark {c : Char} {behind : Text} (hc : isNameChar c = false)
    (hbehind : allBlank behind = true) : ∀ d ∈ (c :: behind).getLast?, isNameChar d = false := by
  intro d hd
  rcases List.mem_cons.mp (List.mem_of_getLast? hd) with rfl | hmem
  · exact hc
  · exact not_isNameChar_of_isBlank (allBlank_iff.mp hbehind d hmem)

private theorem not_isNameChar_of_isCombinator {c : Char} (h : isCombinator c = true) :
    isNameChar c = false := by
  rcases isCombinator_iff.mp h with rfl | rfl | rfl <;> decide

/-- A mark or a comma, with the blanks behind it. -/
private theorem laid_separator (left : Option Token) {t : Token} {c : Char} {behind : Text}
    (hblanks : allBlank blanks = true)
    (hpos : t.pos = (before.length + blanks.length : Nat))
    (hspelled : Spelled (before ++ blanks) (behind ++ after) (isColons left) t [c])
    (hbehind : allBlank behind = true) (hopens : opensGap t.kind = false) :
    ∃ row : List TokenSpan, row.flatMap TokenSpan.tokens = gapsBetween left blanks t ++ [t] ∧
      ∀ rest, Laid (before ++ (blanks ++ c :: behind)) (some t) after rest →
        Laid before left (blanks ++ ((c :: behind) ++ after)) (row ++ rest) := by
  obtain ⟨row, hrow, hlaid⟩ := laid_single left hblanks hpos hspelled
  refine ⟨row, hrow, fun rest hrest => hlaid rest ?_⟩
  refine .behind_blanks ?_ hbehind hopens
  simpa using hrest

/-- Colons with the name behind them. -/
private theorem laid_pseudo {colons name : Text} {kind : TokenKind} {row : List TokenSpan}
    (hblanks : allBlank blanks = true) (hp : p = before.length + blanks.length)
    (hcolons : Colons colons kind) (hname : NameRun name after)
    (hrest : Laid (before ++ (blanks ++ (colons ++ name)))
      (some ⟨.tag, some name, (p + colons.length : Nat)⟩) after row) :
    Laid before left (blanks ++ (colons ++ (name ++ after)))
      (⟨gapsBetween left blanks ⟨kind, none, p⟩, isColons left, ⟨kind, none, p⟩, colons⟩ ::
        ⟨[], true, ⟨.tag, some name, (p + colons.length : Nat)⟩, name⟩ :: row) := by
  have hspelled : Spelled (before ++ blanks) (name ++ after) (isColons left) ⟨kind, none, p⟩
      colons := by
    cases hcolons with
    | single => exact .colon
    | double => exact .doubleColon
  have hmarker : isColons (some ⟨kind, none, p⟩) = true := by
    cases hcolons <;> rfl
  have hlast : ∀ c ∈ (before ++ (blanks ++ colons)).getLast?, isNameChar c = false := by
    intro c hc
    have hcolon : c = ':' := by
      cases hcolons <;> simpa [List.getLast?_append, eq_comm] using hc
    rw [hcolon]
    decide
  have hpos : ((p + colons.length : Nat) : Int) = (before ++ (blanks ++ colons)).length := by
    rw [hp, List.length_append, List.length_append, Nat.add_assoc]
  have hinner : Laid (before ++ (blanks ++ colons)) (some ⟨kind, none, p⟩) (name ++ after)
      (⟨[], isColons (some ⟨kind, none, p⟩), ⟨.tag, some name, (p + colons.length : Nat)⟩, name⟩ ::
        row) :=
    .next hpos (.name hmarker hname hlast) (by simpa using hrest)
  rw [hmarker] at hinner
  exact .cons hblanks (by rw [hp]) hspelled hinner

/-- The tokens of a lexeme are laid out in it, behind the blanks in front of it. -/
theorem Lexeme.exists_laid {t : Token} (h : Lexeme p text after (t :: first))
    (hp : p = before.length + blanks.length) (hblanks : allBlank blanks = true)
    (hboundary : Boundary before left (blanks ++ (text ++ after))) :
    ∃ row last, Boundary (before ++ (blanks ++ text)) (some last) after ∧
      row.flatMap TokenSpan.tokens = gapsBetween left blanks t ++ t :: first ∧
      ∀ rest, Laid (before ++ (blanks ++ text)) (some last) after rest →
        Laid before left (blanks ++ (text ++ after)) (row ++ rest) := by
  have hpos : (p : Int) = (before.length + blanks.length : Nat) := by rw [hp]
  cases h with
  | @combinator c behind after hc hbehind =>
    have hall : allBlank behind = true := allBlank_iff.mpr hbehind.all
    have hlast := not_isNameChar_of_mark (not_isNameChar_of_isCombinator hc) hall
    obtain ⟨row, hrow, hlaid⟩ := laid_separator left (t := ⟨.combinator, some [c], p⟩)
      hblanks hpos (.mark hc) hall rfl
    exact ⟨row, _, .of_last (List.cons_ne_nil _ _) hlast (fun _ => hbehind.stops) rfl, hrow, hlaid⟩
  | @comma behind after hbehind =>
    have hall : allBlank behind = true := allBlank_iff.mpr hbehind.all
    have hlast := not_isNameChar_of_mark (c := ',') (by decide) hall
    obtain ⟨row, hrow, hlaid⟩ := laid_separator left (t := ⟨.comma, none, p⟩)
      hblanks hpos .comma hall rfl
    exact ⟨row, _, .of_last (List.cons_ne_nil _ _) hlast (fun _ => hbehind.stops) rfl, hrow, hlaid⟩
  | universal =>
    have hlast : ∀ c ∈ ['*'].getLast?, isNameChar c = false :=
      not_isNameChar_of_mark (by decide) rfl
    obtain ⟨row, hrow, hlaid⟩ := laid_single left hblanks hpos .universal
    have hblanks : opensBehind (some ⟨.universal, none, p⟩) = false →
        ∀ c ∈ after.head?, isBlank c = false := by
      intro hclosed
      cases hclosed
    exact ⟨row, _, .of_last (List.cons_ne_nil _ _) hlast hblanks rfl, hrow, hlaid⟩
  | @id name after hname =>
    obtain ⟨row, hrow, hlaid⟩ := laid_single left hblanks hpos (.id hname)
    exact ⟨row, _, .of_nameRun hname rfl rfl, hrow, hlaid⟩
  | @className name after hname =>
    obtain ⟨row, hrow, hlaid⟩ := laid_single left hblanks hpos (.className hname)
    exact ⟨row, _, .of_nameRun hname rfl rfl, hrow, hlaid⟩
  | tag hname _ =>
    obtain ⟨row, hrow, hlaid⟩ := laid_single left hblanks hpos
      (.tag hboundary.colons hname (hboundary.not_isNameChar hblanks hname))
    exact ⟨row, _, .of_nameRun hname rfl rfl, hrow, hlaid⟩
  | @name colons name after kind hcolons hname _ =>
    refine ⟨[⟨gapsBetween left blanks ⟨kind, none, p⟩, isColons left, ⟨kind, none, p⟩, colons⟩,
      ⟨[], true, ⟨.tag, some name, (p + colons.length : Nat)⟩, name⟩],
      ⟨.tag, some name, (p + colons.length : Nat)⟩, .of_nameRun hname rfl rfl,
      by simp [TokenSpan.tokens], fun rest hrest => ?_⟩
    rw [List.append_assoc]
    exact laid_pseudo hblanks hp hcolons hname hrest
  | @call colons name inner after kind tokens hcolons hname hinner =>
    have hq : p + colons.length + name.length =
        (before ++ (blanks ++ (colons ++ name))).length := by
      simp only [hp, List.length_append]
      omega
    obtain ⟨row, last, hrow, hclose, hlast, hlaid⟩ :=
      hinner.exists_laid hq (some ⟨.tag, some name, (p + colons.length : Nat)⟩)
    have hne : inner ≠ [] := by
      rintro rfl
      cases hlast
    have hend : ∀ c ∈ (colons ++ (name ++ inner)).getLast?, isNameChar c = false := by
      intro c hc
      rw [← List.append_assoc, getLast?_append_right hne, hlast] at hc
      cases hc
      decide
    refine ⟨⟨gapsBetween left blanks ⟨kind, none, p⟩, isColons left, ⟨kind, none, p⟩, colons⟩ ::
      ⟨[], true, ⟨.tag, some name, (p + colons.length : Nat)⟩, name⟩ :: row, last,
      .of_last (by simp [hne]) hend ?_ ?_, ?_, fun rest hrest => ?_⟩
    · simp [opensBehind, hclose, opensGap]
    · simp [isColons, hclose, Grammar.isMarker]
    · simp [TokenSpan.tokens, hrow]
    · rw [List.append_assoc, List.append_assoc]
      refine laid_pseudo hblanks hp hcolons hname (hlaid rest ?_)
      simpa using hrest

/-- The first token of a lexeme stands at its place, and blanks in front of the lexeme count as its
kind and its first character agree. -/
theorem Lexeme.first_token {c : Char} {tail : Text} {t : Token}
    (h : Lexeme p (c :: tail) after (t :: first)) :
    t.pos = p ∧ closesGap t.kind = !absorbsBlanks c := by
  generalize htext : c :: tail = text at h
  cases h with
  | combinator hc _ =>
    cases htext
    exact ⟨rfl, by simp [closesGap, absorbsBlanks, hc]⟩
  | comma _ | universal | id _ | className _ =>
    cases htext
    exact ⟨rfl, rfl⟩
  | tag hname _ =>
    subst htext
    have hchar := absorbsBlanks_of_isNameChar (hname.all c List.mem_cons_self)
    exact ⟨rfl, by simp [closesGap, hchar]⟩
  | name hcolons _ _ | call hcolons _ _ =>
    cases hcolons <;> cases htext <;> exact ⟨rfl, rfl⟩

theorem Lexeme.exists_token (h : Lexeme p text after tokens) : ∃ t first, tokens = t :: first := by
  cases h <;> exact ⟨_, _, rfl⟩

/-! ## Rows of lexemes -/

variable {ahead : Text}

/-- Blanks that are there are what a text begins with. -/
private theorem isBlank_head (hblanks : allBlank blanks = true) (hne : blanks ≠ []) :
    ∃ c ∈ (blanks ++ ahead).head?, isBlank c = true := by
  cases blanks with
  | nil => exact absurd rfl hne
  | cons c rest => exact ⟨c, rfl, allBlank_iff.mp hblanks c List.mem_cons_self⟩

/-- Where there are no blanks ahead, there is a lexeme or the end of the text. -/
private theorem Lexed.of_not_blank (h : Lexed source p ahead tokens)
    (hsolid : ∀ c ∈ ahead.head?, isBlank c = false) (hne : ahead ≠ []) :
    ∃ text after first others, ahead = text ++ after ∧ Lexeme p text after first ∧
      Lexed source (p + text.length) after others ∧ tokens = first ++ others := by
  have habsurd : ∀ {blanks rest : Text}, allBlank blanks = true → blanks ≠ [] →
      blanks ++ rest = ahead → False := by
    rintro blanks rest hblanks hsome rfl
    obtain ⟨c, hc, hblank⟩ := @isBlank_head blanks rest hblanks hsome
    rw [hsolid c hc] at hblank
    cases hblank
  cases h with
  | done hblanks => exact (habsurd hblanks hne (List.append_nil _)).elim
  | lexeme hlexeme hrest => exact ⟨_, _, _, _, rfl, hlexeme, hrest, rfl⟩
  | gap hblanks hsome _ _ _ => exact (habsurd hblanks hsome rfl).elim
  | absorbed hblanks hsome _ _ => exact (habsurd hblanks hsome rfl).elim

/-- The text ahead is blank, or it is a lexeme behind blanks. -/
theorem Lexed.cases_lexeme (h : Lexed source p ahead tokens) :
    (allBlank ahead = true ∧ tokens = [⟨.eof, none, source.length⟩]) ∨
      ∃ blanks c tail after first others, ahead = blanks ++ ((c :: tail) ++ after) ∧
        allBlank blanks = true ∧ Lexeme (p + blanks.length) (c :: tail) after first ∧
        Lexed source (p + blanks.length + (c :: tail).length) after others ∧
        tokens = Lexer.gap true (!blanks.isEmpty) (p + blanks.length) c ++ (first ++ others) := by
  cases h with
  | done hblanks => exact .inl ⟨hblanks, rfl⟩
  | @lexeme _ text after first others hlexeme hrest =>
    obtain ⟨c, tail, rfl, -⟩ := hlexeme.eq_cons
    exact .inr ⟨[], c, tail, after, first, others, rfl, rfl, hlexeme, hrest, rfl⟩
  | @gap _ blanks t c _ hblanks hne hc hgap hrest =>
    obtain ⟨text, after, first, others, hsplit, hlexeme, hothers, rfl⟩ :=
      hrest.of_not_blank (by rintro _ ⟨⟩; exact hc) (List.cons_ne_nil _ _)
    obtain ⟨d, tail, rfl, -⟩ := hlexeme.eq_cons
    obtain ⟨rfl, rfl⟩ : c = d ∧ t = tail ++ after := by simpa using hsplit
    exact .inr ⟨blanks, c, tail, after, first, others, rfl, hblanks, hlexeme, hothers,
      by simp [Lexer.gap, hgap, hne]⟩
  | @absorbed _ blanks t c _ hblanks hne hc hrest =>
    obtain ⟨text, after, first, others, hsplit, hlexeme, hothers, rfl⟩ :=
      hrest.of_not_blank (by rintro _ ⟨⟩; exact isBlank_of_absorbsBlanks hc) (List.cons_ne_nil _ _)
    obtain ⟨d, tail, rfl, -⟩ := hlexeme.eq_cons
    obtain ⟨rfl, rfl⟩ : c = d ∧ t = tail ++ after := by simpa using hsplit
    exact .inr ⟨blanks, c, tail, after, first, others, rfl, hblanks, hlexeme, hothers,
      by simp [Lexer.gap, hc]⟩

/-- The descendant combinators of the lexer are those that the layout has. -/
private theorem gapsBetween_eq_gap {c : Char} {tail : Text} {t : Token}
    (h : Lexeme p (c :: tail) after (t :: first)) (hblanks : allBlank blanks = true)
    (hboundary : Boundary before left (blanks ++ ahead)) :
    gapsBetween left blanks t = gap true (!blanks.isEmpty) p c := by
  obtain ⟨hpos, hcloses⟩ := h.first_token
  by_cases hne : blanks = []
  · subst hne
    simp [gap]
  · have hopens : opensBehind left = true := by
      rw [← Bool.not_eq_false]
      intro hclosed
      obtain ⟨d, hd, hblank⟩ := @isBlank_head blanks ahead hblanks hne
      rw [hboundary.blanks hclosed d hd] at hblank
      cases hblank
    simp [gapsBetween, gap, gapBefore, hne, hopens, hcloses, hpos]

/-- The tokens of a text behind a lexeme are laid out in it. -/
theorem Lexed.exists_laid (h : Lexed source p ahead tokens) (hp : p = before.length)
    (hlength : before.length + ahead.length = source.length)
    (hboundary : Boundary before left ahead) :
    ∃ row, Laid before left ahead row ∧ row.flatMap TokenSpan.tokens = tokens := by
  induction hn : ahead.length using Nat.strongRecOn generalizing p before left ahead tokens with
  | _ n ih =>
    rcases h.cases_lexeme with ⟨hblank, rfl⟩ |
      ⟨blanks, c, tail, after, first, others, rfl, hblanks, hlexeme, hothers, rfl⟩
    · rw [← hlength]
      exact ⟨_, .done hblank, rfl⟩
    · obtain ⟨t, more, rfl⟩ := hlexeme.exists_token
      obtain ⟨row, last, hend, hrow, hlaid⟩ :=
        hlexeme.exists_laid (by rw [hp]) hblanks hboundary
      have hplace : p + blanks.length + (c :: tail).length =
          (before ++ (blanks ++ c :: tail)).length := by
        rw [hp, List.length_append, List.length_append, Nat.add_assoc]
      have hbehind : (before ++ (blanks ++ c :: tail)).length + after.length = source.length := by
        rw [← hlength]
        simp only [List.length_append]
        omega
      have hshorter : after.length < n := by
        rw [← hn]
        simp only [List.length_append, List.length_cons]
        omega
      obtain ⟨rest, hrest, hrestTokens⟩ := ih after.length hshorter hothers hplace hbehind hend rfl
      refine ⟨row ++ rest, hlaid rest hrest, ?_⟩
      rw [List.flatMap_append, hrow, hrestTokens, gapsBetween_eq_gap hlexeme hblanks hboundary,
        List.append_assoc]

end Lexer

/-! ## Whole selectors -/

namespace Token

open TokenSpan

variable {source : Text} {tokens : List Token}

/-- The tokens of a selector account for all of it. -/
theorem lossless (h : ofSelector source = .ok tokens) : Lossless source tokens := by
  obtain ⟨blanks, t, rfl, hblanks, hlexed⟩ := ofSelector_eq_ok_iff.mp h
  have hall : allBlank blanks = true := allBlank_iff.mpr hblanks.all
  have hboundary : Boundary blanks none t := by
    refine ⟨fun _ => hblanks.stops, rfl, fun c hc _ _ _ => ?_⟩
    exact not_isNameChar_of_isBlank (hblanks.all c (List.mem_of_getLast? hc))
  obtain ⟨row, hlaid, rfl⟩ := hlexed.exists_laid rfl List.length_append.symm hboundary
  have hstart : Laid ([] ++ blanks) none t row := hlaid
  exact (hstart.behind_blanks hall rfl).lossless_tokens

/-- Blanks in all the places where the lexer skips them. -/
theorem lossless_of_blanks :
    ∃ tokens, ofSelector " A  > .b:not( c )  ,d e ".toList = .ok tokens ∧
      Lossless " A  > .b:not( c )  ,d e ".toList tokens := by
  cases htokens : ofSelector " A  > .b:not( c )  ,d e ".toList with
  | ok tokens => exact ⟨tokens, rfl, lossless htokens⟩
  | error e =>
    have hok : (ofSelector " A  > .b:not( c )  ,d e ".toList).isOk = true := by decide +kernel
    rw [htokens] at hok
    cases hok

end Token

end SelectorCheck
