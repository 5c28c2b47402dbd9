import SelectorCheck.Proofs.Argument.Balanced
import SelectorCheck.Proofs.Text.Run
import SelectorCheck.Token.Lexer

/-!
# Texts and their tokens

The lexer is a function with many failures. Where it does not fail, a text and
its tokens are related in a simple way: the text is a row of lexemes with
blanks between them, and each lexeme has its tokens. This file gives the
relation and shows that the lexer computes it. The blanks behind a name, a
mark or a comma belong to no lexeme in particular, so the relation says what
each stretch of blanks stands for.

## Main definitions

* `Lexer.Lexeme` — a lexeme with its tokens, in front of the text behind it.
* `Lexer.Lexed` — the text ahead with all its tokens.
* `Lexer.Ahead` — what the text ahead begins with.

## Main results

* `Lexer.lexeme_eq_ok_iff` — what one lexeme is.
* `Lexer.Lexed.ahead` — what the first token says about the text.
* `Token.ofSelector_eq_ok_iff` — what a whole selector is cut into.
-/

namespace SelectorCheck.Lexer

open Text RawArgument

/-- The colons in front of a pseudo name, with the kind of their token. -/
inductive Colons : (colons : Text) → (kind : TokenKind) → Prop where
  | single : Colons [':'] .colon
  | double : Colons [':', ':'] .doubleColon

/-- An argument in parentheses of which the first stands at position `q`. -/
inductive Parenthesized (q : Nat) : (text after : Text) → (tokens : List Token) → Prop where
  | mk {blanks content after : Text} (hblanks : Run isBlank blanks (content ++ ')' :: after))
      (hscan : scan 0 none (q + 1 + blanks.length) (content ++ ')' :: after) =
        .ok (content, ⟨q + 1 + blanks.length + content.length, ')' :: after⟩)) :
      Parenthesized q ('(' :: (blanks ++ (content ++ [')']))) after
        (⟨.parenOpen, none, q⟩ ::
            argumentTokens content ⟨q + 1 + blanks.length, content ++ ')' :: after⟩ ++
          [⟨.parenClose, none, (q + 1 + blanks.length + content.length : Nat)⟩])

/-- The text at position `p`, in front of `after`, is a lexeme and yields `tokens`. -/
inductive Lexeme (p : Nat) : (text after : Text) → (tokens : List Token) → Prop where
  | combinator {c : Char} {blanks after : Text} (hc : isCombinator c = true)
      (hblanks : Run isBlank blanks after) :
      Lexeme p (c :: blanks) after [⟨.combinator, some [c], p⟩]
  | comma {blanks after : Text} (hblanks : Run isBlank blanks after) :
      Lexeme p (',' :: blanks) after [⟨.comma, none, p⟩]
  | universal {after : Text} : Lexeme p ['*'] after [⟨.universal, none, p⟩]
  | id {name after : Text} (hname : NameRun name after) :
      Lexeme p ('#' :: name) after [⟨.id, some name, p⟩]
  | className {name after : Text} (hname : NameRun name after) :
      Lexeme p ('.' :: name) after [⟨.className, some name, p⟩]
  | tag {name after : Text} (hname : NameRun name after)
      (hstart : ∀ c ∈ name.head?, isNameStart c = true) :
      Lexeme p name after [⟨.tag, some name.lowercase, p⟩]
  | name {colons name after : Text} {kind : TokenKind} (hcolons : Colons colons kind)
      (hname : NameRun name after) (hbare : after.head? ≠ some '(') :
      Lexeme p (colons ++ name) after
        [⟨kind, none, p⟩, ⟨.tag, some name, (p + colons.length : Nat)⟩]
  | call {colons name text after : Text} {kind : TokenKind} {tokens : List Token}
      (hcolons : Colons colons kind) (hname : NameRun name (text ++ after))
      (htext : Parenthesized (p + colons.length + name.length) text after tokens) :
      Lexeme p (colons ++ (name ++ text)) after
        (⟨kind, none, p⟩ :: ⟨.tag, some name, (p + colons.length : Nat)⟩ :: tokens)

/-! ## Tokens of arguments -/

/-- The text of an argument has at most one token. -/
theorem eq_of_mem_argumentTokens {content : Text} {start : Cursor} {t : Token}
    (h : t ∈ argumentTokens content start) : t = ⟨.string, some content.trimEnd, start.pos⟩ := by
  unfold argumentTokens at h
  split at h
  · cases h
  · exact List.mem_singleton.mp h

theorem Parenthesized.kind_of_mem {q : Nat} {text after : Text} {tokens : List Token} {t : Token}
    (h : Parenthesized q text after tokens) (ht : t ∈ tokens) :
    t.kind = .parenOpen ∨ t.kind = .string ∨ t.kind = .parenClose := by
  obtain @⟨blanks, content, after, -, -⟩ := h
  rcases List.mem_append.mp ht with hinner | hclose
  · rcases List.mem_cons.mp hinner with rfl | harg
    · exact .inl rfl
    · rw [eq_of_mem_argumentTokens harg]
      exact .inr (.inl rfl)
  · rw [List.mem_singleton.mp hclose]
    exact .inr (.inr rfl)

/-! ## The first character of a lexeme -/

/-- A character that a name starts with begins no lexeme but a tag name. -/
private theorem lexeme_of_isNameStart {source after : Text} {p : Nat} {c : Char}
    (h : isNameStart c = true) :
    lexeme source p c after = tagName ⟨p, c :: after⟩ := by
  have hne : ∀ d, isNameStart d = false → (c == d) = false := by
    intro d hd
    rw [beq_eq_false_iff_ne]
    rintro rfl
    rw [hd] at h
    cases h
  have hcombinator : isCombinator c = false := by
    unfold isCombinator
    rw [hne '>' rfl, hne '+' rfl, hne '~' rfl]
    rfl
  unfold lexeme
  simp [hcombinator, h, hne '*' rfl, hne '#' rfl, hne '.' rfl, hne '[' rfl, hne ',' rfl,
    hne ':' rfl]

theorem isCombinator_iff {c : Char} : isCombinator c = true ↔ c = '>' ∨ c = '+' ∨ c = '~' := by
  simp [isCombinator, or_assoc]

/-! ## Readers of single lexemes -/

variable {source blanks name after : Text} {p : Nat}

private theorem separator_run {kind : TokenKind} {value : Option Text} {c : Char}
    (h : Run isBlank blanks after) :
    separator kind value ⟨p, c :: (blanks ++ after)⟩ =
      ⟨⟨p + 1 + blanks.length, after⟩, .ok [⟨kind, value, p⟩]⟩ := by
  have hskip : (Cursor.mk p (c :: (blanks ++ after))).skip 1 = ⟨p + 1, blanks ++ after⟩ := rfl
  rw [separator, hskip, Cursor.skipBlanks_run h]

private theorem marked_run {kind : TokenKind} {mark : Char} (h : NameRun name after) :
    marked source kind mark ⟨p, mark :: (name ++ after)⟩ =
      ⟨⟨p + 1 + name.length, after⟩, .ok [⟨kind, some name, p⟩]⟩ := by
  have hskip : (Cursor.mk p (mark :: (name ++ after))).skip 1 = ⟨p + 1, name ++ after⟩ := rfl
  simp only [marked, hskip, h.takeName_eq, if_neg h.ne_nil, Cursor.skipWhile_run h.toRun]

private theorem tagName_run (h : NameRun name after) :
    tagName ⟨p, name ++ after⟩ =
      ⟨⟨p + name.length, after⟩, .ok [⟨.tag, some name.lowercase, p⟩]⟩ := by
  simp only [tagName, h.takeName_eq, Cursor.skipWhile_run h.toRun]

/-- A name that is to be read at a place is not there, or it is a run in front of what follows. -/
theorem name_cases (t : Text) :
    t.takeName = [] ∨ ∃ name after, t = name ++ after ∧ NameRun name after := by
  by_cases h : t.takeName = []
  · exact .inl h
  · exact .inr ⟨t.takeName, t.dropName, (takeName_append_dropName t).symm, .of_takeName h⟩

private theorem marked_eq_ok {kind : TokenKind} {mark : Char} {t : Text} {place : Cursor}
    {tokens : List Token} (h : marked source kind mark ⟨p, mark :: t⟩ = ⟨place, .ok tokens⟩) :
    ∃ name after, t = name ++ after ∧ NameRun name after ∧
      place = ⟨p + 1 + name.length, after⟩ ∧ tokens = [⟨kind, some name, p⟩] := by
  rcases name_cases t with hnone | ⟨name, after, rfl, hname⟩
  · simp [marked, hnone] at h
  · rw [marked_run hname] at h
    cases h
    exact ⟨name, after, rfl, hname, rfl, rfl⟩

/-! ## Arguments -/

private theorem argument_eq_ok_iff {q : Nat} {t : Text} {place : Cursor} {tokens : List Token} :
    argument source ⟨q, '(' :: t⟩ = ⟨place, .ok tokens⟩ ↔
      ∃ text after, '(' :: t = text ++ after ∧ place = ⟨q + text.length, after⟩ ∧
        Parenthesized q text after tokens := by
  constructor
  · intro h
    obtain ⟨blanks, rest, rfl, hrun⟩ := Run.of_text isBlank t
    have hstart : ((Cursor.mk q ('(' :: (blanks ++ rest))).skip 1).skipBlanks =
        ⟨q + 1 + blanks.length, rest⟩ := Cursor.skipBlanks_run hrun (q + 1)
    unfold argument at h
    rw [hstart] at h
    cases hscan : scan 0 none (q + 1 + blanks.length) rest with
    | error _ => simp [hscan] at h
    | ok found =>
      obtain ⟨content, close⟩ := found
      obtain ⟨after, rfl, rfl⟩ := scan_eq_ok hscan
      simp only [hscan] at h
      cases h
      refine ⟨'(' :: (blanks ++ (content ++ [')'])), after, by simp, ?_, .mk hrun hscan⟩
      rw [Cursor.skip, Cursor.mk.injEq]
      simp only [List.length_cons, List.length_append, List.length_nil]
      exact ⟨by omega, rfl⟩
  · rintro ⟨text, after, ht, rfl, htext⟩
    obtain @⟨blanks, content, after, hrun, hscan⟩ := htext
    obtain rfl : t = blanks ++ (content ++ ')' :: after) := by simpa using ht
    have hstart : ((Cursor.mk q ('(' :: (blanks ++ (content ++ ')' :: after)))).skip 1).skipBlanks =
        ⟨q + 1 + blanks.length, content ++ ')' :: after⟩ := Cursor.skipBlanks_run hrun (q + 1)
    unfold argument
    simp only [hstart, hscan, Outcome.mk.injEq, and_true]
    rw [Cursor.skip, Cursor.mk.injEq]
    simp only [List.length_cons, List.length_append, List.length_nil]
    exact ⟨by omega, rfl⟩

/-! ## Pseudo names -/

private theorem pseudoName_eq_ok {marker : Token} {colons t : Text} {place : Cursor}
    {tokens : List Token}
    (h : pseudoName source marker colons ⟨p, t⟩ = ⟨place, .ok tokens⟩) :
    ∃ name rest, t = name ++ rest ∧ NameRun name rest ∧
      ((rest.head? ≠ some '(' ∧ place = ⟨p + name.length, rest⟩ ∧
          tokens = [marker, ⟨.tag, some name, p⟩]) ∨
        ∃ text after inner, rest = text ++ after ∧ place = ⟨p + name.length + text.length, after⟩ ∧
          Parenthesized (p + name.length) text after inner ∧
          tokens = marker :: ⟨.tag, some name, p⟩ :: inner) := by
  rcases name_cases t with hnone | ⟨name, rest, rfl, hname⟩
  · simp [pseudoName, hnone] at h
  · refine ⟨name, rest, rfl, hname, ?_⟩
    simp only [pseudoName, hname.takeName_eq, if_neg hname.ne_nil,
      Cursor.skipWhile_run hname.toRun] at h
    by_cases hparen : rest.head? = some '('
    · right
      rw [if_pos hparen] at h
      obtain ⟨tail, rfl⟩ : ∃ tail, rest = '(' :: tail := by
        cases rest with
        | nil => cases hparen
        | cons c tail => exact ⟨tail, by simpa using hparen⟩
      cases hargument : argument source ⟨p + name.length, '(' :: tail⟩ with
      | mk behind result =>
        cases result with
        | error _ => simp [hargument, Outcome.after, Except.map] at h
        | ok inner =>
          obtain ⟨text, after, htext, rfl, hparens⟩ := argument_eq_ok_iff.mp hargument
          simp only [hargument, Outcome.after, Except.map, Outcome.mk.injEq,
            Except.ok.injEq] at h
          obtain ⟨rfl, rfl⟩ := h
          exact ⟨text, after, inner, htext, rfl, hparens, rfl⟩
    · left
      rw [if_neg hparen] at h
      cases h
      exact ⟨hparen, rfl, rfl⟩

private theorem pseudoName_bare {marker : Token} {colons : Text} (hname : NameRun name after)
    (hbare : after.head? ≠ some '(') :
    pseudoName source marker colons ⟨p, name ++ after⟩ =
      ⟨⟨p + name.length, after⟩, .ok [marker, ⟨.tag, some name, p⟩]⟩ := by
  simp only [pseudoName, hname.takeName_eq, if_neg hname.ne_nil, Cursor.skipWhile_run hname.toRun,
    if_neg hbare]

private theorem Parenthesized.eq_cons {q : Nat} {text : Text} {tokens : List Token}
    (h : Parenthesized q text after tokens) : ∃ tail, text = '(' :: tail := by
  cases h with
  | mk => exact ⟨_, rfl⟩

private theorem pseudoName_call {marker : Token} {colons text : Text} {tokens : List Token}
    (hname : NameRun name (text ++ after))
    (htext : Parenthesized (p + name.length) text after tokens) :
    pseudoName source marker colons ⟨p, name ++ (text ++ after)⟩ =
      ⟨⟨p + name.length + text.length, after⟩,
        .ok (marker :: ⟨.tag, some name, p⟩ :: tokens)⟩ := by
  obtain ⟨tail, rfl⟩ := htext.eq_cons
  have hargument : argument source ⟨p + name.length, '(' :: (tail ++ after)⟩ =
      ⟨⟨p + name.length + ('(' :: tail).length, after⟩, .ok tokens⟩ :=
    argument_eq_ok_iff.mpr ⟨'(' :: tail, after, rfl, rfl, htext⟩
  simp only [pseudoName, hname.takeName_eq, if_neg hname.ne_nil, Cursor.skipWhile_run hname.toRun]
  rw [if_pos (by rfl), List.cons_append, hargument]
  rfl

/-- Behind a single colon no name begins with another one. -/
private theorem head?_ne_colon {rest : Text} (h : NameRun name rest) :
    (name ++ rest).head? ≠ some ':' := by
  rw [head?_append_left h.ne_nil]
  intro hcolon
  have hchar := h.all ':' (List.mem_of_head? hcolon)
  revert hchar
  decide

/-- The colons at a place are told by the character behind the first one. -/
theorem pseudo_cases (source : Text) (p : Nat) (t : Text) :
    ∃ colons kind rest, ':' :: t = colons ++ rest ∧ Colons colons kind ∧
      pseudo source ⟨p, ':' :: t⟩ =
        pseudoName source ⟨kind, none, p⟩ colons ⟨p + colons.length, rest⟩ := by
  by_cases hcolon : t.head? = some ':'
  · obtain ⟨rest, rfl⟩ : ∃ rest, t = ':' :: rest := by
      cases t with
      | nil => cases hcolon
      | cons c rest => exact ⟨rest, by simpa using hcolon⟩
    exact ⟨[':', ':'], .doubleColon, rest, rfl, .double, by simp [pseudo, Cursor.skip]⟩
  · exact ⟨[':'], .colon, t, rfl, .single, by simp [pseudo, Cursor.skip, hcolon]⟩

private theorem pseudo_colons {colons rest : Text} {kind : TokenKind} (h : Colons colons kind)
    (hrest : rest.head? ≠ some ':') :
    pseudo source ⟨p, colons ++ rest⟩ =
      pseudoName source ⟨kind, none, p⟩ colons ⟨p + colons.length, rest⟩ := by
  cases h with
  | single => simp [pseudo, Cursor.skip, hrest]
  | double => simp [pseudo, Cursor.skip]

/-! ## Lexemes -/

/-- The lexer reads a lexeme wherever there is one. -/
private theorem lexeme_complete {text : Text} {tokens : List Token}
    (h : Lexeme p text after tokens) {c : Char} {t : Text} (ht : c :: t = text ++ after) :
    lexeme source p c t = ⟨⟨p + text.length, after⟩, .ok tokens⟩ := by
  cases h with
  | @combinator mark blanks after hc hblanks =>
    obtain ⟨rfl, rfl⟩ : c = mark ∧ t = blanks ++ after := by simpa using ht
    have hlexeme : lexeme source p c (blanks ++ after) =
        separator .combinator (some [c]) ⟨p, c :: (blanks ++ after)⟩ := by
      unfold lexeme
      rw [if_pos hc]
    rw [hlexeme, separator_run hblanks, List.length_cons, Nat.add_right_comm, Nat.add_assoc]
  | @comma blanks after hblanks =>
    obtain ⟨rfl, rfl⟩ : c = ',' ∧ t = blanks ++ after := by simpa using ht
    have hlexeme : lexeme source p ',' (blanks ++ after) =
        separator .comma none ⟨p, ',' :: (blanks ++ after)⟩ := rfl
    rw [hlexeme, separator_run hblanks, List.length_cons, Nat.add_right_comm, Nat.add_assoc]
  | universal =>
    obtain ⟨rfl, rfl⟩ : c = '*' ∧ t = after := by simpa using ht
    rfl
  | @id name after hname =>
    obtain ⟨rfl, rfl⟩ : c = '#' ∧ t = name ++ after := by simpa using ht
    have hlexeme : lexeme source p '#' (name ++ after) =
        marked source .id '#' ⟨p, '#' :: (name ++ after)⟩ := rfl
    rw [hlexeme, marked_run hname, List.length_cons, Nat.add_right_comm, Nat.add_assoc]
  | @className name after hname =>
    obtain ⟨rfl, rfl⟩ : c = '.' ∧ t = name ++ after := by simpa using ht
    have hlexeme : lexeme source p '.' (name ++ after) =
        marked source .className '.' ⟨p, '.' :: (name ++ after)⟩ := rfl
    rw [hlexeme, marked_run hname, List.length_cons, Nat.add_right_comm, Nat.add_assoc]
  | tag hname hstart =>
    have hc : isNameStart c = true := by
      refine hstart c ?_
      rw [← head?_append_left hname.ne_nil after, ← ht]
      rfl
    rw [lexeme_of_isNameStart hc, ht, tagName_run hname]
  | @name colons name after kind hcolons hname hbare =>
    rw [List.append_assoc] at ht
    have hlexeme : lexeme source p c t = pseudo source ⟨p, colons ++ (name ++ after)⟩ := by
      cases hcolons <;> cases ht <;> rfl
    rw [hlexeme, pseudo_colons hcolons (head?_ne_colon hname), pseudoName_bare hname hbare,
      List.length_append, ← Nat.add_assoc]
  | @call colons name text after kind tokens hcolons hname htext =>
    rw [List.append_assoc, List.append_assoc] at ht
    have hlexeme : lexeme source p c t =
        pseudo source ⟨p, colons ++ (name ++ (text ++ after))⟩ := by
      cases hcolons <;> cases ht <;> rfl
    rw [hlexeme, pseudo_colons hcolons (head?_ne_colon hname), pseudoName_call hname htext,
      List.length_append, List.length_append, ← Nat.add_assoc, ← Nat.add_assoc]

private theorem separator_eq_ok {kind : TokenKind} {value : Option Text} {c : Char} {t : Text}
    {place : Cursor} {tokens : List Token}
    (h : separator kind value ⟨p, c :: t⟩ = ⟨place, .ok tokens⟩) :
    ∃ blanks after, t = blanks ++ after ∧ Run isBlank blanks after ∧
      place = ⟨p + (c :: blanks).length, after⟩ ∧ tokens = [⟨kind, value, p⟩] := by
  obtain ⟨blanks, after, rfl, hrun⟩ := Run.of_text isBlank t
  rw [separator_run hrun] at h
  cases h
  refine ⟨blanks, after, rfl, hrun, ?_, rfl⟩
  rw [List.length_cons, Cursor.mk.injEq]
  exact ⟨by omega, rfl⟩

private theorem pseudo_eq_ok {t : Text} {place : Cursor} {tokens : List Token}
    (h : pseudo source ⟨p, ':' :: t⟩ = ⟨place, .ok tokens⟩) :
    ∃ text after, ':' :: t = text ++ after ∧ place = ⟨p + text.length, after⟩ ∧
      Lexeme p text after tokens := by
  obtain ⟨colons, kind, rest, ht, hcolons, hpseudo⟩ := pseudo_cases source p t
  rw [hpseudo] at h
  obtain ⟨name, behind, rfl, hname, hbehind⟩ := pseudoName_eq_ok h
  rcases hbehind with ⟨hbare, rfl, rfl⟩ | ⟨text, after, inner, rfl, rfl, htext, rfl⟩
  · refine ⟨colons ++ name, behind, by rw [ht, List.append_assoc], ?_, .name hcolons hname hbare⟩
    rw [List.length_append, Nat.add_assoc]
  · refine ⟨colons ++ (name ++ text), after, by simp [ht], ?_, .call hcolons hname htext⟩
    rw [List.length_append, List.length_append, Nat.add_assoc, Nat.add_assoc]

private theorem marked_lexeme {kind : TokenKind} {mark : Char} {t : Text} {place : Cursor}
    {tokens : List Token} (h : marked source kind mark ⟨p, mark :: t⟩ = ⟨place, .ok tokens⟩)
    (hlexeme : ∀ {name after}, NameRun name after →
      Lexeme p (mark :: name) after [⟨kind, some name, p⟩]) :
    ∃ text after, mark :: t = text ++ after ∧ place = ⟨p + text.length, after⟩ ∧
      Lexeme p text after tokens := by
  obtain ⟨name, after, rfl, hname, rfl, rfl⟩ := marked_eq_ok h
  refine ⟨mark :: name, after, rfl, ?_, hlexeme hname⟩
  rw [List.length_cons, Cursor.mk.injEq]
  exact ⟨by omega, rfl⟩

private theorem lexeme_sound {c : Char} {t : Text} {place : Cursor} {tokens : List Token}
    (h : lexeme source p c t = ⟨place, .ok tokens⟩) :
    ∃ text after, c :: t = text ++ after ∧ place = ⟨p + text.length, after⟩ ∧
      Lexeme p text after tokens := by
  unfold lexeme at h
  dsimp only at h
  split at h
  · next hc =>
    obtain ⟨blanks, after, rfl, hrun, rfl, rfl⟩ := separator_eq_ok h
    exact ⟨c :: blanks, after, rfl, rfl, .combinator hc hrun⟩
  split at h
  · next hc =>
    obtain rfl : c = '*' := by simpa using hc
    cases h
    exact ⟨['*'], t, rfl, rfl, .universal⟩
  split at h
  · next hc =>
    obtain rfl : c = '#' := by simpa using hc
    exact marked_lexeme h .id
  split at h
  · next hc =>
    obtain rfl : c = '.' := by simpa using hc
    exact marked_lexeme h .className
  split at h
  · cases h
  split at h
  · next hc =>
    obtain rfl : c = ',' := by simpa using hc
    obtain ⟨blanks, after, rfl, hrun, rfl, rfl⟩ := separator_eq_ok h
    exact ⟨',' :: blanks, after, rfl, rfl, .comma hrun⟩
  split at h
  · next hc =>
    obtain rfl : c = ':' := by simpa using hc
    exact pseudo_eq_ok h
  split at h
  · next hstart =>
    have hname : NameRun (takeName (c :: t)) (dropName (c :: t)) := by
      refine .of_takeName ?_
      simp [takeName, isNameChar, hstart]
    have hread := tagName_run (p := p) hname
    rw [takeName_append_dropName] at hread
    rw [hread] at h
    cases h
    refine ⟨_, _, (takeName_append_dropName (c :: t)).symm, rfl, .tag hname ?_⟩
    intro d hd
    obtain rfl : c = d := by simpa [takeName, isNameChar, hstart] using hd
    exact hstart
  · cases h

/-- The lexer reads a lexeme exactly where there is one. -/
theorem lexeme_eq_ok_iff {c : Char} {t : Text} {place : Cursor} {tokens : List Token} :
    lexeme source p c t = ⟨place, .ok tokens⟩ ↔
      ∃ text after, c :: t = text ++ after ∧ place = ⟨p + text.length, after⟩ ∧
        Lexeme p text after tokens := by
  constructor
  · exact lexeme_sound
  · rintro ⟨text, after, ht, rfl, h⟩
    exact lexeme_complete h ht

/-- A lexeme has a first character, and it is no blank. -/
theorem Lexeme.eq_cons {text : Text} {tokens : List Token} (h : Lexeme p text after tokens) :
    ∃ c t, text = c :: t ∧ isBlank c = false := by
  have hname : ∀ {name rest : Text}, NameRun name rest →
      ∃ c t, name = c :: t ∧ isBlank c = false := by
    intro name rest hname
    obtain ⟨c, t, rfl, hc⟩ := hname.eq_cons
    exact ⟨c, t, rfl, isBlank_of_isNameChar hc⟩
  have hcolons : ∀ {colons : Text} {kind : TokenKind} (t : Text), Colons colons kind →
      ∃ c u, colons ++ t = c :: u ∧ isBlank c = false := by
    rintro colons kind t (_ | _) <;> exact ⟨':', _, rfl, by decide⟩
  cases h with
  | combinator hc _ =>
    exact ⟨_, _, rfl, isBlank_eq_false_of isCombinator hc (by decide)⟩
  | comma _ | universal | id _ | className _ => exact ⟨_, _, rfl, by decide⟩
  | tag hrun _ => exact hname hrun
  | name hmarker _ _ => exact hcolons _ hmarker
  | call hmarker _ _ => exact hcolons _ hmarker

/-! ## Rows of lexemes -/

/-- The text `t` at position `p`, behind a lexeme of `source`, yields `tokens`. -/
inductive Lexed (source : Text) : (p : Nat) → (t : Text) → (tokens : List Token) → Prop where
  | done {p : Nat} {blanks : Text} (hblanks : allBlank blanks = true) :
      Lexed source p blanks [⟨.eof, none, source.length⟩]
  | lexeme {p : Nat} {text after : Text} {tokens rest : List Token}
      (h : Lexeme p text after tokens) (hrest : Lexed source (p + text.length) after rest) :
      Lexed source p (text ++ after) (tokens ++ rest)
  /-- Blanks that are a descendant combinator. -/
  | gap {p : Nat} {blanks t : Text} {c : Char} {tokens : List Token}
      (hblanks : allBlank blanks = true) (hne : blanks ≠ []) (hc : isBlank c = false)
      (hgap : absorbsBlanks c = false)
      (h : Lexed source (p + blanks.length) (c :: t) tokens) :
      Lexed source p (blanks ++ c :: t)
        (⟨.combinator, some [' '], (p + blanks.length : Nat)⟩ :: tokens)
  /-- Blanks that a mark behind them makes meaningless. -/
  | absorbed {p : Nat} {blanks t : Text} {c : Char} {tokens : List Token}
      (hblanks : allBlank blanks = true) (hne : blanks ≠ []) (hc : absorbsBlanks c = true)
      (h : Lexed source (p + blanks.length) (c :: t) tokens) :
      Lexed source p (blanks ++ c :: t) tokens

/-! ### The lexer on rows of lexemes -/

theorem run_nil (started blanks : Bool) :
    run source started blanks ⟨p, []⟩ = ⟨⟨p, []⟩, .ok [⟨.eof, none, source.length⟩]⟩ := by
  rw [run]

theorem run_blank {c : Char} (h : isBlank c = true) (started blanks : Bool) (t : Text) :
    run source started blanks ⟨p, c :: t⟩ = run source started true ⟨p + 1, t⟩ := by
  rw [run, if_pos h]

theorem run_lexeme {c : Char} {t : Text} {place : Cursor} {tokens : List Token}
    (hc : isBlank c = false) (h : lexeme source p c t = ⟨place, .ok tokens⟩)
    (started blanks : Bool) :
    run source started blanks ⟨p, c :: t⟩ =
      (run source true false place).after (gap started blanks p c ++ tokens) := by
  rw [run]
  simp only [hc, Bool.false_eq_true, if_false]
  split
  · next heq =>
    rw [h] at heq
    cases heq
  · next heq =>
    rw [h] at heq
    cases heq
    rfl

theorem run_malformed {c : Char} {t : Text} {place : Cursor} {e : SelectorError}
    (hc : isBlank c = false) (h : lexeme source p c t = ⟨place, .error e⟩)
    (started blanks : Bool) :
    run source started blanks ⟨p, c :: t⟩ = ⟨place, .error e⟩ := by
  rw [run]
  simp only [hc, Bool.false_eq_true, if_false]
  split
  · next heq =>
    rw [h] at heq
    cases heq
    rfl
  · next heq =>
    rw [h] at heq
    cases heq

theorem run_blanks (started seen : Bool) (t : Text) (hblanks : allBlank blanks = true) :
    run source started seen ⟨p, blanks ++ t⟩ =
      run source started (seen || !blanks.isEmpty) ⟨p + blanks.length, t⟩ := by
  induction blanks generalizing p seen with
  | nil => simp
  | cons c blanks ih =>
    rw [allBlank_cons, Bool.and_eq_true] at hblanks
    rw [List.cons_append, run_blank hblanks.1, ih true hblanks.2, List.length_cons]
    simp [Nat.add_comm, Nat.add_left_comm]

private theorem after_nil (o : Outcome) : o.after [] = o := by
  obtain ⟨place, tokens | e⟩ := o <;> rfl

private theorem after_append (tokens others : List Token) (o : Outcome) :
    o.after (tokens ++ others) = (o.after others).after tokens := by
  obtain ⟨place, e | rest⟩ := o
  · rfl
  · simp [Outcome.after, Except.map]

theorem result_after_eq_ok_iff {tokens all : List Token} {o : Outcome} :
    (o.after tokens).result = .ok all ↔ ∃ rest, o.result = .ok rest ∧ all = tokens ++ rest := by
  obtain ⟨place, e | rest⟩ := o
  · simp [Outcome.after, Except.map]
  · simp [Outcome.after, Except.map, eq_comm]

theorem result_after_eq_error_iff {tokens : List Token} {o : Outcome} {e : SelectorError} :
    (o.after tokens).result = .error e ↔ o.result = .error e := by
  obtain ⟨place, f | rest⟩ := o <;> simp [Outcome.after, Except.map]

/-- What stands before a lexeme adds a token at most. -/
theorem run_gap {c : Char} (hc : isBlank c = false) (started blanks : Bool) (t : Text) :
    run source started blanks ⟨p, c :: t⟩ =
      (run source true false ⟨p, c :: t⟩).after (gap started blanks p c) := by
  cases h : lexeme source p c t with
  | mk place result =>
    cases result with
    | error e =>
      rw [run_malformed hc h, run_malformed hc h]
      rfl
    | ok tokens =>
      rw [run_lexeme hc h, run_lexeme hc h, after_append]
      rfl

theorem isBlank_of_absorbsBlanks {c : Char} (h : absorbsBlanks c = true) : isBlank c = false :=
  isBlank_eq_false_of absorbsBlanks h (by decide)

private theorem run_complete {t : Text} {tokens : List Token} (h : Lexed source p t tokens) :
    (run source true false ⟨p, t⟩).result = .ok tokens := by
  induction h with
  | @done p blanks hblanks =>
    have hrun : run source true false ⟨p, blanks ++ []⟩ =
        run source true (false || !blanks.isEmpty) ⟨p + blanks.length, []⟩ :=
      run_blanks true false [] hblanks
    rw [List.append_nil] at hrun
    rw [hrun, run_nil]
  | @lexeme p text after tokens rest h _ ih =>
    obtain ⟨c, t, rfl, hc⟩ := h.eq_cons
    have hread : lexeme source p c (t ++ after) = ⟨⟨p + (c :: t).length, after⟩, .ok tokens⟩ :=
      lexeme_complete h rfl
    rw [List.cons_append, run_lexeme hc hread]
    exact result_after_eq_ok_iff.mpr ⟨rest, ih, rfl⟩
  | @gap p blanks t c tokens hblanks hne hc hgap _ ih =>
    rw [run_blanks true false (c :: t) hblanks, run_gap hc]
    refine result_after_eq_ok_iff.mpr ⟨tokens, ih, ?_⟩
    simp [Lexer.gap, hgap, hne]
  | @absorbed p blanks t c tokens hblanks hne hc _ ih =>
    rw [run_blanks true false (c :: t) hblanks, run_gap (isBlank_of_absorbsBlanks hc)]
    refine result_after_eq_ok_iff.mpr ⟨tokens, ih, ?_⟩
    simp [Lexer.gap, hc]

/-- A text that a run cuts into tokens without blanks in front begins with a lexeme. -/
private theorem exists_lexeme {c : Char} {t : Text} {tokens : List Token} (hc : isBlank c = false)
    (h : (run source true false ⟨p, c :: t⟩).result = .ok tokens) :
    ∃ text after first rest, c :: t = text ++ after ∧ Lexeme p text after first ∧
      tokens = first ++ rest ∧
      (run source true false ⟨p + text.length, after⟩).result = .ok rest := by
  cases hread : lexeme source p c t with
  | mk place result =>
    cases result with
    | error e =>
      rw [run_malformed hc hread] at h
      cases h
    | ok first =>
      obtain ⟨text, after, ht, rfl, hlexeme⟩ := lexeme_eq_ok_iff.mp hread
      rw [run_lexeme hc hread] at h
      obtain ⟨rest, hrest, rfl⟩ := result_after_eq_ok_iff.mp h
      exact ⟨text, after, first, rest, ht, hlexeme, by simp [Lexer.gap], hrest⟩

private theorem run_sound {t : Text} {tokens : List Token}
    (h : (run source true false ⟨p, t⟩).result = .ok tokens) : Lexed source p t tokens := by
  induction hn : t.length using Nat.strongRecOn generalizing p t tokens with
  | _ n ih =>
    obtain ⟨blanks, behind, rfl, hrun⟩ := Run.of_text isBlank t
    have hblanks : allBlank blanks = true := allBlank_iff.mpr hrun.all
    rw [run_blanks true false behind hblanks] at h
    cases behind with
    | nil =>
      rw [run_nil] at h
      cases h
      rw [List.append_nil]
      exact .done hblanks
    | cons c t =>
      have hc : isBlank c = false := hrun.stops c rfl
      rw [run_gap hc] at h
      obtain ⟨inner, hinner, rfl⟩ := result_after_eq_ok_iff.mp h
      have hlexed : Lexed source (p + blanks.length) (c :: t) inner := by
        obtain ⟨text, after, first, rest, ht, hlexeme, rfl, hrest⟩ := exists_lexeme hc hinner
        obtain ⟨d, u, rfl, -⟩ := hlexeme.eq_cons
        rw [ht]
        refine .lexeme hlexeme (ih after.length ?_ hrest rfl)
        have hlength := congrArg List.length ht
        simp only [List.length_append, List.length_cons] at hlength hn
        omega
      by_cases hne : blanks = []
      · subst hne
        simpa [Lexer.gap] using hlexed
      · by_cases habsorbs : absorbsBlanks c = true
        · simpa [Lexer.gap, habsorbs] using .absorbed hblanks hne habsorbs hlexed
        · rw [Bool.not_eq_true] at habsorbs
          simpa [Lexer.gap, habsorbs, hne] using .gap hblanks hne hc habsorbs hlexed

/-- What the lexer cuts a text into that lies behind a lexeme. -/
theorem run_eq_ok_iff {t : Text} {tokens : List Token} :
    (run source true false ⟨p, t⟩).result = .ok tokens ↔ Lexed source p t tokens :=
  ⟨run_sound, run_complete⟩

/-! ### What the first token says -/

/-- The kinds of tokens that stand between compound selectors. -/
def isSeparator (kind : TokenKind) : Bool := kind == .combinator || kind == .comma || kind == .eof

theorem absorbsBlanks_of_isNameChar {c : Char} (h : isNameChar c = true) :
    absorbsBlanks c = false := by
  cases habsorbs : absorbsBlanks c with
  | false => rfl
  | true =>
    have hmarks : c = '>' ∨ c = '+' ∨ c = '~' ∨ c = ',' := by
      simpa [absorbsBlanks, isCombinator, or_assoc] using habsorbs
    rcases hmarks with rfl | rfl | rfl | rfl <;> exact absurd h (by decide)

/-- A lexeme is a mark or a comma with the blanks behind it, or blanks in front of it count and its
first token stands within a compound selector. -/
private theorem Lexeme.separator_cases {text : Text} {tokens : List Token}
    (h : Lexeme p text after tokens) :
    (∃ c blanks, text = c :: blanks ∧ isCombinator c = true ∧ allBlank blanks = true ∧
        tokens = [⟨.combinator, some [c], p⟩]) ∨
      (∃ blanks, text = ',' :: blanks ∧ allBlank blanks = true ∧ tokens = [⟨.comma, none, p⟩]) ∨
      ((∀ c ∈ text.head?, absorbsBlanks c = false) ∧ ∃ token first, tokens = token :: first ∧
        isSeparator token.kind = false ∧ token.kind ≠ .parenOpen) := by
  have hmarker : ∀ {colons : Text} {kind : TokenKind} (rest : Text), Colons colons kind →
      (∀ c ∈ (colons ++ rest).head?, absorbsBlanks c = false) ∧ isSeparator kind = false ∧
        kind ≠ .parenOpen := by
    rintro colons kind rest (_ | _) <;>
      exact ⟨by simp [absorbsBlanks, isCombinator], by decide, by decide⟩
  cases h with
  | combinator hc hblanks => exact .inl ⟨_, _, rfl, hc, allBlank_iff.mpr hblanks.all, rfl⟩
  | comma hblanks => exact .inr (.inl ⟨_, rfl, allBlank_iff.mpr hblanks.all, rfl⟩)
  | universal | id _ | className _ =>
    exact .inr (.inr ⟨by simp [absorbsBlanks, isCombinator], _, _, rfl, rfl, by simp⟩)
  | tag hname _ =>
    refine .inr (.inr ⟨?_, _, _, rfl, rfl, by simp⟩)
    intro c hc
    exact absorbsBlanks_of_isNameChar (hname.all c (List.mem_of_head? hc))
  | name hcolons _ _ | call hcolons _ _ =>
    obtain ⟨hhead, hseparator, hparen⟩ := hmarker _ hcolons
    exact .inr (.inr ⟨hhead, _, _, rfl, hseparator, hparen⟩)

/-- The ways in which a text that has tokens can begin, told apart by the first token. -/
inductive Ahead (source : Text) (p : Nat) :
    (t : Text) → (token : Token) → (rest : List Token) → Prop where
  | done {blanks : Text} {q : Int} (hblanks : allBlank blanks = true) :
      Ahead source p blanks ⟨.eof, none, q⟩ []
  /-- A lexeme within a compound selector. -/
  | within {text after : Text} {token : Token} {first others : List Token}
      (h : Lexeme p text after (token :: first))
      (hrest : Lexed source (p + text.length) after others)
      (hseparator : isSeparator token.kind = false) (hparen : token.kind ≠ .parenOpen) :
      Ahead source p (text ++ after) token (first ++ others)
  | blanks {blanks after : Text} {q : Int} {rest : List Token} (hblanks : allBlank blanks = true)
      (hne : blanks ≠ []) (hrest : Lexed source (p + blanks.length) after rest) :
      Ahead source p (blanks ++ after) ⟨.combinator, some [' '], q⟩ rest
  | mark {before behind after : Text} {c : Char} {q : Int} {rest : List Token}
      (hbefore : allBlank before = true) (hc : isCombinator c = true)
      (hbehind : allBlank behind = true)
      (hrest : Lexed source (p + before.length + (c :: behind).length) after rest) :
      Ahead source p (before ++ c :: (behind ++ after)) ⟨.combinator, some [c], q⟩ rest
  | comma {before behind after : Text} {q : Int} {rest : List Token}
      (hbefore : allBlank before = true) (hbehind : allBlank behind = true)
      (hrest : Lexed source (p + before.length + (',' :: behind).length) after rest) :
      Ahead source p (before ++ ',' :: (behind ++ after)) ⟨.comma, none, q⟩ rest

namespace Lexed

variable {t : Text} {token : Token} {tokens rest : List Token}

/-- Blanks that a separator makes meaningless have it behind them. -/
private theorem separator_of_absorbs {c : Char} (h : Lexed source p (c :: t) tokens)
    (hc : absorbsBlanks c = true) :
    ∃ blanks after others, t = blanks ++ after ∧ allBlank blanks = true ∧
      Lexed source (p + (c :: blanks).length) after others ∧
      (isCombinator c = true ∧ tokens = ⟨.combinator, some [c], p⟩ :: others ∨
        c = ',' ∧ tokens = ⟨.comma, none, p⟩ :: others) := by
  obtain ⟨text, after, first, others, ht, hlexeme, rfl, hrest⟩ :=
    Lexer.exists_lexeme (isBlank_of_absorbsBlanks hc) (run_complete h)
  rcases hlexeme.separator_cases with ⟨d, blanks, rfl, hd, hblanks, rfl⟩ |
    ⟨blanks, rfl, hblanks, rfl⟩ | ⟨hhead, -⟩
  · obtain ⟨rfl, rfl⟩ : c = d ∧ t = blanks ++ after := by simpa using ht
    exact ⟨blanks, after, others, rfl, hblanks, run_sound hrest, .inl ⟨hd, rfl⟩⟩
  · obtain ⟨rfl, rfl⟩ : c = ',' ∧ t = blanks ++ after := by simpa using ht
    exact ⟨blanks, after, others, rfl, hblanks, run_sound hrest, .inr ⟨rfl, rfl⟩⟩
  · obtain ⟨d, u, rfl, -⟩ := hlexeme.eq_cons
    obtain ⟨rfl, -⟩ : c = d ∧ t = u ++ after := by simpa using ht
    rw [hhead c rfl] at hc
    cases hc

/-- The text ahead begins with what its first token says. -/
theorem ahead (h : Lexed source p t (token :: rest)) : Ahead source p t token rest := by
  generalize htokens : token :: rest = tokens at h
  cases h with
  | done hblanks =>
    cases htokens
    exact .done hblanks
  | @lexeme _ text after first others h hrest =>
    rcases h.separator_cases with ⟨c, blanks, rfl, hc, hblanks, rfl⟩ |
      ⟨blanks, rfl, hblanks, rfl⟩ | ⟨-, head, tail, rfl, hseparator, hparen⟩
    · cases htokens
      exact @Ahead.mark _ _ [] _ _ _ _ _ rfl hc hblanks hrest
    · cases htokens
      exact @Ahead.comma _ _ [] _ _ _ _ rfl hblanks hrest
    · cases htokens
      exact .within h hrest hseparator hparen
  | @gap _ blanks t c others hblanks hne _ _ h =>
    cases htokens
    exact .blanks hblanks hne h
  | @absorbed _ before t c _ hbefore _ hc h =>
    obtain ⟨behind, after, others, rfl, hbehind, hrest, hcases⟩ := separator_of_absorbs h hc
    rcases hcases with ⟨hmark, rfl⟩ | ⟨rfl, rfl⟩
    · cases htokens
      exact .mark hbefore hmark hbehind hrest
    · cases htokens
      exact .comma hbefore hbehind hrest

/-- Where neither blanks nor a mark nor a comma are ahead, no separator is. -/
theorem isSeparator_of_head {c : Char} (h : Lexed source p (c :: t) (token :: rest))
    (hblank : isBlank c = false) (habsorbs : absorbsBlanks c = false) :
    isSeparator token.kind = false := by
  generalize htext : c :: t = ahead at h
  have hblanks : ∀ {blanks behind : Text}, allBlank blanks = true → blanks ≠ [] →
      blanks ++ behind ≠ c :: t := by
    intro blanks behind hall hne heq
    obtain ⟨d, rest, rfl⟩ := List.exists_cons_of_ne_nil hne
    cases heq
    rw [allBlank_iff.mp hall c List.mem_cons_self] at hblank
    cases hblank
  have hmark : ∀ {before behind : Text} {d : Char}, allBlank before = true →
      absorbsBlanks d = true → before ++ d :: behind ≠ c :: t := by
    intro before behind d hbefore hd heq
    cases before with
    | nil =>
      cases heq
      rw [habsorbs] at hd
      cases hd
    | cons _ _ => exact hblanks hbefore (List.cons_ne_nil _ _) heq
  cases h.ahead with
  | done hall =>
    rw [← List.append_nil ahead] at htext
    exact absurd htext.symm (hblanks hall (by rintro rfl; cases htext))
  | within _ _ hseparator _ => exact hseparator
  | blanks hall hne _ => exact absurd htext.symm (hblanks hall hne)
  | mark hbefore hd _ _ =>
    exact absurd htext.symm (hmark hbefore (by simp [absorbsBlanks, hd]))
  | comma hbefore _ _ => exact absurd htext.symm (hmark hbefore rfl)

/-- There is a first token, if only the end. -/
theorem eq_cons (h : Lexed source p t tokens) : ∃ token rest, tokens = token :: rest := by
  induction h with
  | done _ | gap _ _ _ _ _ _ => exact ⟨_, _, rfl⟩
  | lexeme h _ _ => cases h <;> exact ⟨_, _, rfl⟩
  | absorbed _ _ _ _ ih => exact ih

/-- A combinator is blanks, or a mark with blanks around it. -/
theorem of_combinator (h : Lexed source p t (token :: rest)) (hkind : token.kind = .combinator) :
    ∃ joint after, t = joint ++ after ∧ Lexed source (p + joint.length) after rest ∧
      ((token.value = some [' '] ∧ allBlank joint = true ∧ joint ≠ []) ∨
        ∃ before c behind, token.value = some [c] ∧ joint = before ++ c :: behind ∧
          isCombinator c = true ∧ allBlank before = true ∧ allBlank behind = true) := by
  cases h.ahead with
  | done _ | comma _ _ _ => cases hkind
  | within _ _ hseparator _ =>
    rw [hkind] at hseparator
    cases hseparator
  | blanks hblanks hne hrest => exact ⟨_, _, rfl, hrest, .inl ⟨rfl, hblanks, hne⟩⟩
  | @mark before behind after c _ _ hbefore hc hbehind hrest =>
    refine ⟨before ++ c :: behind, after, by simp, ?_,
      .inr ⟨before, c, behind, rfl, rfl, hc, hbefore, hbehind⟩⟩
    rw [List.length_append, ← Nat.add_assoc]
    exact hrest

/-- A comma has its blanks around it. -/
theorem of_comma (h : Lexed source p t (token :: rest)) (hkind : token.kind = .comma) :
    ∃ before behind after, t = before ++ ',' :: (behind ++ after) ∧ allBlank before = true ∧
      allBlank behind = true ∧
      Lexed source (p + before.length + 1 + behind.length) after rest := by
  cases h.ahead with
  | done _ | blanks _ _ _ | mark _ _ _ _ => cases hkind
  | within _ _ hseparator _ =>
    rw [hkind] at hseparator
    cases hseparator
  | @comma before behind after _ _ hbefore hbehind hrest =>
    refine ⟨before, behind, after, rfl, hbefore, hbehind, ?_⟩
    rw [Nat.add_assoc, Nat.add_comm 1]
    exact hrest

/-- The end has nothing but blanks in front of it. -/
theorem of_eof (h : Lexed source p t (token :: rest)) (hkind : token.kind = .eof) :
    allBlank t = true := by
  cases h.ahead with
  | done hblanks => exact hblanks
  | blanks _ _ _ | mark _ _ _ _ | comma _ _ _ => cases hkind
  | within _ _ hseparator _ =>
    rw [hkind] at hseparator
    cases hseparator

/-- Any other token begins a lexeme that no blanks stand before. -/
theorem exists_lexeme (h : Lexed source p t (token :: rest))
    (hkind : isSeparator token.kind = false) :
    ∃ text after first others, t = text ++ after ∧ Lexeme p text after (token :: first) ∧
      rest = first ++ others ∧ Lexed source (p + text.length) after others := by
  cases h.ahead with
  | done _ | blanks _ _ _ | mark _ _ _ _ | comma _ _ _ => cases hkind
  | within hlexeme hrest _ _ => exact ⟨_, _, _, _, rfl, hlexeme, rfl, hrest⟩

/-- Blanks in front of a separator may be there or not. -/
theorem separator {before text after : Text} {c : Char} (hbefore : allBlank before = true)
    (hc : absorbsBlanks c = true) (h : Lexeme (p + before.length) (c :: text) after tokens)
    (hrest : Lexed source (p + before.length + (c :: text).length) after rest) :
    Lexed source p (before ++ (c :: text ++ after)) (tokens ++ rest) := by
  have hseparator := Lexed.lexeme h hrest
  by_cases hne : before = []
  · subst hne
    exact hseparator
  · exact .absorbed hbefore hne hc hseparator

/-- Every token is the end, blanks, or a token of one of the lexemes. -/
theorem mem_cases (h : Lexed source p t tokens) (htoken : token ∈ tokens) :
    token = ⟨.eof, none, source.length⟩ ∨
      (∃ front behind : Text, t = front ++ behind ∧
        token = ⟨.combinator, some [' '], (p + front.length : Nat)⟩) ∨
      ∃ front text after first, t = front ++ (text ++ after) ∧
        Lexeme (p + front.length) text after first ∧ token ∈ first := by
  -- What is in the text behind some other text is in both together.
  have hbehind : ∀ {p : Nat} {text t : Text},
      (token = ⟨.eof, none, source.length⟩ ∨
        (∃ front behind : Text, t = front ++ behind ∧
          token = ⟨.combinator, some [' '], (p + text.length + front.length : Nat)⟩) ∨
        ∃ front inner after first, t = front ++ (inner ++ after) ∧
          Lexeme (p + text.length + front.length) inner after first ∧ token ∈ first) →
      token = ⟨.eof, none, source.length⟩ ∨
        (∃ front behind : Text, text ++ t = front ++ behind ∧
          token = ⟨.combinator, some [' '], (p + front.length : Nat)⟩) ∨
        ∃ front inner after first, text ++ t = front ++ (inner ++ after) ∧
          Lexeme (p + front.length) inner after first ∧ token ∈ first := by
    rintro p text _ (heof | ⟨front, behind, rfl, hgap⟩ | ⟨front, inner, after, first, rfl, h, hmem⟩)
    · exact .inl heof
    · rw [Nat.add_assoc, ← List.length_append] at hgap
      exact .inr (.inl ⟨text ++ front, behind, by rw [List.append_assoc], hgap⟩)
    · rw [Nat.add_assoc, ← List.length_append] at h
      exact .inr (.inr ⟨text ++ front, inner, after, first, by rw [List.append_assoc], h, hmem⟩)
  induction h with
  | done _ => exact .inl (List.mem_singleton.mp htoken)
  | @lexeme p text after first rest h _ ih =>
    rcases List.mem_append.mp htoken with hfirst | hrest
    · exact .inr (.inr ⟨[], text, after, first, rfl, h, hfirst⟩)
    · exact hbehind (ih hrest)
  | @gap p blanks t c _ _ _ _ _ _ ih =>
    rcases List.mem_cons.mp htoken with hgap | hrest
    · exact .inr (.inl ⟨blanks, c :: t, rfl, hgap⟩)
    · exact hbehind (ih hrest)
  | absorbed _ _ _ _ ih => exact hbehind (ih htoken)

/-- An opening parenthesis stands behind a name only. -/
theorem kind_ne_parenOpen (h : Lexed source p t (token :: rest)) : token.kind ≠ .parenOpen := by
  cases h.ahead with
  | done _ | blanks _ _ _ | mark _ _ _ _ | comma _ _ _ => simp
  | within _ _ _ hparen => exact hparen

end Lexed

end SelectorCheck.Lexer

namespace SelectorCheck

open Text

/-- The blanks in front of a selector mean nothing. -/
theorem Token.ofSelector_behind_blanks {blanks t : Text} (h : Run isBlank blanks t) :
    Token.ofSelector (blanks ++ t) =
      (Lexer.run (blanks ++ t) true false ⟨blanks.length, t⟩).result := by
  rw [Token.ofSelector, Cursor.ofText,
    Lexer.run_blanks false false t (allBlank_iff.mpr h.all), Nat.zero_add]
  cases t with
  | nil => rw [Lexer.run_nil, Lexer.run_nil]
  | cons c t =>
    have hgap : Lexer.gap false (false || !blanks.isEmpty) blanks.length c = [] := rfl
    rw [Lexer.run_gap (h.stops c rfl), hgap, Lexer.after_nil]

/-- What the lexer cuts a selector into. -/
theorem Token.ofSelector_eq_ok_iff {source : Text} {tokens : List Token} :
    Token.ofSelector source = .ok tokens ↔
      ∃ blanks t, source = blanks ++ t ∧ Run isBlank blanks t ∧
        Lexer.Lexed source blanks.length t tokens := by
  constructor
  · intro h
    obtain ⟨blanks, t, rfl, hblanks⟩ := Run.of_text isBlank source
    rw [Token.ofSelector_behind_blanks hblanks] at h
    exact ⟨blanks, t, rfl, hblanks, Lexer.run_eq_ok_iff.mp h⟩
  · rintro ⟨blanks, t, rfl, hblanks, hlexed⟩
    rw [Token.ofSelector_behind_blanks hblanks]
    exact Lexer.run_eq_ok_iff.mpr hlexed

end SelectorCheck
