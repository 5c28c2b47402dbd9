import SelectorCheck.Proofs.Token.Lexed

/-!
# What the lexer stops at

The lexer stops at a lexeme that is malformed, and there are four ways in which
one can be: no name follows a mark, the parenthesis behind a name is not closed,
a bracket opens an attribute, or no lexeme begins with the character. Each has an
error of its own, all of one class.

## Main definitions

* `Lexer.nameMarks` — the texts that a name must follow.
* `Lexer.Malformed` — the four ways, with their errors.

## Main results

* `Lexer.malformed_of_lexeme` — the lexer stops for one of them.
* `Token.exists_malformed` — where in a selector it does.
* `Token.errorClass_of_error` — what it stops with is about the selector as such.
-/

namespace SelectorCheck.Lexer

open Text RawArgument

/-- The marks of an id and of a class, and the colons. A name must follow them. -/
def nameMarks : List Text := [['#'], ['.'], [':'], [':', ':']]

theorem Colons.mem_nameMarks {colons : Text} {kind : TokenKind} (h : Colons colons kind) :
    colons ∈ nameMarks := by
  cases h <;> decide

/-- The text at position `p` begins with a malformed lexeme, for which `e` is the error. -/
inductive Malformed (source : Text) (p : Nat) : (t : Text) → (e : SelectorError) → Prop where
  /-- No name follows the mark, or the colons. -/
  | identifier {mark rest : Text} (hmark : mark ∈ nameMarks) (hnone : rest.takeName = []) :
      Malformed source p (mark ++ rest)
        { code := .expectedIdentifier, value := some source, token := some mark,
          position := some (p + mark.length : Nat) }
  /-- The parenthesis behind colons and a name is not closed. -/
  | parenthesis {colons name blanks rest : Text} {kind : TokenKind} {place : Cursor}
      (hcolons : Colons colons kind) (hname : NameRun name ('(' :: (blanks ++ rest)))
      (hblanks : Run isBlank blanks rest)
      (hscan : scan 0 none (p + colons.length + name.length + 1 + blanks.length) rest =
        .error place) :
      Malformed source p (colons ++ (name ++ '(' :: (blanks ++ rest)))
        { code := .expectedClosingParen, value := some source,
          position := some source.length }
  | bracket {t : Text} :
      Malformed source p ('[' :: t)
        { code := .unsupportedAttribute, value := some source, position := some p }
  | character {c : Char} {t : Text} :
      Malformed source p (c :: t)
        { code := .unexpectedCharacter, value := some source, token := some [c],
          position := some p }

variable {source rest : Text} {p : Nat} {c : Char} {t : Text} {place : Cursor} {e : SelectorError}

/-! ## Lexemes -/

private theorem malformed_of_marked {kind : TokenKind} {mark : Char} (hmark : [mark] ∈ nameMarks)
    (h : marked source kind mark ⟨p, mark :: t⟩ = ⟨place, .error e⟩) :
    Malformed source p (mark :: t) e := by
  unfold marked at h
  dsimp only at h
  split at h
  · next hnone =>
    cases h
    exact @Malformed.identifier source p [mark] t hmark hnone
  · cases h

private theorem malformed_of_argument {q : Nat}
    (h : argument source ⟨q, '(' :: t⟩ = ⟨place, .error e⟩) :
    ∃ blanks rest place', t = blanks ++ rest ∧ Run isBlank blanks rest ∧
      scan 0 none (q + 1 + blanks.length) rest = .error place' ∧
      e = { code := .expectedClosingParen, value := some source,
            position := some source.length } := by
  obtain ⟨blanks, rest, rfl, hrun⟩ := Run.of_text isBlank t
  have hstart : ((Cursor.mk q ('(' :: (blanks ++ rest))).skip 1).skipBlanks =
      ⟨q + 1 + blanks.length, rest⟩ := Cursor.skipBlanks_run hrun (q + 1)
  unfold argument at h
  rw [hstart] at h
  cases hscan : scan 0 none (q + 1 + blanks.length) rest with
  | error place' =>
    simp only [hscan] at h
    cases h
    exact ⟨blanks, rest, _, rfl, hrun, hscan, rfl⟩
  | ok found =>
    simp only [hscan] at h
    cases h

private theorem malformed_of_pseudoName {marker : Token} {colons : Text} {kind : TokenKind}
    (hcolons : Colons colons kind)
    (h : pseudoName source marker colons ⟨p + colons.length, rest⟩ = ⟨place, .error e⟩) :
    Malformed source p (colons ++ rest) e := by
  rcases name_cases rest with hnone | ⟨name, behind, rfl, hname⟩
  · simp only [pseudoName, hnone, if_true] at h
    cases h
    exact .identifier hcolons.mem_nameMarks hnone
  · simp only [pseudoName, hname.takeName_eq, if_neg hname.ne_nil,
      Cursor.skipWhile_run hname.toRun] at h
    split at h
    · next hparen =>
      obtain ⟨tail, rfl⟩ := List.head?_eq_some_iff.mp hparen
      cases hargument : argument source ⟨p + colons.length + name.length, '(' :: tail⟩ with
      | mk behind result =>
        rw [hargument] at h
        cases result with
        | ok tokens => cases h
        | error f =>
          cases h
          obtain ⟨blanks, rest, place', rfl, hblanks, hscan, rfl⟩ := malformed_of_argument hargument
          exact .parenthesis hcolons hname hblanks hscan
    · cases h

/-- Where the lexer does not read a lexeme, the text begins with a malformed one. -/
theorem malformed_of_lexeme (h : lexeme source p c t = ⟨place, .error e⟩) :
    Malformed source p (c :: t) e := by
  unfold lexeme at h
  dsimp only at h
  split at h
  · cases h
  split at h
  · cases h
  split at h
  · next hid =>
    obtain rfl : c = '#' := by simpa using hid
    exact malformed_of_marked (by decide) h
  split at h
  · next hclass =>
    obtain rfl : c = '.' := by simpa using hclass
    exact malformed_of_marked (by decide) h
  split at h
  · next hbracket =>
    obtain rfl : c = '[' := by simpa using hbracket
    cases h
    exact .bracket
  split at h
  · cases h
  split at h
  · next hcolon =>
    obtain rfl : c = ':' := by simpa using hcolon
    obtain ⟨colons, kind, rest, ht, hcolons, hpseudo⟩ := pseudo_cases source p t
    rw [hpseudo] at h
    rw [ht]
    exact malformed_of_pseudoName hcolons h
  split at h
  · cases h
  · cases h
    exact .character

theorem Malformed.errorClass (h : Malformed source p t e) : e.errorClass = .selector := by
  cases h <;> rfl

/-! ## Whole texts -/

/-- Where a run does not come to tokens, a malformed lexeme stands ahead. -/
theorem malformed_of_run {started blanks : Bool} {start : Cursor}
    (h : (run source started blanks start).result = .error e) :
    ∃ front t, start.rest = front ++ t ∧ Malformed source (start.pos + front.length) t e := by
  fun_induction run source started blanks start with
  | case1 => cases h
  | case2 started blanks pos c after _ ih =>
    obtain ⟨front, t, hsplit, hmalformed⟩ := ih h
    refine ⟨c :: front, t, congrArg (c :: ·) hsplit, ?_⟩
    have hplace : pos + (c :: front).length = pos + 1 + front.length := by
      rw [List.length_cons, Nat.add_assoc, Nat.add_comm 1]
    rwa [hplace]
  | case3 started blanks pos c after _ place f hread =>
    cases h
    exact ⟨[], c :: after, rfl, malformed_of_lexeme hread⟩
  | case4 started blanks pos c after _ place tokens hread ih =>
    obtain ⟨text, behind, ht, rfl, -⟩ := lexeme_eq_ok_iff.mp hread
    obtain ⟨front, t, rfl, hmalformed⟩ := ih (result_after_eq_error_iff.mp h)
    refine ⟨text ++ front, t, by rw [List.append_assoc]; exact ht, ?_⟩
    rwa [List.length_append, ← Nat.add_assoc]

end SelectorCheck.Lexer

namespace SelectorCheck

/-- Where a selector cannot be cut into tokens, it holds a malformed lexeme. -/
theorem Token.exists_malformed {source : Text} {e : SelectorError}
    (h : ofSelector source = .error e) :
    ∃ front t, source = front ++ t ∧ Lexer.Malformed source front.length t e := by
  obtain ⟨front, t, hsplit, hmalformed⟩ := Lexer.malformed_of_run h
  exact ⟨front, t, hsplit, by rwa [Cursor.pos_ofText, Nat.zero_add] at hmalformed⟩

/-- What the lexer stops with is an error of the class of selectors. -/
theorem Token.errorClass_of_error {source : Text} {e : SelectorError}
    (h : ofSelector source = .error e) : e.errorClass = .selector := by
  obtain ⟨_, _, -, hmalformed⟩ := exists_malformed h
  exact hmalformed.errorClass

end SelectorCheck
