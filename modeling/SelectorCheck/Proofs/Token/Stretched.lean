import SelectorCheck.Proofs.Argument.Contained
import SelectorCheck.Proofs.Token.Moved

/-!
# The lexer in front of blanks

Blanks behind a selector stretch it: its end lies further on, and nothing else
changes. No name goes on with a blank, no blank closes a parenthesis or a
quotation, and the blanks behind the last lexeme yield no token. So the lexer
yields the same tokens but for the end, and it stops for the same reason, at the
same place unless that is the end.

Where the last lexeme takes in the blanks behind it, those at the end of the
selector are taken in too, and the two runs of the lexer are not at the same place
any longer. Then both are at the end.

## Main definitions

* `SelectorError.Stretched` — the same trouble in a text with another end.
* `Cursor.Stretched`, `Lexer.Outcome.Stretched` — places, and what the lexer comes
  to.
* `Token.Stretched` — the tokens of both selectors.

## Main results

* `Lexer.lexeme_stretched` — one lexeme in front of blanks.
* `Token.ofSelector_stretched` — the tokens of a selector in front of blanks.
-/

namespace SelectorCheck

open Text RawArgument

/-- The error `other` is about the same trouble as `e`, at the same place or at the end of a text
of `n` characters where `e` is at the end of one of `m`. -/
structure SelectorError.Stretched (m n : Nat) (e other : SelectorError) : Prop where
  code : other.code = e.code
  errorClass : other.errorClass = e.errorClass
  name : other.name = e.name
  token : other.token = e.token
  position : ∃ p q : Int, e.position = some p ∧ other.position = some q ∧
    (q = p ∨ p = m ∧ q = n)

/-- The places of two runs of which the second has `blanks` behind the text. -/
inductive Cursor.Stretched (blanks : Text) : Cursor → Cursor → Prop where
  | ahead (pos : Nat) (rest : Text) : Stretched blanks ⟨pos, rest⟩ ⟨pos, rest ++ blanks⟩
  /-- The blanks have been passed over. -/
  | passed (pos : Nat) : Stretched blanks ⟨pos, []⟩ ⟨pos + blanks.length, []⟩

/-- What two texts of `m` and of `n` characters are cut into that differ in the place of the end. -/
inductive Token.Stretched (m n : Nat) :
    Except SelectorError (List Token) → Except SelectorError (List Token) → Prop where
  | ok (tokens : List Token) :
      Stretched m n (.ok (tokens ++ [⟨.eof, none, m⟩])) (.ok (tokens ++ [⟨.eof, none, n⟩]))
  | error {e e' : SelectorError} (h : e.Stretched m n e') : Stretched m n (.error e) (.error e')

namespace Text

variable {blanks : Text} (hblanks : allBlank blanks = true)

include hblanks

/-- Blanks prolong no name. -/
theorem not_isNameChar_of_blanks : ∀ c ∈ blanks.head?, isNameChar c = false := by
  intro c hc
  have hblank := allBlank_iff.mp hblanks c (List.mem_of_head? hc)
  cases hname : isNameChar c with
  | false => rfl
  | true =>
    rw [isBlank_of_isNameChar hname] at hblank
    cases hblank

theorem takeName_append_blanks (t : Text) : (t ++ blanks).takeName = t.takeName :=
  takeWhile_append_of_stops (not_isNameChar_of_blanks hblanks) t

end Text

section Places

variable {blanks : Text} (hblanks : allBlank blanks = true)

include hblanks

theorem Cursor.skipName_append_blanks (pos : Nat) (t : Text) :
    (Cursor.mk pos (t ++ blanks)).skipWhile isNameChar =
      ⟨((Cursor.mk pos t).skipWhile isNameChar).pos,
        ((Cursor.mk pos t).skipWhile isNameChar).rest ++ blanks⟩ := by
  have hstops := not_isNameChar_of_blanks hblanks
  simp only [skipWhile, takeWhile_append_of_stops hstops, dropWhile_append_of_stops hstops]

theorem Cursor.skipBlanks_stretched (pos : Nat) (t : Text) :
    Stretched blanks (Cursor.mk pos t).skipBlanks (Cursor.mk pos (t ++ blanks)).skipBlanks := by
  obtain ⟨run, after, rfl, hrun⟩ := Run.of_text isBlank t
  rw [skipBlanks_run hrun, List.append_assoc]
  cases after with
  | nil =>
    have hall : ∀ c ∈ run ++ blanks, isBlank c = true := by
      intro c hc
      rcases List.mem_append.mp hc with hc | hc
      · exact hrun.all c hc
      · exact allBlank_iff.mp hblanks c hc
    have hpassed := skipBlanks_run (Run.nil_right hall) pos
    rw [List.append_nil, List.length_append, ← Nat.add_assoc] at hpassed
    rw [List.nil_append, hpassed]
    exact .passed _
  | cons c after =>
    have hahead : Run isBlank run (c :: after ++ blanks) := ⟨hrun.all, hrun.stops⟩
    rw [skipBlanks_run hahead]
    exact .ahead _ _

/-- A parenthesis that is not closed is not closed by blanks. -/
theorem RawArgument.scan_error_append_blanks {pos : Nat} {t : Text} {place : Cursor}
    (h : scan 0 none pos t = .error place) :
    ∃ place', scan 0 none pos (t ++ blanks) = .error place' := by
  cases hscan : scan 0 none pos (t ++ blanks) with
  | error place' => exact ⟨place', rfl⟩
  | ok found =>
    obtain ⟨content, close⟩ := found
    obtain ⟨after, hsplit, rfl⟩ := scan_eq_ok hscan
    -- The parenthesis is no blank, so it stands in the text in front of the blanks.
    rcases List.append_eq_append_iff.mp hsplit with ⟨u, -, hu⟩ | ⟨u, rfl, hu⟩
    · have hclose : ')' ∈ blanks := by
        rw [hu]
        simp
      exact absurd (allBlank_iff.mp hblanks _ hclose) (by decide)
    · cases u with
      | nil =>
        rw [List.nil_append] at hu
        have hclose : ')' ∈ blanks := by
          rw [← hu]
          exact List.mem_cons_self
        exact absurd (allBlank_iff.mp hblanks _ hclose) (by decide)
      | cons c u =>
        obtain ⟨rfl, -⟩ : ')' = c ∧ after = u ++ blanks := by simpa using hu
        rw [(selfContained_of_scan hscan).scan_closing] at h
        cases h

end Places

namespace Lexer

/-- What two runs come to, of which the second has `blanks` behind the text. -/
inductive Outcome.Stretched (m n : Nat) (blanks : Text) : Outcome → Outcome → Prop where
  | ok {place place' : Cursor} (tokens : List Token) (h : place.Stretched blanks place') :
      Stretched m n blanks ⟨place, .ok tokens⟩ ⟨place', .ok tokens⟩
  | error (place place' : Cursor) {e e' : SelectorError} (h : e.Stretched m n e') :
      Stretched m n blanks ⟨place, .error e⟩ ⟨place', .error e'⟩

namespace Outcome.Stretched

variable {m n : Nat} {blanks : Text} {o o' u u' : Outcome}

theorem after (h : o.Stretched m n blanks o') (tokens : List Token) :
    (o.after tokens).Stretched m n blanks (o'.after tokens) := by
  cases h with
  | ok rest h => exact .ok (tokens ++ rest) h
  | error place place' h => exact .error place place' h

theorem ite {c : Prop} [Decidable c] (h : o.Stretched m n blanks o')
    (hother : u.Stretched m n blanks u') :
    (if c then o else u).Stretched m n blanks (if c then o' else u') := by
  by_cases hc : c
  · rwa [if_pos hc, if_pos hc]
  · rwa [if_neg hc, if_neg hc]

end Outcome.Stretched

/-! ## Lexemes -/

section Lexemes

variable {source other blanks : Text} (hblanks : allBlank blanks = true) (p : Nat) (t : Text)

include hblanks

theorem separator_stretched (kind : TokenKind) (value : Option Text) (c : Char) :
    (separator kind value ⟨p, c :: t⟩).Stretched source.length other.length blanks
      (separator kind value ⟨p, c :: (t ++ blanks)⟩) :=
  .ok _ (Cursor.skipBlanks_stretched hblanks (p + 1) t)

theorem tagName_stretched :
    (tagName ⟨p, t⟩).Stretched source.length other.length blanks (tagName ⟨p, t ++ blanks⟩) := by
  unfold tagName
  rw [Cursor.skipName_append_blanks hblanks]
  simp only [takeName_append_blanks hblanks]
  exact .ok _ (.ahead _ _)

theorem marked_stretched (kind : TokenKind) (mark c : Char) :
    (marked source kind mark ⟨p, c :: t⟩).Stretched source.length other.length blanks
      (marked other kind mark ⟨p, c :: (t ++ blanks)⟩) := by
  have hskip : ∀ u, (Cursor.mk p (c :: u)).skip 1 = ⟨p + 1, u⟩ := fun u => rfl
  unfold marked
  simp only [hskip, takeName_append_blanks hblanks, Cursor.skipName_append_blanks hblanks]
  exact .ite (.error _ _ ⟨rfl, rfl, rfl, rfl, _, _, rfl, rfl, .inl rfl⟩) (.ok _ (.ahead _ _))

theorem argument_stretched (c : Char) :
    (argument source ⟨p, c :: t⟩).Stretched source.length other.length blanks
      (argument other ⟨p, c :: (t ++ blanks)⟩) := by
  have hskip : ∀ u, (Cursor.mk p (c :: u)).skip 1 = ⟨p + 1, u⟩ := fun u => rfl
  have hend : SelectorError.Stretched source.length other.length
      { code := .expectedClosingParen, value := some source, position := some source.length }
      { code := .expectedClosingParen, value := some other, position := some other.length } :=
    ⟨rfl, rfl, rfl, rfl, _, _, rfl, rfl, .inr ⟨rfl, rfl⟩⟩
  have hstart := Cursor.skipBlanks_stretched hblanks (p + 1) t
  unfold argument
  simp only [hskip]
  generalize (Cursor.mk (p + 1) t).skipBlanks = start at hstart ⊢
  generalize (Cursor.mk (p + 1) (t ++ blanks)).skipBlanks = start' at hstart ⊢
  cases hstart with
  | passed pos => exact .error _ _ hend
  | ahead pos rest =>
    cases hscan : scan 0 none pos rest with
    | error place =>
      obtain ⟨place', hscan'⟩ := scan_error_append_blanks hblanks hscan
      simp only [hscan']
      exact .error _ _ hend
    | ok found =>
      obtain ⟨content, close⟩ := found
      obtain ⟨after, rfl, rfl⟩ := scan_eq_ok hscan
      have hscan' := (selfContained_of_scan hscan).scan_closing pos (after ++ blanks)
      rw [List.append_assoc, List.cons_append, hscan']
      exact .ok _ (.ahead _ _)

theorem pseudoName_stretched (marker : Token) (colons : Text) :
    (pseudoName source marker colons ⟨p, t⟩).Stretched source.length other.length blanks
      (pseudoName other marker colons ⟨p, t ++ blanks⟩) := by
  unfold pseudoName
  simp only [takeName_append_blanks hblanks, Cursor.skipName_append_blanks hblanks]
  refine .ite (.error _ _ ⟨rfl, rfl, rfl, rfl, _, _, rfl, rfl, .inl rfl⟩) ?_
  generalize (Cursor.mk p t).skipWhile isNameChar = behind
  obtain ⟨pos, rest⟩ := behind
  cases rest with
  | nil =>
    have hbare : (([] : Text) ++ blanks).head? ≠ some '(' := by
      intro hparen
      have hblank := allBlank_iff.mp hblanks _ (List.mem_of_head? hparen)
      exact absurd hblank (by decide)
    rw [if_neg hbare, if_neg (by simp)]
    exact .ok _ (.ahead pos [])
  | cons c rest =>
    exact .ite ((argument_stretched hblanks pos rest c).after _) (.ok _ (.ahead pos (c :: rest)))

theorem pseudo_stretched (c : Char) :
    (pseudo source ⟨p, c :: t⟩).Stretched source.length other.length blanks
      (pseudo other ⟨p, c :: (t ++ blanks)⟩) := by
  have hskip : ∀ c u q, (Cursor.mk q (c :: u)).skip 1 = ⟨q + 1, u⟩ := fun c u q => rfl
  unfold pseudo
  simp only [hskip]
  cases t with
  | nil =>
    have hsingle : (([] : Text) ++ blanks).head? ≠ some ':' := by
      intro hcolon
      have hblank := allBlank_iff.mp hblanks _ (List.mem_of_head? hcolon)
      exact absurd hblank (by decide)
    rw [if_neg hsingle, if_neg (by simp)]
    exact pseudoName_stretched hblanks (p + 1) [] _ _
  | cons d t =>
    refine .ite ?_ (pseudoName_stretched hblanks (p + 1) (d :: t) _ _)
    exact pseudoName_stretched hblanks (p + 2) t _ _

/-- What begins with a character is the same lexeme in front of blanks, or is malformed in the same
way. -/
theorem lexeme_stretched (ch : Char) :
    (lexeme source p ch t).Stretched source.length other.length blanks
      (lexeme other p ch (t ++ blanks)) := by
  unfold lexeme
  refine .ite (separator_stretched hblanks p t _ _ ch) ?_
  refine .ite (.ok _ (.ahead (p + 1) t)) ?_
  refine .ite (marked_stretched hblanks p t _ ch ch) ?_
  refine .ite (marked_stretched hblanks p t _ ch ch) ?_
  refine .ite (.error _ _ ⟨rfl, rfl, rfl, rfl, _, _, rfl, rfl, .inl rfl⟩) ?_
  refine .ite (separator_stretched hblanks p t _ _ ch) ?_
  refine .ite (pseudo_stretched hblanks p t ch) ?_
  refine .ite (tagName_stretched hblanks p (ch :: t)) ?_
  exact .error _ _ ⟨rfl, rfl, rfl, rfl, _, _, rfl, rfl, .inl rfl⟩

end Lexemes

/-! ## Whole texts -/

variable {source other blanks : Text}

theorem stretched_after {m n : Nat} {o o' : Outcome} (h : Token.Stretched m n o.result o'.result)
    (tokens : List Token) :
    Token.Stretched m n (o.after tokens).result (o'.after tokens).result := by
  obtain ⟨place, result⟩ := o
  obtain ⟨place', result'⟩ := o'
  cases h with
  | error h => exact .error h
  | ok rest =>
    have hall := Token.Stretched.ok (m := m) (n := n) (tokens ++ rest)
    rw [List.append_assoc, List.append_assoc] at hall
    exact hall

theorem run_stretched (hblanks : allBlank blanks = true) (started seen : Bool) (p : Nat)
    (t : Text) :
    Token.Stretched source.length other.length (run source started seen ⟨p, t⟩).result
      (run other started seen ⟨p, t ++ blanks⟩).result := by
  induction hn : t.length using Nat.strongRecOn generalizing started seen p t with
  | _ n ih =>
    cases t with
    | nil =>
      have hpassed : run other started seen ⟨p, blanks ++ []⟩ =
          run other started (seen || !blanks.isEmpty) ⟨p + blanks.length, []⟩ :=
        run_blanks started seen [] hblanks
      rw [List.append_nil] at hpassed
      rw [List.nil_append, hpassed, run_nil, run_nil]
      exact .ok []
    | cons ch after =>
      rw [List.length_cons] at hn
      by_cases hblank : isBlank ch = true
      · rw [List.cons_append, run_blank hblank, run_blank hblank]
        exact ih after.length (by omega) started true (p + 1) after rfl
      · rw [Bool.not_eq_true] at hblank
        have hstretched : (lexeme source p ch after).Stretched source.length other.length blanks
            (lexeme other p ch (after ++ blanks)) := lexeme_stretched hblanks p after ch
        rw [List.cons_append]
        generalize hread : lexeme source p ch after = o at hstretched
        generalize hread' : lexeme other p ch (after ++ blanks) = o' at hstretched
        cases hstretched with
        | error place place' h =>
          rw [run_malformed hblank hread, run_malformed hblank hread']
          exact .error h
        | ok tokens h =>
          rw [run_lexeme hblank hread, run_lexeme hblank hread']
          refine stretched_after ?_ _
          cases h with
          | passed pos =>
            rw [run_nil, run_nil]
            exact .ok []
          | ahead pos rest =>
            have hshorter : rest.length ≤ after.length := length_rest_lexeme_le hread
            exact ih rest.length (by omega) true false pos rest rfl

end Lexer

/-- The tokens of a selector in front of blanks are its own but for the end, and what it is
malformed for stays at its place but for the end. -/
theorem Token.ofSelector_stretched (source : Text) {blanks : Text}
    (hblanks : allBlank blanks = true) :
    Token.Stretched source.length (source ++ blanks).length (ofSelector source)
      (ofSelector (source ++ blanks)) :=
  Lexer.run_stretched hblanks false false 0 source

end SelectorCheck
