import SelectorCheck.Proofs.Token.Lexed

/-!
# The lexer further on in a text

The lexer looks at the text ahead only. If the same text stands further on in
another selector, it yields the same tokens, further on, or the same error,
further on and about the other selector.

## Main definitions

* `Token.moved`, `SelectorError.movedTo` — tokens and errors at other places.
* `Lexer.Outcome.moved` — what the lexer comes to at another place.

## Main results

* `Lexer.run_moved` — the lexer at another place.
* `Token.ofSelector_append_blanks` — the tokens behind blanks.
-/

namespace SelectorCheck

/-- The token `k` places further on. -/
def Token.moved (k : Nat) (t : Token) : Token := { t with pos := t.pos + k }

/-- The error `k` places further on, in the text `source`. -/
def SelectorError.movedTo (source : Text) (k : Nat) (e : SelectorError) : SelectorError :=
  { e with value := some source, position := e.position.map (· + (k : Int)) }

namespace Token

variable (k : Nat) (t : Token)

@[simp] theorem kind_moved : (t.moved k).kind = t.kind := rfl

@[simp] theorem value_moved : (t.moved k).value = t.value := rfl

@[simp] theorem pos_moved : (t.moved k).pos = t.pos + k := rfl

@[simp] theorem moved_zero : t.moved 0 = t := by
  simp [moved]

end Token

namespace RawArgument

/-- What a scan comes to `k` places further on. -/
def movedScan (k : Nat) : Except Cursor (Text × Cursor) → Except Cursor (Text × Cursor)
  | .ok (content, place) => .ok (content, place.moved k)
  | .error place => .error (place.moved k)

theorem movedScan_passing (k : Nat) (c : Char) (outcome : Except Cursor (Text × Cursor)) :
    movedScan k (passing c outcome) = passing c (movedScan k outcome) := by
  rcases outcome with place | ⟨content, place⟩ <;> rfl

theorem scan_moved (k depth : Nat) (mark : Option Char) (pos : Nat) (t : Text) :
    scan depth mark (pos + k) t = movedScan k (scan depth mark pos t) := by
  have hone : ∀ pos, pos + k + 1 = pos + 1 + k := fun pos => Nat.add_right_comm pos k 1
  have htwo : ∀ pos, pos + k + 2 = pos + 2 + k := fun pos => Nat.add_right_comm pos k 2
  fun_induction scan depth mark pos t with
  | case1 =>
    rw [scan.eq_def]
    rfl
  | case2 | case8 =>
    rw [scan.eq_def]
    simp [*, movedScan, Cursor.moved]
  | case3 | case4 | case5 | case6 | case7 | case9 | case10 =>
    rw [scan.eq_def]
    simp [*, movedScan_passing]

end RawArgument

namespace Lexer

open RawArgument

/-- What the lexer comes to `k` places further on, in the text `source`. -/
def Outcome.moved (source : Text) (k : Nat) (o : Outcome) : Outcome where
  place := o.place.moved k
  result :=
    match o.result with
    | .ok tokens => .ok (tokens.map (Token.moved k))
    | .error e => .error (e.movedTo source k)

variable {source other : Text} {k : Nat}

theorem Outcome.moved_after (tokens : List Token) (o : Outcome) :
    (o.after tokens).moved other k = (o.moved other k).after (tokens.map (Token.moved k)) := by
  obtain ⟨place, e | rest⟩ := o
  · rfl
  · simp [after, moved, Except.map]

variable (c : Cursor)

theorem separator_moved (kind : TokenKind) (value : Option Text) :
    separator kind value (c.moved k) = (separator kind value c).moved other k := by
  simp [separator, Outcome.moved, Cursor.skip_moved, Cursor.skipBlanks_moved, Token.moved]

theorem marked_moved (kind : TokenKind) (mark : Char) :
    marked other kind mark (c.moved k) = (marked source kind mark c).moved other k := by
  unfold marked
  rw [Cursor.skip_moved]
  generalize c.skip 1 = start
  by_cases hname : start.rest.takeName = []
  · simp [hname, Outcome.moved, SelectorError.movedTo]
  · simp [hname, Outcome.moved, Cursor.skipWhile_moved, Token.moved]

theorem tagName_moved : tagName (c.moved k) = (tagName c).moved other k := by
  simp [tagName, Outcome.moved, Cursor.skipWhile_moved, Token.moved]

theorem argumentTokens_moved (content : Text) :
    argumentTokens content (c.moved k) = (argumentTokens content c).map (Token.moved k) := by
  unfold argumentTokens
  by_cases hblank : content.trimEnd = []
  · rw [if_pos hblank, if_pos hblank, List.map_nil]
  · rw [if_neg hblank, if_neg hblank]
    simp [Token.moved]

theorem argument_moved (hlength : other.length = source.length + k) :
    argument other (c.moved k) = (argument source c).moved other k := by
  unfold argument
  rw [Cursor.skip_moved, Cursor.skipBlanks_moved]
  simp only [Cursor.pos_moved, Cursor.rest_moved, scan_moved]
  cases hscan : scan 0 none (c.skip 1).skipBlanks.pos (c.skip 1).skipBlanks.rest with
  | error place => simp [movedScan, Outcome.moved, SelectorError.movedTo, hlength]
  | ok found =>
    obtain ⟨content, close⟩ := found
    simp [movedScan, Outcome.moved, Cursor.skip_moved, argumentTokens_moved, Token.moved]

theorem pseudoName_moved (hlength : other.length = source.length + k) (marker : Token)
    (colons : Text) :
    pseudoName other (marker.moved k) colons (c.moved k) =
      (pseudoName source marker colons c).moved other k := by
  unfold pseudoName
  rw [Cursor.skipWhile_moved]
  by_cases hname : c.rest.takeName = []
  · simp [hname, Outcome.moved, SelectorError.movedTo]
  · simp only [Cursor.rest_moved, hname, if_false]
    by_cases hparen : (c.skipWhile isNameChar).rest.head? = some '('
    · simp only [hparen, if_true]
      rw [argument_moved _ hlength, Outcome.moved_after]
      simp [Token.moved]
    · simp only [hparen, if_false]
      simp [Outcome.moved, Token.moved]

theorem pseudo_moved (hlength : other.length = source.length + k) :
    pseudo other (c.moved k) = (pseudo source c).moved other k := by
  unfold pseudo
  simp only [Cursor.skip_moved, Cursor.rest_moved]
  by_cases hcolon : (c.skip 1).rest.head? = some ':'
  · simp only [hcolon, if_true]
    rw [← pseudoName_moved _ hlength]
    simp [Token.moved]
  · simp only [hcolon, if_false]
    rw [← pseudoName_moved _ hlength]
    simp [Token.moved]

/-- A lexeme is the same lexeme further on. -/
theorem lexeme_moved (hlength : other.length = source.length + k) (pos : Nat) (ch : Char)
    (after : Text) :
    lexeme other (pos + k) ch after = (lexeme source pos ch after).moved other k := by
  have hplace : Cursor.mk (pos + k) (ch :: after) = (Cursor.mk pos (ch :: after)).moved k := rfl
  unfold lexeme
  rw [hplace]
  simp only [apply_ite (Outcome.moved other k), ← separator_moved, ← marked_moved, ← tagName_moved,
    ← pseudo_moved _ hlength]
  -- The marks without a reader of their own are left: an asterisk, and what is no lexeme.
  congr
  exact Cursor.skip_moved k _ 1

theorem gap_moved (started blanks : Bool) (pos : Nat) (ch : Char) :
    gap started blanks (pos + k) ch = (gap started blanks pos ch).map (Token.moved k) := by
  unfold gap
  split
  · simp [Token.moved]
  · rfl

/-- Blanks in front of the first lexeme mean nothing. -/
theorem run_unstarted (blanks : Bool) (c : Cursor) :
    run source false blanks c = run source false false c := by
  obtain ⟨pos, t⟩ := c
  cases t with
  | nil => rw [run_nil, run_nil]
  | cons ch after =>
    by_cases hblank : isBlank ch = true
    · rw [run_blank hblank, run_blank hblank]
    · rw [Bool.not_eq_true] at hblank
      rw [run_gap hblank false blanks, run_gap hblank false false]
      rfl

/-- The lexer yields the same further on. -/
theorem run_moved (hlength : other.length = source.length + k) (started blanks : Bool) (pos : Nat)
    (t : Text) :
    run other started blanks ⟨pos + k, t⟩ = (run source started blanks ⟨pos, t⟩).moved other k := by
  induction hn : t.length using Nat.strongRecOn generalizing started blanks pos t with
  | _ n ih =>
    cases t with
    | nil => simp [run_nil, Outcome.moved, Cursor.moved, Token.moved, hlength]
    | cons ch after =>
      rw [List.length_cons] at hn
      by_cases hblank : isBlank ch = true
      · have hplace : pos + k + 1 = pos + 1 + k := Nat.add_right_comm pos k 1
        rw [run_blank hblank, run_blank hblank, hplace]
        exact ih after.length (by omega) started true (pos + 1) after rfl
      · rw [Bool.not_eq_true] at hblank
        have hmoved := lexeme_moved hlength pos ch after
        cases hlexeme : lexeme source pos ch after with
        | mk place result =>
          rw [hlexeme] at hmoved
          cases result with
          | error e =>
            rw [run_malformed hblank hlexeme, run_malformed hblank hmoved]
            rfl
          | ok tokens =>
            have hshorter := length_rest_lexeme_le hlexeme
            rw [run_lexeme hblank hlexeme, run_lexeme hblank hmoved, Outcome.moved_after,
              List.map_append, gap_moved]
            have hrest := ih place.rest.length (by omega) true false place.pos place.rest rfl
            rw [← hrest]
            rfl

end Lexer

/-- The tokens of a selector behind blanks are its own, further on. -/
theorem Token.ofSelector_append_blanks {source blanks : Text} (h : blanks.allBlank = true) :
    Token.ofSelector (blanks ++ source) =
      match Token.ofSelector source with
      | .ok tokens => .ok (tokens.map (Token.moved blanks.length))
      | .error e => .error (e.movedTo (blanks ++ source) blanks.length) := by
  have hlength : (blanks ++ source).length = source.length + blanks.length := by
    rw [List.length_append, Nat.add_comm]
  have hrun : Lexer.run (blanks ++ source) false false ⟨0, blanks ++ source⟩ =
      (Lexer.run source false false ⟨0, source⟩).moved (blanks ++ source) blanks.length := by
    rw [Lexer.run_blanks false false source h, Lexer.run_unstarted,
      Lexer.run_moved hlength false false 0 source]
  exact congrArg Lexer.Outcome.result hrun

end SelectorCheck
