import SelectorCheck.Proofs.Argument.Place
import SelectorCheck.Proofs.Nth.Stage

/-!
# Where an expression breaks off

An error about an expression names a place and the piece of the text that begins
there. Up to that place the text is the beginning of an expression: something can be
put behind it so that the reader accepts the whole. With the character at the place
it is not, whatever is put behind it. The exceptions are texts that begin like no
expression but a word, which are wrong from their first character on, and runs of
digits that are too long, which are wrong from their first digit on.

A stage of an expression needs at most one more digit to be one where it may end, and
a text whose stages do not go on is not accepted with anything behind it. So the
place is where the stages do not go on.

## Main definitions

* `Nth.Extends` — something can be put behind a text to make it an expression.
* `Nth.PieceAt` — the piece of a text that begins at a place.

## Main results

* `Nth.extends_of_after`, `Nth.not_extends` — which texts are beginnings.
* `Nth.parse_breaks_off` — place and piece of an error.
-/

namespace SelectorCheck.Nth

open Text

/-- With some text behind it the text is an expression. -/
def Extends (name : Text) (context : Option Context) (t : Text) : Prop :=
  ∃ u e, parse name (some (t ++ u)) context = .ok e

/-- The piece of a text that begins at a place: a word for the end of the text, or a character and
what follows it up to the next blank or sign. -/
inductive PieceAt (v : Text) (p : Nat) : Text → Prop where
  | ending (h : p = v.length) : PieceAt v p "end of argument".toList
  | piece {c : Char} {run after : Text} (h : v.drop p = c :: (run ++ after))
      (hrun : Run (fun d => !isBlank d && !isSign d) run after) : PieceAt v p (c :: run)

variable {name : Text} {context : Option Context} {t v : Text} {e : Nth}

/-- An accepted text is a word, or the reader of the other expressions has accepted it. -/
theorem parse_ok_cases (h : parse name (some v) context = .ok e) :
    ofWord? v.trim = some e ∨ read (.ofText v) = .ok e := by
  simp only [parse] at h
  split at h
  · cases h
  · split at h
    · next hword =>
      obtain rfl := Except.ok.inj h
      exact .inl hword
    · split at h
      · next hread =>
        obtain rfl := Except.ok.inj h
        exact .inr hread
      · cases h

/-- What may end where it ends is accepted. -/
theorem exists_parse {last : Stage} (hshort : ShortRuns v)
    (hlast : Stage.start.after v = some last) (hcomplete : last.complete = true) :
    ∃ e, parse name (some v) context = .ok e := by
  obtain ⟨e, hread⟩ := read_of_complete hshort hlast hcomplete
  have hblank : ¬ v.allBlank = true := by
    intro hall
    rw [Stage.after_blanks rfl (allBlank_iff.mp hall)] at hlast
    obtain rfl := Option.some.inj hlast
    cases hcomplete
  unfold parse
  dsimp only
  rw [if_neg hblank, hread]
  cases ofWord? v.trim with
  | some e => exact ⟨e, rfl⟩
  | none => exact ⟨e, rfl⟩

/-! ## Beginnings of expressions -/

theorem shortRuns_of_length_le (h : t.length ≤ Decimal.digitLimit) : ShortRuns t :=
  fun _ hdigits _ => Nat.le_trans hdigits.length_le h

/-- A character behind a text that ends with no digit makes no long run. -/
private theorem shortRuns_concat (h : ShortRuns t) (hlast : ∀ d ∈ t.getLast?, d.isDigit = false)
    (c : Char) : ShortRuns (t ++ [c]) := by
  intro digits hdigits hall
  rcases List.infix_concat_iff.mp hdigits with hsuffix | hinfix
  · rcases List.suffix_concat_iff.mp hsuffix with rfl | ⟨front, rfl, hfront⟩
    · exact Nat.zero_le _
    · rcases List.eq_nil_or_concat front with rfl | ⟨front, d, rfl⟩
      · exact (by decide : 1 ≤ Decimal.digitLimit)
      · obtain ⟨before, rfl⟩ := hfront
        have hd : d.isDigit = false := hlast d (by simp)
        rw [hall d (by simp)] at hd
        cases hd
  · exact h digits hinfix hall

/-- A text after which an expression may not end yet does not end with a digit. -/
private theorem isDigit_of_getLast? {last : Stage} (hlast : Stage.start.after t = some last)
    (hopen : last.complete = false) : ∀ d ∈ t.getLast?, d.isDigit = false := by
  intro d hd
  obtain ⟨front, rfl⟩ := List.getLast?_eq_some_iff.mp hd
  cases hdigit : d.isDigit with
  | false => rfl
  | true =>
    rw [Stage.after_append] at hlast
    obtain ⟨s, -, hs⟩ := Option.bind_eq_some_iff.mp hlast
    rw [Stage.after_singleton, charKind_of_isDigit hdigit] at hs
    rw [Stage.complete_of_digit hs] at hopen
    cases hopen

/-- A text up to whose end reading goes on is the beginning of an expression. -/
theorem extends_of_after {last : Stage} (hshort : ShortRuns t)
    (hlast : Stage.start.after t = some last) : Extends name context t := by
  by_cases hcomplete : last.complete = true
  · obtain ⟨e, he⟩ := exists_parse hshort hlast hcomplete
    exact ⟨[], e, by rw [List.append_nil]; exact he⟩
  · have hopen : last.complete = false := Bool.eq_false_iff.mpr hcomplete
    obtain ⟨final, hfinal⟩ := Stage.exists_digit hopen
    have hdigit : Stage.start.after (t ++ ['1']) = some final := by
      rw [Stage.after_append_of hlast, Stage.after_singleton, charKind_of_isDigit rfl, hfinal]
    have hlong := shortRuns_concat hshort (isDigit_of_getLast? hlast hopen) '1'
    obtain ⟨e, he⟩ := exists_parse hlong hdigit (Stage.complete_of_digit hfinal)
    exact ⟨['1'], e, he⟩

/-- Blanks in front and the first character that is none stay in front when the text is trimmed. -/
private theorem exists_trim_cons {blanks : Text} {c : Char} (hblanks : allBlank blanks = true)
    (hc : isBlank c = false) (rest : Text) : ∃ tail, trim (blanks ++ c :: rest) = c :: tail := by
  have hrun : Run isBlank blanks (c :: rest) := by
    refine ⟨allBlank_iff.mp hblanks, fun d hd => ?_⟩
    obtain rfl : c = d := by simpa using hd
    exact hc
  obtain ⟨behind, hbehind, hsplit⟩ := exists_trimEnd_append (c :: rest)
  rw [trim, dropBlanks, hrun.dropWhile_eq]
  cases htrim : trimEnd (c :: rest) with
  | nil =>
    rw [htrim, List.nil_append] at hsplit
    rw [← hsplit, allBlank_cons, hc] at hbehind
    cases hbehind
  | cons d tail =>
    rw [htrim, List.cons_append, List.cons.injEq] at hsplit
    rw [hsplit.1]
    exact ⟨tail, rfl⟩

/-- A text in which reading does not go on is not the beginning of an expression, unless it begins
like a word. -/
theorem not_extends {blanks rest : Text} {c : Char} (hblanks : allBlank blanks = true)
    (hc : isOpening c = true) (hnone : Stage.start.after (blanks ++ c :: rest) = none) :
    ¬ Extends name context (blanks ++ c :: rest) := by
  rintro ⟨u, e, h⟩
  have hblank : isBlank c = false := by
    refine isBlank_eq_false ?_
    simpa [isOpening] using hc
  rcases parse_ok_cases h with hword | hread
  · obtain ⟨tail, htail⟩ := exists_trim_cons hblanks hblank (rest ++ u)
    rw [List.append_assoc, List.cons_append, htail, ofWord?_of_isOpening hc] at hword
    cases hword
  · obtain ⟨last, hlast, -⟩ := complete_of_read hread
    rw [Stage.after_append, hnone, Option.bind_none] at hlast
    cases hlast

/-! ## The place of an error -/

/-- The first character of an expression that is no word is read. -/
private theorem after_opening {blanks : Text} {c : Char}
    (hblanks : ∀ d ∈ blanks, isBlank d = true) (hc : isOpening c = true) :
    Stage.start.after (blanks ++ [c]) ≠ none := by
  have hkind : isSign c = true ∨ isStepLetter c = true ∨ c.isDigit = true := by
    simpa [isOpening] using hc
  rw [Stage.after_append_of (Stage.after_blanks rfl hblanks), Stage.after_singleton]
  rcases hkind with h | h | h
  · rw [charKind_of_isSign h]
    decide
  · rw [charKind_of_isStepLetter h]
    decide
  · rw [charKind_of_isDigit h]
    decide

section Stuck

variable {blanks rest behind : Text} {c : Char} {last : Stage}

/-- Reading has passed the first character of an expression that is no word before it cannot go on,
so no word begins with what has been read and the character behind it, and no other expression
does either. -/
theorem not_extends_of_stuck {d : Char} (hblanks : ∀ d ∈ blanks, isBlank d = true)
    (hc : isOpening c = true) (hlast : Stage.start.after t = some last)
    (hstuck : last.Stuck (d :: behind)) (h : t ++ d :: behind = blanks ++ c :: rest) :
    ¬ Extends name context (t ++ [d]) := by
  have hblank : isBlank c = false := isBlank_eq_false (by simpa [isOpening] using hc)
  have hnone : Stage.start.after (t ++ [d]) = none := by
    have hd : last.next (charKind d) = none := hstuck
    rw [Stage.after_append_of hlast, Stage.after_singleton, hd]
  have hwhole : blanks ++ [c] <+: t ++ d :: behind := by
    rw [h]
    exact ⟨rest, by simp⟩
  have hpart : t ++ [d] <+: t ++ d :: behind := ⟨behind, by simp⟩
  have hfront : blanks ++ [c] <+: t ++ [d] := by
    rcases List.prefix_or_prefix_of_prefix hwhole hpart with hfront | ⟨more, hmore⟩
    · exact hfront
    · refine absurd ?_ (after_opening hblanks hc)
      rw [← hmore, Stage.after_append, hnone, Option.bind_none]
  obtain ⟨more, hmore⟩ := hfront
  rw [List.append_assoc, List.singleton_append] at hmore
  rw [← hmore] at hnone ⊢
  exact not_extends (allBlank_iff.mpr hblanks) hc hnone

/-- Up to where reading cannot go on a text is the beginning of an expression. That is its end, or
with the next character it is none. -/
theorem extends_of_stuck (hshort : ShortRuns (t ++ behind))
    (hblanks : ∀ d ∈ blanks, isBlank d = true) (hc : isOpening c = true)
    (hlast : Stage.start.after t = some last) (hstuck : last.Stuck behind)
    (h : t ++ behind = blanks ++ c :: rest) :
    Extends name context t ∧
      (behind = [] ∨ ¬ Extends name context ((t ++ behind).take (t.length + 1))) := by
  have hfront : t <:+: t ++ behind := (List.prefix_append t behind).isInfix
  refine ⟨extends_of_after (hshort.of_infix hfront) hlast, ?_⟩
  cases behind with
  | nil => exact .inl rfl
  | cons d behind =>
    have htake : (t ++ d :: behind).take (t.length + 1) = t ++ [d] := by
      rw [List.take_length_add_append]
      rfl
    rw [htake]
    exact .inr (not_extends_of_stuck hblanks hc hlast hstuck h)

/-- If the first character that is no blank cannot begin an expression, then nothing is read but the
blanks in front of it. -/
theorem eq_of_stuck (hblanks : ∀ d ∈ blanks, isBlank d = true) (hblank : isBlank c = false)
    (hc : isOpening c = false) (hlast : Stage.start.after t = some last)
    (hstuck : last.Stuck behind) (h : t ++ behind = blanks ++ c :: rest) : t = blanks := by
  have hkind : charKind c = .other := by
    simp only [isOpening, Bool.or_eq_false_iff] at hc
    simp [charKind, hblank, hc]
  have hfirst : Stage.start.Stuck (c :: rest) := by
    show Stage.start.next (charKind c) = none
    rw [hkind]
    rfl
  exact hstuck.unique hfirst hlast (Stage.after_blanks rfl hblanks) h

end Stuck

/-! ## Errors -/

/-- What has been read stands in front of the place where reading breaks off. -/
theorem exists_front {place : Cursor} (h : read (.ofText v) = .error place) :
    ∃ t, v = t ++ place.rest ∧ place.pos = t.length := by
  obtain ⟨t, ht, hpos⟩ := ahead_of_read h
  exact ⟨t, ht, by rw [hpos, Cursor.pos_ofText, Nat.zero_add]⟩

/-- The piece that is named as unexpected is the one that begins at its place. -/
theorem pieceAt_pieceAt {p : Nat} (h : p ≤ v.length) : PieceAt v p (pieceAt (v.drop p)) := by
  cases hrest : v.drop p with
  | nil =>
    have hlength := List.drop_eq_nil_iff.mp hrest
    exact .ending (Nat.le_antisymm h hlength)
  | cons c rest =>
    refine .piece ?_ (Run.of_takeWhile _ rest)
    rw [hrest, List.takeWhile_append_dropWhile]

/-- Blanks at the front of a text and the first character behind them. -/
private theorem exists_blanks_cons {c : Char} (h : c ∈ v.dropBlanks.head?) :
    ∃ rest, v = v.takeWhile isBlank ++ c :: rest ∧ isBlank c = false := by
  have hrun := Run.of_takeWhile isBlank v
  obtain ⟨rest, hrest⟩ := List.head?_eq_some_iff.mp h
  have hsplit : v.takeWhile isBlank ++ v.dropBlanks = v := List.takeWhile_append_dropWhile
  rw [hrest] at hsplit
  exact ⟨rest, hsplit.symm, hrun.stops c h⟩

/-- An expression is rejected at a place in the text or at its end, and the piece that is named is
the one that begins there. If no run of digits is too long, the text up to the place is the
beginning of an expression, and with the character at the place it is not. A text whose first
character that is no blank can only begin a word is rejected at that character. -/
theorem parse_breaks_off {err : SelectorError} (hv : v.allBlank = false)
    (h : parse name (some v) context = .error err) :
    ∃ (p : Nat) (token : Text), err.position = some (p : Int) ∧ err.token = some token ∧
      p ≤ v.length ∧ PieceAt v p token ∧
      (ShortRuns v → ∀ c ∈ v.dropBlanks.head?,
        if isOpening c = true then
          Extends name context (v.take p) ∧
            (p = v.length ∨ ¬ Extends name context (v.take (p + 1)))
        else p = (v.takeWhile isBlank).length) := by
  obtain ⟨place, hread, rfl⟩ := exists_place hv h
  obtain ⟨t, hsplit, hplace⟩ := exists_front hread
  have hle : t.length ≤ v.length := by
    rw [hsplit, List.length_append]
    exact Nat.le_add_right _ _
  have hdrop : v.drop t.length = place.rest := by
    rw [hsplit]
    exact List.drop_left
  have hpiece := pieceAt_pieceAt hle
  rw [hdrop] at hpiece
  refine ⟨t.length, pieceAt place.rest, congrArg (fun p : Nat => some (p : Int)) hplace, rfl, hle,
    hpiece, fun hshort c hc => ?_⟩
  obtain ⟨u, last, hu, hlast, hstuck⟩ := stuck_of_read hshort hread
  obtain rfl : t = u := List.append_cancel_right (hsplit.symm.trans hu)
  obtain ⟨rest, hwhole, hblank⟩ := exists_blanks_cons hc
  have hblanks := (Run.of_takeWhile isBlank v).all
  generalize v.takeWhile isBlank = blanks at hwhole hblanks ⊢
  subst hsplit
  split
  · next hopening =>
    obtain ⟨hextends, hend⟩ := extends_of_stuck hshort hblanks hopening hlast hstuck hwhole
    refine ⟨by rwa [List.take_left], hend.imp_left fun hnil => ?_⟩
    rw [hnil, List.append_nil]
  · next hopening =>
    rw [eq_of_stuck hblanks hblank (Bool.eq_false_iff.mpr hopening) hlast hstuck hwhole]

/-- A letter behind the offset. Up to it the text is an expression. -/
theorem parse_breaks_off_of_letter :
    ∃ err, parse "nth-child".toList (some " 2n + 1x".toList) none = .error err ∧
      err.position = some 7 ∧ err.token = some "x".toList ∧
      Extends "nth-child".toList none " 2n + 1".toList ∧
      ¬ Extends "nth-child".toList none " 2n + 1x".toList := by
  have hread : parse "nth-child".toList (some " 2n + 1x".toList) none =
      .error (breakOff "nth-child".toList " 2n + 1x".toList none ⟨7, ['x']⟩) := by rfl
  obtain ⟨p, token, hposition, htoken, -, -, hbreak⟩ := parse_breaks_off (by decide) hread
  obtain rfl : p = 7 := (Int.ofNat_inj.mp (Option.some.inj hposition)).symm
  have hshort : ShortRuns " 2n + 1x".toList := shortRuns_of_length_le (by decide)
  obtain ⟨hextends, hend | hnot⟩ := hbreak hshort '2' (by decide)
  · exact absurd hend (by decide)
  · exact ⟨_, hread, rfl, rfl, hextends, hnot⟩

end SelectorCheck.Nth
