import SelectorCheck.Proofs.Argument.Expression
import SelectorCheck.Proofs.Argument.LanguageTag
import SelectorCheck.Proofs.Token.Moved

/-!
# Arguments behind blanks

The readers of arguments look at the text ahead only, so they read the same at
any place and break off at the same character. Blanks in front of an argument
therefore change nothing but the place of an error and the text that it names.

## Main results

* `LanguageTag.read_moved`, `Nth.readUnsigned_moved` — the readers at another
  place.
* `LanguageTag.parse_append_left`, `Nth.parse_append_left` — the two argument
  grammars behind blanks.
-/

namespace SelectorCheck

open Text

/-- Blanks in front of a text are passed over. -/
theorem Cursor.skipBlanks_append {blanks : Text} (h : allBlank blanks = true) (t : Text) :
    (ofText (blanks ++ t)).skipBlanks = (ofText t).skipBlanks.moved blanks.length := by
  have hall : ∀ c ∈ blanks, isBlank c = true := allBlank_iff.mp h
  simp [ofText, skipBlanks, skipWhile, moved, List.takeWhile_append_of_pos hall,
    List.dropWhile_append_of_pos hall, Nat.add_comm]

/-! ## Language tags -/

namespace LanguageTag

theorem readQuoted_moved (mark : Char) (k pos : Nat) (t : Text) :
    readQuoted mark (pos + k) t =
      (readQuoted mark pos t).map fun (tag, place) => (tag, place.moved k) := by
  have hone : ∀ pos, pos + k + 1 = pos + 1 + k := fun pos => Nat.add_right_comm pos k 1
  have htwo : ∀ pos, pos + k + 2 = pos + 2 + k := fun pos => Nat.add_right_comm pos k 2
  fun_induction readQuoted mark pos t with
  | case1 | case3 =>
    rw [readQuoted.eq_def]
    simp [*]
  | case2 =>
    rw [readQuoted.eq_def]
    simp [*, Cursor.moved]
  | case4 | case5 =>
    rw [readQuoted.eq_def]
    simp [*, Function.comp_def]

theorem readPlain_moved (k : Nat) (c : Cursor) :
    readPlain (c.moved k) = (readPlain c).mapError (Cursor.moved k) := by
  unfold readPlain
  rw [Cursor.skipWhile_moved]
  simp only [Cursor.rest_moved]
  by_cases hstart : startsIdentifier c.rest = true
  · by_cases hend : (c.skipWhile isTagChar).rest = []
    · simp only [hstart, hend, if_true]
      rfl
    · simp only [hstart, hend, if_true, if_false]
      rfl
  · simp only [hstart]
    rfl

theorem read_moved (k : Nat) (c : Cursor) :
    read (c.moved k) = (read c).mapError (Cursor.moved k) := by
  obtain ⟨pos, t⟩ := c
  cases t with
  | nil => exact readPlain_moved k ⟨pos, []⟩
  | cons mark rest =>
    by_cases hquote : isQuote mark = true
    · have hquoted := readQuoted_moved mark k (pos + 1) rest
      rw [Nat.add_right_comm] at hquoted
      simp only [read, Cursor.moved, hquote, if_true, hquoted]
      cases readQuoted mark (pos + 1) rest with
      | none => rfl
      | some found =>
        obtain ⟨tag, place⟩ := found
        by_cases hend : place.rest = []
        · simp only [Option.map_some, hend, if_true]
          rfl
        · simp only [Option.map_some, hend, if_false]
          rfl
    · have hplain := readPlain_moved k ⟨pos, mark :: rest⟩
      simpa [read, hquote, Cursor.moved] using hplain

/-- Blanks in front of a tag move the place where it is at fault. -/
theorem parse_append_left {blanks v : Text} (hblanks : allBlank blanks = true)
    (hv : allBlank v = false) (name : Text) (context : Option Context) :
    parse name (some (blanks ++ v)) context =
      (parse name (some v) context).mapError (·.movedTo (blanks ++ v) blanks.length) := by
  have hall : allBlank (blanks ++ v) = false := by
    rw [allBlank_append, hblanks, hv]
    rfl
  have htrim : trimEnd (blanks ++ v) = blanks ++ trimEnd v := trimEnd_append_left blanks hv
  simp only [parse, hall, hv, Bool.false_eq_true, if_false, htrim, Cursor.skipBlanks_append hblanks,
    read_moved]
  cases read (Cursor.ofText v.trimEnd).skipBlanks with
  | ok tag => rfl
  | error place => rfl

end LanguageTag

/-! ## Expressions -/

namespace Nth

variable (k : Nat) (c : Cursor)

theorem readSign_moved :
    readSign (c.moved k) = ((readSign c).1, (readSign c).2.moved k) := by
  obtain ⟨pos, t⟩ := c
  cases t with
  | nil => rfl
  | cons ch rest =>
    by_cases hsign : isSign ch = true
    · simp [readSign, hsign, Cursor.skip_moved]
    · simp [readSign, hsign]

theorem readNumber_moved :
    readNumber (c.moved k) = (readNumber c).mapError (Cursor.moved k) := by
  unfold readNumber digitsAt
  rw [Cursor.rest_moved]
  cases Decimal.read? (c.rest.takeWhile Char.isDigit) <;> rfl

/-- What the reader of an offset comes to `k` places further on. -/
def movedOffset (k : Nat) : Except Cursor (Int × Cursor) → Except Cursor (Int × Cursor)
  | .ok (b, place) => .ok (b, place.moved k)
  | .error place => .error (place.moved k)

theorem readOffset_moved : readOffset (c.moved k) = movedOffset k (readOffset c) := by
  obtain ⟨pos, t⟩ := c
  cases t with
  | nil => rfl
  | cons ch rest =>
    by_cases hsign : isSign ch = true
    · simp only [readOffset, Cursor.rest_moved, hsign, if_true, Cursor.skip_moved,
        Cursor.skipBlanks_moved, readNumber_moved, Cursor.skipWhile_moved]
      generalize ((Cursor.mk pos (ch :: rest)).skip 1).skipBlanks = digits
      have hdigits : digitsAt (digits.moved k) = digitsAt digits := rfl
      rw [hdigits]
      by_cases hnone : digitsAt digits = []
      · simp only [hnone, if_true]
        rfl
      · simp only [hnone, if_false]
        cases readNumber digits <;> rfl
    · simp only [readOffset, Cursor.rest_moved, hsign]
      rfl

theorem finish_moved (e : Nth) : finish e (c.moved k) = (finish e c).mapError (Cursor.moved k) := by
  unfold finish
  rw [Cursor.skipBlanks_moved]
  by_cases hend : c.skipBlanks.rest = []
  · simp only [Cursor.rest_moved, hend, if_true]
    rfl
  · simp only [Cursor.rest_moved, hend, if_false]
    rfl

theorem readUnsigned_moved (sign : Int) :
    readUnsigned sign (c.moved k) = (readUnsigned sign c).mapError (Cursor.moved k) := by
  have hdigits : digitsAt (c.moved k) = digitsAt c := rfl
  simp only [readUnsigned, hdigits, Cursor.skipWhile_moved, Cursor.rest_moved, Cursor.skip_moved,
    Cursor.skipBlanks_moved, readOffset_moved, readNumber_moved, finish_moved]
  by_cases hletter : (c.skipWhile Char.isDigit).rest.head?.any isStepLetter = true
  · simp only [hletter, if_true]
    by_cases hnone : digitsAt c = []
    · simp only [hnone, if_true]
      rcases readOffset _ with place | ⟨b, place⟩
      · rfl
      · exact finish_moved k place _
    · simp only [hnone, if_false]
      cases readNumber c with
      | error place => rfl
      | ok a =>
        rcases readOffset _ with place | ⟨b, place⟩
        · rfl
        · exact finish_moved k place _
  · simp only [hletter]
    by_cases hnone : digitsAt c = []
    · simp only [hnone, if_true]
      rfl
    · simp only [hnone, if_false]
      cases readNumber c <;> rfl

/-- Blanks in front of an expression move the place where it is at fault. -/
theorem parse_append_left {blanks v : Text} (hblanks : allBlank blanks = true)
    (hv : allBlank v = false) (name : Text) (context : Option Context) :
    parse name (some (blanks ++ v)) context =
      (parse name (some v) context).mapError (·.movedTo (blanks ++ v) blanks.length) := by
  have hall : allBlank (blanks ++ v) = false := by
    rw [allBlank_append, hblanks, hv]
    rfl
  have htrim : trim (blanks ++ v) = trim v := by
    rw [trim, trim, dropBlanks, dropBlanks,
      List.dropWhile_append_of_pos (allBlank_iff.mp hblanks)]
  have hread : read (.ofText (blanks ++ v)) =
      (read (.ofText v)).mapError (Cursor.moved blanks.length) := by
    simp only [read, Cursor.skipBlanks_append hblanks, readSign_moved, readUnsigned_moved]
  simp only [parse, hall, hv, Bool.false_eq_true, if_false, htrim, hread]
  cases ofWord? v.trim with
  | some e => rfl
  | none =>
    cases read (.ofText v) with
    | ok e => rfl
    | error place => rfl

end Nth

end SelectorCheck
