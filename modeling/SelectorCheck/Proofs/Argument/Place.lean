import SelectorCheck.Nth.Parser
import SelectorCheck.Proofs.Argument.LanguageTag

/-!
# Where arguments are at fault

Errors about an argument name a place in its text, or none if the text is not
there. Readers move a cursor through the text, so the place where reading breaks
off is ahead of the place where it began, in the text or right behind it. Blanks
that were cut off its end beforehand only make the text longer.

## Main definitions

* `SelectorError.PlacedIn` — the error has a place in a text.
* `SelectorError.AtMost` — the place of the error, or the beginning if it has
  none, lies in a text.

## Main results

* `SelectorError.AtMost.relocated` — the place in an enclosing text.
* `LanguageTag.ahead_of_read`, `Nth.ahead_of_read` — where reading breaks off.
* `LanguageTag.placedIn_of_error`, `Nth.placedIn_of_error` — errors of the two
  argument grammars.
-/

namespace SelectorCheck

open Text

/-! ## Errors with a place -/

namespace SelectorError

/-- The error has a place in a text of length `n`, or right behind it. -/
def PlacedIn (n : Nat) (e : SelectorError) : Prop := ∃ p : Nat, e.position = some (p : Int) ∧ p ≤ n

/-- The same, where an error without a place counts as one at the beginning. -/
def AtMost (n : Nat) (e : SelectorError) : Prop := ∃ p : Nat, e.position.getD 0 = (p : Int) ∧ p ≤ n

variable {m n : Nat} {e : SelectorError}

theorem PlacedIn.atMost (h : e.PlacedIn n) : e.AtMost n := by
  obtain ⟨p, hp, hle⟩ := h
  exact ⟨p, by rw [hp, Option.getD_some], hle⟩

theorem atMost_of_none (h : e.position = none) : e.AtMost n :=
  ⟨0, by rw [h]; rfl, Nat.zero_le n⟩

/-- An error in a text of length `m` that begins at `start` of the enclosing one. -/
theorem AtMost.relocated {start : Nat} (h : e.AtMost m) (hstart : start + m ≤ n) :
    (e.relocated start).PlacedIn n := by
  obtain ⟨p, hp, hle⟩ := h
  refine ⟨start + p, ?_, by omega⟩
  rw [position_relocated, hp, Int.natCast_add]

end SelectorError

/-! ## Cursors in a text -/

namespace Cursor

/-- The cursor stands in a text of length `n`. -/
def Inside (n : Nat) (c : Cursor) : Prop := c.pos + c.rest.length = n

variable {n : Nat} {c : Cursor}

theorem Inside.pos_le (h : c.Inside n) : c.pos ≤ n := by
  unfold Inside at h
  omega

theorem Inside.ahead {place : Cursor} (h : c.Inside n) (hplace : c.Ahead place) :
    place.Inside n := by
  rw [Inside, hplace.length_eq]
  exact h

theorem inside_ofText (t : Text) : (ofText t).Inside t.length := Nat.zero_add _

end Cursor

/-! ## Language tags -/

namespace LanguageTag

private theorem ahead_of_readPlain {c place : Cursor} (h : readPlain c = .error place) :
    c.Ahead place := by
  unfold readPlain at h
  split at h
  · split at h
    · cases h
    · cases h
      exact .skipWhile isTagChar c
  · cases h
    exact .refl c

/-- A tag breaks off where it began or further on. -/
theorem ahead_of_read {c place : Cursor} (h : read c = .error place) : c.Ahead place := by
  obtain ⟨pos, rest⟩ := c
  cases rest with
  | nil => exact ahead_of_readPlain h
  | cons mark rest =>
    by_cases hmark : isQuote mark = true
    · simp only [read, hmark, if_true] at h
      cases hquoted : readQuoted mark (pos + 1) rest with
      | none =>
        simp only [hquoted, Except.error.injEq] at h
        subst h
        exact .refl _
      | some found =>
        obtain ⟨tag, behind⟩ := found
        obtain ⟨raw, after, rfl, -, rfl⟩ := readQuoted_sound hquoted
        simp only [hquoted] at h
        by_cases hafter : after = []
        · rw [if_pos hafter] at h
          cases h
        · rw [if_neg hafter] at h
          cases h
          refine ⟨mark :: raw ++ [mark], ?_, ?_⟩
          · simp
          · simp only [List.length_append, List.length_cons, List.length_nil]
            omega
    · simp only [read, hmark] at h
      exact ahead_of_readPlain h

variable {name : Text} {context : Option Context} {e : SelectorError}

/-- A tag that is there is rejected at a place in the text that should be one. -/
theorem placedIn_of_error {v : Text} (hv : v.allBlank = false)
    (h : parse name (some v) context = .error e) : e.PlacedIn v.length := by
  simp only [parse, hv, Bool.false_eq_true, if_false] at h
  split at h
  · cases h
  · next place hread =>
    cases h
    have hplace := (Cursor.Ahead.skipWhile isBlank _).trans (ahead_of_read hread)
    have hle := ((Cursor.inside_ofText v.trimEnd).ahead hplace).pos_le
    exact ⟨place.pos, rfl, Nat.le_trans hle (length_trimEnd_le v)⟩

/-- A tag is rejected in the text that should be one. -/
theorem place_of_error {value : Option Text} (h : parse name value context = .error e) :
    e.AtMost (value.getD []).length := by
  cases value with
  | none =>
    cases h
    exact SelectorError.atMost_of_none rfl
  | some v =>
    cases hv : v.allBlank with
    | true =>
      simp only [parse, hv, if_true] at h
      cases h
      exact SelectorError.atMost_of_none rfl
    | false => exact (placedIn_of_error hv h).atMost

end LanguageTag

/-! ## Expressions -/

namespace Nth

variable {c place : Cursor}

private theorem ahead_readSign (c : Cursor) : c.Ahead (readSign c).2 := by
  obtain ⟨pos, rest⟩ := c
  cases rest with
  | nil => exact .refl _
  | cons ch rest =>
    rw [readSign]
    dsimp only
    by_cases hsign : isSign ch = true
    · rw [if_pos hsign]
      exact .skip (List.cons_ne_nil ch rest)
    · rw [if_neg hsign]
      exact .refl _

private theorem place_of_readNumber (h : readNumber c = .error place) : place = c := by
  unfold readNumber at h
  split at h
  · cases h
  · cases h
    rfl

/-- The place that reading an offset comes to, behind the offset or where it breaks off. -/
def offsetPlace : Except Cursor (Int × Cursor) → Cursor
  | .ok (_, place) => place
  | .error place => place

theorem ahead_readOffset (c : Cursor) : c.Ahead (offsetPlace (readOffset c)) := by
  obtain ⟨pos, rest⟩ := c
  cases rest with
  | nil => exact .refl _
  | cons ch rest =>
    unfold readOffset
    by_cases hsign : isSign ch = true
    · have hdigits : (Cursor.mk pos (ch :: rest)).Ahead
          ((Cursor.mk pos (ch :: rest)).skip 1).skipBlanks :=
        (Cursor.Ahead.skip (List.cons_ne_nil ch rest)).trans (.skipWhile isBlank _)
      simp only [hsign, if_true]
      generalize ((Cursor.mk pos (ch :: rest)).skip 1).skipBlanks = digits at hdigits ⊢
      by_cases hnone : digitsAt digits = []
      · simp only [hnone, if_true]
        exact hdigits
      · simp only [hnone, if_false]
        cases hnumber : readNumber digits with
        | ok value => exact hdigits.trans (.skipWhile Char.isDigit digits)
        | error place =>
          rw [place_of_readNumber hnumber]
          exact hdigits
    · simp only [hsign, Bool.false_eq_true, if_false]
      exact .refl _

private theorem ahead_of_finish {e : Nth} (h : finish e c = .error place) : c.Ahead place := by
  unfold finish at h
  split at h
  · cases h
  · cases h
    exact .skipWhile isBlank c

/-- An expression breaks off where it began or further on. -/
theorem ahead_of_readUnsigned {sign : Int} (h : readUnsigned sign c = .error place) :
    c.Ahead place := by
  have hbehind := Cursor.Ahead.skipWhile Char.isDigit c
  unfold readUnsigned at h
  dsimp only at h
  split at h
  · next hletter =>
    have hne : (c.skipWhile Char.isDigit).rest ≠ [] := by
      intro hnil
      rw [hnil] at hletter
      cases hletter
    have hnext := hbehind.trans ((Cursor.Ahead.skip hne).trans (.skipWhile isBlank _))
    have hoffset := hnext.trans (ahead_readOffset _)
    split at h
    · next hnumber =>
      cases h
      split at hnumber
      · cases hnumber
      · rw [place_of_readNumber hnumber]
        exact .refl c
    · split at h
      · next hread =>
        cases h
        have hread' : readOffset (((c.skipWhile Char.isDigit).skip 1).skipWhile isBlank) = _ :=
          hread
        rw [hread'] at hoffset
        exact hoffset
      · next hread =>
        have hread' : readOffset (((c.skipWhile Char.isDigit).skip 1).skipWhile isBlank) = _ :=
          hread
        rw [hread'] at hoffset
        exact hoffset.trans (ahead_of_finish h)
  · split at h
    · cases h
      exact hbehind
    · split at h
      · next hnumber =>
        cases h
        rw [place_of_readNumber hnumber]
        exact .refl c
      · exact hbehind.trans (ahead_of_finish h)

/-- An expression breaks off behind the blanks in front of it or further on. -/
theorem ahead_of_read (h : read c = .error place) : c.Ahead place :=
  ((Cursor.Ahead.skipWhile isBlank c).trans (ahead_readSign _)).trans (ahead_of_readUnsigned h)

variable {name : Text} {context : Option Context} {e : SelectorError}

/-- An expression that is there is rejected where reading it breaks off. -/
theorem exists_place {v : Text} (hv : v.allBlank = false)
    (h : parse name (some v) context = .error e) :
    ∃ place, read (.ofText v) = .error place ∧ e = breakOff name v context place := by
  simp only [parse, hv, Bool.false_eq_true, if_false] at h
  split at h
  · cases h
  · split at h
    · cases h
    · next place hread => exact ⟨place, hread, (Except.error.inj h).symm⟩

/-- That place lies in the text that should be an expression. -/
theorem placedIn_of_error {v : Text} (hv : v.allBlank = false)
    (h : parse name (some v) context = .error e) : e.PlacedIn v.length := by
  obtain ⟨place, hread, rfl⟩ := exists_place hv h
  exact ⟨place.pos, rfl, ((Cursor.inside_ofText v).ahead (ahead_of_read hread)).pos_le⟩

/-- An expression is rejected in the text that should be one. -/
theorem place_of_error {value : Option Text} (h : parse name value context = .error e) :
    e.AtMost (value.getD []).length := by
  cases value with
  | none =>
    cases h
    exact SelectorError.atMost_of_none rfl
  | some v =>
    cases hv : v.allBlank with
    | true =>
      simp only [parse, hv, if_true] at h
      cases h
      exact SelectorError.atMost_of_none rfl
    | false => exact (placedIn_of_error hv h).atMost

end Nth

end SelectorCheck
