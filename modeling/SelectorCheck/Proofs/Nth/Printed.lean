import SelectorCheck.Proofs.Argument.Expression
import SelectorCheck.Proofs.Text.Decimal

/-!
# Expressions read back from their texts

The shortest way to write an expression leaves out what goes without saying: a step
of zero, the number of a step of one, an offset of zero. What is left is one of the
forms that the reader accepts, written for the expression itself, as long as its
numbers have no more digits than are converted. The numbers that the reader returns
never do, because a number is not longer than the digits it was read from.

## Main definitions

* `Nth.Fits` — both numbers of an expression can be converted.

## Main results

* `Nth.written_text` — the text of an expression is written for it.
* `Nth.fits_of_written` — the reader returns no other expressions.
* `Nth.parse_text` — reading undoes writing, so texts tell expressions apart.
-/

namespace SelectorCheck.Nth

open Text

/-- Without their signs, the numbers of the expression have no more digits than are converted. -/
structure Fits (e : Nth) : Prop where
  step : (Decimal.ofNat e.step.natAbs).length ≤ Decimal.digitLimit
  offset : (Decimal.ofNat e.offset.natAbs).length ≤ Decimal.digitLimit

instance (e : Nth) : Decidable e.Fits :=
  decidable_of_iff (_ ∧ _) ⟨fun h => ⟨h.1, h.2⟩, fun h => ⟨h.step, h.offset⟩⟩

/-! ## Texts are written -/

theorem number_ofNat {n : Nat} (h : (Decimal.ofNat n).length ≤ Decimal.digitLimit) :
    Number (Decimal.ofNat n) n where
  ne_nil := Decimal.ofNat_ne_nil n
  digits _ := Decimal.isDigit_of_mem_ofNat
  value := Decimal.read?_ofNat h

/-- A whole number is written as an optional sign and its digits. -/
private theorem exists_sign (z : Int) :
    ∃ s sign, Sign s sign ∧ Decimal.ofInt z = s ++ Decimal.ofNat z.natAbs ∧
      sign * z.natAbs = z := by
  cases z with
  | ofNat n => exact ⟨[], 1, .missing, rfl, by simp⟩
  | negSucc n =>
    refine ⟨['-'], -1, .mark .minus, rfl, ?_⟩
    rw [Int.natAbs_negSucc]
    omega

/-- An offset behind a step is written as a sign and its digits. -/
private theorem exists_mark (z : Int) :
    ∃ d factor, SignMark d factor ∧ Decimal.signed z = d :: Decimal.ofNat z.natAbs ∧
      factor * z.natAbs = z := by
  cases z with
  | ofNat n => exact ⟨'+', 1, .plus, rfl, by simp⟩
  | negSucc n =>
    refine ⟨'-', -1, .minus, rfl, ?_⟩
    rw [Int.natAbs_negSucc]
    omega

/-- A step is written as an optional sign, an optional number and the letter. -/
private theorem exists_factor {step : Int}
    (h : (Decimal.ofNat step.natAbs).length ≤ Decimal.digitLimit) :
    ∃ s sign t a, Sign s sign ∧ Factor t a ∧ stepText step = s ++ (t ++ ['n']) ∧
      sign * (a : Nat) = step := by
  unfold stepText
  split
  · next hone => exact ⟨[], 1, [], 1, .missing, .missing, rfl, by rw [hone]; rfl⟩
  · split
    · next hminus => exact ⟨['-'], -1, [], 1, .mark .minus, .missing, rfl, by rw [hminus]; rfl⟩
    · obtain ⟨s, sign, hs, htext, hvalue⟩ := exists_sign step
      refine ⟨s, sign, _, _, hs, .number (number_ofNat h), ?_, hvalue⟩
      rw [htext, List.append_assoc]

/-- The text of an expression is written for it. -/
theorem written_text {e : Nth} (h : e.Fits) : Written e.text e := by
  obtain ⟨step, offset⟩ := e
  unfold text
  dsimp only
  split
  · next hstep =>
    obtain ⟨s, sign, hs, htext, hvalue⟩ := exists_sign offset
    have hwritten := Written.signed hs (.constant (number_ofNat h.offset))
    rwa [← htext, hvalue, ← hstep] at hwritten
  · obtain ⟨s, sign, t, a, hs, ha, htext, hvalue⟩ := exists_factor h.step
    split
    · next hoffset =>
      have hwritten := Written.signed hs (.step ha (.inl rfl))
      rwa [← htext, hvalue, ← hoffset] at hwritten
    · obtain ⟨d, factor, hd, hmark, hbehind⟩ := exists_mark offset
      have hwritten := Written.signed hs
        (.offset ha (.inl rfl) allBlank_nil hd allBlank_nil (number_ofNat h.offset))
      rw [hvalue, hbehind] at hwritten
      have hwhole : stepText step ++ Decimal.signed offset =
          s ++ (t ++ 'n' :: ([] ++ d :: ([] ++ Decimal.ofNat offset.natAbs))) := by
        rw [htext, hmark]
        simp
      rwa [hwhole]

/-! ## What the reader returns -/

private theorem Number.length_le {t : Text} {n : Nat} (h : Number t n) :
    (Decimal.ofNat n).length ≤ Decimal.digitLimit :=
  Nat.le_trans (Decimal.length_ofNat_le h.ne_nil h.digits h.value)
    (Decimal.read?_eq_some_iff.mp h.value).1

private theorem Factor.length_le {t : Text} {n : Nat} (h : Factor t n) :
    (Decimal.ofNat n).length ≤ Decimal.digitLimit := by
  cases h with
  | missing => decide
  | number hn => exact hn.length_le

private theorem Sign.natAbs {t : Text} {sign : Int} (h : Sign t sign) : sign.natAbs = 1 := by
  cases h with
  | missing => rfl
  | mark h => cases h <;> rfl

/-- The numbers of a written expression were converted from its digits. -/
theorem fits_of_written {t : Text} {e : Nth} (h : Written t e) : e.Fits := by
  have hzero : (Decimal.ofNat (0 : Int).natAbs).length ≤ Decimal.digitLimit := by decide
  cases h with
  | odd => decide
  | even => decide
  | @signed s u sign e hs hu =>
    have hsigned : ∀ n : Nat, (sign * (n : Int)).natAbs = n := by
      intro n
      rw [Int.natAbs_mul, hs.natAbs, Int.natAbs_natCast, Nat.one_mul]
    cases hu with
    | constant hn => exact ⟨hzero, by rw [hsigned]; exact hn.length_le⟩
    | step ha => exact ⟨by rw [hsigned]; exact ha.length_le, hzero⟩
    | offset ha _ _ hd _ hb =>
      have hbehind := (Sign.mark hd).natAbs
      refine ⟨by rw [hsigned]; exact ha.length_le, ?_⟩
      rw [Int.natAbs_mul, hbehind, Int.natAbs_natCast, Nat.one_mul]
      exact hb.length_le

/-- No expression comes out of the reader that is too long to be read again. -/
theorem fits_of_parse {name : Text} {value : Option Text} {context : Option Context} {e : Nth}
    (h : parse name value context = .ok e) : e.Fits := by
  cases value with
  | none => cases h
  | some v => exact fits_of_written (parse_eq_ok_iff.mp h)

/-! ## Reading undoes writing -/

theorem parse_text_of_fits {e : Nth} (h : e.Fits) (name : Text) (context : Option Context) :
    parse name (some e.text) context = .ok e := by
  have hwritten := written_text h
  refine parse_eq_ok_iff.mpr ?_
  rwa [hwritten.solid.trim_eq]

/-- An expression whose numbers are not too long is read back from its text, under whatever name.
Every expression that is read is one of these. No two of them have the same text. -/
theorem parse_text (e : Nth) :
    (e.Fits → ∀ (name : Text) (context : Option Context),
      parse name (some e.text) context = .ok e) ∧
    (∀ (name : Text) (value : Option Text) (context : Option Context),
      parse name value context = .ok e → e.Fits) ∧
    ∀ f : Nth, e.Fits → f.Fits → e.text = f.text → e = f := by
  refine ⟨parse_text_of_fits, fun _ _ _ => fits_of_parse, ?_⟩
  intro f he hf htext
  have hback := parse_text_of_fits he [] none
  rw [htext, parse_text_of_fits hf [] none] at hback
  exact (Except.ok.inj hback).symm

/-- A step whose number is not written, with the largest offset that is not too long. -/
theorem parse_text_at_limit :
    Fits ⟨-1, ((10 ^ Decimal.digitLimit - 1 : Nat) : Int)⟩ ∧
      parse "nth-child".toList (some (text ⟨-1, ((10 ^ Decimal.digitLimit - 1 : Nat) : Int)⟩)) none =
        .ok ⟨-1, ((10 ^ Decimal.digitLimit - 1 : Nat) : Int)⟩ := by
  have hlt : 10 ^ Decimal.digitLimit - 1 < 10 ^ Decimal.digitLimit :=
    Nat.sub_lt (Nat.pow_pos (by decide)) (by decide)
  have hfits : Fits ⟨-1, ((10 ^ Decimal.digitLimit - 1 : Nat) : Int)⟩ := by
    refine ⟨by decide, ?_⟩
    rw [Int.natAbs_natCast]
    exact (Nat.length_toDigits_le_iff (by decide) (by decide)).mpr hlt
  exact ⟨hfits, (parse_text _).1 hfits "nth-child".toList none⟩

end SelectorCheck.Nth
