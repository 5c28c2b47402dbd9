import SelectorCheck.Nth.Parser
import SelectorCheck.Proofs.Argument.Balanced
import SelectorCheck.Proofs.Text.Ascii

/-!
# How expressions are written

An expression is one of two words, a number with an optional sign, or a step
with an optional sign and an optional offset behind it. This file gives the
forms as a relation between texts and expressions and shows that the reader
accepts exactly them, whatever blanks stand around. No form holds a quotation
mark or a parenthesis, so the lexer cuts out each of them as a whole.

## Main definitions

* `Nth.Number`, `Nth.SignMark`, `Nth.Sign`, `Nth.Factor` — the parts of an expression.
* `Nth.Written` — a text with the expression that it is written for.

## Main results

* `Nth.parse_eq_ok_iff` — the reader accepts exactly the written expressions.
* `Nth.Written.balanced`, `Nth.Written.solid` — the lexer cuts out a written
  expression as a whole.
-/

namespace SelectorCheck.Nth

open Text RawArgument

/-- The text is a run of digits for `n`. Runs that are too long are for no number. -/
structure Number (t : Text) (n : Nat) : Prop where
  ne_nil : t ≠ []
  digits : ∀ c ∈ t, c.isDigit = true
  value : Decimal.read? t = some n

/-- The character is a sign with this factor. -/
inductive SignMark : (c : Char) → (factor : Int) → Prop where
  | plus : SignMark '+' 1
  | minus : SignMark '-' (-1)

/-- The text is an optional sign with this factor. -/
inductive Sign : (t : Text) → (factor : Int) → Prop where
  | missing : Sign [] 1
  | mark {c : Char} {factor : Int} (h : SignMark c factor) : Sign [c] factor

/-- The text is an optional run of digits for the factor `n`. -/
inductive Factor : (t : Text) → (n : Nat) → Prop where
  | missing : Factor [] 1
  | number {t : Text} {n : Nat} (h : Number t n) : Factor t n

/-- The text is written for `e` behind a sign with the factor `sign`. -/
inductive Unsigned (sign : Int) : (t : Text) → (e : Nth) → Prop where
  | constant {t : Text} {n : Nat} (h : Number t n) : Unsigned sign t ⟨0, sign * n⟩
  | step {t : Text} {a : Nat} {c : Char} (ha : Factor t a) (hc : c = 'n' ∨ c = 'N') :
      Unsigned sign (t ++ [c]) ⟨sign * a, 0⟩
  | offset {t u before behind : Text} {a b : Nat} {c d : Char} {factor : Int} (ha : Factor t a)
      (hc : c = 'n' ∨ c = 'N') (hbefore : allBlank before = true) (hd : SignMark d factor)
      (hbehind : allBlank behind = true) (hb : Number u b) :
      Unsigned sign (t ++ c :: (before ++ d :: (behind ++ u))) ⟨sign * a, factor * b⟩

/-- The text is written for `e`. -/
inductive Written : (t : Text) → (e : Nth) → Prop where
  | odd {t : Text} (h : t.map Char.toLower = "odd".toList) : Written t ⟨2, 1⟩
  | even {t : Text} (h : t.map Char.toLower = "even".toList) : Written t ⟨2, 0⟩
  | signed {t u : Text} {sign : Int} {e : Nth} (hs : Sign t sign) (hu : Unsigned sign u e) :
      Written (t ++ u) e

/-! ## The characters of an expression -/

theorem isSign_iff {c : Char} : isSign c = true ↔ c = '+' ∨ c = '-' := by
  simp [isSign]

theorem isStepLetter_iff {c : Char} : isStepLetter c = true ↔ c = 'n' ∨ c = 'N' := by
  simp [isStepLetter]

theorem signMark_iff {c : Char} {factor : Int} :
    SignMark c factor ↔ isSign c = true ∧ signFactor c = factor := by
  constructor
  · rintro (_ | _) <;> exact ⟨rfl, rfl⟩
  · rintro ⟨hc, rfl⟩
    rcases isSign_iff.mp hc with rfl | rfl
    · exact .plus
    · exact .minus

theorem isDigit_iff {c : Char} : c.isDigit = true ↔ 48 ≤ c.toNat ∧ c.toNat ≤ 57 :=
  Char.isDigit_iff_toNat

/-- A character that none of the readers of an expression takes for another kind. -/
theorem isDigit_eq_false {c : Char} (h : isSign c = true ∨ isStepLetter c = true ∨
    isBlank c = true) : c.isDigit = false := by
  rw [isSign_iff, isStepLetter_iff, isBlank_iff] at h
  rcases h with (rfl | rfl) | (rfl | rfl) | rfl | rfl | rfl | rfl | rfl <;> rfl

theorem isBlank_eq_false {c : Char} (h : isSign c = true ∨ isStepLetter c = true ∨
    c.isDigit = true) : isBlank c = false :=
  isBlank_eq_false_of (fun d => isSign d || (isStepLetter d || d.isDigit)) (by simpa using h)
    (by decide)

theorem isSign_eq_false {c : Char} (h : isStepLetter c = true ∨ c.isDigit = true) :
    isSign c = false := by
  cases hsign : isSign c with
  | false => rfl
  | true =>
    rcases h with h | h
    · rcases isStepLetter_iff.mp h with rfl | rfl <;> cases hsign
    · rw [isDigit_eq_false (.inl hsign)] at h
      cases h

/-! ## Readers of the parts -/

theorem digitsAt_append {t after : Text} (h : Run Char.isDigit t after) (pos : Nat) :
    digitsAt ⟨pos, t ++ after⟩ = t := h.takeWhile_eq

private theorem readNumber_eq_ok_iff {t after : Text} (h : Run Char.isDigit t after) (pos : Nat)
    {n : Nat} :
    readNumber ⟨pos, t ++ after⟩ = .ok n ↔ Decimal.read? t = some n := by
  unfold readNumber
  rw [digitsAt_append h]
  split
  · next hread => simp [hread]
  · next hread => simp [hread]

private theorem finish_eq_ok_iff {e e' : Nth} {c : Cursor} :
    finish e c = .ok e' ↔ e = e' ∧ allBlank c.rest = true := by
  have hrest : c.skipBlanks.rest = [] ↔ allBlank c.rest = true := dropBlanks_eq_nil_iff
  unfold finish
  split
  · next hend => simp [hrest.mp hend]
  · next hend => simp [mt hrest.mpr hend]

private theorem readSign_sound (c : Cursor) :
    ∃ t, c.rest = t ++ (readSign c).2.rest ∧ Sign t (readSign c).1 := by
  unfold readSign
  split
  · next hrest => exact ⟨[], by simp [hrest], .missing⟩
  · next ch rest hrest =>
    split
    · next hsign => exact ⟨[ch], by simp [hrest], .mark (signMark_iff.mpr ⟨hsign, rfl⟩)⟩
    · exact ⟨[], rfl, .missing⟩

private theorem readSign_complete {t after : Text} {sign : Int} (h : Sign t sign)
    (hstop : ∀ c ∈ after.head?, isSign c = false) (pos : Nat) :
    readSign ⟨pos, t ++ after⟩ = (sign, ⟨pos + t.length, after⟩) := by
  cases h with
  | missing =>
    cases after with
    | nil => rfl
    | cons c rest =>
      have hc : isSign c = false := hstop c rfl
      simp [readSign, hc]
  | mark h =>
    obtain ⟨hc, hfactor⟩ := signMark_iff.mp h
    simp [readSign, hc, hfactor, Cursor.skip]

/-! ## The reader behind the sign -/

/-- Behind the letter stands nothing, or a sign with a number and nothing else. -/
private theorem readOffset_sound {pos : Nat} {t : Text} {place : Cursor} {b : Int}
    (h : readOffset ⟨pos, t⟩ = .ok (b, place)) :
    (t = [] ∧ place.rest = [] ∧ b = 0) ∨
      ∃ d factor behind u n, t = d :: (behind ++ (u ++ place.rest)) ∧ SignMark d factor ∧
        allBlank behind = true ∧ Number u n ∧ b = factor * n := by
  unfold readOffset at h
  dsimp only at h
  split at h
  · simp only [Except.ok.injEq, Prod.mk.injEq] at h
    obtain ⟨rfl, rfl⟩ := h
    exact .inl ⟨rfl, rfl, rfl⟩
  · next d rest =>
    obtain ⟨behind, digits, rfl, hbehind⟩ := Run.of_text isBlank rest
    obtain ⟨u, after, rfl, hu⟩ := Run.of_text Char.isDigit digits
    have hskip : ((Cursor.mk pos (d :: (behind ++ (u ++ after)))).skip 1).skipBlanks =
        ⟨pos + 1 + behind.length, u ++ after⟩ := Cursor.skipBlanks_run hbehind (pos + 1)
    rw [hskip, digitsAt_append hu, Cursor.skipWhile_run hu] at h
    split at h
    · next hd =>
      split at h
      · cases h
      · next hne =>
        split at h
        · next n hn =>
          simp only [Except.ok.injEq, Prod.mk.injEq] at h
          obtain ⟨rfl, rfl⟩ := h
          have hnumber : Number u n := ⟨hne, hu.all, (readNumber_eq_ok_iff hu _).mp hn⟩
          exact .inr ⟨d, signFactor d, behind, u, n, rfl, signMark_iff.mpr ⟨hd, rfl⟩,
            allBlank_iff.mpr hbehind.all, hnumber, rfl⟩
        · cases h
    · cases h

private theorem readUnsigned_sound {sign : Int} {pos : Nat} {t : Text} {e : Nth}
    (h : readUnsigned sign ⟨pos, t⟩ = .ok e) :
    ∃ u behind, t = u ++ behind ∧ allBlank behind = true ∧ Unsigned sign u e := by
  obtain ⟨digits, after, rfl, hdigits⟩ := Run.of_text Char.isDigit t
  unfold readUnsigned at h
  rw [Cursor.skipWhile_run hdigits, digitsAt_append hdigits] at h
  dsimp only at h
  split at h
  · next hletter =>
    obtain ⟨l, rest, rfl, hl⟩ : ∃ l rest, after = l :: rest ∧ (l = 'n' ∨ l = 'N') := by
      cases after with
      | nil => cases hletter
      | cons l rest => exact ⟨l, rest, rfl, isStepLetter_iff.mp hletter⟩
    obtain ⟨blanks, tail, rfl, hblanks⟩ := Run.of_text isBlank rest
    have hskip : ((Cursor.mk (pos + digits.length) (l :: (blanks ++ tail))).skip 1).skipBlanks =
        ⟨pos + digits.length + 1 + blanks.length, tail⟩ := Cursor.skipBlanks_run hblanks _
    rw [hskip] at h
    split at h
    · cases h
    · next a ha =>
      have hfactor : Factor digits a := by
        split at ha
        · next hnil =>
          obtain rfl : 1 = a := by simpa using ha
          rw [hnil]
          exact .missing
        · next hne => exact .number ⟨hne, hdigits.all, (readNumber_eq_ok_iff hdigits _).mp ha⟩
      have hall := allBlank_iff.mpr hblanks.all
      split at h
      · cases h
      · next b place hoffset =>
        obtain ⟨rfl, hend⟩ := finish_eq_ok_iff.mp h
        rcases readOffset_sound hoffset with
          ⟨rfl, -, rfl⟩ | ⟨d, factor, behind, u, n, rfl, hd, hbehind, hu, rfl⟩
        · exact ⟨digits ++ [l], blanks, by simp, hall, .step hfactor hl⟩
        · exact ⟨digits ++ l :: (blanks ++ d :: (behind ++ u)), place.rest, by simp, hend,
            .offset hfactor hl hall hd hbehind hu⟩
  · split at h
    · cases h
    · next hne =>
      split at h
      · cases h
      · next n hn =>
        obtain ⟨rfl, hend⟩ := finish_eq_ok_iff.mp h
        have hnumber : Number digits n := ⟨hne, hdigits.all, (readNumber_eq_ok_iff hdigits _).mp hn⟩
        exact ⟨digits, after, rfl, hend, .constant hnumber⟩

/-- A run of digits ends where something else than a digit follows. -/
private theorem Number.run {t : Text} {n : Nat} (h : Number t n) {after : Text}
    (hstop : ∀ c ∈ after.head?, c.isDigit = false) : Run Char.isDigit t after :=
  ⟨h.digits, hstop⟩

private theorem readOffset_complete {d : Char} {factor : Int} {before u behind : Text} {n : Nat}
    (hd : SignMark d factor) (hbefore : allBlank before = true) (hu : Number u n)
    (hbehind : allBlank behind = true) (pos : Nat) :
    ∃ place, readOffset ⟨pos, d :: (before ++ (u ++ behind))⟩ = .ok (factor * n, place) ∧
      place.rest = behind := by
  obtain ⟨hsign, rfl⟩ := signMark_iff.mp hd
  have hrun : Run Char.isDigit u behind := hu.run fun c hc =>
    isDigit_eq_false (.inr (.inr (allBlank_iff.mp hbehind c (List.mem_of_head? hc))))
  have hblanks : Run isBlank before (u ++ behind) := by
    refine ⟨allBlank_iff.mp hbefore, fun c hc => ?_⟩
    rw [head?_append_left hu.ne_nil] at hc
    exact isBlank_eq_false (.inr (.inr (hu.digits c (List.mem_of_head? hc))))
  have hskip : ((Cursor.mk pos (d :: (before ++ (u ++ behind)))).skip 1).skipBlanks =
      ⟨pos + 1 + before.length, u ++ behind⟩ := Cursor.skipBlanks_run hblanks (pos + 1)
  have hnumber := (readNumber_eq_ok_iff hrun (pos + 1 + before.length)).mpr hu.value
  refine ⟨⟨pos + 1 + before.length + u.length, behind⟩, ?_, rfl⟩
  rw [readOffset]
  simp only [hsign, ↓reduceIte, hskip, digitsAt_append hrun, hu.ne_nil, hnumber,
    Cursor.skipWhile_run hrun]

private theorem readUnsigned_of_letter {sign b : Int} {t rest : Text} {a pos : Nat} {c : Char}
    {place : Cursor} (ha : Factor t a) (hc : isStepLetter c = true)
    (hoffset : readOffset (Cursor.mk (pos + t.length + 1) rest).skipBlanks = .ok (b, place)) :
    readUnsigned sign ⟨pos, t ++ c :: rest⟩ = finish ⟨sign * a, b⟩ place := by
  have hstop : ∀ d ∈ (c :: rest).head?, d.isDigit = false := by
    intro d hd
    obtain rfl : c = d := by simpa using hd
    exact isDigit_eq_false (.inr (.inl hc))
  have hskip : (Cursor.mk (pos + t.length) (c :: rest)).skip 1 = ⟨pos + t.length + 1, rest⟩ := rfl
  unfold readUnsigned
  cases ha with
  | missing =>
    have hrun : Run Char.isDigit [] (c :: rest) := .nil_left hstop
    have hnone := digitsAt_append hrun pos
    have hplace := Cursor.skipWhile_run hrun pos
    simp only [List.nil_append] at hnone hplace ⊢
    simp only [hplace, hnone, List.head?_cons, Option.any_some, hc, ↓reduceIte, hskip, hoffset]
  | number hn =>
    have hrun := hn.run hstop
    simp only [Cursor.skipWhile_run hrun, digitsAt_append hrun, List.head?_cons, Option.any_some,
      hc, ↓reduceIte, hn.ne_nil, (readNumber_eq_ok_iff hrun pos).mpr hn.value, hskip, hoffset]

private theorem readUnsigned_complete {sign : Int} {t behind : Text} {e : Nth}
    (h : Unsigned sign t e) (hbehind : allBlank behind = true) (pos : Nat) :
    readUnsigned sign ⟨pos, t ++ behind⟩ = .ok e := by
  have hstop : ∀ c ∈ behind.head?, isBlank c = true := fun c hc =>
    allBlank_iff.mp hbehind c (List.mem_of_head? hc)
  have hrest : Run isBlank behind [] := .nil_right (allBlank_iff.mp hbehind)
  cases h with
  | constant hn =>
    have hrun := hn.run fun c hc => isDigit_eq_false (.inr (.inr (hstop c hc)))
    have hletter : behind.head?.any isStepLetter = false := by
      cases behind with
      | nil => rfl
      | cons c rest =>
        cases hl : isStepLetter c with
        | false => exact hl
        | true =>
          have hblank : isBlank c = true := hstop c rfl
          rw [isBlank_eq_false (.inr (.inl hl))] at hblank
          cases hblank
    unfold readUnsigned
    simp only [Cursor.skipWhile_run hrun, digitsAt_append hrun, hletter, Bool.false_eq_true,
      ↓reduceIte, hn.ne_nil, (readNumber_eq_ok_iff hrun pos).mpr hn.value]
    exact finish_eq_ok_iff.mpr ⟨rfl, hbehind⟩
  | @step digits a c ha hc =>
    have hplace := Cursor.skipBlanks_run hrest (pos + digits.length + 1)
    rw [List.append_nil] at hplace
    have hoffset := congrArg readOffset hplace
    rw [List.append_assoc, List.singleton_append,
      readUnsigned_of_letter ha (isStepLetter_iff.mpr hc) hoffset]
    exact finish_eq_ok_iff.mpr ⟨rfl, rfl⟩
  | @offset digits u before between a b c d factor ha hc hbefore hd hbetween hb =>
    have hrun : Run isBlank before (d :: (between ++ (u ++ behind))) := by
      refine ⟨allBlank_iff.mp hbefore, fun c hc => ?_⟩
      obtain rfl : d = c := by simpa using hc
      exact isBlank_eq_false (.inl (signMark_iff.mp hd).1)
    have hassoc : digits ++ c :: (before ++ d :: (between ++ u)) ++ behind =
        digits ++ c :: (before ++ d :: (between ++ (u ++ behind))) := by simp
    obtain ⟨place, hoffset, hend⟩ :=
      readOffset_complete hd hbetween hb hbehind (pos + digits.length + 1 + before.length)
    rw [← Cursor.skipBlanks_run hrun] at hoffset
    rw [hassoc, readUnsigned_of_letter ha (isStepLetter_iff.mpr hc) hoffset]
    exact finish_eq_ok_iff.mpr ⟨rfl, by rw [hend]; exact hbehind⟩

/-! ## Words -/

/-- Lower case of all scripts makes a word of nothing but the word in capital and small letters. -/
theorem ofWord?_eq_some_iff {t : Text} {e : Nth} :
    ofWord? t = some e ↔ (t.map Char.toLower = "odd".toList ∧ e = odd) ∨
      (t.map Char.toLower = "even".toList ∧ e = even) := by
  have hodd : t.lowercase = "odd".toList ↔ t.map Char.toLower = "odd".toList :=
    lowercase_eq_iff_asciiLowercase (by decide) (by decide)
  have heven : t.lowercase = "even".toList ↔ t.map Char.toLower = "even".toList :=
    lowercase_eq_iff_asciiLowercase (by decide) (by decide)
  unfold ofWord?
  simp only [hodd, heven]
  split
  · next hodd =>
    rw [hodd]
    simp [eq_comm]
  · next hodd =>
    split
    · next heven =>
      rw [heven]
      simp [eq_comm]
    · next heven =>
      constructor
      · intro h
        cases h
      · rintro (⟨h, -⟩ | ⟨h, -⟩)
        · exact absurd h hodd
        · exact absurd h heven

/-- A character that an expression can begin with unless it is a word. -/
def isOpening (c : Char) : Bool := isSign c || (isStepLetter c || c.isDigit)

private theorem toLower_of_isOpening {c : Char} (h : isOpening c = true) :
    c.toLower ≠ 'o' ∧ c.toLower ≠ 'e' := by
  have hkind : isSign c = true ∨ isStepLetter c = true ∨ c.isDigit = true := by
    simpa [isOpening] using h
  rcases hkind with hc | hc | hc
  · rcases isSign_iff.mp hc with rfl | rfl <;> decide
  · rcases isStepLetter_iff.mp hc with rfl | rfl <;> decide
  · have hlower : c.toLower = c := by
      have hcode := isDigit_iff.mp hc
      unfold Char.toLower
      rw [dif_neg]
      rintro ⟨hlo, -⟩
      have h65 : 65 ≤ c.toNat := UInt32.le_iff_toNat_le.mp hlo
      omega
    rw [hlower]
    constructor <;> (rintro rfl; cases hc)

/-- No word begins like the other expressions. -/
theorem ofWord?_of_isOpening {c : Char} (h : isOpening c = true) (rest : Text) :
    ofWord? (c :: rest) = none := by
  obtain ⟨ho, he⟩ := toLower_of_isOpening h
  rw [Option.eq_none_iff_forall_ne_some]
  intro e hword
  rcases ofWord?_eq_some_iff.mp hword with ⟨hodd, -⟩ | ⟨heven, -⟩
  · exact ho (List.cons.inj hodd).1
  · exact he (List.cons.inj heven).1

/-! ## The reader accepts the written expressions -/

/-- Behind the sign stand only digits, letters, signs and blanks, with a digit or a letter first
and last. -/
private theorem Unsigned.edges {sign : Int} {t : Text} {e : Nth} (h : Unsigned sign t e) :
    t ≠ [] ∧ (∀ c ∈ t.head?, isStepLetter c = true ∨ c.isDigit = true) ∧
      ∀ c ∈ t.getLast?, isStepLetter c = true ∨ c.isDigit = true := by
  have hfactor : ∀ {u rest : Text} {a : Nat} {c : Char}, Factor u a → c = 'n' ∨ c = 'N' →
      ∀ d ∈ (u ++ c :: rest).head?, isStepLetter d = true ∨ d.isDigit = true := by
    intro u rest a c ha hc d hd
    cases ha with
    | missing =>
      obtain rfl : c = d := by simpa using hd
      exact .inl (isStepLetter_iff.mpr hc)
    | number hn =>
      rw [head?_append_left hn.ne_nil] at hd
      exact .inr (hn.digits d (List.mem_of_head? hd))
  cases h with
  | constant hn =>
    exact ⟨hn.ne_nil, fun c hc => .inr (hn.digits c (List.mem_of_head? hc)),
      fun c hc => .inr (hn.digits c (List.mem_of_getLast? hc))⟩
  | @step u a c ha hc =>
    refine ⟨by simp, hfactor ha hc, fun d hd => ?_⟩
    rw [List.getLast?_concat, Option.mem_some_iff] at hd
    exact .inl (isStepLetter_iff.mpr (hd ▸ hc))
  | @offset u w before between a b c d factor ha hc hbefore hd hbetween hb =>
    refine ⟨by simp, hfactor ha hc, fun x hx => ?_⟩
    have hassoc : u ++ c :: (before ++ d :: (between ++ w)) =
        (u ++ c :: (before ++ d :: between)) ++ w := by simp
    rw [hassoc, getLast?_append_right hb.ne_nil] at hx
    exact .inr (hb.digits x (List.mem_of_getLast? hx))

private theorem Sign.isSign_of_mem {t : Text} {sign : Int} (h : Sign t sign) :
    ∀ c ∈ t, isSign c = true := by
  cases h with
  | missing => simp
  | mark h => simpa using (signMark_iff.mp h).1

/-- No blank stands at either end of a signed expression. -/
private theorem solid_signed {t u : Text} {sign : Int} {e : Nth} (hs : Sign t sign)
    (hu : Unsigned sign u e) : Solid (t ++ u) := by
  obtain ⟨hne, hfirst, hlast⟩ := hu.edges
  refine ⟨by simp [hne], fun c hc => ?_, fun c hc => ?_⟩
  · cases t with
    | nil => exact isBlank_eq_false (.inr (hfirst c hc))
    | cons d rest =>
      obtain rfl : d = c := by simpa using hc
      exact isBlank_eq_false (.inl (hs.isSign_of_mem d List.mem_cons_self))
  · rw [getLast?_append_right hne] at hc
    exact isBlank_eq_false (.inr (hlast c hc))

private theorem read_sound {v : Text} {e : Nth} (h : read (.ofText v) = .ok e) :
    Written v.trim e := by
  obtain ⟨before, rest, rfl, hbefore⟩ := Run.of_text isBlank v
  have hplace : (Cursor.ofText (before ++ rest)).skipBlanks = ⟨0 + before.length, rest⟩ :=
    Cursor.skipBlanks_run hbefore 0
  unfold read at h
  rw [hplace] at h
  obtain ⟨t, ht, hs⟩ := readSign_sound ⟨0 + before.length, rest⟩
  obtain ⟨u, behind, hu, hbehind, hwritten⟩ := readUnsigned_sound h
  rw [hu] at ht
  obtain rfl : rest = t ++ (u ++ behind) := ht
  rw [← List.append_assoc t, trim_padded (solid_signed hs hwritten)
    (allBlank_iff.mpr hbefore.all) hbehind]
  exact .signed hs hwritten

private theorem read_complete {t u : Text} {sign : Int} {e : Nth} (hs : Sign t sign)
    (hu : Unsigned sign u e) {before behind : Text} (hbefore : allBlank before = true)
    (hbehind : allBlank behind = true) :
    read (.ofText (before ++ ((t ++ u) ++ behind))) = .ok e := by
  have hrun := (solid_signed hs hu).run_blanks hbefore behind
  have hplace : (Cursor.ofText (before ++ ((t ++ u) ++ behind))).skipBlanks =
      ⟨0 + before.length, (t ++ u) ++ behind⟩ := Cursor.skipBlanks_run hrun 0
  have hstop : ∀ c ∈ (u ++ behind).head?, isSign c = false := by
    obtain ⟨hne, hfirst, -⟩ := hu.edges
    intro c hc
    rw [head?_append_left hne] at hc
    exact isSign_eq_false (hfirst c hc)
  unfold read
  dsimp only
  rw [hplace, List.append_assoc, readSign_complete hs hstop]
  exact readUnsigned_complete hu hbehind _

private theorem not_word_of_signed {t u : Text} {sign : Int} {e : Nth} (hs : Sign t sign)
    (hu : Unsigned sign u e) : ofWord? (t ++ u) = none := by
  obtain ⟨hne, hfirst, -⟩ := hu.edges
  have hopening : ∀ c ∈ (t ++ u).head?, isOpening c = true := by
    intro c hc
    cases t with
    | nil => simpa [isOpening] using .inr (hfirst c hc)
    | cons d rest =>
      obtain rfl : d = c := by simpa using hc
      simp [isOpening, hs.isSign_of_mem d List.mem_cons_self]
  cases hword : t ++ u with
  | nil => simp [hne] at hword
  | cons c rest => exact ofWord?_of_isOpening (hopening c (by rw [hword]; rfl)) rest

private theorem not_written_nil {e : Nth} : ¬ Written [] e := by
  intro h
  generalize hnil : ([] : Text) = t at h
  cases h with
  | odd h => subst hnil; cases h
  | even h => subst hnil; cases h
  | signed hs hu => exact (solid_signed hs hu).ne_nil hnil.symm

/-- The reader accepts the written expressions and nothing else, whatever blanks stand around. -/
theorem parse_eq_ok_iff {name v : Text} {e : Nth} {context : Option Context} :
    parse name (some v) context = .ok e ↔ Written v.trim e := by
  unfold parse
  dsimp only
  split
  · next hblank =>
    have hnil : v.trim = [] := by rw [Text.trim, dropBlanks_eq_nil_iff.mpr hblank, trimEnd_nil]
    simp [hnil, not_written_nil]
  · split
    · next found hword =>
      constructor
      · intro h
        obtain rfl : found = e := Except.ok.inj h
        rcases ofWord?_eq_some_iff.mp hword with ⟨hodd, rfl⟩ | ⟨heven, rfl⟩
        · exact .odd hodd
        · exact .even heven
      · intro h
        generalize v.trim = t at h hword
        cases h with
        | odd h => rw [ofWord?_eq_some_iff.mpr (.inl ⟨h, rfl⟩)] at hword; cases hword; rfl
        | even h => rw [ofWord?_eq_some_iff.mpr (.inr ⟨h, rfl⟩)] at hword; cases hword; rfl
        | signed hs hu => rw [not_word_of_signed hs hu] at hword; cases hword
    · next hword =>
      constructor
      · intro h
        split at h
        · next hread =>
          obtain rfl := Except.ok.inj h
          exact read_sound hread
        · cases h
      · intro h
        obtain ⟨before, behind, hbefore, hbehind, hv⟩ := exists_padding v
        generalize v.trim = t at h hv hword
        cases h with
        | odd h => rw [ofWord?_eq_some_iff.mpr (.inl ⟨h, rfl⟩)] at hword; cases hword
        | even h => rw [ofWord?_eq_some_iff.mpr (.inr ⟨h, rfl⟩)] at hword; cases hword
        | signed hs hu => rw [hv, read_complete hs hu hbefore hbehind]

/-! ## Written expressions and the lexer -/

/-- The characters of an expression that is no word. -/
private def IsPart (c : Char) : Prop :=
  isSign c = true ∨ isStepLetter c = true ∨ c.isDigit = true ∨ isBlank c = true

private theorem isInert_of_isPart {c : Char} (h : IsPart c) : isInert c = true :=
  isInert_of (fun d => isSign d || (isStepLetter d || (d.isDigit || isBlank d)))
    (by simpa [IsPart] using h) (by decide)

private theorem Factor.isPart {t : Text} {n : Nat} (h : Factor t n) : ∀ c ∈ t, IsPart c := by
  cases h with
  | missing => simp
  | number hn => exact fun c hc => .inr (.inr (.inl (hn.digits c hc)))

private theorem Unsigned.isPart {sign : Int} {t : Text} {e : Nth} (h : Unsigned sign t e) :
    ∀ c ∈ t, IsPart c := by
  have hblanks : ∀ {blanks : Text}, allBlank blanks = true → ∀ c ∈ blanks, IsPart c :=
    fun h c hc => .inr (.inr (.inr (allBlank_iff.mp h c hc)))
  intro c hmem
  cases h with
  | constant hn => exact .inr (.inr (.inl (hn.digits c hmem)))
  | step ha hc =>
    rcases List.mem_append.mp hmem with hmem | hmem
    · exact ha.isPart c hmem
    · obtain rfl := List.mem_singleton.mp hmem
      exact .inr (.inl (isStepLetter_iff.mpr hc))
  | offset ha hc hbefore hd hbehind hb =>
    simp only [List.mem_append, List.mem_cons] at hmem
    rcases hmem with hmem | rfl | hmem | rfl | hmem | hmem
    · exact ha.isPart c hmem
    · exact .inr (.inl (isStepLetter_iff.mpr hc))
    · exact hblanks hbefore c hmem
    · exact .inl (signMark_iff.mp hd).1
    · exact hblanks hbehind c hmem
    · exact .inr (.inr (.inl (hb.digits c hmem)))

/-- The letters of the words, whatever their case, mean nothing to the lexer. -/
private theorem inert_of_toLower {c : Char} (h : "odevn".toList.contains c.toLower = true) :
    isInert c = true ∧ isBlank c = false :=
  ⟨isInert_of (fun d => "odevn".toList.contains d.toLower) h (by decide),
    isBlank_eq_false_of (fun d => "odevn".toList.contains d.toLower) h (by decide)⟩

namespace Written

variable {t : Text} {e : Nth}

private theorem mem_word {word : Text} (hword : word.all "odevn".toList.contains = true)
    (h : t.map Char.toLower = word) : ∀ c ∈ t, isInert c = true ∧ isBlank c = false := by
  intro c hc
  apply inert_of_toLower
  apply List.all_eq_true.mp hword
  rw [← h]
  exact List.mem_map_of_mem hc

/-- The lexer passes over a written expression. -/
theorem balanced (h : Written t e) : Balanced t := by
  refine .of_inert fun c hc => ?_
  cases h with
  | odd h => exact (mem_word (by decide) h c hc).1
  | even h => exact (mem_word (by decide) h c hc).1
  | signed hs hu =>
    rcases List.mem_append.mp hc with hc | hc
    · exact isInert_of_isPart (.inl (hs.isSign_of_mem c hc))
    · exact isInert_of_isPart (hu.isPart c hc)

private theorem solid_word {word : Text} (hne : word ≠ [])
    (hword : word.all "odevn".toList.contains = true) (h : t.map Char.toLower = word) :
    Solid t where
  ne_nil := by
    rintro rfl
    exact hne h.symm
  first := fun c hc => (mem_word hword h c (List.mem_of_head? hc)).2
  last := fun c hc => (mem_word hword h c (List.mem_of_getLast? hc)).2

/-- No blank stands at either end of a written expression. -/
theorem solid (h : Written t e) : Solid t := by
  cases h with
  | odd h => exact solid_word (by decide) (by decide) h
  | even h => exact solid_word (by decide) (by decide) h
  | signed hs hu => exact solid_signed hs hu

end Written

end SelectorCheck.Nth
