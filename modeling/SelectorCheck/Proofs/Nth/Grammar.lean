import SelectorCheck.Proofs.Nth.BreakOff
import SelectorCheck.Proofs.Text.Decimal

/-!
# What every text comes to

A text is for an expression exactly if one of the forms is written in it, and for no
other expression than the one that it is written for. All other texts are rejected
as wrong, unless there is nothing in them to be read. So a slip in a text can be
held against it without running the reader: no form is written with it.

The words are written with Latin letters only, so a slip that needs any other
character is none of theirs. For the other forms a slip is a character that cannot
stand at the stage to which what is in front of it leads.

## Main definitions

* `Nth.Slip` — slips that are made in writing an expression.

## Main results

* `Nth.number_iff` — the runs of digits that are for a number.
* `Nth.not_written_of_slip` — no expression is written with a slip.
* `Nth.parse_exact` — what the reader makes of every text.
-/

namespace SelectorCheck.Nth

open Text

variable {t : Text} {e : Nth}

/-- A run of digits is for the number that its places make, if it is not too long. -/
theorem number_iff {n : Nat} : Number t n ↔
    t ≠ [] ∧ (∀ c ∈ t, c.isDigit = true) ∧ t.length ≤ Decimal.digitLimit ∧ Decimal.value t = n := by
  constructor
  · intro h
    exact ⟨h.ne_nil, h.digits, Decimal.read?_eq_some_iff.mp h.value⟩
  · rintro ⟨hne, hdigits, hvalue⟩
    exact ⟨hne, hdigits, Decimal.read?_eq_some_iff.mpr hvalue⟩

/-! ## Slips -/

/-- Slips in writing an expression. -/
inductive Slip : Text → Prop where
  /-- A character of another script, whether it is a digit there or a letter. -/
  | foreign {t : Text} {c : Char} (hmem : c ∈ t) (hc : 127 < c.toNat) : Slip t
  /-- A blank behind the sign in front. -/
  | behindSign {rest : Text} {c d : Char} (hc : c = '+' ∨ c = '-') (hd : isBlank d = true) :
      Slip (c :: d :: rest)
  /-- A blank in front of the letter. -/
  | beforeLetter {t rest : Text} {c d : Char} (hc : isBlank c = true)
      (hd : d = 'n' ∨ d = 'N') : Slip (t ++ c :: d :: rest)
  /-- No sign between the letter and the offset. -/
  | missingSign {t blanks rest : Text} {c d : Char} (hc : c = 'n' ∨ c = 'N')
      (hblanks : allBlank blanks = true) (hd : d.isDigit = true) :
      Slip (t ++ c :: (blanks ++ d :: rest))
  /-- Two signs one after the other. -/
  | doubledSign {t blanks rest : Text} {c d : Char} (hc : c = '+' ∨ c = '-')
      (hblanks : allBlank blanks = true) (hd : d = '+' ∨ d = '-') :
      Slip (t ++ c :: (blanks ++ d :: rest))

/-! ## Slips in words -/

private theorem isAlpha_iff {c : Char} : c.isAlpha = true ↔
    (65 ≤ c.toNat ∧ c.toNat ≤ 90) ∨ (97 ≤ c.toNat ∧ c.toNat ≤ 122) := by
  have hbounds : c.isAlpha = (decide ('A'.val ≤ c.val ∧ c.val ≤ 'Z'.val) ||
      (decide ('a'.val ≤ c.val) && decide (c.val ≤ 'z'.val))) := rfl
  rw [hbounds]
  simp only [Bool.or_eq_true, Bool.and_eq_true, decide_eq_true_eq, UInt32.le_iff_toNat_le]
  rfl

private theorem isAlpha_of_toLower {c : Char} (h : c.toLower.isAlpha = true) :
    c.isAlpha = true := by
  unfold Char.toLower at h
  split at h
  · next hcapital =>
    have hlow : 65 ≤ c.toNat := UInt32.le_iff_toNat_le.mp hcapital.1
    have hhigh : c.toNat ≤ 90 := UInt32.le_iff_toNat_le.mp hcapital.2
    exact isAlpha_iff.mpr (.inl ⟨hlow, hhigh⟩)
  · exact h

private theorem isAlpha_eq_false {c : Char} (h : isBlank c = true ∨ (c = '+' ∨ c = '-') ∨
    c.isDigit = true ∨ 127 < c.toNat) : c.isAlpha = false := by
  rw [Bool.eq_false_iff]
  intro halpha
  have hcode := isAlpha_iff.mp halpha
  rcases h with hblank | hsign | hdigit | hforeign
  · rw [isBlank_eq_false_of Char.isAlpha halpha (by decide)] at hblank
    cases hblank
  · rcases hsign with rfl | rfl <;> cases halpha
  · have hdigitCode := isDigit_iff.mp hdigit
    omega
  · omega

private theorem isAlpha_of_word {word : Text} (hword : word.all Char.isAlpha = true)
    (h : t.map Char.toLower = word) : ∀ c ∈ t, c.isAlpha = true := by
  intro c hc
  apply isAlpha_of_toLower
  apply List.all_eq_true.mp hword
  rw [← h]
  exact List.mem_map_of_mem hc

/-- A slip needs a character that is no Latin letter. -/
theorem Slip.exists_not_isAlpha (h : Slip t) : ∃ c ∈ t, c.isAlpha = false := by
  cases h with
  | foreign hmem hc => exact ⟨_, hmem, isAlpha_eq_false (.inr (.inr (.inr hc)))⟩
  | behindSign hc => exact ⟨_, List.mem_cons_self, isAlpha_eq_false (.inr (.inl hc))⟩
  | beforeLetter hc => exact ⟨_, by simp, isAlpha_eq_false (.inl hc)⟩
  | missingSign _ _ hd => exact ⟨_, by simp, isAlpha_eq_false (.inr (.inr (.inl hd)))⟩
  | doubledSign hc => exact ⟨_, by simp, isAlpha_eq_false (.inr (.inl hc))⟩

/-! ## Slips in other expressions -/

private theorem charKind_of_lt {c : Char} (h : 127 < c.toNat) : charKind c = .other := by
  have hblank : isBlank c = false :=
    isBlank_eq_false_of isBeyondAscii (decide_eq_true h) (by decide)
  have hsign : isSign c = false := by
    rw [Bool.eq_false_iff]
    intro hsign
    rcases isSign_iff.mp hsign with rfl | rfl <;> exact absurd h (by decide)
  have hletter : isStepLetter c = false := by
    rw [Bool.eq_false_iff]
    intro hletter
    rcases isStepLetter_iff.mp hletter with rfl | rfl <;> exact absurd h (by decide)
  have hdigit : c.isDigit = false := by
    rw [Bool.eq_false_iff]
    intro hdigit
    have hcode := isDigit_iff.mp hdigit
    omega
  unfold charKind
  simp only [hblank, hsign, hdigit, hletter]
  rfl

namespace Stage

variable {s last : Stage}

/-- Blanks lead as far as the first of them does. -/
private theorem after_blanks_cases {blanks : Text} (hall : ∀ c ∈ blanks, isBlank c = true)
    (h : s.after blanks = some last) : last = s ∨ s.next .blank = some last := by
  cases blanks with
  | nil => exact .inl (Option.some.inj h).symm
  | cons c blanks =>
    rw [after_cons, charKind_of_isBlank (hall c List.mem_cons_self)] at h
    obtain ⟨mid, hmid, h⟩ := Option.bind_eq_some_iff.mp h
    have hloop : mid.next .blank = some mid := by
      cases s <;> cases hmid <;> rfl
    rw [after_blanks hloop fun d hd => hall d (List.mem_cons_of_mem c hd)] at h
    rw [hmid]
    exact .inr h

/-- Characters of the second kind cannot stand behind one of the first, not even with blanks between
them. -/
def Apart (kind kind' : CharKind) : Prop :=
  ∀ s mid : Stage, s.next kind = some mid →
    mid.next kind' = none ∧ ∀ last, mid.next .blank = some last → last.next kind' = none

theorem apart_letter_digit : Apart .letter .digit := by
  intro s mid hmid
  obtain rfl : mid = step := by
    cases s <;> cases hmid <;> rfl
  refine ⟨rfl, fun last hlast => ?_⟩
  cases hlast
  rfl

theorem apart_sign_sign : Apart .sign .sign := by
  intro s mid hmid
  have hkinds : mid = signed ∨ mid = sign := by
    cases s <;> cases hmid
    · exact .inl rfl
    · exact .inr rfl
  rcases hkinds with rfl | rfl
  · refine ⟨rfl, fun last hlast => ?_⟩
    cases hlast
  · refine ⟨rfl, fun last hlast => ?_⟩
    cases hlast
    rfl

/-- Reading goes on behind no such characters. -/
theorem after_apart {t blanks rest : Text} {c d : Char} (h : Apart (charKind c) (charKind d))
    (hblanks : allBlank blanks = true) : s.after (t ++ c :: (blanks ++ d :: rest)) = none := by
  rw [Option.eq_none_iff_forall_ne_some]
  intro final hfinal
  rw [after_append] at hfinal
  obtain ⟨before, -, hfinal⟩ := Option.bind_eq_some_iff.mp hfinal
  rw [after_cons] at hfinal
  obtain ⟨mid, hmid, hfinal⟩ := Option.bind_eq_some_iff.mp hfinal
  rw [after_append] at hfinal
  obtain ⟨last, hlast, hfinal⟩ := Option.bind_eq_some_iff.mp hfinal
  -- `Apart` speaks of every stage, so what the text in front leads to does not matter.
  have hnone : last.next (charKind d) = none := by
    obtain ⟨hdirect, hbehind⟩ := h before mid hmid
    rcases after_blanks_cases (allBlank_iff.mp hblanks) hlast with rfl | hblank
    · exact hdirect
    · exact hbehind last hblank
  rw [after_cons, hnone] at hfinal
  cases hfinal

private theorem next_eq_start {kind : CharKind} (h : s.next kind = some start) :
    s = start ∧ kind = .blank := by
  cases s <;> cases kind <;> cases h
  exact ⟨rfl, rfl⟩

private theorem isBlank_of_charKind {c : Char} (h : charKind c = .blank) : isBlank c = true := by
  unfold charKind at h
  split at h
  · next hblank => exact hblank
  · split at h
    · cases h
    · split at h
      · cases h
      · split at h <;> cases h

/-- Nothing but blanks leaves reading at its start. -/
private theorem allBlank_of_after (h : s.after t = some start) :
    s = start ∧ allBlank t = true := by
  induction t generalizing s with
  | nil => exact ⟨Option.some.inj h, rfl⟩
  | cons c t ih =>
    rw [after_cons] at h
    obtain ⟨mid, hmid, h⟩ := Option.bind_eq_some_iff.mp h
    obtain ⟨rfl, hall⟩ := ih h
    obtain ⟨rfl, hkind⟩ := next_eq_start hmid
    refine ⟨rfl, ?_⟩
    rw [allBlank_cons, isBlank_of_charKind hkind, hall]
    rfl

/-- Behind a blank the letter stands only where nothing but blanks has been read. -/
private theorem after_blank_letter {rest : Text} {c d : Char} (hc : isBlank c = true)
    (hd : isStepLetter d = true) (h : start.after (t ++ c :: d :: rest) ≠ none) :
    allBlank t = true := by
  obtain ⟨final, hfinal⟩ := Option.ne_none_iff_exists'.mp h
  rw [after_append] at hfinal
  obtain ⟨s, hs, hfinal⟩ := Option.bind_eq_some_iff.mp hfinal
  rw [after_cons, charKind_of_isBlank hc] at hfinal
  obtain ⟨mid, hmid, hfinal⟩ := Option.bind_eq_some_iff.mp hfinal
  rw [after_cons, charKind_of_isStepLetter hd] at hfinal
  obtain ⟨last, hlast, -⟩ := Option.bind_eq_some_iff.mp hfinal
  obtain rfl : s = start := by
    cases s <;> cases hmid <;> cases hlast
    rfl
  exact (allBlank_of_after hs).2

private theorem after_foreign {front rest : Text} {c : Char} (hc : 127 < c.toNat) :
    s.after (front ++ c :: rest) = none := by
  have hkind : charKind c = .other := charKind_of_lt hc
  have hnext : ∀ mid : Stage, mid.next .other = none := by
    intro mid
    cases mid <;> rfl
  rw [after_append]
  cases s.after front with
  | none => rfl
  | some mid => rw [Option.bind_some, after_cons, hkind, hnext, Option.bind_none]

end Stage

/-- Reading does not go on behind a slip. -/
theorem Slip.after_start (h : Slip t) (hsolid : Solid t) : Stage.start.after t = none := by
  cases h with
  | foreign hmem hc =>
    obtain ⟨front, rest, rfl⟩ := List.append_of_mem hmem
    exact Stage.after_foreign hc
  | @behindSign rest c d hc hd =>
    rw [Stage.after_cons, charKind_of_isSign (isSign_iff.mpr hc)]
    show Stage.signed.after (d :: rest) = none
    rw [Stage.after_cons, charKind_of_isBlank hd]
    rfl
  | @beforeLetter t rest c d hc hd =>
    -- The letter could stand there only at the front, where nothing blank stands.
    by_contra hsome
    have hall := Stage.after_blank_letter hc (isStepLetter_iff.mpr hd) hsome
    have hblanks : allBlank (t ++ [c]) = true := by simp [hall, hc]
    rw [List.append_cons] at hsolid
    have hnil := hsolid.eq_nil_of_blanks_append hblanks
    simp at hnil
  | missingSign hc hblanks hd =>
    refine Stage.after_apart ?_ hblanks
    rw [charKind_of_isStepLetter (isStepLetter_iff.mpr hc), charKind_of_isDigit hd]
    exact Stage.apart_letter_digit
  | doubledSign hc hblanks hd =>
    refine Stage.after_apart ?_ hblanks
    rw [charKind_of_isSign (isSign_iff.mpr hc), charKind_of_isSign (isSign_iff.mpr hd)]
    exact Stage.apart_sign_sign

/-- No expression is written with a slip. -/
theorem not_written_of_slip (h : Slip t) (e : Nth) : ¬ Written t e := by
  intro hwritten
  have hparse : parse [] (some t) none = .ok e := by
    refine parse_eq_ok_iff.mpr ?_
    rwa [hwritten.solid.trim_eq]
  rcases parse_ok_cases hparse with hword | hread
  · rw [hwritten.solid.trim_eq] at hword
    obtain ⟨c, hc, hother⟩ := h.exists_not_isAlpha
    have halpha : c.isAlpha = true := by
      rcases ofWord?_eq_some_iff.mp hword with ⟨hodd, -⟩ | ⟨heven, -⟩
      · exact isAlpha_of_word (by decide) hodd c hc
      · exact isAlpha_of_word (by decide) heven c hc
    rw [hother] at halpha
    cases halpha
  · obtain ⟨last, hlast, -⟩ := complete_of_read hread
    rw [h.after_start hwritten.solid] at hlast
    cases hlast

/-! ## What the reader makes of every text -/

/-- What is missing or blank is missing input. Of any other text the reader makes exactly the
expression that is written in it when the blanks at its ends are cut off. If none is written there,
as where a slip has been made, the text is a wrong argument. The numbers of an expression are those
that the digits stand for by their places. -/
theorem parse_exact (name : Text) (context : Option Context) :
    (∀ value : Option Text, (∀ v ∈ value, v.allBlank = true) →
      parse name value context = .error (.missingArgument name value context) ∧
        (SelectorError.missingArgument name value context).errorClass = .missingInput) ∧
    (∀ v : Text, v.allBlank = false →
      (∀ e, parse name (some v) context = .ok e ↔ Written v.trim e) ∧
      ((∀ e, ¬ Written v.trim e) → ∃ err, parse name (some v) context = .error err ∧
        err.code = .invalidNth ∧ err.errorClass = .argumentSyntax) ∧
      (Slip v.trim → ∀ e, ¬ Written v.trim e)) ∧
    ∀ (t : Text) (n : Nat), Number t n ↔
      t ≠ [] ∧ (∀ c ∈ t, c.isDigit = true) ∧ t.length ≤ 4300 ∧ Decimal.value t = n := by
  refine ⟨?missing, ?there, fun t n => number_iff⟩
  case missing =>
    intro value hblank
    refine ⟨?_, rfl⟩
    cases value with
    | none => rfl
    | some v => simp [parse, hblank v rfl]
  case there =>
    intro v hv
    refine ⟨fun e => parse_eq_ok_iff, fun hnone => ?_, not_written_of_slip⟩
    cases hparse : parse name (some v) context with
    | ok e => exact absurd (parse_eq_ok_iff.mp hparse) (hnone e)
    | error err =>
      obtain ⟨place, -, rfl⟩ := exists_place hv hparse
      exact ⟨_, rfl, rfl, rfl⟩

/-- Blanks alone, both words, an expression with zeros in front and blanks around its second sign,
and a blank behind a sign. -/
theorem parse_exact_of_blanks :
    parse "nth-child".toList (some " ".toList) none =
        .error (.missingArgument "nth-child".toList (some " ".toList) none) ∧
      parse "nth-child".toList (some " oDD ".toList) none = .ok ⟨2, 1⟩ ∧
      parse "nth-child".toList (some "EVEN".toList) none = .ok ⟨2, 0⟩ ∧
      parse "nth-child".toList (some " -02N + 1 ".toList) none = .ok ⟨-2, 1⟩ ∧
      ∃ err, parse "nth-child".toList (some "+ n".toList) none = .error err ∧
        err.code = .invalidNth ∧ err.errorClass = .argumentSyntax := by
  obtain ⟨hmissing, hthere, hnumber⟩ := parse_exact "nth-child".toList none
  refine ⟨(hmissing (some " ".toList) (by decide)).1, ?_, ?_, ?_, ?_⟩
  · exact ((hthere " oDD ".toList (by decide)).1 ⟨2, 1⟩).mpr (.odd rfl)
  · exact ((hthere "EVEN".toList (by decide)).1 ⟨2, 0⟩).mpr (.even rfl)
  · have htwo : Number "02".toList 2 :=
      (hnumber _ _).mpr ⟨by decide, List.all_eq_true.mp (by decide), by decide, rfl⟩
    have hone : Number "1".toList 1 :=
      (hnumber _ _).mpr ⟨by decide, List.all_eq_true.mp (by decide), by decide, rfl⟩
    have hwritten : Written ("-".toList ++ ("02".toList ++
        'N' :: (" ".toList ++ '+' :: (" ".toList ++ "1".toList)))) ⟨-2, 1⟩ :=
      .signed (.mark .minus) (.offset (.number htwo) (.inr rfl) rfl .plus rfl hone)
    exact ((hthere " -02N + 1 ".toList (by decide)).1 _).mpr hwritten
  · obtain ⟨-, hwrong, hslip⟩ := hthere "+ n".toList (by decide)
    exact hwrong (hslip (.behindSign (.inl rfl) (d := ' ') rfl))

end SelectorCheck.Nth
