import SelectorCheck.Proofs.Argument.Expression

/-!
# How far an expression has been read

The reader of expressions skips whole runs of characters at once and decides later
what they were. Seen one character after the other it goes through seven stages, and
the kind of a character alone says which stage comes next, if any. An expression that
is no word is a text that leads to a stage where it may end.

The two views agree, up to runs of digits that are too long to be converted: the
reader accepts a text that leads to such a stage, and where it breaks off is the
first place at which the stages do not go on, or the end of the text.

## Main definitions

* `Nth.CharKind`, `Nth.charKind` — what a character can be in an expression.
* `Nth.Stage`, `Nth.Stage.next` — the stages and the steps between them.
* `Nth.Stage.after` — the stage behind a text.
* `Nth.ShortRuns` — no run of digits is too long.

## Main results

* `Nth.accounts_read` — the stages account for what the reader comes to.
* `Nth.read_of_complete` — what may end there is accepted.
* `Nth.Stage.Stuck.unique` — there is one place where reading cannot go on.
-/

namespace SelectorCheck.Nth

open Text

/-! ## Kinds of characters -/

/-- What a character can be in an expression that is no word. -/
inductive CharKind where
  | blank
  | sign
  | digit
  | letter
  | other
deriving DecidableEq, Repr

/-- What a character is in an expression that is no word. -/
def charKind (c : Char) : CharKind :=
  if isBlank c then .blank
  else if isSign c then .sign
  else if c.isDigit then .digit
  else if isStepLetter c then .letter
  else .other

section CharKind

variable {c : Char}

theorem charKind_of_isBlank (h : isBlank c = true) : charKind c = .blank := by
  simp [charKind, h]

theorem charKind_of_isSign (h : isSign c = true) : charKind c = .sign := by
  simp [charKind, h, isBlank_eq_false (.inl h)]

theorem charKind_of_isDigit (h : c.isDigit = true) : charKind c = .digit := by
  simp [charKind, h, isBlank_eq_false (.inr (.inr h)), isSign_eq_false (.inr h)]

theorem charKind_of_isStepLetter (h : isStepLetter c = true) : charKind c = .letter := by
  simp [charKind, h, isBlank_eq_false (.inr (.inl h)), isSign_eq_false (.inl h),
    isDigit_eq_false (.inr (.inl h))]

end CharKind

/-! ## Stages -/

/-- What has been read of an expression that is no word. -/
inductive Stage where
  /-- Blanks only. -/
  | start
  /-- A sign in front. -/
  | signed
  /-- Digits, which may turn out to be the number of a step. -/
  | number
  /-- The letter of the step, and blanks behind it. -/
  | step
  /-- The sign of an offset, and blanks behind it. -/
  | sign
  /-- Digits of an offset. -/
  | offset
  /-- Blanks behind the last number. -/
  | done
deriving DecidableEq, Repr

namespace Stage

/-- The stage that a character of a kind leads to, if it can stand there. -/
def next : Stage → CharKind → Option Stage
  | start, .blank => some start
  | start, .sign => some signed
  | start, .digit | signed, .digit | number, .digit => some number
  | start, .letter | signed, .letter | number, .letter => some step
  | step, .blank => some step
  | step, .sign => some sign
  | sign, .blank => some sign
  | sign, .digit | offset, .digit => some offset
  | number, .blank | offset, .blank | done, .blank => some done
  | _, _ => none

/-- Whether an expression may end at a stage. -/
def complete : Stage → Bool
  | number | step | offset | done => true
  | start | signed | sign => false

/-- A digit leads to a stage where an expression may end. -/
theorem complete_of_digit {s last : Stage} (h : s.next .digit = some last) :
    last.complete = true := by
  cases s <;> cases h <;> rfl

/-- Where an expression may not end yet, one more digit ends it. -/
theorem exists_digit {s : Stage} (h : s.complete = false) : ∃ last, s.next .digit = some last := by
  cases s with
  | start | signed => exact ⟨number, rfl⟩
  | sign => exact ⟨offset, rfl⟩
  | number | step | offset | done => cases h

/-- The stage behind a text, if reading goes on up to its end. -/
def after (s : Stage) (t : Text) : Option Stage :=
  t.foldlM (fun s c => s.next (charKind c)) s

/-- Reading cannot go on: the next character cannot stand there, or none is left and an expression
may not end. -/
def Stuck (s : Stage) : Text → Prop
  | [] => s.complete = false
  | c :: _ => s.next (charKind c) = none

variable {s last : Stage} {t u : Text}

@[simp] theorem after_nil (s : Stage) : s.after [] = some s := rfl

theorem after_cons (s : Stage) (c : Char) (t : Text) :
    s.after (c :: t) = (s.next (charKind c)).bind fun s => s.after t := rfl

theorem after_singleton (s : Stage) (c : Char) : s.after [c] = s.next (charKind c) :=
  Option.bind_fun_some _

theorem after_append (s : Stage) (t u : Text) :
    s.after (t ++ u) = (s.after t).bind fun s => s.after u :=
  List.foldlM_append

theorem after_append_of (h : s.after t = some last) (u : Text) :
    s.after (t ++ u) = last.after u := by
  rw [after_append, h, Option.bind_some]

/-- A run of characters that do not lead on leaves the stage as it is. -/
theorem after_loop (h : ∀ c ∈ t, s.next (charKind c) = some s) : s.after t = some s := by
  induction t with
  | nil => rfl
  | cons c t ih =>
    rw [after_cons, h c List.mem_cons_self, Option.bind_some]
    exact ih fun d hd => h d (List.mem_cons_of_mem c hd)

theorem after_blanks {blanks : Text} (h : s.next .blank = some s)
    (hall : ∀ c ∈ blanks, isBlank c = true) : s.after blanks = some s :=
  after_loop fun c hc => by rw [charKind_of_isBlank (hall c hc), h]

/-- A run that is not empty leads to a stage that it then leaves as it is. -/
theorem after_run {kind : CharKind} (hne : t ≠ []) (h : ∀ c ∈ t, charKind c = kind)
    (hfirst : s.next kind = some last) (hloop : last.next kind = some last) :
    s.after t = some last := by
  obtain ⟨c, t, rfl⟩ := List.exists_cons_of_ne_nil hne
  rw [after_cons, h c List.mem_cons_self, hfirst, Option.bind_some]
  refine after_loop fun d hd => ?_
  rw [h d (List.mem_cons_of_mem c hd), hloop]

/-- Behind a place where reading cannot go on there is no stage. -/
theorem Stuck.after_append (h : last.Stuck u) (hne : u ≠ []) (ht : s.after t = some last) :
    s.after (t ++ u) = none := by
  obtain ⟨c, u, rfl⟩ := List.exists_cons_of_ne_nil hne
  have hnone : last.next (charKind c) = none := h
  rw [after_append_of ht, after_cons, hnone, Option.bind_none]

theorem stuck_of_head {rest : Text} (hend : s.complete = false)
    (h : ∀ c ∈ rest.head?, s.next (charKind c) = none) : s.Stuck rest := by
  cases rest with
  | nil => exact hend
  | cons c rest => exact h c rfl

/-- In front of a number stands nothing but blanks. -/
theorem next_sign {c : Char} (hblank : isBlank c = false) (hdigit : c.isDigit = false) :
    sign.next (charKind c) = none := by
  unfold charKind
  simp only [hblank, hdigit]
  cases isSign c <;> cases isStepLetter c <;> rfl

/-- Behind a step stands nothing but blanks and a sign. -/
theorem next_step {c : Char} (hblank : isBlank c = false) (hsign : isSign c = false) :
    step.next (charKind c) = none := by
  unfold charKind
  simp only [hblank, hsign]
  cases c.isDigit <;> cases isStepLetter c <;> rfl

/-- Behind a sign in front stands a digit or the letter. -/
theorem next_signed {c : Char} (hdigit : c.isDigit = false) (hletter : isStepLetter c = false) :
    signed.next (charKind c) = none := by
  unfold charKind
  simp only [hdigit, hletter]
  cases isBlank c <;> cases isSign c <;> rfl

end Stage

/-! ## Where reading cannot go on -/

namespace Stage

variable {s last final : Stage} {t u rest rest' : Text}

/-- No text goes on behind a place where reading cannot. -/
private theorem Stuck.eq_nil (h : last.Stuck (u ++ rest)) (ht : s.after t = some last)
    (hfinal : s.after (t ++ u) = some final) : u = [] := by
  cases u with
  | nil => rfl
  | cons c u =>
    have hnone : last.next (charKind c) = none := h
    rw [after_append_of ht, after_cons, hnone] at hfinal
    cases hfinal

/-- There is one place in a text where reading cannot go on. -/
theorem Stuck.unique (h : last.Stuck rest) (h' : final.Stuck rest') (ht : s.after t = some last)
    (hu : s.after u = some final) (heq : t ++ rest = u ++ rest') : t = u := by
  rcases List.append_eq_append_iff.mp heq with ⟨v, rfl, rfl⟩ | ⟨v, rfl, rfl⟩
  · rw [h.eq_nil ht hu, List.append_nil]
  · rw [h'.eq_nil hu ht, List.append_nil]

end Stage

/-! ## Runs of digits that are converted -/

/-- No run of digits in the text has more digits than are converted. -/
def ShortRuns (t : Text) : Prop :=
  ∀ digits, digits <:+: t → (∀ c ∈ digits, c.isDigit = true) → digits.length ≤ Decimal.digitLimit

theorem ShortRuns.of_infix {t u : Text} (h : ShortRuns t) (hu : u <:+: t) : ShortRuns u :=
  fun digits hdigits => h digits (hdigits.trans hu)

/-- Only a run of digits that is too long is not converted. -/
theorem not_shortRuns_of_readNumber {digits after : Text} {pos : Nat} {place : Cursor}
    (hrun : Run Char.isDigit digits after)
    (h : readNumber ⟨pos, digits ++ after⟩ = .error place) : ¬ ShortRuns (digits ++ after) := by
  intro hshort
  have hlength := hshort digits (List.prefix_append digits after).isInfix hrun.all
  rw [readNumber, digitsAt_append hrun, Decimal.read?, if_pos hlength] at h
  cases h

/-! ## Stages of the reader -/

namespace Stage

variable {s last : Stage} {t u : Text}

/-- The stages from `s` on account for what a reader makes of a text: it accepts what may end where
it ends, and breaks off where reading cannot go on, unless a run of digits is too long. -/
def Accounts (s : Stage) (text : Text) : Except Cursor Nth → Prop
  | .ok _ => ∃ last, s.after text = some last ∧ last.complete = true
  | .error place => ShortRuns text →
      ∃ t last, text = t ++ place.rest ∧ s.after t = some last ∧ last.Stuck place.rest

/-- What has been read already is put in front. -/
theorem Accounts.append {rest : Text} {result : Except Cursor Nth}
    (h : last.Accounts rest result) (ht : s.after t = some last) :
    s.Accounts (t ++ rest) result := by
  cases result with
  | ok e =>
    obtain ⟨final, hfinal, hcomplete⟩ := h
    exact ⟨final, by rw [after_append_of ht]; exact hfinal, hcomplete⟩
  | error place =>
    intro hshort
    obtain ⟨u, final, hrest, hu, hstuck⟩ := h (hshort.of_infix (List.suffix_append t rest).isInfix)
    refine ⟨t ++ u, final, ?_, ?_, hstuck⟩
    · rw [List.append_assoc, ← hrest]
    · rw [after_append_of ht, hu]

/-- Reading has come to the end of an expression: blanks can follow and nothing else. -/
structure Settled (s : Stage) (rest : Text) : Prop where
  complete : s.complete = true
  next : ∀ c ∈ rest.head?, s.next (charKind c) = if isBlank c then some done else none

theorem settled_number {rest : Text} (hdigit : ∀ c ∈ rest.head?, c.isDigit = false)
    (hletter : ∀ c ∈ rest.head?, isStepLetter c = false) : number.Settled rest := by
  refine ⟨rfl, fun c hc => ?_⟩
  unfold charKind
  simp only [hdigit c hc, hletter c hc]
  cases isBlank c <;> cases isSign c <;> rfl

theorem settled_offset {rest : Text} (hdigit : ∀ c ∈ rest.head?, c.isDigit = false) :
    offset.Settled rest := by
  refine ⟨rfl, fun c hc => ?_⟩
  unfold charKind
  simp only [hdigit c hc]
  cases isBlank c <;> cases isSign c <;> cases isStepLetter c <;> rfl

theorem settled_done (rest : Text) : done.Settled rest := by
  refine ⟨rfl, fun c _ => ?_⟩
  unfold charKind
  cases isBlank c <;> cases isSign c <;> cases c.isDigit <;> cases isStepLetter c <;> rfl

theorem stuck_of_settled {rest : Text} (h : s.Settled rest) (hne : rest ≠ [])
    (hblank : ∀ c ∈ rest.head?, isBlank c = false) : s.Stuck rest := by
  obtain ⟨c, rest, rfl⟩ := List.exists_cons_of_ne_nil hne
  have hnext := h.next c rfl
  rwa [hblank c rfl] at hnext

theorem accounts_finish {pos : Nat} {rest : Text} (h : s.Settled rest) (e : Nth) :
    s.Accounts rest (finish e ⟨pos, rest⟩) := by
  obtain ⟨blanks, after, rfl, hrun⟩ := Run.of_text isBlank rest
  unfold finish
  rw [Cursor.skipBlanks_run hrun]
  dsimp only
  cases blanks with
  | nil =>
    split
    · next hend =>
      subst hend
      exact ⟨s, rfl, h.complete⟩
    · next hne =>
      intro _
      exact ⟨[], s, rfl, rfl, stuck_of_settled h hne hrun.stops⟩
  | cons b blanks =>
    have hb : isBlank b = true := hrun.all b List.mem_cons_self
    have hblanks : s.after (b :: blanks) = some done := by
      have hfirst := h.next b rfl
      rw [hb, if_pos rfl, charKind_of_isBlank hb] at hfirst
      exact after_run (List.cons_ne_nil b blanks)
        (fun c hc => charKind_of_isBlank (hrun.all c hc)) hfirst rfl
    split
    · next hend =>
      subst hend
      rw [List.append_nil]
      exact ⟨done, hblanks, rfl⟩
    · next hne =>
      intro _
      exact ⟨b :: blanks, done, rfl, hblanks,
        stuck_of_settled (settled_done after) hne hrun.stops⟩

/-- Where reading an offset breaks off the stages do not go on, and what it comes to otherwise is
the end of an expression. -/
theorem accounts_readOffset {pos : Nat} {rest : Text} (a : Int)
    (hstop : ∀ c ∈ rest.head?, isBlank c = false) :
    step.Accounts rest
      (match readOffset ⟨pos, rest⟩ with
        | .error place => .error place
        | .ok (b, place) => finish ⟨a, b⟩ place) := by
  cases rest with
  | nil => exact ⟨step, rfl, rfl⟩
  | cons d rest =>
    obtain ⟨blanks, digits, rfl, hblanks⟩ := Run.of_text isBlank rest
    obtain ⟨u, after, rfl, hu⟩ := Run.of_text Char.isDigit digits
    have hskip : ((Cursor.mk pos (d :: (blanks ++ (u ++ after)))).skip 1).skipBlanks =
        ⟨pos + 1 + blanks.length, u ++ after⟩ := Cursor.skipBlanks_run hblanks (pos + 1)
    unfold readOffset
    simp only [hskip, digitsAt_append hu, Cursor.skipWhile_run hu]
    by_cases hd : isSign d = true
    · -- Behind the sign and the blanks there have to be digits.
      have hsign : step.after (d :: blanks) = some sign := by
        rw [after_cons, charKind_of_isSign hd]
        exact after_blanks rfl hblanks.all
      rw [if_pos hd, ← List.cons_append]
      refine Accounts.append ?_ hsign
      by_cases hnone : u = []
      · subst hnone
        rw [if_pos rfl]
        intro _
        refine ⟨[], sign, rfl, rfl, stuck_of_head rfl fun c hc => ?_⟩
        exact next_sign (hblanks.stops c hc) (hu.stops c hc)
      · have hoffset : sign.after u = some offset :=
          after_run hnone (fun c hc => charKind_of_isDigit (hu.all c hc)) rfl rfl
        rw [if_neg hnone]
        cases hnumber : readNumber ⟨pos + 1 + blanks.length, u ++ after⟩ with
        | error place => exact fun hshort => absurd hshort (not_shortRuns_of_readNumber hu hnumber)
        | ok n => exact (accounts_finish (settled_offset hu.stops) _).append hoffset
    · rw [if_neg hd]
      intro _
      exact ⟨[], step, rfl, rfl, next_step (hstop d rfl) (Bool.eq_false_iff.mpr hd)⟩

/-- The stages in front of the first number are left by a digit or the letter only. -/
structure Opens (s : Stage) (rest : Text) : Prop where
  complete : s.complete = false
  digit : s.next .digit = some number
  letter : s.next .letter = some step
  other : ∀ c ∈ rest.head?, c.isDigit = false → isStepLetter c = false → s.next (charKind c) = none

theorem opens_signed (rest : Text) : signed.Opens rest :=
  ⟨rfl, rfl, rfl, fun _ _ => next_signed⟩

theorem opens_start {rest : Text} (hblank : ∀ c ∈ rest.head?, isBlank c = false)
    (hsign : ∀ c ∈ rest.head?, isSign c = false) : start.Opens rest := by
  refine ⟨rfl, rfl, rfl, fun c hc hdigit hletter => ?_⟩
  unfold charKind
  simp only [hblank c hc, hsign c hc, hdigit, hletter]
  rfl

/-- In front of the letter or of what follows a number there is the first number or nothing. -/
private theorem after_digits {digits rest : Text} (h : s.Opens rest)
    (hdigits : ∀ c ∈ digits, c.isDigit = true) :
    ∃ last, s.after digits = some last ∧ last.next .letter = some step ∧
      (digits ≠ [] → last = number) := by
  by_cases hnone : digits = []
  · exact ⟨s, by rw [hnone]; rfl, h.letter, fun hne => absurd hnone hne⟩
  · have hafter : s.after digits = some number :=
      after_run hnone (fun c hc => charKind_of_isDigit (hdigits c hc)) h.digit rfl
    exact ⟨number, hafter, rfl, fun _ => rfl⟩

section Unsigned

variable {pos : Nat} {digits behind : Text}

/-- With the letter behind the digits, if any, it is a step. -/
private theorem accounts_letter {blanks : Text} {l : Char} (sign : Int)
    (h : s.Opens (digits ++ l :: (blanks ++ behind)))
    (hdigits : Run Char.isDigit digits (l :: (blanks ++ behind))) (hl : isStepLetter l = true)
    (hblanks : Run isBlank blanks behind) :
    s.Accounts (digits ++ l :: (blanks ++ behind))
      (readUnsigned sign ⟨pos, digits ++ l :: (blanks ++ behind)⟩) := by
  obtain ⟨last, hlast, hstep, -⟩ := after_digits h hdigits.all
  have hskip : ((Cursor.mk (pos + digits.length) (l :: (blanks ++ behind))).skip 1).skipBlanks =
      ⟨pos + digits.length + 1 + blanks.length, behind⟩ := Cursor.skipBlanks_run hblanks _
  have hread : s.after (digits ++ l :: blanks) = some step := by
    rw [after_append_of hlast, after_cons, charKind_of_isStepLetter hl, hstep]
    exact after_blanks rfl hblanks.all
  have hsplit : digits ++ l :: (blanks ++ behind) = (digits ++ l :: blanks) ++ behind := by simp
  unfold readUnsigned
  simp only [Cursor.skipWhile_run hdigits, digitsAt_append hdigits]
  rw [if_pos (by exact hl), hskip]
  cases ha : if digits = [] then Except.ok 1 else readNumber ⟨pos, digits ++ l :: (blanks ++ behind)⟩
    with
  | error place =>
    split at ha
    · cases ha
    · exact fun hshort => absurd hshort (not_shortRuns_of_readNumber hdigits ha)
  | ok a =>
    rw [hsplit]
    exact (accounts_readOffset (sign * (a : Nat)) hblanks.stops).append hread

/-- Without the letter there have to be digits, and nothing but blanks behind them. -/
private theorem accounts_constant (sign : Int) (h : s.Opens (digits ++ behind))
    (hdigits : Run Char.isDigit digits behind)
    (hletter : ∀ c ∈ behind.head?, isStepLetter c = false) :
    s.Accounts (digits ++ behind) (readUnsigned sign ⟨pos, digits ++ behind⟩) := by
  obtain ⟨last, hlast, -, hnumber⟩ := after_digits h hdigits.all
  have hnone : ¬ behind.head?.any isStepLetter = true := by
    cases behind with
    | nil => exact Bool.false_ne_true
    | cons c behind => exact Bool.eq_false_iff.mp (hletter c rfl)
  unfold readUnsigned
  simp only [Cursor.skipWhile_run hdigits, digitsAt_append hdigits]
  rw [if_neg hnone]
  by_cases hempty : digits = []
  · subst hempty
    rw [if_pos rfl]
    intro _
    refine ⟨[], s, rfl, rfl, stuck_of_head h.complete fun c hc => ?_⟩
    exact h.other c hc (hdigits.stops c hc) (hletter c hc)
  · rw [if_neg hempty]
    cases hn : readNumber ⟨pos, digits ++ behind⟩ with
    | error place => exact fun hshort => absurd hshort (not_shortRuns_of_readNumber hdigits hn)
    | ok n =>
      rw [hnumber hempty] at hlast
      exact (accounts_finish (settled_number hdigits.stops hletter) _).append hlast

/-- Where reading an expression behind its sign breaks off the stages do not go on. -/
theorem accounts_readUnsigned {rest : Text} (sign : Int) (h : s.Opens rest) :
    s.Accounts rest (readUnsigned sign ⟨pos, rest⟩) := by
  obtain ⟨digits, behind, rfl, hdigits⟩ := Run.of_text Char.isDigit rest
  cases behind with
  | nil => exact accounts_constant sign h hdigits (by simp)
  | cons l behind =>
    cases hl : isStepLetter l with
    | true =>
      obtain ⟨blanks, behind, rfl, hblanks⟩ := Run.of_text isBlank behind
      exact accounts_letter sign h hdigits hl hblanks
    | false =>
      refine accounts_constant sign h hdigits fun c hc => ?_
      obtain rfl : l = c := by simpa using hc
      exact hl

end Unsigned

end Stage

/-! ## The reader from its start -/

/-- The stages account for what the reader comes to. -/
theorem accounts_read (v : Text) : Stage.start.Accounts v (read (.ofText v)) := by
  obtain ⟨blanks, rest, rfl, hblanks⟩ := Run.of_text isBlank v
  have hskip : (Cursor.ofText (blanks ++ rest)).skipBlanks = ⟨0 + blanks.length, rest⟩ :=
    Cursor.skipBlanks_run hblanks 0
  have hstart : Stage.start.after blanks = some .start :=
    Stage.after_blanks rfl hblanks.all
  unfold read
  rw [hskip]
  dsimp only
  refine Stage.Accounts.append ?_ hstart
  cases rest with
  | nil => exact Stage.accounts_readUnsigned 1 (Stage.opens_start (by simp) (by simp))
  | cons c rest =>
    by_cases hsign : isSign c = true
    · have hread : readSign ⟨0 + blanks.length, c :: rest⟩ =
          (signFactor c, ⟨0 + blanks.length + 1, rest⟩) := by
        simp [readSign, hsign, Cursor.skip]
      have hsigned : Stage.start.after [c] = some .signed := by
        rw [Stage.after_singleton, charKind_of_isSign hsign]
        rfl
      rw [hread]
      exact (Stage.accounts_readUnsigned _ (Stage.opens_signed rest)).append hsigned
    · have hread : readSign ⟨0 + blanks.length, c :: rest⟩ = (1, ⟨0 + blanks.length, c :: rest⟩) := by
        simp [readSign, hsign]
      rw [hread]
      refine Stage.accounts_readUnsigned 1 (Stage.opens_start hblanks.stops fun d hd => ?_)
      obtain rfl : c = d := by simpa using hd
      exact Bool.eq_false_iff.mpr hsign

variable {v : Text}

/-- What the reader accepts leads to a stage where an expression may end. -/
theorem complete_of_read {e : Nth} (h : read (.ofText v) = .ok e) :
    ∃ last, Stage.start.after v = some last ∧ last.complete = true := by
  have haccounts := accounts_read v
  rwa [h] at haccounts

/-- The reader breaks off where the stages do not go on. -/
theorem stuck_of_read {place : Cursor} (hshort : ShortRuns v)
    (h : read (.ofText v) = .error place) :
    ∃ t last, v = t ++ place.rest ∧ Stage.start.after t = some last ∧ last.Stuck place.rest := by
  have haccounts := accounts_read v
  rw [h] at haccounts
  exact haccounts hshort

/-- The reader accepts what leads to a stage where an expression may end. -/
theorem read_of_complete {last : Stage} (hshort : ShortRuns v)
    (hlast : Stage.start.after v = some last) (hcomplete : last.complete = true) :
    ∃ e, read (.ofText v) = .ok e := by
  cases hread : read (.ofText v) with
  | ok e => exact ⟨e, rfl⟩
  | error place =>
    obtain ⟨t, final, ht, hfinal, hstuck⟩ := stuck_of_read hshort hread
    by_cases hend : place.rest = []
    · rw [hend, List.append_nil] at ht
      rw [hend] at hstuck
      rw [← ht, hlast] at hfinal
      obtain rfl := Option.some.inj hfinal
      have hfalse : last.complete = false := hstuck
      rw [hcomplete] at hfalse
      cases hfalse
    · rw [ht, hstuck.after_append hend hfinal] at hlast
      cases hlast

end SelectorCheck.Nth
