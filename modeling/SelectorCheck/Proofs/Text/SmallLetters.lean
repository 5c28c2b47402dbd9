import SelectorCheck.Proofs.Text.Run
import SelectorCheck.Text.Lowercase

/-!
# Lower case is settled

Lower case of a text is itself in lower case, and lower case of a name is a
name. Both rest on the table of case runs: what a run maps to is met by no run
again, is no capital sigma and no dotted capital I, and lies outside the first
128 code points or among the small Latin letters. The table is checked run by
run, with whole runs against whole runs, since checking each of its code points
on its own would search the table more than a thousand times.

## Main results

* `Text.lowercase_lowercase` — lower case is settled.
* `Text.isNameChar_of_mem_lowercase` — lower case of a name is made of name
  characters.
* `Text.length_lowercase` — lower case of a text is as long as the text, unless
  the dotted capital I is in it.
-/

namespace SelectorCheck.Text

/-! ## The table of case runs -/

/-- No run has a member among `lo`, `lo + stride`, …, `hi`. Runs of every second code point may
be interleaved with these. -/
def untouched (stride lo hi : Nat) : List CaseRun → Bool
  | [] => true
  | run :: rest =>
    if hi < run.first then true
    else if run.last < lo then untouched stride lo hi rest
    else run.step == 2 && (stride == 2 || lo == hi) && (lo + run.first) % 2 == 1 &&
      untouched stride lo hi rest

theorem smallCode_of_untouched {stride lo hi n : Nat} {runs : List CaseRun}
    (h : untouched stride lo hi runs = true) (hlo : lo ≤ n) (hhi : n ≤ hi)
    (hstep : (n - lo) % stride = 0) : smallCode runs n = n := by
  induction runs with
  | nil => rfl
  | cons run rest ih =>
    unfold untouched at h
    unfold smallCode
    split at h
    · next hbefore => rw [if_pos (by omega)]
    · split at h
      · split
        · rfl
        · rw [if_pos (by omega)]
          exact ih h
      · simp only [Bool.and_eq_true, Bool.or_eq_true, beq_iff_eq] at h
        obtain ⟨⟨⟨htwo, hsame⟩, hodd⟩, hrest⟩ := h
        split
        · rfl
        · split
          · exact ih hrest
          · have hmiss : (n - run.first) % run.step ≠ 0 := by
              rw [htwo]
              rcases hsame with rfl | rfl <;> omega
            rw [if_neg hmiss]

/-- The last small letter of a run. -/
def CaseRun.lastSmall (run : CaseRun) : Nat := run.small + (run.last - run.first)

/-- What a run maps to is small for good, and of the same kind as the run's letters. -/
def CaseRun.isSettled (run : CaseRun) : Bool :=
  untouched run.step run.small run.lastSmall caseRuns &&
    (run.lastSmall < 0xD800 || (0xDFFF < run.small && run.lastSmall < 0x110000)) &&
    (run.lastSmall < 0x3A3 || 0x3A3 < run.small) &&
    (run.lastSmall < 0x130 || 0x130 < run.small) &&
    (127 < run.small || (97 ≤ run.small && run.lastSmall ≤ 122))

theorem caseRuns_settled : ∀ run ∈ caseRuns, run.isSettled = true := by decide +kernel

/-- A code point is its own small letter, or a run maps it to another one. -/
theorem smallCode_cases (runs : List CaseRun) (n : Nat) :
    smallCode runs n = n ∨
      ∃ run ∈ runs, run.first ≤ n ∧ n ≤ run.last ∧ (n - run.first) % run.step = 0 ∧
        smallCode runs n = run.small + (n - run.first) := by
  induction runs with
  | nil => exact .inl rfl
  | cons run rest ih =>
    unfold smallCode
    split
    · exact .inl rfl
    · split
      · rcases ih with hsame | ⟨other, hmem, hother⟩
        · exact .inl hsame
        · exact .inr ⟨other, List.mem_cons_of_mem _ hmem, hother⟩
      · split
        · next hmember =>
          exact .inr ⟨run, List.mem_cons_self, by omega, by omega, hmember, rfl⟩
        · exact .inl rfl

/-- What is known of a code point that is no capital letter. -/
structure SmallCode (n : Nat) : Prop where
  fixed : smallCode caseRuns n = n
  ne_sigma : n ≠ 0x3A3
  ne_dottedI : n ≠ 0x130

/-- The small letter of a code point is that code point or a settled one. -/
theorem smallCode_settled (n : Nat) :
    smallCode caseRuns n = n ∨
      (SmallCode (smallCode caseRuns n) ∧ (smallCode caseRuns n).isValidChar ∧
        (127 < smallCode caseRuns n ∨
          97 ≤ smallCode caseRuns n ∧ smallCode caseRuns n ≤ 122)) := by
  rcases smallCode_cases caseRuns n with hsame | ⟨run, hmem, hfirst, hlast, hstep, hcode⟩
  · exact .inl hsame
  · have hsettled := caseRuns_settled run hmem
    simp only [CaseRun.isSettled, Bool.and_eq_true, Bool.or_eq_true,
      decide_eq_true_eq] at hsettled
    obtain ⟨⟨⟨⟨huntouched, hvalid⟩, hsigma⟩, hdotted⟩, hname⟩ := hsettled
    have hend : run.lastSmall = run.small + (run.last - run.first) := rfl
    have hfixed : smallCode caseRuns (run.small + (n - run.first)) =
        run.small + (n - run.first) :=
      smallCode_of_untouched huntouched (by omega) (by omega) (by
        rwa [Nat.add_sub_cancel_left])
    rw [hcode]
    refine .inr ⟨⟨hfixed, by omega, by omega⟩, ?_, by omega⟩
    unfold Nat.isValidChar
    omega

/-! ## Small letters -/

/-- A character that lower case leaves alone wherever it stands. -/
structure IsSmall (c : Char) : Prop where
  fixed : smallLetter c = c
  ne_sigma : c ≠ capitalSigma
  ne_dottedI : c ≠ dottedI

theorem toNat_ofNat {n : Nat} (h : n.isValidChar) : (Char.ofNat n).toNat = n := by
  rw [Char.ofNat, dif_pos h]
  rfl

private theorem smallLetter_cases (c : Char) :
    smallLetter c = c ∨
      (SmallCode (smallLetter c).toNat ∧
        (127 < (smallLetter c).toNat ∨
          97 ≤ (smallLetter c).toNat ∧ (smallLetter c).toNat ≤ 122)) := by
  rcases smallCode_settled c.toNat with hsame | ⟨hsmall, hvalid, hname⟩
  · left
    rw [smallLetter, hsame, Char.ofNat_toNat]
  · right
    rw [smallLetter, toNat_ofNat hvalid]
    exact ⟨hsmall, hname⟩

private theorem isSmall_of_code {c : Char} (h : SmallCode c.toNat) : IsSmall c where
  fixed := by rw [smallLetter, h.fixed, Char.ofNat_toNat]
  ne_sigma := by
    rintro rfl
    exact h.ne_sigma rfl
  ne_dottedI := by
    rintro rfl
    exact h.ne_dottedI rfl

private theorem smallLetter_capitalSigma : smallLetter capitalSigma ≠ capitalSigma := by
  decide +kernel

/-- Small letters are settled. The dotted capital I has no single small letter. -/
theorem isSmall_smallLetter {c : Char} (h : c ≠ dottedI) : IsSmall (smallLetter c) := by
  rcases smallLetter_cases c with hsame | ⟨hsmall, -⟩
  · rw [hsame]
    refine ⟨hsame, ?_, h⟩
    rintro rfl
    exact smallLetter_capitalSigma hsame
  · exact isSmall_of_code hsmall

theorem isSmall_of_mem_lowerAt {before after : Text} {c d : Char}
    (h : d ∈ lowerAt before c after) : IsSmall d := by
  unfold lowerAt at h
  split at h
  · obtain rfl := List.mem_singleton.mp h
    exact ⟨by decide +kernel, by decide, by decide⟩
  · split at h
    · simp only [List.mem_cons, List.not_mem_nil, or_false] at h
      rcases h with rfl | rfl <;> exact ⟨by decide +kernel, by decide, by decide⟩
    · next hdotted =>
      obtain rfl := List.mem_singleton.mp h
      exact isSmall_smallLetter (by simpa using hdotted)

theorem lowerAt_of_isSmall {c : Char} (h : IsSmall c) (before after : Text) :
    lowerAt before c after = [c] := by
  simp [lowerAt, h.ne_sigma, h.ne_dottedI, h.fixed]

/-! ## Lower case of texts -/

theorem isSmall_of_mem_lowerFrom {before t : Text} :
    ∀ d ∈ lowerFrom before t, IsSmall d := by
  induction t generalizing before with
  | nil => simp
  | cons c after ih =>
    intro d hd
    rw [lowerFrom_cons, List.mem_append] at hd
    rcases hd with hd | hd
    · exact isSmall_of_mem_lowerAt hd
    · exact ih d hd

theorem lowerFrom_of_isSmall {t : Text} (h : ∀ c ∈ t, IsSmall c) (before : Text) :
    lowerFrom before t = t := by
  induction t generalizing before with
  | nil => rfl
  | cons c after ih =>
    have hc : IsSmall c := h c List.mem_cons_self
    have hafter : ∀ d ∈ after, IsSmall d := fun d hd => h d (List.mem_cons_of_mem _ hd)
    rw [lowerFrom_cons, lowerAt_of_isSmall hc, ih hafter, List.singleton_append]

/-- Lower case is settled. -/
@[simp] theorem lowercase_lowercase (t : Text) : t.lowercase.lowercase = t.lowercase :=
  lowerFrom_of_isSmall isSmall_of_mem_lowerFrom []

theorem lowerAt_ne_nil (before : Text) (c : Char) (after : Text) :
    lowerAt before c after ≠ [] := by
  unfold lowerAt
  split
  · simp
  · split <;> simp

@[simp] theorem lowercase_eq_nil_iff {t : Text} : t.lowercase = [] ↔ t = [] := by
  cases t with
  | nil => simp
  | cons c after => simp [lowercase, lowerFrom_cons, lowerAt_ne_nil]

/-- Only the dotted capital I has a longer text as its lower case. -/
theorem length_lowercase {t : Text} (h : dotAbove ∉ t.lowercase) :
    t.lowercase.length = t.length := by
  suffices hfrom : ∀ before, dotAbove ∉ lowerFrom before t →
      (lowerFrom before t).length = t.length from hfrom [] h
  clear h
  induction t with
  | nil => simp
  | cons c after ih =>
    intro before hdot
    rw [lowerFrom_cons, List.mem_append, not_or] at hdot
    have hone : (lowerAt before c after).length = 1 := by
      have hc := hdot.1
      unfold lowerAt at hc ⊢
      split
      · rfl
      · next hsigma =>
        split
        · next hdotted => simp [hsigma, hdotted] at hc
        · rfl
    rw [lowerFrom_cons, List.length_append, hone, ih _ hdot.2, List.length_cons, Nat.add_comm]

/-! ## Lower case of names -/

theorem isNameChar_of_isNameStart {c : Char} (h : isNameStart c = true) :
    isNameChar c = true := by
  simp [isNameChar, h]

private theorem isNameStart_of_toNat {c : Char}
    (h : 127 < c.toNat ∨ 97 ≤ c.toNat ∧ c.toNat ≤ 122) : isNameStart c = true := by
  rcases h with hbeyond | ⟨hlo, hhi⟩
  · simp [isNameStart, isBeyondAscii, hbeyond]
  · have hlower : c.isLower = true := by
      show (decide ('a'.val ≤ c.val) && decide (c.val ≤ 'z'.val)) = true
      rw [Bool.and_eq_true, decide_eq_true_eq, decide_eq_true_eq, UInt32.le_iff_toNat_le,
        UInt32.le_iff_toNat_le]
      exact ⟨hlo, hhi⟩
    have hletter : c.isAlpha = true := by
      show (c.isUpper || c.isLower) = true
      rw [hlower, Bool.or_true]
    simp [isNameStart, hletter]

/-- What lower case makes of a character is a name start, or that character. -/
theorem mem_lowerAt_cases {before after : Text} {c d : Char} (h : d ∈ lowerAt before c after) :
    d = c ∨ isNameStart d = true := by
  unfold lowerAt at h
  split at h
  · obtain rfl := List.mem_singleton.mp h
    exact .inr (by decide)
  · split at h
    · simp only [List.mem_cons, List.not_mem_nil, or_false] at h
      rcases h with rfl | rfl <;> exact .inr (by decide)
    · obtain rfl := List.mem_singleton.mp h
      rcases smallLetter_cases c with hsame | ⟨-, hname⟩
      · exact .inl hsame
      · exact .inr (isNameStart_of_toNat hname)

/-- Lower case of a name is made of name characters. -/
theorem isNameChar_of_mem_lowercase {t : Text} (h : ∀ c ∈ t, isNameChar c = true) :
    ∀ d ∈ t.lowercase, isNameChar d = true := by
  suffices hfrom : ∀ before, ∀ d ∈ lowerFrom before t, isNameChar d = true from hfrom []
  induction t with
  | nil => simp
  | cons c after ih =>
    intro before d hd
    rw [lowerFrom_cons, List.mem_append] at hd
    rcases hd with hd | hd
    · rcases mem_lowerAt_cases hd with rfl | hstart
      · exact h d List.mem_cons_self
      · exact isNameChar_of_isNameStart hstart
    · exact ih (fun e he => h e (List.mem_cons_of_mem _ he)) _ d hd

/-- Lower case keeps a name start in front. -/
theorem isNameStart_of_head?_lowercase {t : Text} (h : ∀ c ∈ t.head?, isNameStart c = true) :
    ∀ d ∈ t.lowercase.head?, isNameStart d = true := by
  cases t with
  | nil => simp
  | cons c after =>
    intro d hd
    have hmem : d ∈ lowerAt [] c after := by
      rw [lowercase, lowerFrom_cons, head?_append_left (lowerAt_ne_nil [] c after)] at hd
      exact List.mem_of_head? hd
    rcases mem_lowerAt_cases hmem with rfl | hstart
    · exact h d rfl
    · exact hstart

end SelectorCheck.Text
