import SelectorCheck.Proofs.Text.SmallLetters

/-!
# Lower case that is plain Latin

Lower case of a text lies within the first 128 code points only if the text does,
but for one sign: the Kelvin sign, whose small letter is the Latin k. Every other
letter beyond the first 128 keeps a small letter beyond them, and the dotted capital
I leaves its dot. So the names that lower case makes within the first 128 code
points are those that making the capital Latin letters small would, with a k for
each Kelvin sign.

## Main definitions

* `Text.asciiLowercase` — only the capital Latin letters made small.
* `Text.kelvinSign`, `Text.latin` — the sign, and a text without it.
* `Text.IsAscii`, `Text.IsLatin` — texts within the first 128 code points, without
  and with Kelvin signs.

## Main results

* `Text.lowercase_eq_iff` — both ways to lower case lead to the same plain texts.
* `Text.lowercase_eq_iff_asciiLowercase` — without Kelvin signs where no k is asked for.
-/

namespace SelectorCheck.Text

/-- The text with its capital Latin letters made small. Nothing else is changed. -/
def asciiLowercase (t : Text) : Text := t.map Char.toLower

/-- The sign of the unit of temperature, which has the small letter k. -/
def kelvinSign : Char := Char.ofNat 0x212A

/-- The character, or the letter k in place of the Kelvin sign. -/
def latinLetter (c : Char) : Char := if c = kelvinSign then 'k' else c

/-- The text with the letter k in place of its Kelvin signs. -/
def latin (t : Text) : Text := t.map latinLetter

/-- No character lies beyond the first 128 code points. -/
def IsAscii (t : Text) : Prop := ∀ c ∈ t, isBeyondAscii c = false

instance (t : Text) : Decidable t.IsAscii :=
  List.decidableBAll (fun c => isBeyondAscii c = false) t

/-- No character but the Kelvin sign lies beyond the first 128 code points. -/
def IsLatin (t : Text) : Prop := ∀ c ∈ t, isBeyondAscii c = false ∨ c = kelvinSign

/-! ## Single characters -/

private theorem caseRuns_within_ascii : ∀ run ∈ caseRuns, run.small ≤ 127 →
    run.last ≤ 127 ∨ run.first = 0x212A ∧ run.last = 0x212A := by
  decide +kernel

/-- A small letter within the first 128 code points is that of a letter there, or of the Kelvin
sign. -/
theorem latin_of_smallLetter {c : Char} (h : isBeyondAscii (smallLetter c) = false) :
    isBeyondAscii c = false ∨ c = kelvinSign := by
  simp only [isBeyondAscii, decide_eq_false_iff_not, Nat.not_lt] at h ⊢
  rcases smallCode_settled c.toNat with hsame | ⟨-, hvalid, -⟩
  · left
    rwa [smallLetter, hsame, Char.ofNat_toNat] at h
  · rw [smallLetter, toNat_ofNat hvalid] at h
    rcases smallCode_cases caseRuns c.toNat with hsame | ⟨run, hmem, hfirst, hlast, -, hcode⟩
    · left
      rwa [hsame] at h
    · rcases caseRuns_within_ascii run hmem (by omega) with hascii | ⟨hlow, hhigh⟩
      · exact .inl (by omega)
      · right
        have hkelvin : c.toNat = 0x212A := by omega
        rw [← Char.ofNat_toNat c, hkelvin]
        rfl

/-- Up to Kelvin signs the small letters of the first 128 code points are the Latin ones. -/
theorem smallLetter_of_latin {c : Char} (h : isBeyondAscii c = false ∨ c = kelvinSign) :
    smallLetter c = (latinLetter c).toLower := by
  rcases h with hascii | rfl
  · have hall : ∀ n < 128, smallLetter (Char.ofNat n) = (latinLetter (Char.ofNat n)).toLower := by
      decide +kernel
    have hlt : c.toNat < 128 := by
      simpa [isBeyondAscii, Nat.lt_succ_iff] using hascii
    have hc := hall c.toNat hlt
    rwa [Char.ofNat_toNat] at hc
  · decide +kernel

theorem lowerAt_of_latin {c : Char} (h : isBeyondAscii c = false ∨ c = kelvinSign)
    (before after : Text) : lowerAt before c after = [(latinLetter c).toLower] := by
  have hsigma : c ≠ capitalSigma := by
    rintro rfl
    exact absurd h (by decide)
  have hdotted : c ≠ dottedI := by
    rintro rfl
    exact absurd h (by decide)
  simp [lowerAt, hsigma, hdotted, smallLetter_of_latin h]

/-- Lower case that stays within the first 128 code points is that of a character there, or of the
Kelvin sign. -/
theorem latin_of_lowerAt {before after : Text} {c : Char} (h : IsAscii (lowerAt before c after)) :
    isBeyondAscii c = false ∨ c = kelvinSign := by
  unfold lowerAt at h
  split at h
  · exact absurd h (by decide)
  · split at h
    · exact absurd h (by decide)
    · exact latin_of_smallLetter (h _ List.mem_cons_self)

/-- Making capital Latin letters small brings nothing into the first 128 code points. -/
theorem isBeyondAscii_toLower {c : Char} (h : isBeyondAscii c = true) :
    isBeyondAscii c.toLower = true := by
  have hlt : 127 < c.toNat := of_decide_eq_true h
  unfold Char.toLower
  split
  · next hcapital =>
    have hle : c.toNat ≤ 90 := hcapital.2
    omega
  · exact h

theorem latin_of_toLower {c : Char} (h : isBeyondAscii (latinLetter c).toLower = false) :
    isBeyondAscii c = false ∨ c = kelvinSign := by
  by_cases hkelvin : c = kelvinSign
  · exact .inr hkelvin
  · rw [latinLetter, if_neg hkelvin] at h
    cases hbeyond : isBeyondAscii c with
    | false => exact .inl rfl
    | true =>
      rw [isBeyondAscii_toLower hbeyond] at h
      cases h

/-! ## Texts -/

variable {t : Text}

theorem isLatin_of_lowercase (h : t.lowercase.IsAscii) : t.IsLatin := by
  suffices hfrom : ∀ before, IsAscii (lowerFrom before t) → t.IsLatin from hfrom [] h
  clear h
  induction t with
  | nil => exact fun _ _ => by simp [IsLatin]
  | cons c after ih =>
    intro before h
    rw [lowerFrom_cons] at h
    have hc := latin_of_lowerAt fun d hd => h d (List.mem_append_left _ hd)
    exact List.forall_mem_cons.mpr ⟨hc, ih _ fun d hd => h d (List.mem_append_right _ hd)⟩

theorem isLatin_of_asciiLowercase (h : t.latin.asciiLowercase.IsAscii) : t.IsLatin := by
  intro c hc
  refine latin_of_toLower (h _ ?_)
  exact List.mem_map_of_mem (List.mem_map_of_mem hc)

theorem lowercase_of_isLatin (h : t.IsLatin) : t.lowercase = t.latin.asciiLowercase := by
  suffices hfrom : ∀ before, lowerFrom before t = t.latin.asciiLowercase from hfrom []
  induction t with
  | nil => exact fun _ => rfl
  | cons c after ih =>
    intro before
    obtain ⟨hc, hafter⟩ := List.forall_mem_cons.mp h
    rw [lowerFrom_cons, lowerAt_of_latin hc, ih hafter]
    rfl

/-- Lower case makes a text of the first 128 code points what small Latin letters make of it when
Kelvin signs are read as the letter k, and the other way round. -/
theorem lowercase_eq_iff {name : Text} (hname : name.IsAscii) :
    t.lowercase = name ↔ t.latin.asciiLowercase = name := by
  constructor
  · rintro rfl
    exact (lowercase_of_isLatin (isLatin_of_lowercase hname)).symm
  · rintro rfl
    exact lowercase_of_isLatin (isLatin_of_asciiLowercase hname)

/-- A text without Kelvin signs is read as it stands. -/
theorem latin_eq_self (h : kelvinSign ∉ t) : t.latin = t := by
  have hall : ∀ c ∈ t, latinLetter c = c := by
    intro c hc
    rw [latinLetter, if_neg]
    rintro rfl
    exact h hc
  rw [latin, List.map_congr_left hall, List.map_id']

/-- A plain text without the letter k is the lower case of nothing beyond the first 128 code
points. -/
theorem lowercase_eq_iff_asciiLowercase {name : Text} (hname : name.IsAscii) (hk : 'k' ∉ name) :
    t.lowercase = name ↔ t.asciiLowercase = name := by
  rw [lowercase_eq_iff hname]
  by_cases hkelvin : kelvinSign ∈ t
  · constructor
    · rintro rfl
      exact absurd (List.mem_map_of_mem (List.mem_map_of_mem hkelvin)) hk
    · rintro rfl
      have hbeyond : isBeyondAscii kelvinSign.toLower = false :=
        hname _ (List.mem_map_of_mem hkelvin)
      exact absurd hbeyond (by decide)
  · rw [latin_eq_self hkelvin]

end SelectorCheck.Text
