import SelectorCheck.Comparison

/-!
# Which indices an expression selects

An expression is meant to select its offset and whatever lies a whole number of
steps further on, upwards or downwards as the sign of the step says. The test for
an index does not look for that number: it looks at the side of the offset that the
index is on and at a remainder. Here the two are shown to agree for every step,
the negative ones and zero included.

The selected indices say all about an expression. Its offset is one of them, and
so is every index that is one step further on than a selected one, so two
expressions with the same selected indices step by multiples of each other.

## Main results

* `Nth.selects_iff` — the selected indices are the offset after some steps.
* `Nth.eq_of_selects` — no two expressions select the same indices.
* `Nth.selects_exactly` — both together.
-/

namespace SelectorCheck.Nth

/-! ## Steps away from the offset -/

variable {step d : Int}

private theorem exists_steps_of_pos (h : 0 < step) :
    (∃ n : Nat, d = step * n) ↔ 0 ≤ d ∧ d.fmod step = 0 := by
  constructor
  · rintro ⟨n, rfl⟩
    have hn : 0 ≤ step * (n : Int) := Int.mul_nonneg (Int.le_of_lt h) (Int.natCast_nonneg n)
    exact ⟨hn, Int.fmod_eq_zero_of_dvd (Int.dvd_mul_right step n)⟩
  · rintro ⟨hd, hmod⟩
    obtain ⟨q, rfl⟩ := Int.dvd_of_fmod_eq_zero hmod
    have hq : 0 ≤ q := Int.nonneg_of_mul_nonneg_right hd h
    exact ⟨q.toNat, by rw [Int.toNat_of_nonneg hq]⟩

/-- Seen from the other side of the offset a negative step is a positive one. -/
private theorem exists_steps_of_neg (h : step < 0) :
    (∃ n : Nat, d = step * n) ↔ d ≤ 0 ∧ d.fmod step = 0 := by
  have hmirror : (∃ n : Nat, d = step * n) ↔ ∃ n : Nat, -d = -step * n := by
    constructor
    · rintro ⟨n, rfl⟩
      exact ⟨n, by rw [Int.neg_mul]⟩
    · rintro ⟨n, hn⟩
      exact ⟨n, by rw [Int.neg_mul] at hn; omega⟩
  have hside : 0 ≤ -d ↔ d ≤ 0 := by omega
  have hmod : (-d).fmod (-step) = 0 ↔ d.fmod step = 0 := by
    rw [← Int.dvd_iff_fmod_eq_zero, ← Int.dvd_iff_fmod_eq_zero, Int.neg_dvd, Int.dvd_neg]
  rw [hmirror, exists_steps_of_pos (by omega), hside, hmod]

variable {e f : Nth} {index : Int}

/-- An index is selected exactly if it is the offset after some number of steps. -/
theorem selects_iff : e.selects index = true ↔ ∃ n : Nat, index = e.step * n + e.offset := by
  have hdiff : (∃ n : Nat, index = e.step * n + e.offset) ↔
      ∃ n : Nat, index - e.offset = e.step * n :=
    exists_congr fun n => by omega
  rw [hdiff]
  unfold selects
  split
  · next hzero =>
    simp only [hzero, Int.zero_mul, exists_const, beq_iff_eq]
    omega
  · next hzero =>
    split
    · next hpos =>
      rw [exists_steps_of_pos hpos]
      simp
    · next hpos =>
      rw [exists_steps_of_neg (by omega)]
      simp

/-- A negative step leads down from the offset. -/
example : selects ⟨-2, 5⟩ 1 = true ∧ selects ⟨-2, 5⟩ 7 = false := by decide

/-! ## Expressions with the same indices -/

theorem selects_offset (e : Nth) : e.selects e.offset = true :=
  selects_iff.mpr ⟨0, by simp⟩

/-- One step further on than a selected index lies another one. -/
theorem selects_add_step (h : e.selects index = true) : e.selects (index + e.step) = true := by
  obtain ⟨n, rfl⟩ := selects_iff.mp h
  refine selects_iff.mpr ⟨n + 1, ?_⟩
  rw [Int.natCast_add, Int.mul_add, Int.natCast_one, Int.mul_one]
  omega

/-- If all indices of an expression are those of another one, whose offset is among them, then it
takes several steps of the other one at once. -/
private theorem exists_step_eq (hsub : ∀ index, e.selects index = true → f.selects index = true)
    (hoffset : e.selects f.offset = true) : ∃ n : Nat, e.step = f.step * n := by
  obtain ⟨n, hn⟩ := selects_iff.mp (hsub _ (selects_add_step hoffset))
  exact ⟨n, by omega⟩

/-- Steps that are several of each other are the same. -/
private theorem eq_of_steps {a c : Int} {m n : Nat} (ha : a = c * m) (hc : c = a * n) : a = c := by
  by_cases hzero : a = 0
  · rw [hc, hzero, Int.zero_mul]
  · have hmul : a * ((n * m : Nat) : Int) = a * 1 := by
      calc a * ((n * m : Nat) : Int) = a * n * m := by rw [Int.natCast_mul, Int.mul_assoc]
        _ = c * m := by rw [← hc]
        _ = a * 1 := by rw [← ha, Int.mul_one]
    have hone : n * m = 1 := Int.ofNat_inj.mp (Int.eq_of_mul_eq_mul_left hzero hmul)
    have hn : n = 1 := Nat.eq_one_of_mul_eq_one_right hone
    rw [hc, hn, Int.natCast_one, Int.mul_one]

/-- Expressions that select the same indices are the same. -/
theorem eq_of_selects (h : ∀ index, e.selects index = f.selects index) : e = f := by
  have hef : e.selects f.offset = true := by rw [h, selects_offset]
  have hfe : f.selects e.offset = true := by rw [← h, selects_offset]
  obtain ⟨m, hm⟩ := exists_step_eq (fun index hindex => by rw [← h, hindex]) hef
  obtain ⟨n, hn⟩ := exists_step_eq (fun index hindex => by rw [h, hindex]) hfe
  have hstep : e.step = f.step := eq_of_steps hm hn
  have hoffset : e.offset = f.offset := by
    obtain ⟨p, hp⟩ := selects_iff.mp hef
    obtain ⟨q, hq⟩ := selects_iff.mp hfe
    rw [← hstep] at hq
    -- The steps there and back come to nothing.
    have hround : e.step * ((p + q : Nat) : Int) = 0 := by
      rw [Int.natCast_add, Int.mul_add]
      omega
    rcases Int.mul_eq_zero.mp hround with hzero | hnone
    · rw [hzero, Int.zero_mul] at hp
      omega
    · have hp0 : p = 0 := by omega
      rw [hp0, Int.natCast_zero, Int.mul_zero] at hp
      omega
  calc e = ⟨e.step, e.offset⟩ := rfl
    _ = ⟨f.step, f.offset⟩ := by rw [hstep, hoffset]
    _ = f := rfl

/-- An index is selected exactly if it is the offset after some number of steps, and two
expressions are the same exactly if they select the same indices. -/
theorem selects_exactly (e f : Nth) :
    (∀ index : Int, e.selects index = true ↔ ∃ n : Nat, index = e.step * n + e.offset) ∧
      ((Value.nth e).same (.nth f) = true ↔ ∀ index, e.selects index = f.selects index) := by
  refine ⟨fun index => selects_iff, ?_⟩
  have hsame : (Value.nth e).same (.nth f) = true ↔ e = f := beq_iff_eq
  rw [hsame]
  constructor
  · rintro rfl index
    rfl
  · exact eq_of_selects

end SelectorCheck.Nth
