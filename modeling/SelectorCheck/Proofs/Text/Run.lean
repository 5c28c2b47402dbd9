import SelectorCheck.Text.Cursor
import SelectorCheck.Text.Name

/-!
# Longest runs of characters

Readers pass over runs of characters of one kind: blanks, the characters of a
name, digits. Such a run is taken as long as it can be, so it is determined by
the text that it begins. This file says so once for every kind, and everything
about `takeWhile`, `dropWhile` and `Cursor.skipWhile` is read off from it.

## Main definitions

* `Text.Run` — a run with what follows it.
* `Text.Solid` — a text with no blank at either end.
* `Cursor.moved` — the same text ahead, further on.
* `Cursor.Ahead` — a place further on in the same text.

## Main results

* `Text.Run.of_text` — every text splits into a run and what follows it.
* `Cursor.skipWhile_run` — skipping passes over the run, no more and no less.
* `Text.trimEnd_append_solid` — trimming undoes padding.
-/

namespace SelectorCheck.Text

theorem head?_append_left {t : Text} (h : t ≠ []) (u : Text) : (t ++ u).head? = t.head? := by
  cases t with
  | nil => exact absurd rfl h
  | cons c rest => rfl

theorem getLast?_append_right {u : Text} (h : u ≠ []) (t : Text) :
    (t ++ u).getLast? = u.getLast? := by
  rw [List.getLast?_append, List.getLast?_eq_some_getLast h, Option.some_or]

/-- `run` holds characters with the property `p` only, and none with it follows in `after`. -/
structure Run (p : Char → Bool) (run after : Text) : Prop where
  all : ∀ c ∈ run, p c = true
  stops : ∀ c ∈ after.head?, p c = false

namespace Run

variable {p : Char → Bool} {run after : Text}

theorem takeWhile_eq (h : Run p run after) : (run ++ after).takeWhile p = run := by
  rw [List.takeWhile_append_of_pos h.all]
  cases after with
  | nil => simp
  | cons c rest =>
    have hc : p c = false := h.stops c rfl
    simp [hc]

theorem dropWhile_eq (h : Run p run after) : (run ++ after).dropWhile p = after := by
  rw [List.dropWhile_append_of_pos h.all]
  cases after with
  | nil => rfl
  | cons c rest =>
    have hc : p c = false := h.stops c rfl
    simp [hc]

theorem of_takeWhile (p : Char → Bool) (t : Text) : Run p (t.takeWhile p) (t.dropWhile p) where
  all := List.all_eq_true.mp List.all_takeWhile
  stops := by
    intro c hc
    have hfirst := List.head?_dropWhile_not p t
    rw [Option.mem_def] at hc
    rw [hc] at hfirst
    simpa using hfirst

/-- Every text is a run with what follows it. -/
theorem of_text (p : Char → Bool) (t : Text) :
    ∃ run after, t = run ++ after ∧ Run p run after :=
  ⟨t.takeWhile p, t.dropWhile p, List.takeWhile_append_dropWhile.symm, of_takeWhile p t⟩

theorem nil_left (h : ∀ c ∈ after.head?, p c = false) : Run p [] after :=
  ⟨by simp, h⟩

/-- Where no run is taken, none begins. -/
theorem stops_of_takeWhile {t : Text} (h : t.takeWhile p = []) : ∀ c ∈ t.head?, p c = false := by
  have hrun := of_takeWhile p t
  have hsplit := List.takeWhile_append_dropWhile (p := p) (l := t)
  rw [h, List.nil_append] at hsplit
  rw [hsplit] at hrun
  exact hrun.stops

theorem nil_right (h : ∀ c ∈ run, p c = true) : Run p run [] :=
  ⟨h, by simp⟩

/-- A run goes no further in front of more text, if that text does not prolong it. -/
theorem before_append (h : Run p run after) {rest : Text} (hrest : ∀ c ∈ rest.head?, p c = false) :
    Run p run (after ++ rest) where
  all := h.all
  stops := by
    cases after with
    | nil => exact hrest
    | cons c after => exact h.stops

end Run

theorem takeWhile_append_of_stops {p : Char → Bool} {rest : Text}
    (h : ∀ c ∈ rest.head?, p c = false) (t : Text) : (t ++ rest).takeWhile p = t.takeWhile p := by
  obtain ⟨run, after, rfl, hrun⟩ := Run.of_text p t
  rw [List.append_assoc, (hrun.before_append h).takeWhile_eq, hrun.takeWhile_eq]

theorem dropWhile_append_of_stops {p : Char → Bool} {rest : Text}
    (h : ∀ c ∈ rest.head?, p c = false) (t : Text) :
    (t ++ rest).dropWhile p = t.dropWhile p ++ rest := by
  obtain ⟨run, after, rfl, hrun⟩ := Run.of_text p t
  rw [List.append_assoc, (hrun.before_append h).dropWhile_eq, hrun.dropWhile_eq]

theorem dropWhile_eq_nil_iff {p : Char → Bool} {t : Text} :
    t.dropWhile p = [] ↔ ∀ c ∈ t, p c = true := by
  constructor
  · intro h
    have hsplit := List.takeWhile_append_dropWhile (p := p) (l := t)
    rw [h, List.append_nil] at hsplit
    rw [← hsplit]
    exact (Run.of_takeWhile p t).all
  · intro h
    have hrun := (Run.nil_right h).dropWhile_eq
    rwa [List.append_nil] at hrun

/-! ## Names -/

/-- `name` is a name, taken as long as it can be in front of `after`. -/
structure NameRun (name after : Text) : Prop extends Run isNameChar name after where
  ne_nil : name ≠ []

namespace NameRun

variable {name after : Text}

theorem takeName_eq (h : NameRun name after) : (name ++ after).takeName = name :=
  h.takeWhile_eq

theorem of_takeName {t : Text} (h : t.takeName ≠ []) : NameRun t.takeName t.dropName :=
  ⟨Run.of_takeWhile isNameChar t, h⟩

/-- A name stays one in front of every text that does not prolong it. -/
theorem before (h : NameRun name after) {other : Text}
    (hstops : ∀ c ∈ other.head?, isNameChar c = false) : NameRun name other :=
  ⟨⟨h.all, hstops⟩, h.ne_nil⟩

theorem eq_cons (h : NameRun name after) : ∃ c t, name = c :: t ∧ isNameChar c = true := by
  obtain ⟨c, t, rfl⟩ := List.exists_cons_of_ne_nil h.ne_nil
  exact ⟨c, t, rfl, h.all c List.mem_cons_self⟩

theorem before_cons (h : NameRun name after) {c : Char} {t : Text} (hc : isNameChar c = false) :
    NameRun name (c :: t) := by
  refine h.before ?_
  intro d hd
  cases hd
  exact hc

end NameRun

/-! ## Blanks at the ends of a text -/

/-- A character with a property that none of the five blanks has is no blank. -/
theorem isBlank_eq_false_of (p : Char → Bool) {c : Char} (h : p c = true)
    (hblanks : [' ', '\t', '\n', '\r', '\x0c'].any p = false) : isBlank c = false := by
  cases hc : isBlank c with
  | false => rfl
  | true =>
    have hmem : c ∈ [' ', '\t', '\n', '\r', '\x0c'] := by
      simpa [isBlank, or_assoc] using hc
    exact absurd h (List.any_eq_false.mp hblanks c hmem)

theorem isBlank_of_isNameChar {c : Char} (h : isNameChar c = true) : isBlank c = false :=
  isBlank_eq_false_of isNameChar h (by decide)

theorem allBlank_iff {t : Text} : allBlank t = true ↔ ∀ c ∈ t, isBlank c = true :=
  List.all_eq_true

@[simp] theorem allBlank_append (t u : Text) :
    allBlank (t ++ u) = (allBlank t && allBlank u) :=
  List.all_append

/-- A text with no blank at either end, and not the empty one. -/
structure Solid (t : Text) : Prop where
  ne_nil : t ≠ []
  first : ∀ c ∈ t.head?, isBlank c = false
  last : ∀ c ∈ t.getLast?, isBlank c = false

/-- What trimming leaves does not end with a blank. -/
theorem isBlank_of_getLast?_trimEnd {t : Text} : ∀ c ∈ (trimEnd t).getLast?, isBlank c = false := by
  intro c hc
  refine (Run.of_takeWhile isBlank t.reverse).stops c ?_
  simpa [trimEnd] using hc

/-- Trimming takes blanks away. -/
theorem exists_trimEnd_append (t : Text) :
    ∃ blanks, allBlank blanks = true ∧ t = trimEnd t ++ blanks := by
  refine ⟨(t.reverse.takeWhile isBlank).reverse, ?_, ?_⟩
  · simp [allBlank]
  · rw [trimEnd, ← List.reverse_append, List.takeWhile_append_dropWhile, List.reverse_reverse]

theorem length_trimEnd_le (t : Text) : t.trimEnd.length ≤ t.length := by
  obtain ⟨blanks, -, ht⟩ := exists_trimEnd_append t
  have hlength := congrArg List.length ht
  rw [List.length_append] at hlength
  omega

/-- Nothing in front of the last character that is no blank is cut off. -/
theorem trimEnd_append_left (u : Text) {t : Text} (h : allBlank t = false) :
    trimEnd (u ++ t) = u ++ trimEnd t := by
  have hne : t.reverse.dropWhile isBlank ≠ [] := by
    rw [Ne, dropWhile_eq_nil_iff]
    intro hall
    have hblank : allBlank t = true := List.all_eq_true.mpr fun c hc => hall c (by simpa using hc)
    rw [h] at hblank
    cases hblank
  have hrun := Run.of_takeWhile isBlank t.reverse
  have hsplit : (u ++ t).reverse = t.reverse.takeWhile isBlank ++
      (t.reverse.dropWhile isBlank ++ u.reverse) := by
    rw [List.reverse_append, ← List.append_assoc, List.takeWhile_append_dropWhile]
  have hstops : Run isBlank (t.reverse.takeWhile isBlank)
      (t.reverse.dropWhile isBlank ++ u.reverse) :=
    ⟨hrun.all, by rw [head?_append_left hne]; exact hrun.stops⟩
  rw [trimEnd, trimEnd, hsplit, hstops.dropWhile_eq]
  simp

theorem trimEnd_eq_self {t : Text} (h : ∀ c ∈ t.getLast?, isBlank c = false) : trimEnd t = t := by
  have hrun : Run isBlank [] t.reverse := .nil_left (by simpa using h)
  have hdrop := hrun.dropWhile_eq
  rw [List.nil_append] at hdrop
  rw [trimEnd, hdrop, List.reverse_reverse]

/-- Trimming undoes padding. -/
theorem trimEnd_append_solid {t blanks : Text} (h : Solid t) (hblanks : allBlank blanks = true) :
    trimEnd (t ++ blanks) = t := by
  rw [trimEnd_append_blanks hblanks, trimEnd_eq_self h.last]

/-- A text that begins with no blank is solid once it is trimmed, unless it is empty. -/
theorem solid_trimEnd {t : Text} (h : ∀ c ∈ t.head?, isBlank c = false) (hne : trimEnd t ≠ []) :
    Solid (trimEnd t) where
  ne_nil := hne
  first := by
    obtain ⟨blanks, -, ht⟩ := exists_trimEnd_append t
    intro c hc
    refine h c ?_
    rw [ht, List.head?_append]
    simp [Option.mem_def.mp hc]
  last := isBlank_of_getLast?_trimEnd

theorem Solid.not_allBlank {t : Text} (h : Solid t) : allBlank t = false := by
  cases t with
  | nil => exact absurd rfl h.ne_nil
  | cons c rest => simp [h.first c rfl]

/-- Nothing is cut off a solid text but the empty text. -/
theorem Solid.eq_nil_of_append {t u : Text} (h : Solid (t ++ u)) (hu : allBlank u = true) :
    u = [] := by
  rcases List.eq_nil_or_concat u with rfl | ⟨rest, c, rfl⟩
  · rfl
  · have hlast : isBlank c = false := h.last c (by simp)
    have hblank : isBlank c = true := by simpa using (allBlank_iff.mp hu) c (by simp)
    rw [hlast] at hblank
    cases hblank

theorem Solid.eq_nil_of_blanks_append {t u : Text} (h : Solid (t ++ u))
    (ht : allBlank t = true) : t = [] := by
  cases t with
  | nil => rfl
  | cons c rest =>
    have hfirst : isBlank c = false := h.first c rfl
    simp [hfirst] at ht

theorem Solid.run_blanks {t blanks : Text} (h : Solid t) (hblanks : allBlank blanks = true)
    (after : Text) : Run isBlank blanks (t ++ after) where
  all := allBlank_iff.mp hblanks
  stops := by
    intro c hc
    rw [head?_append_left h.ne_nil] at hc
    exact h.first c hc

theorem Solid.dropBlanks_eq {t : Text} (h : Solid t) : dropBlanks t = t := by
  have hrun := h.run_blanks (allBlank_nil) []
  rw [List.append_nil] at hrun
  exact hrun.dropWhile_eq

theorem Solid.trimEnd_eq {t : Text} (h : Solid t) : trimEnd t = t :=
  trimEnd_eq_self h.last

theorem Solid.trim_eq {t : Text} (h : Solid t) : trim t = t := by
  rw [trim, h.dropBlanks_eq, h.trimEnd_eq]

theorem trim_append_blanks (t : Text) {blanks : Text} (h : allBlank blanks = true) :
    trim (t ++ blanks) = trim t := by
  have hdrop : dropBlanks blanks = [] := dropBlanks_eq_nil_iff.mpr h
  rw [trim, trim, dropBlanks, List.dropWhile_append]
  by_cases ht : (t.dropWhile isBlank).isEmpty = true
  · have hnil : dropBlanks t = [] := List.isEmpty_iff.mp ht
    rw [if_pos ht, hnil, ← dropBlanks, hdrop]
  · rw [if_neg ht, trimEnd_append_blanks h, ← dropBlanks]

/-- Trimming undoes padding on both sides. -/
theorem trim_padded {t before behind : Text} (h : Solid t) (hbefore : allBlank before = true)
    (hbehind : allBlank behind = true) : trim (before ++ (t ++ behind)) = t := by
  rw [trim, dropBlanks, (h.run_blanks hbefore behind).dropWhile_eq,
    trimEnd_append_solid h hbehind]

/-- A text is its trimmed self with padding. -/
theorem exists_padding (t : Text) :
    ∃ before behind, allBlank before = true ∧ allBlank behind = true ∧
      t = before ++ (trim t ++ behind) := by
  obtain ⟨before, rest, ht, hrun⟩ := Run.of_text isBlank t
  obtain ⟨behind, hbehind, hrest⟩ := exists_trimEnd_append rest
  refine ⟨before, behind, allBlank_iff.mpr hrun.all, hbehind, ?_⟩
  rw [trim, dropBlanks, ht, hrun.dropWhile_eq, ← hrest]

/-- Nothing but blanks is trimmed away completely. -/
theorem trim_eq_nil_iff {t : Text} : trim t = [] ↔ allBlank t = true := by
  constructor
  · intro h
    obtain ⟨before, behind, hbefore, hbehind, ht⟩ := exists_padding t
    rw [h, List.nil_append] at ht
    rw [ht, allBlank_append, hbefore, hbehind]
    rfl
  · intro h
    rw [trim, dropBlanks_eq_nil_iff.mpr h, trimEnd_nil]

theorem length_trim_le (t : Text) : t.trim.length ≤ t.length :=
  Nat.le_trans (length_trimEnd_le t.dropBlanks) (List.dropWhile_sublist isBlank).length_le

end SelectorCheck.Text

namespace SelectorCheck.Cursor

open SelectorCheck.Text

variable {p : Char → Bool} {run after : Text}

/-- Skipping passes over the run, no more and no less. -/
theorem skipWhile_run (h : Run p run after) (pos : Nat) :
    (Cursor.mk pos (run ++ after)).skipWhile p = ⟨pos + run.length, after⟩ := by
  rw [skipWhile, h.takeWhile_eq, h.dropWhile_eq]

theorem skipBlanks_run (h : Run isBlank run after) (pos : Nat) :
    (Cursor.mk pos (run ++ after)).skipBlanks = ⟨pos + run.length, after⟩ :=
  skipWhile_run h pos

/-! ## Places further on in a text -/

/-- The place is where the cursor is, or further on in the same text. -/
def Ahead (c place : Cursor) : Prop := ∃ t, c.rest = t ++ place.rest ∧ place.pos = c.pos + t.length

namespace Ahead

variable {c place behind : Cursor}

theorem refl (c : Cursor) : c.Ahead c := ⟨[], rfl, rfl⟩

theorem trans (h : c.Ahead place) (hbehind : place.Ahead behind) : c.Ahead behind := by
  obtain ⟨t, hrest, hpos⟩ := h
  obtain ⟨u, hrest', hpos'⟩ := hbehind
  refine ⟨t ++ u, ?_, ?_⟩
  · rw [hrest, hrest', List.append_assoc]
  · rw [hpos', hpos, List.length_append, Nat.add_assoc]

theorem skipWhile (p : Char → Bool) (c : Cursor) : c.Ahead (c.skipWhile p) :=
  ⟨c.rest.takeWhile p, List.takeWhile_append_dropWhile.symm, rfl⟩

/-- One character further on, if there is one. -/
theorem skip (h : c.rest ≠ []) : c.Ahead (c.skip 1) := by
  obtain ⟨pos, rest⟩ := c
  obtain ⟨ch, rest, rfl⟩ := List.exists_cons_of_ne_nil h
  exact ⟨[ch], rfl, rfl⟩

theorem length_eq (h : c.Ahead place) :
    place.pos + place.rest.length = c.pos + c.rest.length := by
  obtain ⟨t, hrest, hpos⟩ := h
  rw [hrest, hpos, List.length_append, Nat.add_assoc]

end Ahead

/-! ## The same text further on -/

/-- The place `k` characters further on, in front of the same text. -/
def moved (k : Nat) (c : Cursor) : Cursor := ⟨c.pos + k, c.rest⟩

section Moved

variable (k : Nat) (c : Cursor)

@[simp] theorem pos_moved : (c.moved k).pos = c.pos + k := rfl

@[simp] theorem rest_moved : (c.moved k).rest = c.rest := rfl

theorem skip_moved (n : Nat) : (c.moved k).skip n = (c.skip n).moved k := by
  simp [skip, moved, Nat.add_right_comm]

theorem skipWhile_moved (p : Char → Bool) : (c.moved k).skipWhile p = (c.skipWhile p).moved k := by
  simp [skipWhile, moved, Nat.add_right_comm]

theorem skipBlanks_moved : (c.moved k).skipBlanks = c.skipBlanks.moved k :=
  skipWhile_moved k c isBlank

end Moved

end SelectorCheck.Cursor
