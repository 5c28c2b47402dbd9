import SelectorCheck.Token.RawArgument

/-!
# Texts that an argument can hold

The lexer cuts out an argument before anything is known about it. What the
argument grammars admit must therefore survive the cut: the scan has to pass
over the whole of it and must not come out inside a quotation or below an open
parenthesis. A text with this property is balanced. Balanced texts can be put
one after the other and into parentheses, so each grammar has to be looked at
only where it speaks of quotation marks and parentheses.

A text can also be looked at on its own, one character after the other, with the
number of open parentheses and the open quotation. If that never closes the
parenthesis in front of the text and comes back to where it began, the text is
self-contained, and the scan stops right behind it.

## Main definitions

* `RawArgument.Balanced` — a scan passes over the text unchanged.
* `RawArgument.SelfContained` — the parenthesis in front of the text stays open
  up to its end.

## Main results

* `RawArgument.scan_eq_ok` — what a successful scan has cut out.
* `RawArgument.Balanced.scan_closing`, `RawArgument.SelfContained.scan_closing`
  — the cut behind such a text.
-/

namespace SelectorCheck.RawArgument

/-! ## Scans that have passed over a text -/

/-- The outcome of a scan with a text in front of the content that it has passed. -/
def passingAll (t : Text) (outcome : Except Cursor (Text × Cursor)) :
    Except Cursor (Text × Cursor) :=
  t.foldr passing outcome

variable {outcome : Except Cursor (Text × Cursor)}

@[simp] theorem passingAll_nil : passingAll [] outcome = outcome := rfl

@[simp] theorem passingAll_cons (c : Char) (t : Text) :
    passingAll (c :: t) outcome = passing c (passingAll t outcome) := rfl

theorem passingAll_append (t u : Text) :
    passingAll (t ++ u) outcome = passingAll t (passingAll u outcome) :=
  List.foldr_append

@[simp] theorem passingAll_ok (t content : Text) (place : Cursor) :
    passingAll t (.ok (content, place)) = .ok (t ++ content, place) := by
  induction t with
  | nil => rfl
  | cons c t ih => rw [passingAll_cons, ih, passing, List.cons_append]

/-! ## Single steps of a scan -/

variable {depth pos : Nat} {mark c : Char} {rest : Text}

theorem scan_escaped (d : Char) :
    scan depth (some mark) pos (backslash :: d :: rest) =
      passing backslash (passing d (scan depth (some mark) (pos + 2) rest)) := by
  rw [scan.eq_def]
  simp

theorem scan_mark (h : mark ≠ backslash) :
    scan depth (some mark) pos (mark :: rest) = passing mark (scan depth none (pos + 1) rest) := by
  rw [scan.eq_def]
  simp [h]

theorem scan_quoted (hescape : c ≠ backslash) (hmark : c ≠ mark) :
    scan depth (some mark) pos (c :: rest) =
      passing c (scan depth (some mark) (pos + 1) rest) := by
  rw [scan.eq_def]
  simp [hescape, hmark]

theorem scan_quote (h : isQuote mark = true) :
    scan depth none pos (mark :: rest) =
      passing mark (scan depth (some mark) (pos + 1) rest) := by
  rw [scan.eq_def]
  simp [h]

theorem scan_open :
    scan depth none pos ('(' :: rest) = passing '(' (scan (depth + 1) none (pos + 1) rest) := by
  rw [scan.eq_def]
  simp [isQuote, apostrophe, quotationMark]

theorem scan_close :
    scan (depth + 1) none pos (')' :: rest) = passing ')' (scan depth none (pos + 1) rest) := by
  rw [scan.eq_def]
  simp [isQuote, apostrophe, quotationMark]

theorem scan_end : scan 0 none pos (')' :: rest) = .ok ([], ⟨pos, ')' :: rest⟩) := by
  rw [scan.eq_def]
  simp [isQuote, apostrophe, quotationMark]

/-- Characters that mean nothing to a scan outside quotations. -/
def isInert (c : Char) : Bool := !isQuote c && c != '(' && c != ')'

/-- A character with a property that neither quotation marks nor parentheses have is inert. -/
theorem isInert_of (p : Char → Bool) {c : Char} (h : p c = true)
    (hmarks : [apostrophe, quotationMark, '(', ')'].any p = false) : isInert c = true := by
  cases hc : isInert c with
  | true => rfl
  | false =>
    have hmem : c ∈ [apostrophe, quotationMark, '(', ')'] := by
      simpa [isInert, isQuote, Decidable.or_iff_not_imp_left] using hc
    exact absurd h (List.any_eq_false.mp hmarks c hmem)

theorem isInert_of_isBlank {c : Char} (h : isBlank c = true) : isInert c = true :=
  isInert_of isBlank h (by decide)

theorem scan_inert (h : isInert c = true) :
    scan depth none pos (c :: rest) = passing c (scan depth none (pos + 1) rest) := by
  simp only [isInert, Bool.and_eq_true, Bool.not_eq_true', bne_iff_ne] at h
  obtain ⟨⟨hquote, hopen⟩, hclose⟩ := h
  rw [scan.eq_def]
  simp [hquote, hopen, hclose]

/-! ## What a scan cuts out -/

theorem passing_eq_ok {c : Char} {content : Text} {place : Cursor}
    (h : passing c outcome = .ok (content, place)) :
    ∃ rest, content = c :: rest ∧ outcome = .ok (rest, place) := by
  rcases outcome with place' | ⟨rest, place'⟩
  · cases h
  · simp only [passing, Except.ok.injEq, Prod.mk.injEq] at h
    obtain ⟨rfl, rfl⟩ := h
    exact ⟨rest, rfl, rfl⟩

/-- A scan that succeeds has cut out the text in front of a closing parenthesis. -/
theorem scan_eq_ok {depth : Nat} {mark : Option Char} {pos : Nat} {t content : Text}
    {place : Cursor} (h : scan depth mark pos t = .ok (content, place)) :
    ∃ after, t = content ++ ')' :: after ∧ place = ⟨pos + content.length, ')' :: after⟩ := by
  fun_induction scan depth mark pos t generalizing content with
  | case1 | case2 => cases h
  | case3 depth mark pos c _ d rest ih =>
    -- A backslash within a quotation: two characters are passed at once.
    obtain ⟨tail, rfl, hd⟩ := passing_eq_ok h
    obtain ⟨inner, rfl, hscan⟩ := passing_eq_ok hd
    obtain ⟨after, rfl, rfl⟩ := ih hscan
    refine ⟨after, rfl, ?_⟩
    rw [List.length_cons, List.length_cons, Cursor.mk.injEq]
    exact ⟨by omega, rfl⟩
  | case8 pos c rest _ _ hc =>
    simp only [Except.ok.injEq, Prod.mk.injEq] at h
    obtain ⟨rfl, rfl⟩ := h
    obtain rfl : c = ')' := by simpa using hc
    exact ⟨rest, rfl, rfl⟩
  | case4 | case5 | case6 | case7 | case9 | case10 =>
    rename_i ih
    obtain ⟨inner, rfl, hscan⟩ := passing_eq_ok h
    obtain ⟨after, rfl, rfl⟩ := ih hscan
    refine ⟨after, rfl, ?_⟩
    rw [List.length_cons, Cursor.mk.injEq]
    exact ⟨by omega, rfl⟩

/-! ## Balanced texts -/

/-- A scan outside quotations passes over the text and comes out as it went in. -/
def Balanced (t : Text) : Prop :=
  ∀ depth pos rest,
    scan depth none pos (t ++ rest) = passingAll t (scan depth none (pos + t.length) rest)

namespace Balanced

variable {t u : Text}

/-- The argument ends where the first parenthesis closes that the text does not open. -/
theorem scan_closing (h : Balanced t) (pos : Nat) (rest : Text) :
    scan 0 none pos (t ++ ')' :: rest) = .ok (t, ⟨pos + t.length, ')' :: rest⟩) := by
  rw [h 0 pos, scan_end, passingAll_ok, List.append_nil]

theorem nil : Balanced [] := by
  intro depth pos rest
  rfl

theorem append (ht : Balanced t) (hu : Balanced u) : Balanced (t ++ u) := by
  intro depth pos rest
  rw [List.append_assoc, ht, hu, passingAll_append, List.length_append, Nat.add_assoc]

theorem singleton (h : isInert c = true) : Balanced [c] := by
  intro depth pos rest
  exact scan_inert h

theorem cons (hc : isInert c = true) (ht : Balanced t) : Balanced (c :: t) :=
  append (singleton hc) ht

theorem of_inert (h : ∀ c ∈ t, isInert c = true) : Balanced t := by
  induction t with
  | nil => exact nil
  | cons c t ih =>
    exact cons (h c List.mem_cons_self) (ih fun d hd => h d (List.mem_cons_of_mem _ hd))

/-- What is balanced may stand in parentheses. -/
theorem parenthesized (h : Balanced t) : Balanced ('(' :: (t ++ [')'])) := by
  intro depth pos rest
  have hlength : pos + ('(' :: (t ++ [')'])).length = pos + 1 + t.length + 1 := by
    simp only [List.length_cons, List.length_append, List.length_nil]
    omega
  rw [List.cons_append, List.append_assoc, List.singleton_append, scan_open, h, scan_close,
    hlength, passingAll_cons, passingAll_append, passingAll_cons, passingAll_nil]

end Balanced

/-! ## Self-contained texts -/

/-- What is open behind a part of a text. -/
structure Balance where
  /-- The number of open parentheses. -/
  depth : Nat
  /-- The mark of the open quotation. -/
  mark : Option Char
  /-- Whether the next character follows a backslash in a quotation. -/
  escaped : Bool
deriving DecidableEq

namespace Balance

/-- What is open behind the parenthesis in front of a text. -/
def start : Balance := ⟨1, none, false⟩

/-- What is open behind one more character. -/
def step (b : Balance) (c : Char) : Balance :=
  match b.mark with
  | some mark =>
    if b.escaped then { b with escaped := false }
    else if c = backslash then { b with escaped := true }
    else if c = mark then { b with mark := none }
    else b
  | none =>
    if isQuote c then { b with mark := some c }
    else if c = '(' then { b with depth := b.depth + 1 }
    else if c = ')' then { b with depth := b.depth - 1 }
    else b

/-- What is open behind a text. -/
def behind (b : Balance) (t : Text) : Balance := t.foldl step b

/-- The parenthesis in front stays open all over the text, and nothing else is open behind it. -/
structure Returns (b : Balance) (t : Text) : Prop where
  inside : ∀ u, u <+: t → (b.behind u).depth ≠ 0
  settled : b.behind t = start

variable {b : Balance} {t : Text}

theorem returns_iff : b.Returns t ↔
    (∀ n, n < t.length + 1 → (b.behind (t.take n)).depth ≠ 0) ∧ b.behind t = start := by
  constructor
  · intro h
    exact ⟨fun n _ => h.inside _ (List.take_prefix n t), h.settled⟩
  · rintro ⟨hinside, hsettled⟩
    refine ⟨fun u hu => ?_, hsettled⟩
    rw [List.prefix_iff_eq_take.mp hu]
    exact hinside u.length (Nat.lt_succ_of_le hu.length_le)

instance : Decidable (b.Returns t) := decidable_of_iff _ returns_iff.symm

theorem Returns.of_cons (h : b.Returns (c :: t)) : (b.step c).Returns t where
  inside u hu := h.inside (c :: u) (List.cons_prefix_cons.mpr ⟨rfl, hu⟩)
  settled := h.settled

theorem step_inert (h : isInert c = true) :
    step ⟨depth, none, false⟩ c = ⟨depth, none, false⟩ := by
  simp only [isInert, Bool.and_eq_true, Bool.not_eq_true', bne_iff_ne] at h
  obtain ⟨⟨hquote, hopen⟩, hclose⟩ := h
  simp [step, hquote, hopen, hclose]

/-- Characters in front that mean nothing do not matter. -/
theorem Returns.of_inert_append {u : Text} (hu : ∀ c ∈ u, isInert c = true)
    (h : Returns ⟨depth, none, false⟩ (u ++ t)) : Returns ⟨depth, none, false⟩ t := by
  induction u with
  | nil => exact h
  | cons c u ih =>
    have htail : (step ⟨depth, none, false⟩ c).Returns (u ++ t) := h.of_cons
    rw [step_inert (hu c List.mem_cons_self)] at htail
    exact ih (fun d hd => hu d (List.mem_cons_of_mem _ hd)) htail

/-- Only a backslash in a quotation takes away the meaning of the character behind it. -/
theorem step_escaped {mark : Option Char}
    (h : (step ⟨depth, mark, false⟩ c).escaped = true) :
    c = backslash ∧ ∃ m, mark = some m ∧ step ⟨depth, mark, false⟩ c = ⟨depth, some m, true⟩ := by
  cases mark with
  | some m =>
    by_cases hescape : c = backslash
    · exact ⟨hescape, m, rfl, by simp [step, hescape]⟩
    · by_cases hmark : c = m
      · subst hmark
        simp [step, hescape] at h
      · simp [step, hescape, hmark] at h
  | none =>
    unfold step at h
    dsimp only at h
    split at h
    · cases h
    · split at h
      · cases h
      · split at h <;> cases h

/-- Any other character is one step of a scan. -/
theorem scan_step {depth' : Nat} {mark mark' : Option Char}
    (h : step ⟨depth + 1, mark, false⟩ c = ⟨depth' + 1, mark', false⟩) :
    scan depth mark pos (c :: rest) = passing c (scan depth' mark' (pos + 1) rest) := by
  cases mark with
  | some m =>
    by_cases hescape : c = backslash
    · simp [step, hescape] at h
    · by_cases hmark : c = m
      · subst hmark
        simp only [step, hescape, if_false, if_true, Bool.false_eq_true, mk.injEq, and_true,
          Nat.add_right_cancel_iff] at h
        obtain ⟨rfl, rfl⟩ := h
        exact scan_mark hescape
      · simp only [step, hescape, hmark, if_false, Bool.false_eq_true, mk.injEq, and_true,
          Nat.add_right_cancel_iff] at h
        obtain ⟨rfl, rfl⟩ := h
        exact scan_quoted hescape hmark
  | none =>
    by_cases hquote : isQuote c = true
    · simp only [step, hquote, if_true, mk.injEq, and_true, Nat.add_right_cancel_iff] at h
      obtain ⟨rfl, rfl⟩ := h
      exact scan_quote hquote
    · by_cases hopen : c = '('
      · subst hopen
        cases h
        exact scan_open
      · by_cases hclose : c = ')'
        · subst hclose
          cases h
          exact scan_close
        · have hinert : isInert c = true := by simp [isInert, hquote, hopen, hclose]
          rw [step_inert hinert] at h
          cases h
          exact scan_inert hinert

/-- A scan passes over a text as long as the parenthesis in front of it stays open. -/
theorem Returns.scan_closing {mark : Option Char} (h : Returns ⟨depth + 1, mark, false⟩ t)
    (pos : Nat) (rest : Text) :
    scan depth mark pos (t ++ ')' :: rest) =
      passingAll t (.ok ([], ⟨pos + t.length, ')' :: rest⟩)) := by
  induction hn : t.length using Nat.strongRecOn generalizing depth mark pos t with
  | _ n ih =>
    subst hn
    cases t with
    | nil =>
      have hstart : (⟨depth + 1, mark, false⟩ : Balance) = start := h.settled
      cases hstart
      exact scan_end
    | cons c t =>
      have htail := h.of_cons
      cases hstep : step ⟨depth + 1, mark, false⟩ c with
      | mk depth' mark' escaped =>
        cases escaped with
        | true =>
          -- A backslash in a quotation: two characters are passed at once.
          obtain ⟨rfl, m, rfl, hescaped⟩ := step_escaped (congrArg escaped hstep)
          rw [hescaped] at htail
          cases t with
          | nil => cases htail.settled
          | cons d t =>
            have hplace : pos + 2 + t.length = pos + (backslash :: d :: t).length := by
              simp only [List.length_cons]
              omega
            have hbehind : Returns ⟨depth + 1, some m, false⟩ t := htail.of_cons
            rw [List.cons_append, List.cons_append, scan_escaped,
              ih t.length (by simp only [List.length_cons]; omega) hbehind _ rfl, hplace]
            rfl
        | false =>
          have hopen : (step ⟨depth + 1, mark, false⟩ c).depth ≠ 0 :=
            h.inside [c] (List.prefix_append [c] t)
          rw [hstep] at hopen htail
          obtain ⟨inner, rfl⟩ := Nat.exists_eq_succ_of_ne_zero hopen
          have hplace : pos + 1 + t.length = pos + (c :: t).length := by
            rw [List.length_cons]
            omega
          have hshorter : t.length < (c :: t).length := Nat.lt_succ_self _
          rw [List.cons_append, scan_step hstep, ih t.length hshorter htail _ rfl, hplace]
          rfl

end Balance

/-- The parenthesis in front of the text stays open up to its end, where nothing else is open. -/
def SelfContained (t : Text) : Prop := Balance.start.Returns t

instance (t : Text) : Decidable (SelfContained t) :=
  inferInstanceAs (Decidable (Balance.start.Returns t))

namespace SelfContained

variable {t : Text}

/-- An argument that is self-contained is cut out as a whole. -/
theorem scan_closing (h : SelfContained t) (pos : Nat) (rest : Text) :
    scan 0 none pos (t ++ ')' :: rest) = .ok (t, ⟨pos + t.length, ')' :: rest⟩) := by
  rw [Balance.Returns.scan_closing h, passingAll_ok, List.append_nil]

/-- Characters in front that mean nothing do not matter. -/
theorem of_inert_append {u : Text} (hu : ∀ c ∈ u, isInert c = true) (h : SelfContained (u ++ t)) :
    SelfContained t :=
  Balance.Returns.of_inert_append hu h

end SelfContained

end SelectorCheck.RawArgument
