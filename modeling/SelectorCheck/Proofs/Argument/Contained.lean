import SelectorCheck.Proofs.Argument.LanguageTag

/-!
# Parentheses and quotations within an argument

The lexer looks for the end of an argument in one scan over the whole of it, with
one count of parentheses and one open quotation. Whoever reads the argument later
begins afresh at each parenthesis and at each quotation mark in it. Both see the
same. What a scan has cut out is self-contained. In a self-contained text every
parenthesis that is opened outside quotations is closed, and a self-contained text
follows it; and a quotation that the text begins with comes to its end.

## Main results

* `RawArgument.selfContained_of_scan` — what a scan cuts out is self-contained.
* `RawArgument.SelfContained.trimEnd` — also without the blanks at its end.
* `RawArgument.SelfContained.exists_scan` — a scan that begins behind a
  parenthesis in the text ends in the text.
* `RawArgument.SelfContained.readQuoted` — so does a quotation.
-/

namespace SelectorCheck.RawArgument

open Text

namespace Balance

variable {b : Balance} {c m : Char} {t u : Text} {depth : Nat} {mark : Option Char}

theorem behind_append (b : Balance) (t u : Text) : b.behind (t ++ u) = (b.behind t).behind u :=
  List.foldl_append

/-! ## Parts of texts -/

theorem returns_nil : start.Returns [] where
  inside u hu := by
    rw [List.prefix_nil.mp hu]
    exact Nat.one_ne_zero
  settled := rfl

theorem Returns.cons {next : Balance} (hb : b.depth ≠ 0) (hstep : b.step c = next)
    (h : next.Returns t) : b.Returns (c :: t) where
  inside := by
    intro u hu
    cases u with
    | nil => exact hb
    | cons d u =>
      obtain ⟨rfl, htail⟩ := List.cons_prefix_cons.mp hu
      show ((b.step d).behind u).depth ≠ 0
      rw [hstep]
      exact h.inside u htail
  settled := by
    show (b.step c).behind t = start
    rw [hstep]
    exact h.settled

theorem Returns.of_append (h : b.Returns (t ++ u)) : (b.behind t).Returns u where
  inside v hv := by
    have hinside := h.inside (t ++ v) ((List.prefix_append_right_inj t).mpr hv)
    rwa [behind_append] at hinside
  settled := by
    rw [← behind_append]
    exact h.settled

theorem Returns.append (ht : b.Returns t) (hu : start.Returns u) : b.Returns (t ++ u) where
  inside v hv := by
    rcases List.prefix_or_prefix_of_prefix hv (List.prefix_append t u) with hfront | ⟨w, rfl⟩
    · exact ht.inside v hfront
    · rw [behind_append, ht.settled]
      exact hu.inside w ((List.prefix_append_right_inj t).mp hv)
  settled := by
    rw [behind_append, ht.settled]
    exact hu.settled

/-! ## One more parenthesis around a text -/

/-- The same with one more open parenthesis. -/
def deeper (b : Balance) : Balance := { b with depth := b.depth + 1 }

theorem step_deeper (h : (b.step c).depth ≠ 0) : b.deeper.step c = (b.step c).deeper := by
  obtain ⟨depth, _ | mark, escaped⟩ := b
  · unfold step deeper at *
    dsimp only at *
    split
    · rfl
    · split
      · rfl
      · split
        · next hquote hopen hclose =>
          -- Only here the count could stop at zero.
          rw [if_neg hquote, if_neg hopen, if_pos hclose] at h
          have hpositive : depth - 1 ≠ 0 := h
          have hcount : depth + 1 - 1 = depth - 1 + 1 := by omega
          rw [mk.injEq]
          exact ⟨hcount, rfl, rfl⟩
        · rfl
  · unfold step deeper
    dsimp only
    split
    · rfl
    · split
      · rfl
      · split <;> rfl

/-- A parenthesis around a text that does not close it stays open. -/
theorem behind_deeper (h : ∀ u, u <+: t → (b.behind u).depth ≠ 0) :
    b.deeper.behind t = (b.behind t).deeper := by
  induction t generalizing b with
  | nil => rfl
  | cons c t ih =>
    have hstep : (b.step c).depth ≠ 0 := h [c] (List.prefix_append [c] t)
    show (b.deeper.step c).behind t = ((b.step c).behind t).deeper
    rw [step_deeper hstep]
    exact ih fun u hu => h (c :: u) (List.cons_prefix_cons.mpr ⟨rfl, hu⟩)

/-- A self-contained text in parentheses leaves nothing open. -/
theorem behind_parenthesized (h : start.Returns t) :
    start.behind ('(' :: (t ++ [')'])) = start := by
  show start.deeper.behind (t ++ [')']) = start
  rw [behind_append, behind_deeper h.inside, h.settled]
  rfl

/-! ## Blanks at the end -/

/-- Only quotation marks open a quotation. -/
def Quoted (b : Balance) : Prop := ∀ m ∈ b.mark, isQuote m = true

theorem Quoted.step (h : b.Quoted) (c : Char) : (b.step c).Quoted := by
  obtain ⟨depth, _ | mark, escaped⟩ := b
  · intro m hm
    unfold Balance.step at hm
    dsimp only at hm
    split at hm
    · next hquote =>
      cases hm
      exact hquote
    · split at hm
      · cases hm
      · split at hm <;> cases hm
  · intro m hm
    unfold Balance.step at hm
    dsimp only at hm
    split at hm
    · exact h m hm
    · split at hm
      · exact h m hm
      · split at hm
        · cases hm
        · exact h m hm

theorem Quoted.behind (h : b.Quoted) (t : Text) : (b.behind t).Quoted := by
  induction t generalizing b with
  | nil => exact h
  | cons c t ih => exact ih (h.step c)

/-- Where nothing is open behind a blank, nothing is open in front of it. -/
theorem eq_start_of_step_blank (hb : b.Quoted) (hc : isBlank c = true) (h : b.step c = start) :
    b = start := by
  obtain ⟨depth, _ | m, escaped⟩ := b
  · have hinert := isInert_of_isBlank hc
    simp only [isInert, Bool.and_eq_true, Bool.not_eq_true', bne_iff_ne] at hinert
    obtain ⟨⟨hquote, hopen⟩, hclose⟩ := hinert
    simpa [step, hquote, hopen, hclose] using h
  · have hm : isQuote m = true := hb m rfl
    unfold step at h
    dsimp only at h
    split at h
    · cases h
    · split at h
      · cases h
      · split at h
        · next heq =>
          -- A blank closes no quotation.
          have hinert := isInert_of_isBlank hc
          rw [heq, isInert, hm] at hinert
          cases hinert
        · cases h

theorem eq_start_of_behind_blanks (hb : b.Quoted) (ht : allBlank t = true)
    (h : b.behind t = start) : b = start := by
  induction t generalizing b with
  | nil => exact h
  | cons c t ih =>
    rw [allBlank_cons, Bool.and_eq_true] at ht
    exact eq_start_of_step_blank hb ht.1 (ih (hb.step c) ht.2 h)

/-- The blanks at the end of a text that leaves nothing open may be cut off. -/
theorem Returns.of_append_blanks (hb : b.Quoted) (hu : allBlank u = true)
    (h : b.Returns (t ++ u)) : b.Returns t where
  inside v hv := h.inside v (hv.trans (List.prefix_append t u))
  settled := by
    refine eq_start_of_behind_blanks (hb.behind t) hu ?_
    rw [← behind_append]
    exact h.settled

/-! ## Scans within a text -/

/-- What a scan has cut out leaves open what the scan began with. -/
theorem returns_of_scan {pos : Nat} {content : Text} {place : Cursor}
    (h : scan depth mark pos t = .ok (content, place)) :
    Returns ⟨depth + 1, mark, false⟩ content := by
  fun_induction scan depth mark pos t generalizing content with
  | case1 | case2 => cases h
  | case3 depth mark pos c hescape d rest ih =>
    -- A backslash within a quotation: two characters are passed at once.
    obtain ⟨tail, rfl, hd⟩ := passing_eq_ok h
    obtain ⟨inner, rfl, hscan⟩ := passing_eq_ok hd
    have hc : c = backslash := by simpa using hescape
    have hstep : step ⟨depth + 1, some mark, false⟩ c = ⟨depth + 1, some mark, true⟩ := by
      simp [step, hc]
    exact .cons (Nat.succ_ne_zero depth) hstep (.cons (Nat.succ_ne_zero depth) rfl (ih hscan))
  | case4 depth mark pos c rest hescape hmark ih =>
    obtain ⟨inner, rfl, hscan⟩ := passing_eq_ok h
    have hstep : step ⟨depth + 1, some mark, false⟩ c = ⟨depth + 1, none, false⟩ := by
      simp_all [step]
    exact .cons (Nat.succ_ne_zero depth) hstep (ih hscan)
  | case5 depth mark pos c rest hescape hmark ih =>
    obtain ⟨inner, rfl, hscan⟩ := passing_eq_ok h
    have hstep : step ⟨depth + 1, some mark, false⟩ c = ⟨depth + 1, some mark, false⟩ := by
      simp_all [step]
    exact .cons (Nat.succ_ne_zero depth) hstep (ih hscan)
  | case6 depth pos c rest hquote ih =>
    obtain ⟨inner, rfl, hscan⟩ := passing_eq_ok h
    have hstep : step ⟨depth + 1, none, false⟩ c = ⟨depth + 1, some c, false⟩ := by
      simp [step, hquote]
    exact .cons (Nat.succ_ne_zero depth) hstep (ih hscan)
  | case7 depth pos c rest hquote hopen ih =>
    obtain ⟨inner, rfl, hscan⟩ := passing_eq_ok h
    have hstep : step ⟨depth + 1, none, false⟩ c = ⟨depth + 1 + 1, none, false⟩ := by
      simp_all [step]
    exact .cons (Nat.succ_ne_zero depth) hstep (ih hscan)
  | case8 =>
    cases h
    exact returns_nil
  | case9 pos c rest hquote hopen hclose depth ih =>
    obtain ⟨inner, rfl, hscan⟩ := passing_eq_ok h
    have hstep : step ⟨depth + 1 + 1, none, false⟩ c = ⟨depth + 1, none, false⟩ := by
      simp_all [step]
    exact .cons (Nat.succ_ne_zero _) hstep (ih hscan)
  | case10 depth pos c rest hquote hopen hclose ih =>
    obtain ⟨inner, rfl, hscan⟩ := passing_eq_ok h
    have hstep : step ⟨depth + 1, none, false⟩ c = ⟨depth + 1, none, false⟩ := by
      simp_all [step]
    exact .cons (Nat.succ_ne_zero depth) hstep (ih hscan)

/-- Only a closing parenthesis outside quotations closes the last open one. -/
theorem eq_of_depth_step (h : (step ⟨depth + 1, mark, false⟩ c).depth = 0) :
    depth = 0 ∧ mark = none ∧ c = ')' := by
  cases mark with
  | some m =>
    unfold step at h
    dsimp only at h
    split at h
    · cases h
    · split at h
      · cases h
      · split at h <;> cases h
  | none =>
    unfold step at h
    dsimp only at h
    split at h
    · cases h
    · split at h
      · cases h
      · split at h
        · next hclose => exact ⟨by simpa using h, rfl, hclose⟩
        · cases h

/-- A scan ends in a text that closes one parenthesis more than the scan passes over. -/
theorem Returns.exists_scan (h : (deeper ⟨depth + 1, mark, false⟩).Returns t) (pos : Nat) :
    ∃ found, scan depth mark pos t = .ok found := by
  induction hn : t.length using Nat.strongRecOn generalizing depth mark pos t with
  | _ n ih =>
    subst hn
    cases t with
    | nil => cases h.settled
    | cons c t =>
      have htail := h.of_cons
      by_cases hclose : (step ⟨depth + 1, mark, false⟩ c).depth = 0
      · obtain ⟨rfl, rfl, rfl⟩ := eq_of_depth_step hclose
        exact ⟨_, scan_end⟩
      · rw [step_deeper hclose] at htail
        cases hstep : step ⟨depth + 1, mark, false⟩ c with
        | mk depth' mark' escaped =>
          rw [hstep] at htail hclose
          obtain ⟨inner, rfl⟩ := Nat.exists_eq_succ_of_ne_zero hclose
          cases escaped with
          | true =>
            -- A backslash in a quotation: two characters are passed at once.
            obtain ⟨rfl, m, rfl, hescaped⟩ := step_escaped (congrArg escaped hstep)
            rw [hstep] at hescaped
            cases hescaped
            cases t with
            | nil => cases htail.settled
            | cons d t =>
              have hbehind : (deeper ⟨depth + 1, some m, false⟩).Returns t := htail.of_cons
              obtain ⟨⟨content, place⟩, hscan⟩ :=
                ih t.length (by simp only [List.length_cons]; omega) hbehind (pos + 2) rfl
              exact ⟨_, by rw [scan_escaped, hscan]; rfl⟩
          | false =>
            obtain ⟨⟨content, place⟩, hscan⟩ :=
              ih t.length (Nat.lt_succ_self _) htail (pos + 1) rfl
            exact ⟨_, by rw [scan_step hstep, hscan]; rfl⟩

/-- A quotation that is open in front of a text and not behind it is closed in it. -/
theorem exists_readQuoted (h : behind ⟨depth, some m, false⟩ t = start)
    (pos : Nat) : ∃ found, LanguageTag.readQuoted m pos t = some found := by
  fun_induction LanguageTag.readQuoted m pos t with
  | case1 => cases h
  | case2 => exact ⟨_, rfl⟩
  | case3 pos c hclose hescape =>
    have hstep : step ⟨depth, some m, false⟩ c = ⟨depth, some m, true⟩ := by
      simp_all [step]
    have hopen : step ⟨depth, some m, false⟩ c = start := h
    rw [hstep] at hopen
    cases hopen
  | case4 pos c hclose hescape d rest ih =>
    have hstep : step ⟨depth, some m, false⟩ c = ⟨depth, some m, true⟩ := by
      simp_all [step]
    have hbehind : ((step ⟨depth, some m, false⟩ c).step d).behind rest = start := h
    rw [hstep] at hbehind
    obtain ⟨found, hfound⟩ := ih hbehind
    exact ⟨_, by rw [hfound, Option.map_some]⟩
  | case5 pos c rest hclose hescape ih =>
    have hstep : step ⟨depth, some m, false⟩ c = ⟨depth, some m, false⟩ := by
      simp_all [step]
    have hbehind : (step ⟨depth, some m, false⟩ c).behind rest = start := h
    rw [hstep] at hbehind
    obtain ⟨found, hfound⟩ := ih hbehind
    exact ⟨_, by rw [hfound, Option.map_some]⟩

end Balance

open Balance

/-- What a scan cuts out is self-contained. -/
theorem selfContained_of_scan {pos : Nat} {t content : Text} {place : Cursor}
    (h : scan 0 none pos t = .ok (content, place)) : SelfContained content :=
  returns_of_scan h

namespace SelfContained

variable {t : Text}

theorem quoted_start : start.Quoted := by
  intro m hm
  cases hm

theorem nil : SelfContained [] := returns_nil

/-- Characters that mean nothing in front of a self-contained text do not matter. -/
theorem inert_append {u : Text} (hu : ∀ c ∈ u, isInert c = true) (h : SelfContained t) :
    SelfContained (u ++ t) := by
  induction u with
  | nil => exact h
  | cons c u ih =>
    have htail : start.Returns (u ++ t) := ih fun d hd => hu d (List.mem_cons_of_mem _ hd)
    have hstep : start.step c = start := step_inert (hu c List.mem_cons_self)
    exact Returns.cons Nat.one_ne_zero hstep htail

/-- Nor do characters behind it that mean nothing. -/
theorem append_inert {u : Text} (hu : ∀ c ∈ u, isInert c = true) (h : SelfContained t) :
    SelfContained (t ++ u) := by
  have hrest : SelfContained (u ++ []) := inert_append hu .nil
  rw [List.append_nil] at hrest
  exact Returns.append h hrest

/-- The blanks at the end of a self-contained text do not matter. -/
theorem trimEnd (h : SelfContained t) : SelfContained t.trimEnd := by
  obtain ⟨cut, hcut, ht⟩ := exists_trimEnd_append t
  have hall : start.Returns (t.trimEnd ++ cut) := by rwa [← ht]
  exact hall.of_append_blanks quoted_start hcut

/-- A scan that begins behind a parenthesis in a self-contained text, or behind characters that mean
nothing behind it, ends in the text. -/
theorem exists_scan {u : Text} (hu : ∀ c ∈ u, isInert c = true)
    (h : SelfContained ('(' :: (u ++ t))) (pos : Nat) : ∃ found, scan 0 none pos t = .ok found := by
  have hinside : (deeper start).Returns (u ++ t) := Returns.of_cons h
  exact (Returns.of_inert_append hu hinside).exists_scan pos

/-- What stands behind an argument in parentheses is self-contained if the whole is. -/
theorem of_parenthesized {u : Text} (ht : SelfContained t)
    (h : SelfContained ('(' :: (t ++ [')']) ++ u)) : SelfContained u := by
  have hbehind := Returns.of_append h
  rwa [behind_parenthesized ht] at hbehind

/-- A quotation that a self-contained text begins with is closed in it. -/
theorem readQuoted {mark : Char} (hmark : isQuote mark = true) (h : SelfContained (mark :: t))
    (pos : Nat) : ∃ found, LanguageTag.readQuoted mark pos t = some found := by
  have hstep : start.step mark = ⟨1, some mark, false⟩ := by simp [step, start, hmark]
  have hsettled := (Returns.of_cons h).settled
  rw [hstep] at hsettled
  exact exists_readQuoted hsettled pos

end SelfContained

end SelectorCheck.RawArgument
