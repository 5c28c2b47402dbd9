import SelectorCheck.LanguageTag
import SelectorCheck.Proofs.Argument.Balanced
import SelectorCheck.Proofs.Text.Run

/-!
# How language tags are written

A language tag is written as an identifier, or between two quotation marks of
one kind with a backslash in front of each character that would not stand for
itself. This file gives the two forms as a relation between texts and tags and
shows that the reader accepts exactly them. Both forms are balanced, so the
lexer and the reader agree on where a tag ends.

## Main definitions

* `LanguageTag.QuotedBody` — what stands between the marks.
* `LanguageTag.Written` — a text with the tag that it is written for.
* `LanguageTag.quote` — one way of writing a tag, whatever it holds.

## Main results

* `LanguageTag.read_eq_ok_iff`, `LanguageTag.parse_eq_ok_iff` — the reader
  accepts exactly the written tags.
* `LanguageTag.written_quote` — every text is a tag if it is quoted.
* `LanguageTag.Written.balanced`, `LanguageTag.Written.solid` — the lexer cuts
  out a written tag as a whole.
-/

namespace SelectorCheck.LanguageTag

open Text RawArgument

/-- The text `raw` stands between two marks for `tag`. -/
inductive QuotedBody (mark : Char) : (raw tag : Text) → Prop where
  | nil : QuotedBody mark [] []
  | plain {c : Char} {raw tag : Text} (hmark : c ≠ mark) (hescape : c ≠ backslash)
      (h : QuotedBody mark raw tag) : QuotedBody mark (c :: raw) (c :: tag)
  | escaped {c : Char} {raw tag : Text} (h : QuotedBody mark raw tag) :
      QuotedBody mark (backslash :: c :: raw) (c :: tag)

/-- The text `t` is written for `tag`. -/
inductive Written : (t tag : Text) → Prop where
  | plain {t : Text} (hstart : startsIdentifier t = true) (hall : ∀ c ∈ t, isTagChar c = true) :
      Written t t
  | quoted {mark : Char} {raw tag : Text} (hmark : isQuote mark = true)
      (h : QuotedBody mark raw tag) : Written (mark :: (raw ++ [mark])) tag

/-- The text between two marks that stands for `tag`: each character that would not stand for itself
has a backslash in front of it. -/
def escape (mark : Char) (tag : Text) : Text :=
  tag.flatMap fun c => if c = backslash ∨ c = mark then [backslash, c] else [c]

/-- The tag between two marks. -/
def quote (mark : Char) (tag : Text) : Text := mark :: (escape mark tag ++ [mark])

theorem isQuote_iff {c : Char} : isQuote c = true ↔ c = apostrophe ∨ c = quotationMark := by
  simp [isQuote]

theorem ne_backslash_of_isQuote {c : Char} (h : isQuote c = true) : backslash ≠ c := by
  rcases isQuote_iff.mp h with rfl | rfl <;> decide

/-! ## Between the marks -/

theorem readQuoted_mark {mark : Char} (pos : Nat) (rest : Text) :
    readQuoted mark pos (mark :: rest) = some ([], ⟨pos + 1, rest⟩) := by
  rw [readQuoted.eq_def]
  simp

theorem readQuoted_plain {mark c : Char} (hmark : c ≠ mark) (hescape : c ≠ backslash) (pos : Nat)
    (rest : Text) :
    readQuoted mark pos (c :: rest) =
      (readQuoted mark (pos + 1) rest).map fun (t, place) => (c :: t, place) := by
  rw [readQuoted.eq_def]
  simp [hmark, hescape]

theorem readQuoted_escaped {mark : Char} (hmark : backslash ≠ mark) (c : Char) (pos : Nat)
    (rest : Text) :
    readQuoted mark pos (backslash :: c :: rest) =
      (readQuoted mark (pos + 2) rest).map fun (t, place) => (c :: t, place) := by
  rw [readQuoted.eq_def]
  simp [hmark]

theorem readQuoted_sound {mark : Char} {pos : Nat} {t tag : Text} {place : Cursor}
    (h : readQuoted mark pos t = some (tag, place)) :
    ∃ raw after, t = raw ++ mark :: after ∧ QuotedBody mark raw tag ∧
      place = ⟨pos + raw.length + 1, after⟩ := by
  fun_induction readQuoted mark pos t generalizing tag with
  | case1 | case3 => cases h
  | case2 pos c rest hc =>
    simp only [Option.some.injEq, Prod.mk.injEq] at h
    obtain ⟨rfl, rfl⟩ := h
    exact ⟨[], rest, by simpa using hc, .nil, rfl⟩
  | case4 pos c _ hc d rest ih =>
    obtain ⟨⟨inner, place⟩, hinner, heq⟩ := Option.map_eq_some_iff.mp h
    simp only [Prod.mk.injEq] at heq
    obtain ⟨rfl, rfl⟩ := heq
    obtain ⟨raw, after, rfl, hbody, rfl⟩ := ih hinner
    obtain rfl : c = backslash := by simpa using hc
    refine ⟨backslash :: d :: raw, after, rfl, .escaped hbody, ?_⟩
    rw [List.length_cons, List.length_cons, Cursor.mk.injEq]
    exact ⟨by omega, rfl⟩
  | case5 pos c rest hmark hescape ih =>
    obtain ⟨⟨inner, place⟩, hinner, heq⟩ := Option.map_eq_some_iff.mp h
    simp only [Prod.mk.injEq] at heq
    obtain ⟨rfl, rfl⟩ := heq
    obtain ⟨raw, after, rfl, hbody, rfl⟩ := ih hinner
    refine ⟨c :: raw, after, rfl, .plain (by simpa using hmark) (by simpa using hescape) hbody, ?_⟩
    rw [List.length_cons, Cursor.mk.injEq]
    exact ⟨by omega, rfl⟩

theorem readQuoted_complete {mark : Char} {raw tag : Text} (hmark : backslash ≠ mark)
    (h : QuotedBody mark raw tag) (pos : Nat) (after : Text) :
    readQuoted mark pos (raw ++ mark :: after) = some (tag, ⟨pos + raw.length + 1, after⟩) := by
  induction h generalizing pos with
  | nil => exact readQuoted_mark pos after
  | @plain c raw tag hne hescape _ ih =>
    have hplace : pos + 1 + raw.length + 1 = pos + (c :: raw).length + 1 := by
      rw [List.length_cons]
      omega
    rw [List.cons_append, readQuoted_plain hne hescape, ih, hplace, Option.map_some]
  | @escaped c raw tag _ ih =>
    have hplace : pos + 2 + raw.length + 1 = pos + (backslash :: c :: raw).length + 1 := by
      rw [List.length_cons, List.length_cons]
      omega
    rw [List.cons_append, List.cons_append, readQuoted_escaped hmark, ih, hplace, Option.map_some]

/-! ## Every tag can be quoted -/

theorem quotedBody_escape (mark : Char) (tag : Text) : QuotedBody mark (escape mark tag) tag := by
  induction tag with
  | nil => exact .nil
  | cons c tag ih =>
    by_cases hc : c = backslash ∨ c = mark
    · have hescape : escape mark (c :: tag) = backslash :: c :: escape mark tag := by
        simp [escape, hc]
      rw [hescape]
      exact .escaped ih
    · have hescape : escape mark (c :: tag) = c :: escape mark tag := by
        simp [escape, hc]
      rw [not_or] at hc
      rw [hescape]
      exact .plain hc.2 hc.1 ih

theorem written_quote {mark : Char} (hmark : isQuote mark = true) (tag : Text) :
    Written (quote mark tag) tag :=
  .quoted hmark (quotedBody_escape mark tag)

/-! ## The reader accepts the written tags -/

private theorem startsIdentifier_of_isQuote {mark : Char} {rest : Text}
    (h : isQuote mark = true) : startsIdentifier (mark :: rest) = false := by
  rcases isQuote_iff.mp h with rfl | rfl <;> rfl

private theorem readPlain_eq_ok_iff (pos : Nat) {t tag : Text} :
    readPlain ⟨pos, t⟩ = .ok tag ↔
      startsIdentifier t = true ∧ (∀ c ∈ t, isTagChar c = true) ∧ t = tag := by
  have hall : ((Cursor.mk pos t).skipWhile isTagChar).rest = [] ↔
      ∀ c ∈ t, isTagChar c = true := by
    rw [Cursor.rest_skipWhile, dropWhile_eq_nil_iff]
  unfold readPlain
  split
  · next hstart =>
    split
    · next hend =>
      exact ⟨fun h => ⟨hstart, hall.mp hend, Except.ok.inj h⟩, fun h => congrArg _ h.2.2⟩
    · next hend => simp [mt hall.mpr hend]
  · next hstart => simp [hstart]

/-- The reader accepts the written tags and nothing else. -/
theorem read_eq_ok_iff (pos : Nat) {t tag : Text} :
    read ⟨pos, t⟩ = .ok tag ↔ Written t tag := by
  constructor
  · intro h
    unfold read at h
    dsimp only at h
    split at h
    · obtain ⟨hstart, -, -⟩ := (readPlain_eq_ok_iff pos).mp h
      cases hstart
    · next mark rest _ =>
      split at h
      · next hmark =>
        split at h
        · cases h
        · next found place hread =>
          obtain ⟨raw, after, rfl, hbody, rfl⟩ := readQuoted_sound hread
          split at h
          · next hend =>
            obtain rfl : after = [] := hend
            obtain rfl : found = tag := by simpa using h
            exact .quoted hmark hbody
          · cases h
      · obtain ⟨hstart, hall, rfl⟩ := (readPlain_eq_ok_iff pos).mp h
        exact .plain hstart hall
  · intro h
    cases h with
    | plain hstart hall =>
      have hplain := (readPlain_eq_ok_iff pos).mpr ⟨hstart, hall, rfl⟩
      cases t with
      | nil => cases hstart
      | cons c rest =>
        have hquote : isQuote c = false := by
          cases hc : isQuote c with
          | false => rfl
          | true => rw [startsIdentifier_of_isQuote hc] at hstart; cases hstart
        simpa [read, hquote] using hplain
    | @quoted mark raw tag hmark hbody =>
      have hread := readQuoted_complete (ne_backslash_of_isQuote hmark) hbody (pos + 1) []
      simp [read, hmark, hread]

theorem not_written_nil {tag : Text} : ¬ Written [] tag := by
  intro h
  cases h with
  | plain hstart _ => cases hstart

/-- Blanks around a tag do not belong to it; apart from them it has to be a written one. -/
theorem parse_eq_ok_iff {name v tag : Text} {context : Option Context} :
    parse name (some v) context = .ok tag ↔ Written v.trimEnd.dropBlanks tag := by
  unfold parse
  dsimp only
  split
  · next hblank =>
    have hnil : v.trimEnd = [] := trimEnd_append_blanks (t := []) hblank
    simp [hnil, not_written_nil]
  · obtain ⟨pos, hplace⟩ : ∃ pos, (Cursor.ofText v.trimEnd).skipBlanks =
        ⟨pos, v.trimEnd.dropBlanks⟩ := ⟨_, rfl⟩
    rw [hplace, ← read_eq_ok_iff pos]
    split
    · next hread => simp [hread]
    · next hread => simp [hread]

/-! ## Written tags and the lexer -/

private theorem scan_quotedBody {mark : Char} {raw tag : Text} (hmark : backslash ≠ mark)
    (h : QuotedBody mark raw tag) (depth pos : Nat) (rest : Text) :
    scan depth (some mark) pos (raw ++ mark :: rest) =
      passingAll (raw ++ [mark]) (scan depth none (pos + raw.length + 1) rest) := by
  induction h generalizing pos with
  | nil => exact scan_mark hmark.symm
  | @plain c raw tag hne hescape _ ih =>
    have hplace : pos + 1 + raw.length + 1 = pos + (c :: raw).length + 1 := by
      rw [List.length_cons]
      omega
    rw [List.cons_append, scan_quoted hescape hne, ih, hplace, List.cons_append, passingAll_cons]
  | @escaped c raw tag _ ih =>
    have hplace : pos + 2 + raw.length + 1 = pos + (backslash :: c :: raw).length + 1 := by
      rw [List.length_cons, List.length_cons]
      omega
    rw [List.cons_append, List.cons_append, scan_escaped, ih, hplace, List.cons_append,
      List.cons_append, passingAll_cons, passingAll_cons]

private theorem isInert_of_isTagChar {c : Char} (h : isTagChar c = true) : isInert c = true :=
  isInert_of isTagChar h (by decide)

namespace Written

variable {t tag : Text}

/-- The lexer passes over a written tag. -/
theorem balanced (h : Written t tag) : Balanced t := by
  cases h with
  | plain _ hall => exact .of_inert fun c hc => isInert_of_isTagChar (hall c hc)
  | @quoted mark raw tag hmark hbody =>
    intro depth pos rest
    have hplace : pos + 1 + raw.length + 1 = pos + (mark :: (raw ++ [mark])).length := by
      simp only [List.length_cons, List.length_append, List.length_nil]
      omega
    rw [List.cons_append, scan_quote hmark, List.append_assoc, List.singleton_append,
      scan_quotedBody (ne_backslash_of_isQuote hmark) hbody, hplace, passingAll_cons]

private theorem isBlank_of_isTagChar {c : Char} (h : isTagChar c = true) : isBlank c = false :=
  isBlank_eq_false_of isTagChar h (by decide)

private theorem isBlank_of_isQuote {c : Char} (h : isQuote c = true) : isBlank c = false :=
  isBlank_eq_false_of isQuote h (by decide)

/-- No blank stands at either end of a written tag. -/
theorem solid (h : Written t tag) : Solid t := by
  cases h with
  | plain hstart hall =>
    refine ⟨?_, ?_, ?_⟩
    · rintro rfl
      cases hstart
    · intro c hc
      exact isBlank_of_isTagChar (hall c (List.mem_of_head? hc))
    · intro c hc
      exact isBlank_of_isTagChar (hall c (List.mem_of_getLast? hc))
  | @quoted mark raw tag hmark _ =>
    have hblank := isBlank_of_isQuote hmark
    refine ⟨by simp, by simpa using hblank, ?_⟩
    intro c hc
    rw [← List.cons_append, List.getLast?_concat, Option.mem_some_iff] at hc
    rwa [← hc]

end Written

end SelectorCheck.LanguageTag
