import Mathlib.Logic.ExistsUnique
import SelectorCheck.Proofs.Access.Argument
import SelectorCheck.Proofs.Selector.Argument

/-!
# What every text comes to as a language tag

A text that is not written for a tag is written for none only from some place on: a
quotation that nothing closes and a text that no identifier begins are wrong from
their first character, and otherwise the place is that of the first character that is
too much. This file says where the place is without running the reader, and shows that
the reader stops there. With the written tags that leaves nothing open about what it
makes of a text.

## Main definitions

* `LanguageTag.OpensIdentifier` — the beginning of a text is that of an identifier.
* `LanguageTag.BreaksOff` — the place from which on a text is no tag.

## Main results

* `LanguageTag.written_iff` — the texts for a tag, character by character.
* `LanguageTag.read_eq_error_iff` — the reader stops where the text breaks off.
* `LanguageTag.build_exact` — what building the function comes to.
-/

namespace SelectorCheck.LanguageTag

open Text

/-- The text begins with a letter of tags, or with a hyphen that such a letter or another hyphen
follows. -/
inductive OpensIdentifier : Text → Prop where
  | letter {c : Char} (hc : isTagLetter c = true) (rest : Text) : OpensIdentifier (c :: rest)
  | hyphen {c : Char} (hc : c = '-' ∨ isTagLetter c = true) (rest : Text) :
      OpensIdentifier ('-' :: c :: rest)

/-- From its offset `k` on the text `t` is no tag. -/
inductive BreaksOff : (t : Text) → (k : Nat) → Prop where
  /-- A quotation without an end. -/
  | unclosed {mark : Char} {rest : Text} (hmark : isQuote mark = true)
      (hopen : ∀ raw tag after, QuotedBody mark raw tag → rest ≠ raw ++ mark :: after) :
      BreaksOff (mark :: rest) 0
  /-- A quotation with something behind it. -/
  | behind {mark : Char} {raw tag : Text} (hmark : isQuote mark = true)
      (h : QuotedBody mark raw tag) (c : Char) (after : Text) :
      BreaksOff (mark :: (raw ++ mark :: c :: after)) (raw.length + 2)
  /-- Neither a quotation nor the beginning of an identifier. -/
  | unopened {t : Text} (hquote : ∀ c ∈ t.head?, isQuote c = false) (hopens : ¬ OpensIdentifier t) :
      BreaksOff t 0
  /-- An identifier with something behind it. -/
  | stray {front after : Text} {c : Char} (hopens : OpensIdentifier (front ++ c :: after))
      (hfront : ∀ d ∈ front, isTagChar d = true) (hc : isTagChar c = false) :
      BreaksOff (front ++ c :: after) front.length

variable {t : Text}

theorem opensIdentifier_iff : OpensIdentifier t ↔ startsIdentifier t = true := by
  constructor
  · intro h
    cases h with
    | @letter c hc rest =>
      have hhyphen : (c == '-') = false := by
        rw [Bool.eq_false_iff]
        intro heq
        rw [beq_iff_eq.mp heq] at hc
        exact absurd hc (by decide)
      rw [startsIdentifier, hhyphen]
      exact hc
    | @hyphen c hc rest =>
      simpa [startsIdentifier] using hc
  · intro h
    cases t with
    | nil => cases h
    | cons c rest =>
      rw [startsIdentifier] at h
      by_cases hhyphen : (c == '-') = true
      · obtain rfl : c = '-' := beq_iff_eq.mp hhyphen
        cases rest with
        | nil => cases h
        | cons d rest => exact .hyphen (by simpa using h) rest
      · rw [if_neg hhyphen] at h
        exact .letter h rest

/-- A tag is written as an identifier, or as a quotation that ends where the text does. -/
theorem written_iff {tag : Text} : Written t tag ↔
    (OpensIdentifier t ∧ (∀ c ∈ t, isTagChar c = true) ∧ tag = t) ∨
      ∃ mark raw, isQuote mark = true ∧ t = mark :: (raw ++ [mark]) ∧ QuotedBody mark raw tag := by
  constructor
  · intro h
    cases h with
    | plain hstart hall => exact .inl ⟨opensIdentifier_iff.mpr hstart, hall, rfl⟩
    | quoted hmark hbody => exact .inr ⟨_, _, hmark, rfl, hbody⟩
  · rintro (⟨hopens, hall, rfl⟩ | ⟨mark, raw, hmark, rfl, hbody⟩)
    · exact .plain (opensIdentifier_iff.mp hopens) hall
    · exact .quoted hmark hbody

/-! ## Where the reader stops -/

theorem readQuoted_eq_none_iff {mark : Char} (hmark : backslash ≠ mark) (pos : Nat) :
    readQuoted mark pos t = none ↔
      ∀ raw tag after, QuotedBody mark raw tag → t ≠ raw ++ mark :: after := by
  constructor
  · rintro hread raw tag after hbody rfl
    rw [readQuoted_complete hmark hbody] at hread
    cases hread
  · intro hopen
    rw [Option.eq_none_iff_forall_ne_some]
    rintro ⟨tag, place⟩ hread
    obtain ⟨raw, after, ht, hbody, -⟩ := readQuoted_sound hread
    exact hopen raw tag after hbody ht

private theorem readPlain_breaksOff (hquote : ∀ c ∈ t.head?, isQuote c = false) {pos : Nat}
    {place : Cursor} (h : readPlain ⟨pos, t⟩ = .error place) :
    ∃ k, BreaksOff t k ∧ place = ⟨pos + k, t.drop k⟩ := by
  unfold readPlain at h
  split at h
  · next hstart =>
    obtain ⟨front, rest, rfl, hrun⟩ := Run.of_text isTagChar t
    rw [Cursor.skipWhile_run hrun] at h
    split at h
    · cases h
    · next hrest =>
      obtain ⟨c, after, rfl⟩ := List.exists_cons_of_ne_nil hrest
      cases h
      refine ⟨front.length, .stray (opensIdentifier_iff.mpr hstart) hrun.all (hrun.stops c rfl), ?_⟩
      rw [List.drop_left]
  · next hstart =>
    cases h
    exact ⟨0, .unopened hquote (mt opensIdentifier_iff.mp hstart), rfl⟩

private theorem read_breaksOff {pos : Nat} {place : Cursor} (h : read ⟨pos, t⟩ = .error place) :
    ∃ k, BreaksOff t k ∧ place = ⟨pos + k, t.drop k⟩ := by
  cases t with
  | nil => exact readPlain_breaksOff (by simp) h
  | cons mark rest =>
    simp only [read] at h
    split at h
    · next hmark =>
      split at h
      · next hnone =>
        cases h
        have hopen := (readQuoted_eq_none_iff (ne_backslash_of_isQuote hmark) _).mp hnone
        exact ⟨0, .unclosed hmark hopen, rfl⟩
      · next tag behind hread =>
        obtain ⟨raw, after, rfl, hbody, rfl⟩ := readQuoted_sound hread
        split at h
        · cases h
        · next hafter =>
          obtain ⟨c, after, rfl⟩ := List.exists_cons_of_ne_nil hafter
          cases h
          refine ⟨raw.length + 2, .behind hmark hbody c after, ?_⟩
          rw [Cursor.mk.injEq]
          refine ⟨by omega, ?_⟩
          simp [List.drop_append]
    · next hmark => exact readPlain_breaksOff (by simpa using hmark) h

private theorem isQuote_of_opensIdentifier (h : OpensIdentifier t) :
    ∀ c ∈ t.head?, isQuote c = false := by
  intro c hc
  rw [Bool.eq_false_iff]
  intro hquote
  cases h with
  | letter hletter =>
    cases hc
    rcases isQuote_iff.mp hquote with rfl | rfl <;> exact absurd hletter (by decide)
  | hyphen =>
    cases hc
    exact absurd hquote (by decide)

private theorem read_of_not_isQuote (hquote : ∀ c ∈ t.head?, isQuote c = false) (pos : Nat) :
    read ⟨pos, t⟩ = readPlain ⟨pos, t⟩ := by
  cases t with
  | nil => rfl
  | cons c rest =>
    have hc : isQuote c = false := hquote c rfl
    simp [read, hc]

namespace BreaksOff

variable {k : Nat}

private theorem read_eq (h : BreaksOff t k) (pos : Nat) :
    read ⟨pos, t⟩ = .error ⟨pos + k, t.drop k⟩ := by
  cases h with
  | @unclosed mark rest hmark hopen =>
    have hread := (readQuoted_eq_none_iff (ne_backslash_of_isQuote hmark) (pos + 1)).mpr hopen
    simp [read, hmark, hread]
  | @behind mark raw tag hmark hbody c after =>
    have hread := readQuoted_complete (ne_backslash_of_isQuote hmark) hbody (pos + 1) (c :: after)
    have hplace : pos + 1 + raw.length + 1 = pos + (raw.length + 2) := by omega
    simp [read, hmark, hread, hplace, List.drop_append]
  | unopened hquote hopens =>
    have hstart : startsIdentifier t = false :=
      Bool.eq_false_iff.mpr (mt opensIdentifier_iff.mpr hopens)
    rw [read_of_not_isQuote hquote, readPlain, hstart]
    rfl
  | @stray front after c hopens hfront hc =>
    have hrun : Run isTagChar front (c :: after) := ⟨hfront, by simpa using hc⟩
    rw [read_of_not_isQuote (isQuote_of_opensIdentifier hopens), readPlain,
      opensIdentifier_iff.mp hopens, Cursor.skipWhile_run hrun, List.drop_left]
    rfl

/-- A character stands where a text breaks off, unless the text is empty. -/
theorem lt_length (h : BreaksOff t k) (hne : t ≠ []) : k < t.length := by
  cases h with
  | unclosed => exact Nat.zero_lt_succ _
  | behind => simp only [List.length_cons, List.length_append]; omega
  | unopened => exact List.length_pos_iff.mpr hne
  | stray => simp only [List.length_cons, List.length_append]; omega

end BreaksOff

/-- The reader stops where the text breaks off, with the rest of the text ahead of it. -/
theorem read_eq_error_iff {pos : Nat} {place : Cursor} :
    read ⟨pos, t⟩ = .error place ↔ ∃ k, BreaksOff t k ∧ place = ⟨pos + k, t.drop k⟩ := by
  refine ⟨read_breaksOff, ?_⟩
  rintro ⟨k, hbreaks, rfl⟩
  exact hbreaks.read_eq pos

theorem BreaksOff.unique {k k' : Nat} (h : BreaksOff t k) (h' : BreaksOff t k') : k = k' := by
  have hplace := (h.read_eq 0).symm.trans (h'.read_eq 0)
  simp only [Except.error.injEq, Cursor.mk.injEq, Nat.zero_add] at hplace
  exact hplace.1

/-- A text is written for no tag exactly if it breaks off, and then at one place only. -/
theorem not_written_iff : (∀ tag, ¬ Written t tag) ↔ ∃! k, BreaksOff t k := by
  constructor
  · intro hnone
    cases hread : read ⟨0, t⟩ with
    | ok tag => exact absurd ((read_eq_ok_iff 0).mp hread) (hnone tag)
    | error place =>
      obtain ⟨k, hbreaks, -⟩ := read_eq_error_iff.mp hread
      exact ⟨k, hbreaks, fun k' hbreaks' => hbreaks'.unique hbreaks⟩
  · rintro ⟨k, hbreaks, -⟩ tag hwritten
    have hread := (read_eq_ok_iff 0).mpr hwritten
    rw [hbreaks.read_eq] at hread
    cases hread

/-! ## What the function comes to -/

section Building

variable {v : Text} {context : Option Context}

/-- Behind the blanks in front stands what is left of an argument when the blanks at its ends are cut
off. -/
private theorem skipBlanks_trimEnd (hv : v.allBlank = false) :
    (Cursor.ofText v.trimEnd).skipBlanks = ⟨(v.takeWhile isBlank).length, v.trim⟩ := by
  have hsplit := congrArg List.length (List.takeWhile_append_dropWhile (p := isBlank) (l := v))
  have hstart : v.length - v.dropBlanks.length = (v.takeWhile isBlank).length := by
    rw [List.length_append] at hsplit
    rw [dropBlanks]
    omega
  rw [Access.skipBlanks_trimEnd hv, hstart]

private theorem trim_eq_drop (hv : v.allBlank = false) :
    v.trim = v.trimEnd.drop (v.takeWhile isBlank).length := by
  have hin : (Cursor.ofText v.trimEnd).skipBlanks.In v.trimEnd :=
    (Cursor.In.ofText v.trimEnd).skipWhile isBlank
  rw [skipBlanks_trimEnd hv] at hin
  exact hin.symm

/-- Where an argument is wrong there is a character of it, and the error quotes all that is left from
there on. -/
theorem BreaksOff.in_argument {k : Nat} (hv : v.allBlank = false) (h : BreaksOff v.trim k) :
    (v.takeWhile isBlank).length + k < v.length ∧
      v.trim.drop k = v.trimEnd.drop ((v.takeWhile isBlank).length + k) := by
  have hne : v.trim ≠ [] := by
    intro hnil
    rw [trim_eq_nil_iff, hv] at hnil
    cases hnil
  have hlt := h.lt_length hne
  have hend := length_trimEnd_le v
  rw [trim_eq_drop hv, List.length_drop] at hlt
  constructor
  · omega
  · rw [trim_eq_drop hv, List.drop_drop]

/-- The place is counted from the beginning of the argument, blanks included. -/
theorem parse_eq_error_iff {name : Text} {e : SelectorError} (hv : v.allBlank = false) :
    parse name (some v) context = .error e ↔
      ∃ k, BreaksOff v.trim k ∧
        e = breakOff name v context ⟨(v.takeWhile isBlank).length + k, v.trim.drop k⟩ := by
  simp only [parse, hv, Bool.false_eq_true, if_false, skipBlanks_trimEnd hv]
  split
  · next tag hread =>
    refine iff_of_false (by simp) ?_
    rintro ⟨k, hbreaks, -⟩
    rw [hbreaks.read_eq] at hread
    cases hread
  · next place hread =>
    obtain ⟨k, hbreaks, rfl⟩ := read_eq_error_iff.mp hread
    constructor
    · intro h
      exact ⟨k, hbreaks, (Except.error.inj h).symm⟩
    · rintro ⟨k', hbreaks', rfl⟩
      rw [hbreaks.unique hbreaks']

private theorem result_build : (PseudoFunction.build (some FunctionKind.lang.name) (some v)
    context).result = ((Traced.ofExcept (parse FunctionKind.lang.name (some v) context)).map
      fun tag => (⟨FunctionKind.lang.name, v, .plain (.language tag)⟩ : PseudoFunction)).result :=
  result_buildWith_name _ .lang (some v) context

/-- A function is built for the tag that is written in its argument. -/
theorem build_eq_ok_iff {f : PseudoFunction} (hv : v.allBlank = false) :
    (PseudoFunction.build (some FunctionKind.lang.name) (some v) context).result = .ok f ↔
      ∃ tag, Written v.trim tag ∧ f = ⟨FunctionKind.lang.name, v, .plain (.language tag)⟩ := by
  have htrim : v.trimEnd.dropBlanks = v.trim := congrArg Cursor.rest (skipBlanks_trimEnd hv)
  rw [result_build, Traced.result_map_eq_ok_iff]
  apply exists_congr
  intro tag
  rw [Traced.result_ofExcept_eq_ok_iff, parse_eq_ok_iff, htrim, eq_comm (b := f)]

/-- The argument is rejected where what is left of it breaks off. -/
theorem build_eq_error_iff {failure : Failure} (hv : v.allBlank = false) :
    (PseudoFunction.build (some FunctionKind.lang.name) (some v) context).result =
        .error failure ↔
      ∃ k, BreaksOff v.trim k ∧ failure = .ofError (breakOff FunctionKind.lang.name v context
        ⟨(v.takeWhile isBlank).length + k, v.trim.drop k⟩) := by
  rw [result_build]
  constructor
  · intro h
    obtain ⟨e, he, rfl⟩ :=
      Traced.result_ofExcept_eq_error_iff.mp (Traced.result_of_map_error h)
    obtain ⟨k, hbreaks, rfl⟩ := (parse_eq_error_iff hv).mp he
    exact ⟨k, hbreaks, rfl⟩
  · rintro ⟨k, hbreaks, rfl⟩
    rw [(parse_eq_error_iff hv).mpr ⟨k, hbreaks, rfl⟩]
    rfl

end Building

/-- What is missing or blank is missing input. Of any other argument, once the blanks at its ends are
cut off, the function is the one for the tag that is written there. If none is, the argument is wrong
from the place on where what is left of it breaks off, and there is such a place. -/
theorem build_exact (context : Option Context) :
    (∀ value : Option Text, (∀ v ∈ value, v.allBlank = true) →
      (PseudoFunction.build (some FunctionKind.lang.name) value context).result =
          .error (.ofError (.missingArgument FunctionKind.lang.name value context)) ∧
        (SelectorError.missingArgument FunctionKind.lang.name value context).errorClass =
          .missingInput) ∧
    (∀ v : Text, v.allBlank = false →
      (∀ f, (PseudoFunction.build (some FunctionKind.lang.name) (some v) context).result = .ok f ↔
        ∃ tag, Written v.trim tag ∧ f = ⟨FunctionKind.lang.name, v, .plain (.language tag)⟩) ∧
      ((∀ tag, ¬ Written v.trim tag) →
        ∃ k p, BreaksOff v.trim k ∧ p = (v.takeWhile isBlank).length + k ∧ p < v.length ∧
          ∃ e, (PseudoFunction.build (some FunctionKind.lang.name) (some v) context).result =
              .error (.ofError e) ∧
            e = { code := .invalidLang, name := some FunctionKind.lang.name, value := some v,
                  token := some (v.trimEnd.drop p), position := some p, context := context } ∧
            e.errorClass = .argumentSyntax)) ∧
    (∀ t tag : Text, Written t tag ↔
      (OpensIdentifier t ∧ (∀ c ∈ t, isTagChar c = true) ∧ tag = t) ∨
        ∃ mark raw, isQuote mark = true ∧ t = mark :: (raw ++ [mark]) ∧ QuotedBody mark raw tag) ∧
    ∀ t : Text, (∀ tag, ¬ Written t tag) ↔ ∃! k, BreaksOff t k := by
  refine ⟨?missing, ?there, fun t tag => written_iff, fun t => not_written_iff⟩
  case missing =>
    intro value hblank
    exact ⟨PseudoFunction.build_missing context .lang hblank, rfl⟩
  case there =>
    intro v hv
    refine ⟨fun f => build_eq_ok_iff hv, fun hnone => ?_⟩
    cases hresult : (PseudoFunction.build (some FunctionKind.lang.name) (some v) context).result with
    | ok f =>
      obtain ⟨tag, hwritten, -⟩ := (build_eq_ok_iff hv).mp hresult
      exact absurd hwritten (hnone tag)
    | error failure =>
      obtain ⟨k, hbreaks, rfl⟩ := (build_eq_error_iff hv).mp hresult
      obtain ⟨hlt, hdrop⟩ := hbreaks.in_argument hv
      refine ⟨k, _, hbreaks, rfl, hlt, _, rfl, ?_, rfl⟩
      rw [← hdrop]
      rfl

/-- Blanks alone, a tag with blanks around it, and a quotation with something behind it. -/
theorem build_exact_of_blanks :
    (PseudoFunction.build (some FunctionKind.lang.name) (some " ".toList) none).result =
        .error (.ofError (.missingArgument FunctionKind.lang.name (some " ".toList) none)) ∧
      (PseudoFunction.build (some FunctionKind.lang.name) (some " -a ".toList) none).result =
        .ok ⟨FunctionKind.lang.name, " -a ".toList, .plain (.language "-a".toList)⟩ ∧
      ∃ e, (PseudoFunction.build (some FunctionKind.lang.name) (some " 'a' b ".toList) none).result =
          .error (.ofError e) ∧
        e.code = .invalidLang ∧ e.token = some " b".toList ∧ e.position = some 4 := by
  obtain ⟨hmissing, hthere, hwritten, hnone⟩ := build_exact none
  refine ⟨(hmissing (some " ".toList) (by decide)).1, ?plain, ?quoted⟩
  case plain =>
    apply ((hthere " -a ".toList (by decide)).1 _).mpr
    have hall : ∀ c ∈ "-a".toList, isTagChar c = true := List.all_eq_true.mp rfl
    exact ⟨_, (hwritten _ _).mpr (.inl ⟨.hyphen (.inr rfl) [], hall, rfl⟩), rfl⟩
  case quoted =>
    have hbehind : BreaksOff ("'a' b".toList) 3 :=
      .behind rfl (.plain (c := 'a') (by decide) (by decide) .nil) ' ' ['b']
    obtain ⟨k, p, hbreaks, rfl, -, e, hresult, rfl, -⟩ :=
      (hthere " 'a' b ".toList (by decide)).2
        ((hnone _).mpr ⟨3, hbehind, fun k hbreaks => hbreaks.unique hbehind⟩)
    obtain rfl : k = 3 := hbreaks.unique hbehind
    exact ⟨_, hresult, rfl, rfl, rfl⟩

end SelectorCheck.LanguageTag
