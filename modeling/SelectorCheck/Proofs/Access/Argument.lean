import SelectorCheck.Proofs.Access.Reading
import SelectorCheck.Proofs.Argument.Place

/-!
# Argument readers by position

Both grammars of plain arguments ask for the first character that is no blank
without a look at the length. It is there because an argument of blanks is
rejected before. The reader of expressions converts runs of digits, and a run
that is too long makes the conversion fail; the reader notices and reports it.

An argument is blanks, a part with no blank at its ends, and blanks. The reader
of language tags goes by positions of the whole and stops where that part stops,
while `LanguageTag.read` goes through that part only.

## Main definitions

* `Access.languageTag` — the language tag in an argument.
* `Access.toNat` — a conversion that may fail.
* `Access.expression` — the expression `an+b` in an argument.

## Main results

* `Access.languageTag_eq`, `Access.expression_eq` — the readers by position come
  to what the readers from the front come to.
-/

namespace SelectorCheck.Access

open Reading Text

/-! ## Language tags -/

/-- The characters up to a closing mark before `stop`, and the position of the mark. Where there is
none it is `stop` or a position behind it. -/
def quotedTag (v : Text) (stop : Nat) (mark : Char) (pos : Nat) : Reading (Text × Nat) :=
  if pos < stop then do
    let c ← elem v pos
    if c = mark then return ([], pos)
    else if c = backslash ∧ pos + 1 < stop then
      let d ← elem v (pos + 1)
      let (tag, last) ← quotedTag v stop mark (pos + 2)
      return (d :: tag, last)
    else
      let (tag, last) ← quotedTag v stop mark (pos + 1)
      return (c :: tag, last)
  else return ([], pos)
termination_by stop - pos

/-- Whether an identifier begins at a position. A hyphen needs a character before `stop`. -/
def startsIdentifier (v : Text) (pos stop : Nat) : Reading Bool := do
  let c ← elem v pos
  if c = '-' then
    if pos + 1 < stop then
      let d ← elem v (pos + 1)
      return d == '-' || isTagLetter d
    else return false
  else return isTagLetter c

/-- The plain tag between the positions `start` and `stop`, or the position of what does not belong
to it. -/
def plainTag (v : Text) (start stop : Nat) : Reading (Except Nat Text) := do
  let last ← skipWhile isTagChar v stop start
  if last = start then return .error start
  else
    let begins ← startsIdentifier v start stop
    if !begins then return .error start
    else if last ≠ stop then return .error last
    else return .ok (slice v start stop)

/-- The tag between the positions `start` and `stop`, plain or quoted. -/
def tagBetween (v : Text) (start stop : Nat) : Reading (Except Nat Text) := do
  let first ← elem v start
  if isQuote first then
    let (tag, last) ← quotedTag v stop first (start + 1)
    if stop ≤ last then return .error start
    else if last + 1 ≠ stop then return .error (last + 1)
    else return .ok tag
  else plainTag v start stop

/-- The language tag in the argument of the function `name`. -/
def languageTag (name : Text) (value : Option Text) (context : Option Context) : Reading Text :=
  match value with
  | none => fail (.missingArgument name none context)
  | some v =>
    if v.trim = [] then fail (.missingArgument name (some v) context)
    else do
      let stop := v.trimEnd.length
      let tag ← tagBetween v (v.length - v.dropBlanks.length) stop
      match tag with
      | .ok tag => return tag
      | .error pos =>
        fail { code := .invalidLang, name := some name, value := some v,
               token := some (slice v pos stop), position := some pos, context := context }

section LanguageTag

variable {v u rest tag : Text} {c : Cursor} {pos last : Nat} {mark ch d : Char}

/-! ### Quoted tags -/

private theorem quotedTag_nil (h : (Cursor.mk pos []).In u) :
    quotedTag v u.length mark pos = .ok ([], pos) := by
  rw [quotedTag, if_neg h.not_pos_lt]
  rfl

private theorem quotedTag_mark (hu : u <+: v) (h : (Cursor.mk pos (mark :: rest)).In u) :
    quotedTag v u.length mark pos = .ok ([], pos) := by
  rw [quotedTag, if_pos h.pos_lt, elem_of_prefix hu h, bind_ok, if_pos rfl]
  rfl

private theorem quotedTag_escaped (hu : u <+: v) (hmark : backslash ≠ mark)
    (h : (Cursor.mk pos (backslash :: d :: rest)).In u)
    (htag : quotedTag v u.length mark (pos + 2) = .ok (tag, last)) :
    quotedTag v u.length mark pos = .ok (d :: tag, last) := by
  rw [quotedTag, if_pos h.pos_lt, elem_of_prefix hu h, bind_ok, if_neg hmark,
    if_pos ⟨rfl, h.of_cons.pos_lt⟩, elem_of_prefix hu h.of_cons, bind_ok, htag]
  rfl

private theorem quotedTag_plain (hu : u <+: v) (hmark : ch ≠ mark)
    (hescape : ch = backslash → rest = []) (h : (Cursor.mk pos (ch :: rest)).In u)
    (htag : quotedTag v u.length mark (pos + 1) = .ok (tag, last)) :
    quotedTag v u.length mark pos = .ok (ch :: tag, last) := by
  have hlast : ¬ (ch = backslash ∧ pos + 1 < u.length) := by
    rintro ⟨hch, hlt⟩
    obtain rfl := hescape hch
    exact h.of_cons.not_pos_lt hlt
  rw [quotedTag, if_pos h.pos_lt, elem_of_prefix hu h, bind_ok, if_neg hmark, if_neg hlast, htag]
  rfl

theorem quotedTag_of_some {place : Cursor} (hu : u <+: v) (h : (Cursor.mk pos rest).In u)
    (hread : LanguageTag.readQuoted mark pos rest = some (tag, place)) :
    ∃ last, quotedTag v u.length mark pos = .ok (tag, last) ∧ last < u.length ∧ place.In u ∧
      place.pos = last + 1 := by
  fun_induction LanguageTag.readQuoted mark pos rest generalizing tag place with
  | case1 | case3 => cases hread
  | case2 pos ch rest hmark =>
    obtain rfl : ch = mark := beq_iff_eq.mp hmark
    cases hread
    exact ⟨pos, quotedTag_mark hu h, h.pos_lt, h.of_cons, rfl⟩
  | case4 pos ch hmark hescape d rest ih =>
    obtain rfl : ch = backslash := beq_iff_eq.mp hescape
    obtain ⟨⟨others, place⟩, hothers, heq⟩ := Option.map_eq_some_iff.mp hread
    obtain ⟨last, htag, hplace⟩ := ih (h.skip 2) hothers
    cases heq
    exact ⟨last, quotedTag_escaped hu (by simpa using hmark) h htag, hplace⟩
  | case5 pos ch rest hmark hescape ih =>
    obtain ⟨⟨others, place⟩, hothers, heq⟩ := Option.map_eq_some_iff.mp hread
    obtain ⟨last, htag, hplace⟩ := ih h.of_cons hothers
    cases heq
    refine ⟨last, quotedTag_plain hu (by simpa using hmark) ?_ h htag, hplace⟩
    exact fun hch => absurd (beq_iff_eq.mpr hch) hescape

theorem quotedTag_of_none (hu : u <+: v) (h : (Cursor.mk pos rest).In u)
    (hread : LanguageTag.readQuoted mark pos rest = none) :
    ∃ tag last, quotedTag v u.length mark pos = .ok (tag, last) ∧ u.length ≤ last := by
  fun_induction LanguageTag.readQuoted mark pos rest with
  | case1 pos => exact ⟨[], pos, quotedTag_nil h, Nat.le_of_not_lt h.not_pos_lt⟩
  | case2 => cases hread
  | case3 pos ch hmark hescape =>
    -- A backslash at the end escapes nothing and counts as a character.
    refine ⟨[ch], pos + 1, quotedTag_plain hu (by simpa using hmark) (fun _ => rfl) h ?_, ?_⟩
    · exact quotedTag_nil h.of_cons
    · exact Nat.le_of_not_lt h.of_cons.not_pos_lt
  | case4 pos ch hmark hescape d rest ih =>
    obtain rfl : ch = backslash := beq_iff_eq.mp hescape
    obtain ⟨tag, last, htag, hlast⟩ := ih (h.skip 2) (Option.map_eq_none_iff.mp hread)
    exact ⟨d :: tag, last, quotedTag_escaped hu (by simpa using hmark) h htag, hlast⟩
  | case5 pos ch rest hmark hescape ih =>
    obtain ⟨tag, last, htag, hlast⟩ := ih h.of_cons (Option.map_eq_none_iff.mp hread)
    refine ⟨ch :: tag, last, quotedTag_plain hu (by simpa using hmark) ?_ h htag, hlast⟩
    exact fun hch => absurd (beq_iff_eq.mpr hch) hescape

/-! ### Whole tags -/

theorem startsIdentifier_eq (hu : u <+: v) (h : (Cursor.mk pos (ch :: rest)).In u) :
    startsIdentifier v pos u.length = .ok (LanguageTag.startsIdentifier (ch :: rest)) := by
  rw [startsIdentifier, elem_of_prefix hu h, bind_ok, LanguageTag.startsIdentifier]
  by_cases hhyphen : ch = '-'
  · rw [if_pos hhyphen, if_pos (beq_iff_eq.mpr hhyphen)]
    cases rest with
    | nil => rw [if_neg h.of_cons.not_pos_lt]; rfl
    | cons d rest => rw [if_pos h.of_cons.pos_lt, elem_of_prefix hu h.of_cons]; rfl
  · rw [if_neg hhyphen, if_neg (by simpa using hhyphen)]
    rfl

theorem isTagChar_of_startsIdentifier (h : LanguageTag.startsIdentifier (ch :: rest) = true) :
    isTagChar ch = true := by
  rw [LanguageTag.startsIdentifier] at h
  by_cases hhyphen : (ch == '-') = true
  · simp [isTagChar, hhyphen]
  · rw [if_neg hhyphen] at h
    rw [isTagLetter, Bool.or_eq_true, Bool.or_eq_true] at h
    rw [isTagChar_eq_isNameChar, isNameChar, isNameStart]
    rcases h with (hletter | hline) | hbeyond
    · simp [hletter]
    · simp [hline]
    · simp [hbeyond]

/-- A piece of a text up to the end of a part in front is what lies ahead in that part. -/
theorem slice_of_prefix (hu : u <+: v) (h : c.In u) : slice v c.pos u.length = c.rest := by
  rw [slice, ← List.prefix_iff_eq_take.mp hu, h]

theorem plainTag_eq (hu : u <+: v) (h : (Cursor.mk pos (ch :: rest)).In u) :
    plainTag v pos u.length =
      .ok ((LanguageTag.readPlain ⟨pos, ch :: rest⟩).mapError Cursor.pos) := by
  have hskip : skipWhile isTagChar v u.length pos = _ := skipWhile_of_prefix isTagChar hu h
  have hend := (h.skipWhile isTagChar).rest_eq_nil_iff
    (h.pos_le_of_ahead (Nat.le_of_lt h.pos_lt) (.skipWhile isTagChar _))
  rw [plainTag, hskip, bind_ok, startsIdentifier_eq hu h, bind_ok, LanguageTag.readPlain]
  dsimp only
  cases hbegins : LanguageTag.startsIdentifier (ch :: rest) with
  | false =>
    rw [if_neg Bool.false_ne_true]
    by_cases hpast : ((Cursor.mk pos (ch :: rest)).skipWhile isTagChar).pos = pos
    · rw [if_pos hpast]
      rfl
    · rw [if_neg hpast]
      rfl
  | true =>
    have hpast : ((Cursor.mk pos (ch :: rest)).skipWhile isTagChar).pos ≠ pos := by
      simp [isTagChar_of_startsIdentifier hbegins]
    have hslice : slice v pos u.length = ch :: rest := slice_of_prefix hu h
    rw [if_neg hpast, if_pos rfl, hslice]
    by_cases hrest : ((Cursor.mk pos (ch :: rest)).skipWhile isTagChar).rest = []
    · rw [if_pos hrest, if_neg (not_not_intro (hend.mp hrest))]
      rfl
    · rw [if_neg hrest, if_pos (mt hend.mpr hrest)]
      rfl

/-- Reading between two positions reads the text between them. -/
theorem tagBetween_eq (hu : u <+: v) (h : c.In u) (hne : c.rest ≠ []) :
    tagBetween v c.pos u.length = .ok ((LanguageTag.read c).mapError Cursor.pos) := by
  obtain ⟨pos, rest⟩ := c
  obtain ⟨ch, rest, rfl⟩ := List.exists_cons_of_ne_nil hne
  rw [tagBetween, elem_of_prefix hu h, bind_ok, LanguageTag.read]
  dsimp only
  by_cases hquote : isQuote ch = true
  · rw [if_pos hquote, if_pos hquote]
    cases hread : LanguageTag.readQuoted ch (pos + 1) rest with
    | none =>
      obtain ⟨tag, last, htag, hlast⟩ := quotedTag_of_none hu h.of_cons hread
      rw [htag, bind_ok]
      dsimp only
      rw [if_pos hlast]
      rfl
    | some found =>
      obtain ⟨tag, place⟩ := found
      obtain ⟨last, htag, hlast, hplace, hpos⟩ := quotedTag_of_some hu h.of_cons hread
      have hend := hplace.rest_eq_nil_iff (by omega)
      rw [htag, bind_ok]
      dsimp only
      rw [if_neg (Nat.not_le_of_lt hlast), ← hpos]
      by_cases hrest : place.rest = []
      · rw [if_neg (not_not_intro (hend.mp hrest)), if_pos hrest]
        rfl
      · rw [if_pos (mt hend.mpr hrest), if_neg hrest]
        rfl
  · rw [if_neg hquote, if_neg hquote]
    exact plainTag_eq hu h

/-- Behind the leading blanks stands what trimming leaves. -/
theorem skipBlanks_trimEnd (h : v.allBlank = false) :
    (Cursor.ofText v.trimEnd).skipBlanks = ⟨v.length - v.dropBlanks.length, v.trim⟩ := by
  obtain ⟨before, t, rfl, hrun⟩ := Run.of_text isBlank v
  have ht : t.allBlank = false := by
    rw [allBlank_append, allBlank_iff.mpr hrun.all, Bool.true_and] at h
    exact h
  have hne : t.trimEnd ≠ [] := by
    intro hnil
    obtain ⟨blanks, hblanks, hsplit⟩ := exists_trimEnd_append t
    rw [hnil, List.nil_append] at hsplit
    rw [hsplit, hblanks] at ht
    cases ht
  have hsolid : Run isBlank before t.trimEnd := ⟨hrun.all, (solid_trimEnd hrun.stops hne).first⟩
  have hlength : (before ++ t).length - t.length = before.length := by
    rw [List.length_append, Nat.add_sub_cancel]
  rw [trimEnd_append_left before ht, trim, dropBlanks, hrun.dropWhile_eq, hlength, Cursor.ofText,
    Cursor.skipBlanks_run hsolid, Nat.zero_add]

/-- The reader of language tags by position comes to what the reader from the front comes to. -/
theorem languageTag_eq (name : Text) (value : Option Text) (context : Option Context) :
    languageTag name value context = ofExcept (LanguageTag.parse name value context) := by
  cases value with
  | none => rfl
  | some v =>
    rw [languageTag, LanguageTag.parse]
    dsimp only
    cases hblank : v.allBlank with
    | true =>
      rw [if_pos rfl, if_pos (trim_eq_nil_iff.mpr hblank)]
      rfl
    | false =>
      have htrim : v.trim ≠ [] := by
        rw [Ne, trim_eq_nil_iff, hblank]
        exact Bool.false_ne_true
      have hprefix : v.trimEnd <+: v := by
        obtain ⟨blanks, -, hsplit⟩ := exists_trimEnd_append v
        exact ⟨blanks, hsplit.symm⟩
      have hin : (Cursor.ofText v.trimEnd).skipBlanks.In v.trimEnd :=
        (Cursor.In.ofText v.trimEnd).skipWhile isBlank
      have hbetween := tagBetween_eq hprefix hin (by rw [skipBlanks_trimEnd hblank]; exact htrim)
      rw [if_neg htrim, if_neg Bool.false_ne_true]
      have hstart : v.length - v.dropBlanks.length = (Cursor.ofText v.trimEnd).skipBlanks.pos := by
        rw [skipBlanks_trimEnd hblank]
      rw [hstart, hbetween]
      cases hread : LanguageTag.read (Cursor.ofText v.trimEnd).skipBlanks with
      | ok tag => rfl
      | error place =>
        have hslice := slice_of_prefix hprefix (hin.ahead (LanguageTag.ahead_of_read hread))
        show fail { code := .invalidLang, name := some name, value := some v,
                    token := some (slice v place.pos v.trimEnd.length),
                    position := some place.pos, context := context } = _
        rw [hslice]
        rfl

end LanguageTag

/-! ## Expressions -/

/-- The number that a text converts to. A text that holds anything but digits or is empty does not
convert, and neither does a run of digits that is too long. -/
def convert (t : Text) : Reading Nat :=
  if t ≠ [] ∧ t.all Char.isDigit then
    match Decimal.read? t with
    | some n => .ok n
    | none => fault .conversion
  else fault .conversion

/-- The piece of a text that is named as unexpected at a position. -/
def pieceAt (v : Text) (pos : Nat) : Reading Text :=
  if v.length ≤ pos then return "end of argument".toList
  else do
    let stop ← skipWhile (fun d => !isBlank d && !Nth.isSign d) v v.length (pos + 1)
    return slice v pos stop

/-- The report that an expression breaks off at a position. -/
def breakOff {α : Type} (name v : Text) (context : Option Context) (pos : Nat) : Reading α := do
  let piece ← pieceAt v pos
  fail { code := .invalidNth, name := some name, value := some v, token := some piece,
         position := some pos, context := context }

/-- The number between two positions. A text that does not convert is reported at its start. -/
def toNat (name v : Text) (context : Option Context) (start stop : Nat) : Reading Nat :=
  match convert (slice v start stop) with
  | .error (.fault .conversion) => breakOff name v context start
  | reading => reading

/-- The offset behind the step, and the position behind it. -/
def offset (name v : Text) (context : Option Context) (pos : Nat) : Reading (Int × Nat) := do
  let sign ← peek v pos
  match sign with
  | none => return (0, pos)
  | some ch =>
    if Nth.isSign ch then
      let start ← skipBlanks v (pos + 1)
      let stop ← skipWhile Char.isDigit v v.length start
      if stop = start then breakOff name v context stop
      else
        let n ← toNat name v context start stop
        return (Nth.signFactor ch * n, stop)
    else breakOff name v context pos

/-- An expression that has been read up to a position, if only blanks follow. -/
def finish (name v : Text) (context : Option Context) (e : Nth) (pos : Nat) : Reading Nth := do
  let behind ← skipBlanks v pos
  if behind ≠ v.length then breakOff name v context behind else return e

/-- The number in front of the letter that marks a step, where the run of digits between two
positions, if there are any, is that number. -/
def factor (name v : Text) (context : Option Context) (start stop : Nat) : Reading Nat :=
  let digits := slice v start stop
  if digits = [] then return 1 else toNat name v context start (start + digits.length)

/-- The expression behind a sign of the factor `sign`. -/
def unsigned (name v : Text) (context : Option Context) (sign : Int) (pos : Nat) :
    Reading Nth := do
  let stop ← skipWhile Char.isDigit v v.length pos
  let letter ← peek v stop
  if letter.any Nth.isStepLetter then
    let a ← factor name v context pos stop
    let behind ← skipBlanks v (stop + 1)
    let (b, last) ← offset name v context behind
    finish name v context ⟨sign * a, b⟩ last
  else if slice v pos stop = [] then breakOff name v context stop
  else
    let b ← toNat name v context pos stop
    finish name v context ⟨0, sign * b⟩ stop

/-- The expression in the argument of the function `name`. -/
def expression (name : Text) (value : Option Text) (context : Option Context) : Reading Nth :=
  match value with
  | none => fail (.missingArgument name none context)
  | some v =>
    if v.trim = [] then fail (.missingArgument name (some v) context)
    else
      match Nth.ofWord? v.trim with
      | some e => return e
      | none => do
        let start ← skipBlanks v 0
        let first ← elem v start
        if Nth.isSign first then unsigned name v context (Nth.signFactor first) (start + 1)
        else unsigned name v context 1 start

section Expression

variable {name v : Text} {context : Option Context} {c place : Cursor}

/-- What a reader from the front comes to, with the places that it names reported. -/
def ofPlace {α : Type} (name v : Text) (context : Option Context) : Except Cursor α → Reading α
  | .ok a => .ok a
  | .error place => fail (Nth.breakOff name v context place)

theorem ofPlace_eq (r : Except Cursor Nth) :
    ofPlace name v context r =
      ofExcept (match r with
        | .ok e => .ok e
        | .error place => .error (Nth.breakOff name v context place)) := by
  cases r <;> rfl

/-- Every character but the first of a piece is looked at, and none behind the text. -/
theorem pieceAt_eq (h : c.In v) : pieceAt v c.pos = .ok (Nth.pieceAt c.rest) := by
  obtain ⟨pos, rest⟩ := c
  cases rest with
  | nil =>
    rw [pieceAt, if_pos (Nat.le_of_not_lt h.not_pos_lt)]
    rfl
  | cons ch rest =>
    have hskip : skipWhile (fun d => !isBlank d && !Nth.isSign d) v v.length (pos + 1) = _ :=
      skipWhile_eq _ h.of_cons
    have hslice := slice_skipWhile (fun d => !isBlank d && !Nth.isSign d) h.of_cons
    rw [pieceAt, if_neg (Nat.not_le_of_lt h.pos_lt), hskip, bind_ok, slice_cons h, hslice]
    · rfl
    · rw [Cursor.pos_skipWhile]
      exact Nat.le_add_right (pos + 1) _

theorem breakOff_eq {α : Type} (h : c.In v) :
    (breakOff name v context c.pos : Reading α) = fail (Nth.breakOff name v context c) := by
  rw [breakOff, pieceAt_eq h]
  rfl

/-- A run of digits converts unless it is too long, and then its start is reported. -/
theorem toNat_eq (h : c.In v) (hne : Nth.digitsAt c ≠ []) :
    toNat name v context c.pos (c.skipWhile Char.isDigit).pos =
      ofPlace name v context (Nth.readNumber c) := by
  have hslice : slice v c.pos (c.skipWhile Char.isDigit).pos = Nth.digitsAt c :=
    slice_skipWhile Char.isDigit h
  have hdigits : Nth.digitsAt c ≠ [] ∧ (Nth.digitsAt c).all Char.isDigit = true :=
    ⟨hne, List.all_takeWhile⟩
  rw [toNat, hslice, convert, if_pos hdigits, Nth.readNumber]
  cases Decimal.read? (Nth.digitsAt c) with
  | some n => rfl
  | none => exact breakOff_eq h

theorem factor_eq (h : c.In v) :
    factor name v context c.pos (c.skipWhile Char.isDigit).pos =
      ofPlace name v context (if Nth.digitsAt c = [] then .ok 1 else Nth.readNumber c) := by
  have hslice : slice v c.pos (c.skipWhile Char.isDigit).pos = Nth.digitsAt c :=
    slice_skipWhile Char.isDigit h
  have hstop : c.pos + (Nth.digitsAt c).length = (c.skipWhile Char.isDigit).pos := rfl
  rw [factor, hslice, hstop]
  by_cases hdigits : Nth.digitsAt c = []
  · rw [if_pos hdigits, if_pos hdigits]
    rfl
  · rw [if_neg hdigits, if_neg hdigits, toNat_eq h hdigits]

theorem finish_eq (e : Nth) (h : c.In v) (hle : c.pos ≤ v.length) :
    finish name v context e c.pos = ofPlace name v context (Nth.finish e c) := by
  have hbehind : c.skipBlanks.In v := h.skipWhile isBlank
  have hend := hbehind.rest_eq_nil_iff (h.pos_le_of_ahead hle (.skipWhile isBlank c))
  rw [finish, skipBlanks_eq h, bind_ok, Nth.finish]
  by_cases hrest : c.skipBlanks.rest = []
  · rw [if_pos hrest, if_neg (not_not_intro (hend.mp hrest))]
    rfl
  · rw [if_neg hrest, if_pos (mt hend.mpr hrest)]
    exact breakOff_eq hbehind

/-- Digits are there exactly if skipping them moves on. -/
theorem pos_skipWhile_isDigit (c : Cursor) :
    (c.skipWhile Char.isDigit).pos = c.pos ↔ Nth.digitsAt c = [] := by
  rw [Nth.digitsAt, ← List.length_eq_zero_iff, Cursor.pos_skipWhile]
  omega

theorem offset_eq (h : c.In v) :
    offset name v context c.pos =
      ofPlace name v context ((Nth.readOffset c).map fun found => (found.1, found.2.pos)) := by
  rw [offset, peek_eq h, bind_ok, Nth.readOffset]
  obtain ⟨pos, rest⟩ := c
  cases rest with
  | nil => rfl
  | cons ch rest =>
    dsimp only [List.head?_cons]
    by_cases hsign : Nth.isSign ch = true
    · have hstart : ((Cursor.mk pos (ch :: rest)).skip 1).skipBlanks.In v :=
        h.of_cons.skipWhile isBlank
      have hskip : skipBlanks v (pos + 1) =
          .ok ((Cursor.mk pos (ch :: rest)).skip 1).skipBlanks.pos := skipBlanks_eq h.of_cons
      rw [if_pos hsign, if_pos hsign, hskip, bind_ok]
      generalize ((Cursor.mk pos (ch :: rest)).skip 1).skipBlanks = start at hstart ⊢
      rw [skipWhile_eq Char.isDigit hstart, bind_ok]
      by_cases hdigits : Nth.digitsAt start = []
      · have hstay := (pos_skipWhile_isDigit start).mpr hdigits
        rw [if_pos hstay, if_pos hdigits, hstay]
        exact breakOff_eq hstart
      · have hpast := mt (pos_skipWhile_isDigit start).mp hdigits
        rw [if_neg hpast, if_neg hdigits, toNat_eq hstart hdigits]
        cases Nth.readNumber start <;> rfl
    · rw [if_neg hsign, if_neg hsign]
      exact breakOff_eq h

theorem unsigned_eq (sign : Int) (h : c.In v) (hle : c.pos ≤ v.length) :
    unsigned name v context sign c.pos = ofPlace name v context (Nth.readUnsigned sign c) := by
  have hbehind : (c.skipWhile Char.isDigit).In v := h.skipWhile Char.isDigit
  have hslice : slice v c.pos (c.skipWhile Char.isDigit).pos = Nth.digitsAt c :=
    slice_skipWhile Char.isDigit h
  have hbehindLe := h.pos_le_of_ahead hle (.skipWhile Char.isDigit c)
  rw [unsigned, skipWhile_eq Char.isDigit h, bind_ok, peek_eq hbehind, bind_ok, hslice,
    Nth.readUnsigned]
  dsimp only
  by_cases hletter : (c.skipWhile Char.isDigit).rest.head?.any Nth.isStepLetter = true
  · have hlt : (c.skipWhile Char.isDigit).pos < v.length := by
      refine Nat.lt_of_le_of_ne hbehindLe fun hend => ?_
      rw [(hbehind.rest_eq_nil_iff hbehindLe).mpr hend] at hletter
      cases hletter
    have hnext : ((c.skipWhile Char.isDigit).skip 1).skipBlanks.In v :=
      (hbehind.skip 1).skipWhile isBlank
    have hnextLe : ((c.skipWhile Char.isDigit).skip 1).skipBlanks.pos ≤ v.length :=
      (hbehind.skip 1).pos_le_of_ahead hlt (.skipWhile isBlank _)
    have hskip : skipBlanks v ((c.skipWhile Char.isDigit).pos + 1) =
        .ok ((c.skipWhile Char.isDigit).skip 1).skipBlanks.pos := skipBlanks_eq (hbehind.skip 1)
    rw [if_pos hletter, if_pos hletter, factor_eq h]
    cases if Nth.digitsAt c = [] then .ok 1 else Nth.readNumber c with
    | error place => rfl
    | ok a =>
      rw [ofPlace, bind_ok, hskip, bind_ok, offset_eq hnext]
      cases hoffset : Nth.readOffset ((c.skipWhile Char.isDigit).skip 1).skipBlanks with
      | error place => rfl
      | ok found =>
        obtain ⟨b, place⟩ := found
        have hplace := Nth.ahead_readOffset ((c.skipWhile Char.isDigit).skip 1).skipBlanks
        rw [hoffset] at hplace
        exact finish_eq _ (hnext.ahead hplace) (hnext.pos_le_of_ahead hnextLe hplace)
  · rw [if_neg hletter, if_neg hletter]
    by_cases hdigits : Nth.digitsAt c = []
    · rw [if_pos hdigits, if_pos hdigits]
      exact breakOff_eq hbehind
    · rw [if_neg hdigits, if_neg hdigits, toNat_eq h hdigits]
      cases Nth.readNumber c with
      | error place => rfl
      | ok b => exact finish_eq _ hbehind hbehindLe

/-- The reader of expressions by position comes to what the reader from the front comes to. -/
theorem expression_eq (name : Text) (value : Option Text) (context : Option Context) :
    expression name value context = ofExcept (Nth.parse name value context) := by
  cases value with
  | none => rfl
  | some v =>
    rw [expression, Nth.parse]
    by_cases hblank : v.allBlank = true
    · rw [if_pos hblank, if_pos (trim_eq_nil_iff.mpr hblank)]
      rfl
    · rw [if_neg hblank, if_neg (mt trim_eq_nil_iff.mp hblank)]
      cases Nth.ofWord? v.trim with
      | some e => rfl
      | none =>
        have hstart : (Cursor.ofText v).skipBlanks.In v := (Cursor.In.ofText v).skipWhile isBlank
        have hskip : skipBlanks v 0 = .ok (Cursor.ofText v).skipBlanks.pos :=
          skipBlanks_eq (Cursor.In.ofText v)
        have hle : (Cursor.ofText v).skipBlanks.pos ≤ v.length :=
          (Cursor.In.ofText v).pos_le_of_ahead (Nat.zero_le _) (.skipWhile isBlank _)
        have hne : (Cursor.ofText v).skipBlanks.rest ≠ [] := mt dropBlanks_eq_nil_iff.mp hblank
        dsimp only
        rw [hskip, bind_ok, Nth.read]
        generalize (Cursor.ofText v).skipBlanks = start at hstart hle hne ⊢
        obtain ⟨pos, rest⟩ := start
        obtain ⟨ch, rest, rfl⟩ := List.exists_cons_of_ne_nil hne
        rw [elem_eq hstart, bind_ok, Nth.readSign]
        dsimp only
        by_cases hsign : Nth.isSign ch = true
        · rw [if_pos hsign, if_pos hsign]
          exact (unsigned_eq (Nth.signFactor ch) hstart.of_cons hstart.pos_lt).trans (ofPlace_eq _)
        · rw [if_neg hsign, if_neg hsign]
          exact (unsigned_eq 1 hstart hle).trans (ofPlace_eq _)

end Expression

end SelectorCheck.Access
