import SelectorCheck.Proofs.Access.Reading
import SelectorCheck.Proofs.Token.Lexed

/-!
# The lexer by position

The lexer keeps a position in the selector and asks for the character there
before every decision. The search for the end of an argument may move the
position by two at once, and past the end; whether it found a parenthesis is seen
afterwards, at the position where it stopped.

## Main definitions

* `Access.scan`, `Access.argument` — the search, and what is made of it.
* `Access.lexeme`, `Access.run` — one lexeme, and all of them in rounds.

## Main results

* `Access.lexeme_eq` — a lexeme by position is the one that stands ahead.
* `Access.tokensOf_eq` — the tokens by position are the tokens.
-/

namespace SelectorCheck.Access

open Reading Text

/-! ## Readers -/

/-- The position of the parenthesis that closes an argument, or where the search for it ends. -/
def scan (t : Text) (depth : Nat) (mark : Option Char) (pos : Nat) : Reading Nat :=
  if pos < t.length then do
    let c ← elem t pos
    match mark with
    | some m =>
      if c = backslash then scan t depth (some m) (pos + 2)
      else if c = m then scan t depth none (pos + 1)
      else scan t depth (some m) (pos + 1)
    | none =>
      if isQuote c then scan t depth (some c) (pos + 1)
      else if c = '(' then scan t (depth + 1) none (pos + 1)
      else if c = ')' then
        if depth - 1 = 0 then return pos else scan t (depth - 1) none (pos + 1)
      else scan t depth none (pos + 1)
  else return pos
termination_by t.length - pos

/-- The mark at a position, with the blanks behind it. -/
def separator (kind : TokenKind) (value : Option Text) (t : Text) (pos : Nat) :
    Reading (List Token × Nat) := do
  let behind ← skipBlanks t (pos + 1)
  return ([⟨kind, value, pos⟩], behind)

/-- The name behind the one-character `mark` at a position. -/
def marked (t : Text) (kind : TokenKind) (mark : Char) (pos : Nat) :
    Reading (List Token × Nat) := do
  let (name, behind) ← readName t (pos + 1)
  if name = [] then
    fail { code := .expectedIdentifier, value := some t, token := some [mark],
           position := some behind }
  else return ([⟨kind, some name, pos⟩], behind)

/-- The tag name at a position. -/
def tagName (t : Text) (pos : Nat) : Reading (List Token × Nat) := do
  let (name, behind) ← readName t pos
  return ([⟨.tag, some name.lowercase, pos⟩], behind)

/-- The argument behind the opening parenthesis at a position. -/
def argument (t : Text) (pos : Nat) : Reading (List Token × Nat) := do
  let start ← skipBlanks t (pos + 1)
  let stop ← scan t 1 none start
  let last ← peek t stop
  if last = some ')' then
    let content := (slice t start stop).trimEnd
    let given : List Token := if content = [] then [] else [⟨.string, some content, start⟩]
    return (⟨.parenOpen, none, pos⟩ :: given ++ [⟨.parenClose, none, stop⟩], stop + 1)
  else
    fail { code := .expectedClosingParen, value := some t,
           position := some (min stop t.length : Nat) }

/-- The pseudo name at the position `start`, behind colons of the kind `kind` at the position
`pos`. -/
def pseudoName (t : Text) (kind : TokenKind) (pos start : Nat) : Reading (List Token × Nat) := do
  let (name, behind) ← readName t start
  if name = [] then
    fail { code := .expectedIdentifier, value := some t, token := some (slice t pos behind),
           position := some behind }
  else
    let next ← peek t behind
    if next = some '(' then
      let (tokens, last) ← argument t behind
      return ([⟨kind, none, pos⟩, ⟨.tag, some name, start⟩] ++ tokens, last)
    else return ([⟨kind, none, pos⟩, ⟨.tag, some name, start⟩], behind)

/-- The pseudo name behind the colon at a position. -/
def pseudo (t : Text) (pos : Nat) : Reading (List Token × Nat) := do
  let second ← peek t (pos + 1)
  if second = some ':' then pseudoName t .doubleColon pos (pos + 2)
  else pseudoName t .colon pos (pos + 1)

/-- The lexeme that begins with the character `ch`, which is no blank, at a position. -/
def lexeme (t : Text) (pos : Nat) (ch : Char) : Reading (List Token × Nat) :=
  if Lexer.isCombinator ch then separator .combinator (some [ch]) t pos
  else if ch == '*' then return ([⟨.universal, none, pos⟩], pos + 1)
  else if ch == '#' then marked t .id ch pos
  else if ch == '.' then marked t .className ch pos
  else if ch == '[' then
    fail { code := .unsupportedAttribute, value := some t, position := some pos }
  else if ch == ',' then separator .comma none t pos
  else if ch == ':' then pseudo t pos
  else if isNameStart ch then tagName t pos
  else
    fail { code := .unexpectedCharacter, value := some t, token := some [ch],
           position := some pos }

/-- The tokens from a position on, in a number of rounds. -/
def run (t : Text) : (rounds : Nat) → (started blanks : Bool) → (pos : Nat) → Reading (List Token)
  | 0, _, _, _ => fault .endless
  | rounds + 1, started, blanks, pos =>
    if pos < t.length then do
      let ch ← elem t pos
      if isBlank ch then
        let behind ← skipBlanks t pos
        run t rounds started true behind
      else
        let (tokens, behind) ← lexeme t pos ch
        let rest ← run t rounds true false behind
        return Lexer.gap started blanks pos ch ++ tokens ++ rest
    else return [⟨.eof, none, t.length⟩]

/-- The tokens of a text. -/
def tokensOf (t : Text) : Reading (List Token) := run t (t.length + 1) false false 0

/-! ## The search for a parenthesis -/

/-- Where a search stops. -/
def stopOf : Except Cursor (Text × Cursor) → Nat
  | .ok (_, place) => place.pos
  | .error place => place.pos

theorem stopOf_passing (c : Char) (outcome : Except Cursor (Text × Cursor)) :
    stopOf (RawArgument.passing c outcome) = stopOf outcome := by
  rcases outcome with place | ⟨content, place⟩ <;> rfl

section Scan

variable {t rest : Text} {depth pos : Nat} {mark : Option Char} {c : Char}

private theorem scan_nil (h : (Cursor.mk pos []).In t) : scan t depth mark pos = .ok pos := by
  rw [scan, if_neg h.not_pos_lt]
  rfl

private theorem scan_cons (h : (Cursor.mk pos (c :: rest)).In t) :
    scan t depth mark pos =
      match mark with
      | some m =>
        if c = backslash then scan t depth (some m) (pos + 2)
        else if c = m then scan t depth none (pos + 1)
        else scan t depth (some m) (pos + 1)
      | none =>
        if isQuote c then scan t depth (some c) (pos + 1)
        else if c = '(' then scan t (depth + 1) none (pos + 1)
        else if c = ')' then
          if depth - 1 = 0 then .ok pos else scan t (depth - 1) none (pos + 1)
        else scan t depth none (pos + 1) := by
  rw [scan, if_pos h.pos_lt, elem_eq h]
  rfl

/-- The search by position stops where the search from the front stops. -/
theorem scan_eq (h : (Cursor.mk pos rest).In t) :
    scan t (depth + 1) mark pos = .ok (stopOf (RawArgument.scan depth mark pos rest)) := by
  fun_induction RawArgument.scan depth mark pos rest with
  | case1 => exact scan_nil h
  | case2 depth mark pos c hc =>
    -- A backslash is the last character, so the search ends one further than the text.
    simp only [beq_iff_eq] at hc
    simp only [scan_cons h, hc, if_true]
    exact scan_nil (h.skip 2)
  | case3 depth mark pos c hc d rest ih =>
    simp only [beq_iff_eq] at hc
    simp only [scan_cons h, hc, if_true, stopOf_passing, ih (h.skip 2)]
  | case8 =>
    simp_all only [scan_cons h, beq_iff_eq]
    rfl
  | case4 | case5 | case6 | case7 | case9 | case10 =>
    simp_all [scan_cons h, stopOf_passing, h.of_cons]

end Scan

/-- A search that finds nothing has gone through the whole text. -/
theorem length_le_of_scan {depth : Nat} {mark : Option Char} {pos : Nat} {rest : Text}
    {place : Cursor} (h : RawArgument.scan depth mark pos rest = .error place) :
    pos + rest.length ≤ place.pos := by
  have hpassing : ∀ {c : Char} {outcome : Except Cursor (Text × Cursor)},
      RawArgument.passing c outcome = .error place → outcome = .error place := by
    rintro c (place' | ⟨content, place'⟩) h
    · exact h
    · cases h
  fun_induction RawArgument.scan depth mark pos rest with
  | case1 | case2 =>
    cases h
    simp
  | case8 => cases h
  | case3 _ _ _ _ _ _ _ ih =>
    have hbehind := ih (hpassing (hpassing h))
    simp only [List.length_cons]
    omega
  | case4 | case5 | case6 | case7 | case9 | case10 =>
    rename_i ih
    have hbehind := ih (hpassing h)
    simp only [List.length_cons]
    omega

/-! ## Single lexemes -/

/-- What the lexer comes to, as a reader by position comes to it. -/
def ofOutcome (o : Lexer.Outcome) : Reading (List Token × Nat) :=
  match o.result with
  | .ok tokens => .ok (tokens, o.place.pos)
  | .error e => fail e

section Lexemes

variable {t : Text} {c : Cursor}

theorem separator_eq (kind : TokenKind) (value : Option Text) (h : c.In t) :
    separator kind value t c.pos = ofOutcome (Lexer.separator kind value c) := by
  have hskip : skipBlanks t (c.pos + 1) = .ok (c.skip 1).skipBlanks.pos := skipBlanks_eq (h.skip 1)
  rw [separator, hskip]
  rfl

theorem marked_eq (kind : TokenKind) (mark : Char) (h : c.In t) :
    marked t kind mark c.pos = ofOutcome (Lexer.marked t kind mark c) := by
  have hname : readName t (c.pos + 1) = .ok ((c.skip 1).rest.takeName,
      ((c.skip 1).skipWhile isNameChar).pos) := readName_eq (h.skip 1)
  rw [marked, hname, Lexer.marked]
  by_cases hnone : (c.skip 1).rest.takeName = []
  · have hstay : ((c.skip 1).skipWhile isNameChar).pos = (c.skip 1).pos := by
      rw [Cursor.pos_skipWhile, ← takeName, hnone]
      rfl
    simp only [bind_ok, hnone, if_true, hstay]
    rfl
  · simp only [bind_ok, hnone, if_false]
    rfl

theorem tagName_eq (h : c.In t) : tagName t c.pos = ofOutcome (Lexer.tagName c) := by
  rw [tagName, readName_eq h]
  rfl

theorem argument_eq (h : c.In t) : argument t c.pos = ofOutcome (Lexer.argument t c) := by
  have hstart : (c.skip 1).skipBlanks.In t := (h.skip 1).skipWhile isBlank
  have hskip : skipBlanks t (c.pos + 1) = .ok (c.skip 1).skipBlanks.pos := skipBlanks_eq (h.skip 1)
  rw [argument, hskip, Lexer.argument]
  generalize (c.skip 1).skipBlanks = start at hstart ⊢
  rw [bind_ok, scan_eq hstart, bind_ok]
  cases hscan : RawArgument.scan 0 none start.pos start.rest with
  | error place =>
    have hend := length_le_of_scan hscan
    rw [hstart.length_rest] at hend
    have hout : ¬ place.pos < t.length := by omega
    have hmin : min place.pos t.length = t.length := by omega
    simp only [stopOf, peek, hout, if_false, pure_eq, bind_ok, reduceCtorEq, hmin]
    rfl
  | ok found =>
    obtain ⟨content, close⟩ := found
    obtain ⟨after, hrest, rfl⟩ := RawArgument.scan_eq_ok hscan
    have hclose : (Cursor.mk (start.pos + content.length) (')' :: after)).In t :=
      hstart.ahead ⟨content, hrest, rfl⟩
    have hslice : slice t start.pos (start.pos + content.length) = content := by
      rw [slice_eq hstart, hrest, List.take_left]
    have hpeek : peek t (start.pos + content.length) = .ok (some ')') := peek_eq hclose
    simp only [stopOf, hpeek, bind_ok, if_true, hslice]
    rfl

theorem pseudoName_eq {kind : TokenKind} {pos : Nat} {colons : Text} (h : c.In t)
    (hcolons : slice t pos c.pos = colons) :
    pseudoName t kind pos c.pos = ofOutcome (Lexer.pseudoName t ⟨kind, none, pos⟩ colons c) := by
  rw [pseudoName, readName_eq h, Lexer.pseudoName, bind_ok]
  by_cases hnone : c.rest.takeName = []
  · have hstay : (c.skipWhile isNameChar).pos = c.pos := by
      rw [Cursor.pos_skipWhile, ← takeName, hnone]
      rfl
    simp only [hnone, if_true, hstay, hcolons]
    rfl
  · simp only [hnone, if_false, peek_eq (h.skipWhile isNameChar), bind_ok]
    by_cases hparen : (c.skipWhile isNameChar).rest.head? = some '('
    · simp only [hparen, if_true, argument_eq (h.skipWhile isNameChar)]
      rcases Lexer.argument t (c.skipWhile isNameChar) with ⟨place, e | tokens⟩ <;> rfl
    · simp only [hparen, if_false]
      rfl

theorem pseudo_eq {pos : Nat} {rest : Text} (h : (Cursor.mk pos (':' :: rest)).In t) :
    pseudo t pos = ofOutcome (Lexer.pseudo t ⟨pos, ':' :: rest⟩) := by
  have hpeek : peek t (pos + 1) = .ok rest.head? := peek_eq h.of_cons
  rw [pseudo, hpeek, bind_ok, Lexer.pseudo]
  by_cases hcolon : rest.head? = some ':'
  · obtain ⟨tail, rfl⟩ : ∃ tail, rest = ':' :: tail := by
      cases rest with
      | nil => cases hcolon
      | cons c tail => exact ⟨tail, by simpa using hcolon⟩
    have hslice : slice t pos (pos + 2) = [':', ':'] := slice_eq h 2
    exact pseudoName_eq (h.skip 2) hslice
  · have hslice : slice t pos (pos + 1) = [':'] := slice_eq h 1
    have hhead : ((Cursor.mk pos (':' :: rest)).skip 1).rest.head? ≠ some ':' := hcolon
    simp only [hcolon, hhead, if_false]
    exact pseudoName_eq (h.skip 1) hslice

/-- A lexeme by position is the lexeme ahead. -/
theorem lexeme_eq {pos : Nat} {ch : Char} {rest : Text} (h : (Cursor.mk pos (ch :: rest)).In t) :
    lexeme t pos ch = ofOutcome (Lexer.lexeme t pos ch rest) := by
  unfold lexeme Lexer.lexeme
  by_cases hcombinator : Lexer.isCombinator ch = true
  · rw [if_pos hcombinator, if_pos hcombinator]
    exact separator_eq _ _ h
  rw [if_neg hcombinator, if_neg hcombinator]
  by_cases huniversal : (ch == '*') = true
  · rw [if_pos huniversal, if_pos huniversal]
    rfl
  rw [if_neg huniversal, if_neg huniversal]
  by_cases hid : (ch == '#') = true
  · rw [if_pos hid, if_pos hid]
    exact marked_eq _ _ h
  rw [if_neg hid, if_neg hid]
  by_cases hclass : (ch == '.') = true
  · rw [if_pos hclass, if_pos hclass]
    exact marked_eq _ _ h
  rw [if_neg hclass, if_neg hclass]
  by_cases hattribute : (ch == '[') = true
  · rw [if_pos hattribute, if_pos hattribute]
    rfl
  rw [if_neg hattribute, if_neg hattribute]
  by_cases hcomma : (ch == ',') = true
  · rw [if_pos hcomma, if_pos hcomma]
    exact separator_eq _ _ h
  rw [if_neg hcomma, if_neg hcomma]
  by_cases hcolon : (ch == ':') = true
  · rw [if_pos hcolon, if_pos hcolon]
    obtain rfl : ch = ':' := beq_iff_eq.mp hcolon
    exact pseudo_eq h
  rw [if_neg hcolon, if_neg hcolon]
  by_cases hname : isNameStart ch = true
  · rw [if_pos hname, if_pos hname]
    exact tagName_eq h
  rw [if_neg hname, if_neg hname]
  rfl

end Lexemes

/-! ## All tokens -/

section Run

variable {t : Text}

/-- The place behind a lexeme is a place of the text. -/
theorem in_of_lexeme {pos : Nat} {ch : Char} {rest : Text} {place : Cursor} {tokens : List Token}
    (h : (Cursor.mk pos (ch :: rest)).In t)
    (hlexeme : Lexer.lexeme t pos ch rest = ⟨place, .ok tokens⟩) : place.In t := by
  obtain ⟨text, after, hrest, rfl, -⟩ := Lexer.lexeme_eq_ok_iff.mp hlexeme
  exact h.ahead ⟨text, hrest, rfl⟩

/-- Blanks in a row are passed over at once. -/
theorem run_skipBlanks {pos : Nat} {ch : Char} {rest : Text} (hblank : isBlank ch = true)
    (started blanks : Bool) :
    Lexer.run t started blanks ⟨pos, ch :: rest⟩ =
      Lexer.run t started true (Cursor.mk pos (ch :: rest)).skipBlanks := by
  obtain ⟨row, after, hrest, hrow⟩ := Run.of_text isBlank rest
  have hall : allBlank (ch :: row) = true := by
    rw [allBlank_cons, hblank, allBlank_iff.mpr hrow.all]
    rfl
  have hrun : Run isBlank (ch :: row) after := ⟨allBlank_iff.mp hall, hrow.stops⟩
  have hlexer : Lexer.run t started blanks ⟨pos, ch :: row ++ after⟩ = _ :=
    Lexer.run_blanks started blanks after hall
  have hskip := Cursor.skipBlanks_run hrun pos
  rw [List.cons_append, ← hrest] at hlexer hskip
  rw [hlexer, hskip, List.isEmpty_cons, Bool.not_false, Bool.or_true]

/-- The rounds by position do what the lexer does, if there is a round for every character and one
for the end. -/
theorem run_eq {rounds : Nat} {c : Cursor} (started blanks : Bool) (h : c.In t)
    (hrounds : c.rest.length < rounds) :
    run t rounds started blanks c.pos = ofExcept (Lexer.run t started blanks c).result := by
  induction rounds generalizing started blanks c with
  | zero => exact absurd hrounds (Nat.not_lt_zero _)
  | succ rounds ih =>
    obtain ⟨pos, rest⟩ := c
    cases rest with
    | nil =>
      rw [run, if_neg h.not_pos_lt, Lexer.run_nil]
      rfl
    | cons ch rest =>
      have hlength : rest.length < rounds := Nat.lt_of_succ_lt_succ hrounds
      rw [run, if_pos h.pos_lt, elem_eq h, bind_ok]
      cases hblank : isBlank ch with
      | true =>
        have hshorter : (Cursor.mk pos (ch :: rest)).skipBlanks.rest.length ≤ rest.length := by
          rw [Cursor.skipBlanks, Cursor.rest_skipWhile, List.dropWhile_cons, if_pos hblank]
          exact (List.dropWhile_sublist isBlank).length_le
        rw [if_pos rfl, skipBlanks_eq h, bind_ok, run_skipBlanks hblank]
        exact ih started true (h.skipWhile isBlank) (Nat.lt_of_le_of_lt hshorter hlength)
      | false =>
        rw [if_neg Bool.false_ne_true, lexeme_eq h]
        cases hlexeme : Lexer.lexeme t pos ch rest with
        | mk place result =>
          cases result with
          | error e =>
            rw [Lexer.run_malformed hblank hlexeme]
            rfl
          | ok tokens =>
            have hshorter := Lexer.length_rest_lexeme_le hlexeme
            have hrest := ih true false (in_of_lexeme h hlexeme)
              (Nat.lt_of_le_of_lt hshorter hlength)
            rw [Lexer.run_lexeme hblank hlexeme]
            show (run t rounds true false place.pos >>= fun rest =>
              pure (Lexer.gap started blanks pos ch ++ tokens ++ rest)) = _
            rw [hrest]
            exact ofExcept_map _ _

/-- The tokens by position are the tokens. -/
theorem tokensOf_eq (t : Text) : tokensOf t = ofExcept (Token.ofSelector t) :=
  run_eq false false (Cursor.In.ofText t) (Nat.lt_succ_self _)

end Run

end SelectorCheck.Access
