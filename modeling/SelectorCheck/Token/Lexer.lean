import SelectorCheck.Error.Basic
import SelectorCheck.Text.Lowercase
import SelectorCheck.Text.Name
import SelectorCheck.Token.RawArgument
import SelectorCheck.Token.Basic

/-!
# Cutting a selector into tokens

The lexer takes one lexeme after the other. A lexeme is a mark, a name with
the mark in front of it, or a pseudo name with its colons and its argument; it
yields one token or a few, and begins with a character that is no blank.

Blanks between two lexemes are a token of their own, the descendant
combinator, unless a comma or another combinator stands on one of their sides.
The combinator carries the position of the lexeme behind the blanks.

When a lexeme is malformed the lexer stops, and its place says how far it
came: at the offending character if that alone is at fault, behind what was
read if something is missing there. A caller may go on from that place.

## Main definitions

* `Lexer.lexeme` — the tokens of one lexeme, and the place behind it.
* `Lexer.run` — the tokens from a place to the end of the selector.
* `Token.ofSelector` — the tokens of a whole selector.
* `Lexer.runs` — what a number of runs in a row yield, each going on where
  the last one stopped.
-/

namespace SelectorCheck.Lexer

/-- What reading comes to: tokens or an error, and the place where reading stopped. -/
structure Outcome where
  place : Cursor
  result : Except SelectorError (List Token)

/-! ## Lexemes -/

/-- The three marks that join two compound selectors. -/
def isCombinator (c : Char) : Bool := c == '>' || c == '+' || c == '~'

/-- The mark `c` at a place, which blanks may follow. -/
def separator (kind : TokenKind) (value : Option Text) (c : Cursor) : Outcome :=
  ⟨(c.skip 1).skipBlanks, .ok [⟨kind, value, c.pos⟩]⟩

/-- A name behind a one-character `mark` at a place. The token takes in the mark. -/
def marked (source : Text) (kind : TokenKind) (mark : Char) (c : Cursor) : Outcome :=
  let start := c.skip 1
  if start.rest.takeName = [] then
    ⟨start, .error { code := .expectedIdentifier, value := some source, token := some [mark],
                     position := some start.pos }⟩
  else ⟨start.skipWhile isNameChar, .ok [⟨kind, some start.rest.takeName, c.pos⟩]⟩

/-- A tag name at a place. Tag names do not depend on case. -/
def tagName (c : Cursor) : Outcome :=
  ⟨c.skipWhile isNameChar, .ok [⟨.tag, some c.rest.takeName.lowercase, c.pos⟩]⟩

/-- The token of an argument that begins at `start`. A blank argument has none. -/
def argumentTokens (content : Text) (start : Cursor) : List Token :=
  if content.trimEnd = [] then [] else [⟨.string, some content.trimEnd, start.pos⟩]

/-- The argument in parentheses at a place that an opening parenthesis stands at. -/
def argument (source : Text) (c : Cursor) : Outcome :=
  let start := (c.skip 1).skipBlanks
  match RawArgument.scan 0 none start.pos start.rest with
  | .error place =>
    ⟨place, .error { code := .expectedClosingParen, value := some source,
                     position := some source.length }⟩
  | .ok (content, close) =>
    ⟨close.skip 1, .ok (⟨.parenOpen, none, c.pos⟩ :: argumentTokens content start ++
      [⟨.parenClose, none, close.pos⟩])⟩

/-- Tokens in front of what reading comes to. -/
def Outcome.after (tokens : List Token) (o : Outcome) : Outcome :=
  ⟨o.place, o.result.map (tokens ++ ·)⟩

/-- A pseudo name behind its colons, with its argument if there is one. The token of the `marker`
takes in the colons, which make up the text `colons`; `start` is the place behind them. The name
is kept as it is written. -/
def pseudoName (source : Text) (marker : Token) (colons : Text) (start : Cursor) : Outcome :=
  if start.rest.takeName = [] then
    ⟨start, .error { code := .expectedIdentifier, value := some source, token := some colons,
                     position := some start.pos }⟩
  else
    let name : Token := ⟨.tag, some start.rest.takeName, start.pos⟩
    let behind := start.skipWhile isNameChar
    if behind.rest.head? = some '(' then (argument source behind).after [marker, name]
    else ⟨behind, .ok [marker, name]⟩

/-- A pseudo name at a place that a colon stands at. -/
def pseudo (source : Text) (c : Cursor) : Outcome :=
  let start := c.skip 1
  if start.rest.head? = some ':' then
    pseudoName source ⟨.doubleColon, none, c.pos⟩ [':', ':'] (start.skip 1)
  else pseudoName source ⟨.colon, none, c.pos⟩ [':'] start

/-- The lexeme that begins with the character `ch`, which is no blank, at position `pos` in front
of `after`. -/
def lexeme (source : Text) (pos : Nat) (ch : Char) (after : Text) : Outcome :=
  let c : Cursor := ⟨pos, ch :: after⟩
  if isCombinator ch then separator .combinator (some [ch]) c
  else if ch == '*' then ⟨c.skip 1, .ok [⟨.universal, none, pos⟩]⟩
  else if ch == '#' then marked source .id ch c
  else if ch == '.' then marked source .className ch c
  else if ch == '[' then
    ⟨c, .error { code := .unsupportedAttribute, value := some source, position := some pos }⟩
  else if ch == ',' then separator .comma none c
  else if ch == ':' then pseudo source c
  else if isNameStart ch then tagName c
  else
    ⟨c, .error { code := .unexpectedCharacter, value := some source, token := some [ch],
                 position := some pos }⟩

/-! ## Lexemes make progress -/

private theorem length_skipBlanks_le (c : Cursor) : c.skipBlanks.rest.length ≤ c.rest.length :=
  Cursor.length_rest_skipWhile_le _ c

private theorem length_skip_le (n : Nat) (c : Cursor) : (c.skip n).rest.length ≤ c.rest.length := by
  simp

/-- A scan that finds a closing parenthesis stops there, and one that finds none stops behind the
text. -/
theorem length_rest_scan_le (depth : Nat) (mark : Option Char) (pos : Nat) (t : Text) :
    match RawArgument.scan depth mark pos t with
    | .ok (_, place) => place.rest.length ≤ t.length
    | .error place => place.rest = [] := by
  fun_induction RawArgument.scan depth mark pos t <;>
    simp_all [RawArgument.passing] <;> grind [RawArgument.passing]

theorem length_rest_argument_le (source : Text) (c : Cursor) :
    (argument source c).place.rest.length ≤ c.rest.length := by
  have bound := length_rest_scan_le 0 none (c.skip 1).skipBlanks.pos (c.skip 1).skipBlanks.rest
  have blanks := length_skipBlanks_le (c.skip 1)
  have first := length_skip_le 1 c
  unfold argument
  dsimp only
  split
  · next scanned =>
    rw [scanned] at bound
    simp [bound]
  · next scanned =>
    rw [scanned] at bound
    simp only [Cursor.rest_skip, List.length_drop] at *
    omega

theorem length_rest_pseudoName_le (source : Text) (marker : Token) (colons : Text)
    (start : Cursor) :
    (pseudoName source marker colons start).place.rest.length ≤ start.rest.length := by
  have behind := Cursor.length_rest_skipWhile_le isNameChar start
  have bound := length_rest_argument_le source (start.skipWhile isNameChar)
  unfold pseudoName
  split
  · exact Nat.le_refl _
  · dsimp only
    split
    · exact Nat.le_trans bound behind
    · exact behind

theorem length_rest_pseudo_le (source : Text) (c : Cursor) :
    (pseudo source c).place.rest.length ≤ (c.skip 1).rest.length := by
  unfold pseudo
  dsimp only
  split
  · exact Nat.le_trans (length_rest_pseudoName_le ..) (length_skip_le ..)
  · exact length_rest_pseudoName_le ..

theorem length_rest_marked_le (source : Text) (kind : TokenKind) (mark : Char) (c : Cursor) :
    (marked source kind mark c).place.rest.length ≤ (c.skip 1).rest.length := by
  unfold marked
  dsimp only
  split
  · exact Nat.le_refl _
  · exact Cursor.length_rest_skipWhile_le ..

/-- A lexeme takes in its first character at least. -/
theorem length_rest_lexeme_le {source : Text} {pos : Nat} {ch : Char} {after : Text}
    {place : Cursor} {tokens : List Token}
    (h : lexeme source pos ch after = ⟨place, .ok tokens⟩) :
    place.rest.length ≤ after.length := by
  have placed : place = (lexeme source pos ch after).place := by rw [h]
  subst placed
  unfold lexeme at h ⊢
  dsimp only at h ⊢
  split
  · exact length_skipBlanks_le _
  · split
    · exact Nat.le_refl _
    · split
      · exact length_rest_marked_le ..
      · split
        · exact length_rest_marked_le ..
        · split
          · simp_all
          · split
            · exact length_skipBlanks_le _
            · split
              · exact length_rest_pseudo_le ..
              · split
                · next start =>
                  have first : isNameChar ch = true := by simp [isNameChar, start]
                  simpa [tagName, first] using (List.dropWhile_sublist isNameChar).length_le
                · simp_all

/-! ## All tokens -/

/-- Whether blanks in front of the character `ch` of a lexeme mean nothing, because a separator
follows them. -/
def absorbsBlanks (ch : Char) : Bool := isCombinator ch || ch == ','

/-- The descendant combinator, if the blanks in front of the lexeme that begins with `ch` at
position `pos` are one. `started` says that a lexeme stands before the blanks, and `blanks` that
there are any. -/
def gap (started blanks : Bool) (pos : Nat) (ch : Char) : List Token :=
  if started && blanks && !absorbsBlanks ch then [⟨.combinator, some [' '], pos⟩] else []

/-- The tokens from a place to the end of the selector `source`. -/
def run (source : Text) : (started blanks : Bool) → Cursor → Outcome
  | _, _, ⟨pos, []⟩ => ⟨⟨pos, []⟩, .ok [⟨.eof, none, source.length⟩]⟩
  | started, blanks, ⟨pos, ch :: after⟩ =>
    if isBlank ch then run source started true ⟨pos + 1, after⟩
    else
      match _read : lexeme source pos ch after with
      | ⟨place, .error e⟩ => ⟨place, .error e⟩
      | ⟨place, .ok tokens⟩ =>
        (run source true false place).after (gap started blanks pos ch ++ tokens)
termination_by _ _ c => c.rest.length
decreasing_by
  · simp
  · have shorter := length_rest_lexeme_le _read
    simp only [List.length_cons]
    omega

/-- What `count` runs in a row yield, each going on where the last one stopped. -/
def runs (source : Text) : (count : Nat) → Cursor → List Outcome
  | 0, _ => []
  | count + 1, c =>
    let outcome := run source false false c
    outcome :: runs source count outcome.place

end SelectorCheck.Lexer

namespace SelectorCheck

/-- The tokens of a selector. -/
def Token.ofSelector (source : Text) : Except SelectorError (List Token) :=
  (Lexer.run source false false (.ofText source)).result

end SelectorCheck
