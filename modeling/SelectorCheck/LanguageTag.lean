import SelectorCheck.Error.Basic
import SelectorCheck.Text.Cursor
import SelectorCheck.Text.Name

/-!
# Language tags

The argument of `lang` is a language tag, plain or quoted. A plain tag is an
identifier: it begins with a letter, or with a hyphen that a letter or another
hyphen follows. A quoted tag may hold anything; in it, a backslash stands for
the character behind it.

Blanks around the tag do not belong to it. What else stands in the argument is
rejected from its first character to its last that is no blank.

## Main definitions

* `LanguageTag.readQuoted` — the text up to a closing mark, and the place
  behind the mark.
* `LanguageTag.read` — the tag at a place, or the place of what does not
  belong there.
* `LanguageTag.parse` — reading with errors as they are reported.
-/

namespace SelectorCheck.LanguageTag

/-- The text at position `pos` up to the closing `mark`, and the place behind the mark. Without a
closing mark there is none. -/
def readQuoted (mark : Char) : (pos : Nat) → Text → Option (Text × Cursor)
  | _, [] => none
  | pos, c :: rest =>
    if c == mark then some ([], ⟨pos + 1, rest⟩)
    else if c == backslash then
      match rest with
      | [] => none
      | d :: rest => (readQuoted mark (pos + 2) rest).map fun (t, place) => (d :: t, place)
    else (readQuoted mark (pos + 1) rest).map fun (t, place) => (c :: t, place)

/-- Whether a text begins as an identifier does. -/
def startsIdentifier : Text → Bool
  | [] => false
  | c :: rest =>
    if c == '-' then rest.head?.any fun d => d == '-' || isTagLetter d
    else isTagLetter c

/-- The plain tag that makes up the text at a place. -/
def readPlain (c : Cursor) : Except Cursor Text :=
  if startsIdentifier c.rest then
    if (c.skipWhile isTagChar).rest = [] then .ok c.rest else .error (c.skipWhile isTagChar)
  else .error c

/-- The tag that makes up the text at a place. -/
def read (c : Cursor) : Except Cursor Text :=
  match c.rest with
  | [] => readPlain c
  | mark :: rest =>
    if isQuote mark then
      match readQuoted mark (c.pos + 1) rest with
      | none => .error c
      | some (tag, place) => if place.rest = [] then .ok tag else .error place
    else readPlain c

/-- The error for a text that is no tag from some place on. -/
def breakOff (name value : Text) (context : Option Context) (place : Cursor) : SelectorError :=
  { code := .invalidLang, name := some name, value := some value,
    token := some place.rest, position := some place.pos, context := context }

/-- The tag that the argument of the function `name` holds. -/
def parse (name : Text) (value : Option Text) (context : Option Context) :
    Except SelectorError Text :=
  match value with
  | none => .error (.missingArgument name none context)
  | some v =>
    if v.allBlank then .error (.missingArgument name (some v) context)
    else
      match read (Cursor.ofText v.trimEnd).skipBlanks with
      | .ok tag => .ok tag
      | .error place => .error (breakOff name v context place)

end SelectorCheck.LanguageTag
