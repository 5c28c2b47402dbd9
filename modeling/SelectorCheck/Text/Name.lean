import SelectorCheck.Text.Basic

/-!
# Name characters

Tag, class, id and pseudo names are runs of name characters. Below 128 only
letters, digits, the low line and the hyphen belong to them; every code
point above 127 does, whatever it is.

## Main definitions

* `isNameStart`, `isNameChar` — the characters of a name in a selector.
* `takeName`, `dropName` — the longest run of name characters at the start
  of a text, and what follows it.
* `isTagLetter`, `isTagChar` — the characters of an unquoted language tag,
  where a hyphen is allowed but is not a letter.
-/

namespace SelectorCheck

/-- Code points outside the first 128. -/
def isBeyondAscii (c : Char) : Bool := 127 < c.toNat

/-- A letter, the low line, the hyphen or any code point above 127. -/
def isNameStart (c : Char) : Bool :=
  c.isAlpha || c == '_' || c == '-' || isBeyondAscii c

/-- A name start or a digit. -/
def isNameChar (c : Char) : Bool := isNameStart c || c.isDigit

/-- What an unquoted language tag may start with, a hyphen apart. -/
def isTagLetter (c : Char) : Bool := c.isAlpha || c == '_' || isBeyondAscii c

/-- A letter of a language tag, a digit or the hyphen. -/
def isTagChar (c : Char) : Bool := c.isAlphanum || c == '-' || c == '_' || isBeyondAscii c

namespace Text

/-- The longest run of name characters at the start. -/
def takeName (t : Text) : Text := t.takeWhile isNameChar

/-- What follows the longest run of name characters at the start. -/
def dropName (t : Text) : Text := t.dropWhile isNameChar

@[simp] theorem takeName_append_dropName (t : Text) : takeName t ++ dropName t = t :=
  List.takeWhile_append_dropWhile

end Text

/-- A language tag is made of the characters of a name. -/
theorem isTagChar_eq_isNameChar (c : Char) : isTagChar c = isNameChar c := by
  simp only [isTagChar, isNameChar, isNameStart, Char.isAlphanum]
  cases c.isAlpha <;> cases c.isDigit <;> cases (c == '-') <;> cases (c == '_') <;>
    cases isBeyondAscii c <;> rfl

end SelectorCheck
