/-!
# Texts and blank characters

A text is a list of code points. Every position, column and length of this
library counts code points, so an index into the list is the number that an
error reports, and `take` and `drop` cut a text where a message says.

A blank is one of the five characters that separate the parts of a
selector. No other space counts: a no-break space is a name character.

## Main definitions

* `isBlank` — the five blanks.
* `Text.dropBlanks`, `Text.trimEnd`, `Text.trim` — a text without the blanks
  at its start, at its end, or at both.
* `Text.allBlank` — no character but blanks.
-/

namespace SelectorCheck

/-- A text, one element per code point. -/
abbrev Text := List Char

/-! ## Characters that source text cannot show plainly -/

/-- The single quotation mark. -/
def apostrophe : Char := '\x27'

/-- The double quotation mark. -/
def quotationMark : Char := '\x22'

/-- The escape character of quoted texts. -/
def backslash : Char := '\x5c'

/-- The two characters that open and close a quoted text. -/
def isQuote (c : Char) : Bool := c == apostrophe || c == quotationMark

/-! ## Blanks -/

/-- Space, tab, line feed, carriage return and form feed. -/
def isBlank (c : Char) : Bool :=
  c == ' ' || c == '\t' || c == '\n' || c == '\r' || c == '\x0c'

theorem isBlank_iff {c : Char} :
    isBlank c = true ↔ c = ' ' ∨ c = '\t' ∨ c = '\n' ∨ c = '\r' ∨ c = '\x0c' := by
  simp [isBlank, or_assoc]

namespace Text

/-- What is shown in the place of a text or a number that is not there. -/
def missing : Text := "None".toList

/-- The text from its first character that is no blank. -/
def dropBlanks (t : Text) : Text := t.dropWhile isBlank

/-- The text up to its last character that is no blank. -/
def trimEnd (t : Text) : Text := (t.reverse.dropWhile isBlank).reverse

/-- The text without the blanks around it. -/
def trim (t : Text) : Text := trimEnd (dropBlanks t)

/-- Holds of the empty text and of a text of blanks only. -/
def allBlank (t : Text) : Bool := t.all isBlank

@[simp] theorem allBlank_nil : allBlank [] = true := rfl

@[simp] theorem allBlank_cons (c : Char) (t : Text) :
    allBlank (c :: t) = (isBlank c && allBlank t) := rfl

@[simp] theorem dropBlanks_nil : dropBlanks [] = [] := rfl

@[simp] theorem trimEnd_nil : trimEnd [] = [] := rfl

/-- A text has only blanks exactly if nothing is left without the leading ones. -/
theorem dropBlanks_eq_nil_iff {t : Text} : dropBlanks t = [] ↔ allBlank t = true := by
  induction t with
  | nil => simp
  | cons c t ih =>
    by_cases h : isBlank c = true
    · have : dropBlanks (c :: t) = dropBlanks t := by simp [dropBlanks, h]
      simp [this, ih, h]
    · simp [dropBlanks, h]

/-- The blanks that `trimEnd` removes stand at the end. -/
theorem trimEnd_append_blanks {t blanks : Text} (h : allBlank blanks = true) :
    trimEnd (t ++ blanks) = trimEnd t := by
  have all : ∀ c ∈ blanks.reverse, isBlank c = true := by
    simpa [allBlank] using h
  simp [trimEnd, List.dropWhile_append_of_pos all]

end Text

end SelectorCheck
