import SelectorCheck.Text.Basic
import SelectorCheck.Text.Printable

/-!
# Quoted texts

Messages show a text that may hold anything between quotation marks, with
escapes for what cannot be shown. The single mark is used unless the text
holds single marks and no double ones, so that as few marks as possible need
an escape.

## Main definitions

* `Text.quoted` — a text between quotation marks.
* `Text.quotedOrNone`, `Text.shownOrNone` — an optional text, quoted or as it
  is; a missing one is shown as a bare word.
-/

namespace SelectorCheck.Text

/-- The lowest `width` digits of `n` to the base sixteen. -/
def hexDigits : (width n : Nat) → Text
  | 0, _ => []
  | width + 1, n => hexDigits width (n / 16) ++ [(n % 16).digitChar]

@[simp] theorem length_hexDigits (width n : Nat) : (hexDigits width n).length = width := by
  induction width generalizing n with
  | zero => rfl
  | succ width ih => simp [hexDigits, ih]

/-- The mark that goes around a text. -/
def enclosingMark (t : Text) : Char :=
  if t.contains apostrophe && !t.contains quotationMark then quotationMark else apostrophe

/-- The escape of a character that cannot be shown: two, four or eight digits, the fewest that
hold it. -/
def codeEscape (c : Char) : Text :=
  if c.toNat < 0x100 then backslash :: 'x' :: hexDigits 2 c.toNat
  else if c.toNat < 0x10000 then backslash :: 'u' :: hexDigits 4 c.toNat
  else backslash :: 'U' :: hexDigits 8 c.toNat

/-- One character of a text between two `mark`s. -/
def escaped (mark c : Char) : Text :=
  if c == mark || c == backslash then [backslash, c]
  else if c == '\t' then [backslash, 't']
  else if c == '\n' then [backslash, 'n']
  else if c == '\r' then [backslash, 'r']
  else if isPrintable c then [c]
  else codeEscape c

/-- A text between quotation marks. -/
def quoted (t : Text) : Text :=
  let mark := enclosingMark t
  mark :: (t.flatMap (escaped mark) ++ [mark])

@[simp] theorem quoted_nil : quoted [] = [apostrophe, apostrophe] := rfl

/-- An optional text between quotation marks. -/
def quotedOrNone : Option Text → Text
  | none => missing
  | some t => quoted t

/-- An optional text as it is. -/
def shownOrNone : Option Text → Text
  | none => missing
  | some t => t

@[simp] theorem shownOrNone_some (t : Text) : shownOrNone (some t) = t := rfl

@[simp] theorem quotedOrNone_some (t : Text) : quotedOrNone (some t) = quoted t := rfl

/-- Texts between brackets, separated by commas. -/
def bracketed (items : List Text) : Text :=
  "[".toList ++ ", ".toList.intercalate items ++ "]".toList

end SelectorCheck.Text
