import SelectorCheck.Text.Cursor

/-!
# Where the argument of a function ends

An argument ends at the first closing parenthesis that does not close one of
its own. Parentheses within quotation marks do not count, and within quotation
marks a backslash takes away the meaning of the character behind it. Nothing
else about the argument is looked at.

## Main definitions

* `RawArgument.scan` — the text up to the closing parenthesis and the place of
  the parenthesis, or the place where the search ends in vain.
-/

namespace SelectorCheck.RawArgument

/-- Puts a character in front of the text that a scan has passed. -/
def passing (c : Char) : Except Cursor (Text × Cursor) → Except Cursor (Text × Cursor)
  | .ok (content, place) => .ok (c :: content, place)
  | .error place => .error place

/-- The text at position `pos` up to the closing parenthesis, and the place of the parenthesis.
Within the text so far `depth` parentheses have been opened and not closed, and `mark`, if there
is one, is the mark of the quotation that the scan is in.

If there is no such parenthesis the scan ends behind the text, at a place that lies one further if
the last character is a backslash within quotation marks. -/
def scan : (depth : Nat) → (mark : Option Char) → (pos : Nat) → Text →
    Except Cursor (Text × Cursor)
  | _, _, pos, [] => .error ⟨pos, []⟩
  | depth, some mark, pos, c :: rest =>
    if c == backslash then
      match rest with
      | [] => .error ⟨pos + 2, []⟩
      | d :: rest => passing c (passing d (scan depth (some mark) (pos + 2) rest))
    else if c == mark then passing c (scan depth none (pos + 1) rest)
    else passing c (scan depth (some mark) (pos + 1) rest)
  | depth, none, pos, c :: rest =>
    if isQuote c then passing c (scan depth (some c) (pos + 1) rest)
    else if c == '(' then passing c (scan (depth + 1) none (pos + 1) rest)
    else if c == ')' then
      match depth with
      | 0 => .ok ([], ⟨pos, c :: rest⟩)
      | depth + 1 => passing c (scan depth none (pos + 1) rest)
    else passing c (scan depth none (pos + 1) rest)

end SelectorCheck.RawArgument
