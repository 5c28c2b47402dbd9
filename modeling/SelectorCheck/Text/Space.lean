import SelectorCheck.Text.Basic

/-!
# White space of all scripts

Labels that a user types are read without the space around them, and every
kind of space counts, also those that are no blanks within a selector.
Characters of no width are not space.

## Main definitions

* `isSpace` — white space of any kind.
* `Text.trimSpace` — a text without the space around it.
-/

namespace SelectorCheck

/-- The code points of white space. -/
def spaceCodes : List Nat :=
  [0x9, 0xA, 0xB, 0xC, 0xD, 0x1C, 0x1D, 0x1E, 0x1F, 0x20, 0x85, 0xA0, 0x1680, 0x2000, 0x2001,
    0x2002, 0x2003, 0x2004, 0x2005, 0x2006, 0x2007, 0x2008, 0x2009, 0x200A, 0x2028, 0x2029,
    0x202F, 0x205F, 0x3000]

/-- White space of any kind. -/
def isSpace (c : Char) : Bool := spaceCodes.contains c.toNat

/-- The text without the space around it. -/
def Text.trimSpace (t : Text) : Text :=
  ((t.dropWhile isSpace).reverse.dropWhile isSpace).reverse

/-- Every blank is white space. -/
theorem isSpace_of_isBlank {c : Char} (h : isBlank c = true) : isSpace c = true := by
  rcases isBlank_iff.mp h with rfl | rfl | rfl | rfl | rfl <;> decide

end SelectorCheck
