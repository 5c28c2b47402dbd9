import SelectorCheck.Text.Basic

/-!
# Places in a text

A cursor is a place in a text: how many characters lie behind it, and the
text ahead of it. Readers pass cursors on, so the position that an error
reports is the one where the reading stopped.

## Main definitions

* `Cursor.ofText` — the place at the start of a text.
* `Cursor.skip` — the place a number of characters further on.
* `Cursor.skipWhile`, `Cursor.skipBlanks` — the place behind the longest run
  of characters of a kind.
-/

namespace SelectorCheck

/-- A place in a text. -/
structure Cursor where
  /-- The number of characters behind the place. -/
  pos : Nat
  /-- The text ahead of the place. -/
  rest : Text
deriving DecidableEq, Repr

namespace Cursor

/-- The start of a text. -/
def ofText (t : Text) : Cursor := ⟨0, t⟩

/-- The place `n` characters further on. -/
def skip (n : Nat) (c : Cursor) : Cursor := ⟨c.pos + n, c.rest.drop n⟩

/-- The place behind the longest run of characters with the property `p`. -/
def skipWhile (p : Char → Bool) (c : Cursor) : Cursor :=
  ⟨c.pos + (c.rest.takeWhile p).length, c.rest.dropWhile p⟩

/-- The place behind the blanks. -/
def skipBlanks (c : Cursor) : Cursor := c.skipWhile isBlank

@[simp] theorem pos_ofText (t : Text) : (ofText t).pos = 0 := rfl

@[simp] theorem rest_ofText (t : Text) : (ofText t).rest = t := rfl

@[simp] theorem pos_skip (n : Nat) (c : Cursor) : (c.skip n).pos = c.pos + n := rfl

@[simp] theorem rest_skip (n : Nat) (c : Cursor) : (c.skip n).rest = c.rest.drop n := rfl

@[simp] theorem pos_skipWhile (p : Char → Bool) (c : Cursor) :
    (c.skipWhile p).pos = c.pos + (c.rest.takeWhile p).length := rfl

@[simp] theorem rest_skipWhile (p : Char → Bool) (c : Cursor) :
    (c.skipWhile p).rest = c.rest.dropWhile p := rfl

/-- Skipping never lengthens what is ahead. -/
theorem length_rest_skipWhile_le (p : Char → Bool) (c : Cursor) :
    (c.skipWhile p).rest.length ≤ c.rest.length :=
  (List.dropWhile_sublist p).length_le

/-- What lies behind and what lies ahead of a place add up to the same length. -/
theorem pos_add_length_skipWhile (p : Char → Bool) (c : Cursor) :
    (c.skipWhile p).pos + (c.skipWhile p).rest.length = c.pos + c.rest.length := by
  have split := congrArg List.length (List.takeWhile_append_dropWhile (p := p) (l := c.rest))
  simp only [List.length_append] at split
  simp only [pos_skipWhile, rest_skipWhile]
  omega

end Cursor

end SelectorCheck
