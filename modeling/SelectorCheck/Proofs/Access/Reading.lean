import SelectorCheck.Error.Basic
import SelectorCheck.Proofs.Text.Run

/-!
# Accesses that can fault

The readers of this library take a text apart from its front, so they cannot
read past its end. A reader that goes by position can. It may ask for a character
that is not there, take the first of no elements, convert what is no number, or
look up an entry that was never made. Such accesses are written out here: each
one has a value or is a fault, and a fault is none of the failures that are
reported about a selector.

The following files read selectors a second time, by position and with every
access written out, and show that this comes to what reading from the front
comes to. So no access faults, whatever the selector.

## Main definitions

* `Access.Fault`, `Access.Reading` — faults, and what a reader comes to.
* `Access.elem` — the element at an index.
* `Access.skipWhile` — the position behind a run of characters.
* `Cursor.In` — a cursor stands at its position of a text.

## Main results

* `Access.skipWhile_eq`, `Access.readName_eq` — runs by position.
-/

namespace SelectorCheck

/-- The cursor stands in the text, at its position. -/
def Cursor.In (t : Text) (c : Cursor) : Prop := t.drop c.pos = c.rest

namespace Access

/-! ## Faults -/

/-- What an access can fail with. -/
inductive Fault where
  /-- A position or an index behind the last one. -/
  | index
  /-- A part that a value of this form does not have. -/
  | attribute
  /-- A text that is converted to a number and is none, or is too long. -/
  | conversion
  /-- An entry that is not in a table. -/
  | entry
  /-- A reader that was never written. -/
  | unwritten
  /-- No more rounds of a loop or levels of a recursion. -/
  | endless
deriving DecidableEq, Repr

/-- What ends a reading without a value: a fault, or a failure that is reported. -/
inductive Stop where
  | fault (fault : Fault)
  | failure (failure : Failure)
deriving DecidableEq, Repr

/-- What a reader comes to. -/
abbrev Reading (α : Type) := Except Stop α

namespace Reading

variable {α β : Type}

/-- The reading faults. -/
def fault (f : Fault) : Reading α := .error (.fault f)

/-- The reading ends with an error that is reported. -/
def fail (e : SelectorError) : Reading α := .error (.failure (.ofError e))

/-- The reading that comes to a result. -/
def ofResult : Except Failure α → Reading α
  | .ok a => .ok a
  | .error f => .error (.failure f)

/-- The reading that comes to a result with no other causes. -/
def ofExcept : Except SelectorError α → Reading α
  | .ok a => .ok a
  | .error e => fail e

@[simp] theorem bind_ok (a : α) (f : α → Reading β) : (Except.ok a >>= f) = f a := rfl

@[simp] theorem bind_error (s : Stop) (f : α → Reading β) : (Except.error s >>= f) = .error s := rfl

@[simp] theorem pure_eq (a : α) : (pure a : Reading α) = .ok a := rfl

theorem ofExcept_map (f : α → β) (r : Except SelectorError α) :
    (ofExcept r >>= fun a => pure (f a)) = ofExcept (r.map f) := by
  cases r <;> rfl

end Reading

open Reading

/-! ## Accesses -/

/-- The element at an index, if there is one. -/
def elem {α : Type} (xs : List α) (i : Nat) : Reading α :=
  match xs[i]? with
  | some a => .ok a
  | none => fault .index

/-- The piece of a text between two positions, as far as there is any. -/
def slice (t : Text) (start stop : Nat) : Text := (t.take stop).drop start

/-- The character at a position, if the position lies in the text. -/
def peek (t : Text) (pos : Nat) : Reading (Option Char) :=
  if pos < t.length then do
    let c ← elem t pos
    return some c
  else return none

/-- The position behind the characters with the property `p`, as long as they lie before `stop`. -/
def skipWhile (p : Char → Bool) (t : Text) (stop pos : Nat) : Reading Nat :=
  if pos < stop then do
    let c ← elem t pos
    if p c then skipWhile p t stop (pos + 1) else return pos
  else return pos
termination_by stop - pos

/-- The position behind the blanks. -/
def skipBlanks (t : Text) (pos : Nat) : Reading Nat := skipWhile isBlank t t.length pos

/-- The name at a position, and the position behind it. -/
def readName (t : Text) (pos : Nat) : Reading (Text × Nat) := do
  let stop ← skipWhile isNameChar t t.length pos
  return (slice t pos stop, stop)

end Access

/-! ## Cursors in a text -/

namespace Cursor.In

variable {t : Text} {c place : Cursor}

theorem skip (h : c.In t) (n : Nat) : (c.skip n).In t := by
  rw [In, pos_skip, rest_skip, ← h, List.drop_drop]

theorem length_rest (h : c.In t) : c.rest.length = t.length - c.pos := by
  rw [← h, List.length_drop]

theorem of_cons {pos : Nat} {ch : Char} {rest : Text} (h : (mk pos (ch :: rest)).In t) :
    (mk (pos + 1) rest).In t :=
  h.skip 1

theorem pos_lt {pos : Nat} {ch : Char} {rest : Text} (h : (mk pos (ch :: rest)).In t) :
    pos < t.length := by
  have hlength := h.length_rest
  simp only [List.length_cons] at hlength
  omega

theorem not_pos_lt {pos : Nat} (h : (mk pos []).In t) : ¬ pos < t.length := by
  have hlength := h.length_rest
  simp only [List.length_nil] at hlength
  omega

theorem ofText (t : Text) : (ofText t).In t := rfl

/-- Unless it is behind the text, a cursor with nothing ahead of it is at the end. -/
theorem rest_eq_nil_iff (h : c.In t) (hle : c.pos ≤ t.length) :
    c.rest = [] ↔ c.pos = t.length := by
  rw [← List.length_eq_zero_iff, h.length_rest]
  omega

/-- A place ahead of one in the text is in the text. -/
theorem ahead (h : c.In t) (hplace : c.Ahead place) : place.In t := by
  obtain ⟨u, hrest, hpos⟩ := hplace
  rw [In, hpos, ← List.drop_drop, h, hrest, List.drop_left]

theorem skipWhile (h : c.In t) (p : Char → Bool) : (c.skipWhile p).In t :=
  h.ahead (.skipWhile p c)

theorem pos_le_of_ahead (h : c.In t) (hle : c.pos ≤ t.length) (hplace : c.Ahead place) :
    place.pos ≤ t.length := by
  have hsum := hplace.length_eq
  rw [h.length_rest] at hsum
  omega

end Cursor.In

namespace Access

open Reading Text

/-! ## Accesses ahead of a cursor -/

section Ahead

variable {t u rest : Text} {c : Cursor} {pos : Nat} {ch : Char}

/-- The first character ahead of a cursor is there. -/
theorem elem_of_prefix (hu : u <+: t) (h : (Cursor.mk pos (ch :: rest)).In u) :
    elem t pos = .ok ch := by
  obtain ⟨behind, rfl⟩ := hu
  have hget : u[pos]? = some ch := by
    rw [← List.head?_drop, h]
    rfl
  have hlt : pos < u.length := h.pos_lt
  rw [elem, List.getElem?_append_left hlt, hget]

theorem elem_eq (h : (Cursor.mk pos (ch :: rest)).In t) : elem t pos = .ok ch :=
  elem_of_prefix (List.prefix_refl t) h

theorem peek_eq (h : c.In t) : peek t c.pos = .ok c.rest.head? := by
  obtain ⟨pos, rest⟩ := c
  cases rest with
  | nil => rw [peek, if_neg h.not_pos_lt]; rfl
  | cons ch rest => rw [peek, if_pos h.pos_lt, elem_eq h]; rfl

/-- Skipping by position skips what skipping from the front skips, and never leaves the text. -/
theorem skipWhile_of_prefix (p : Char → Bool) (hu : u <+: t) (h : c.In u) :
    skipWhile p t u.length c.pos = .ok (c.skipWhile p).pos := by
  obtain ⟨pos, rest⟩ := c
  induction rest generalizing pos with
  | nil => rw [skipWhile, if_neg h.not_pos_lt]; rfl
  | cons ch rest ih =>
    rw [skipWhile, if_pos h.pos_lt, elem_of_prefix hu h, bind_ok]
    by_cases hp : p ch = true
    · have hplace : pos + 1 + (rest.takeWhile p).length =
          pos + ((ch :: rest).takeWhile p).length := by
        rw [List.takeWhile_cons, if_pos hp, List.length_cons]
        omega
      rw [if_pos hp, ih (pos + 1) h.of_cons]
      exact congrArg _ hplace
    · rw [if_neg hp]
      simp [Cursor.skipWhile, hp]

theorem skipWhile_eq (p : Char → Bool) (h : c.In t) :
    skipWhile p t t.length c.pos = .ok (c.skipWhile p).pos :=
  skipWhile_of_prefix p (List.prefix_refl t) h

theorem skipBlanks_eq (h : c.In t) : skipBlanks t c.pos = .ok c.skipBlanks.pos :=
  skipWhile_eq isBlank h

/-- A piece that begins at a cursor is what lies ahead of it. -/
theorem slice_eq (h : c.In t) (n : Nat) : slice t c.pos (c.pos + n) = c.rest.take n := by
  rw [slice, List.drop_take, h, Nat.add_sub_cancel_left]

theorem slice_cons (h : (Cursor.mk pos (ch :: rest)).In t) {stop : Nat} (hstop : pos < stop) :
    slice t pos stop = ch :: slice t (pos + 1) stop := by
  obtain ⟨n, rfl⟩ : ∃ n, stop = pos + 1 + n := ⟨stop - (pos + 1), by omega⟩
  have hshort : slice t (pos + 1) (pos + 1 + n) = rest.take n := slice_eq h.of_cons n
  have hlong : slice t pos (pos + (n + 1)) = (ch :: rest).take (n + 1) := slice_eq h (n + 1)
  rw [hshort, ← List.take_succ_cons, ← hlong, Nat.add_assoc, Nat.add_comm 1 n]

/-- The piece from a cursor up to where skipping stops is the run that is skipped. -/
theorem slice_skipWhile (p : Char → Bool) (h : c.In t) :
    slice t c.pos (c.skipWhile p).pos = c.rest.takeWhile p := by
  have hleft : (c.rest.takeWhile p ++ c.rest.dropWhile p).take _ = c.rest.takeWhile p :=
    List.take_left
  rw [List.takeWhile_append_dropWhile] at hleft
  rw [Cursor.pos_skipWhile, slice_eq h, hleft]

theorem readName_eq (h : c.In t) :
    readName t c.pos = .ok (c.rest.takeName, (c.skipWhile isNameChar).pos) := by
  rw [readName, skipWhile_eq isNameChar h, bind_ok, slice_skipWhile isNameChar h]
  rfl

end Ahead

end Access

end SelectorCheck
