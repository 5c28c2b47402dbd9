import SelectorCheck.Selector.Simple

/-!
# Selectors

Simple selectors without anything between them form a compound selector.
Compound selectors joined by combinators form a complex selector, and complex
selectors separated by commas form a list. A list has at least two members: a
single complex selector is not a list of one.

## Main definitions

* `Compound`, `Complex`, `Selector` — the three layers.
* `Selector.bare`, `Selector.same` — comparison without regard to positions.
-/

namespace SelectorCheck

/-- Simple selectors that all hold of one element. -/
structure Compound where
  first : Simple
  others : List Simple
deriving DecidableEq, Repr

/-- A compound selector with the combinator in front of it. A combinator made by a caller may be
missing. -/
structure Link where
  combinator : Option Text
  compound : Compound
deriving DecidableEq, Repr

/-- Compound selectors joined by combinators. -/
structure Complex where
  first : Compound
  links : List Link
deriving DecidableEq, Repr

/-- What a whole selector is. -/
inductive Selector where
  | complex (c : Complex)
  | list (first second : Complex) (others : List Complex)
deriving DecidableEq, Repr

/-! ## Members -/

/-- All simple selectors of a compound selector. -/
def Compound.simples (c : Compound) : List Simple := c.first :: c.others

/-- All compound selectors of a complex selector, each with the combinator in front of it. The
first one has none. -/
def Complex.parts (c : Complex) : List Link := ⟨none, c.first⟩ :: c.links

/-- All simple selectors of a complex selector. -/
def Complex.simples (c : Complex) : List Simple := c.parts.flatMap fun l => l.compound.simples

/-- The complex selectors that a selector is made of. -/
def Selector.members : Selector → List Complex
  | complex c => [c]
  | list first second others => first :: second :: others

/-- The first complex selector of a selector. -/
def Selector.first : Selector → Complex
  | complex c => c
  | list first _ _ => first

/-- All simple selectors of a selector, in the order in which they are written. -/
def Selector.simples (s : Selector) : List Simple := s.members.flatMap Complex.simples

/-- The selector with these members. -/
def Selector.ofMembers (first : Complex) : List Complex → Selector
  | [] => complex first
  | second :: others => list first second others

@[simp] theorem Selector.members_ofMembers (first : Complex) (others : List Complex) :
    (ofMembers first others).members = first :: others := by
  cases others <;> rfl

/-! ## Comparison -/

/-- A compound selector without positions. -/
def Compound.bare (c : Compound) : Compound := ⟨c.first.bare, c.others.map SimpleOf.bare⟩

/-- A complex selector without positions. -/
def Complex.bare (c : Complex) : Complex :=
  ⟨c.first.bare, c.links.map fun l => ⟨l.combinator, l.compound.bare⟩⟩

/-- A selector without positions. -/
def Selector.bare : Selector → Selector
  | complex c => complex c.bare
  | list first second others => list first.bare second.bare (others.map Complex.bare)

theorem Selector.bare_ofMembers (first : Complex) (members : List Complex) :
    (ofMembers first members).bare = ofMembers first.bare (members.map Complex.bare) := by
  cases members <;> rfl

theorem Selector.members_bare (s : Selector) : s.bare.members = s.members.map Complex.bare := by
  cases s <;> rfl

/-- Whether two simple selectors are the same but for positions. -/
def SimpleOf.same (a b : Simple) : Bool := a.bare == b.bare

/-- Whether two compound selectors are the same but for positions. -/
def Compound.same (a b : Compound) : Bool := a.bare == b.bare

/-- Whether two selectors are the same but for positions. -/
def Selector.same (a b : Selector) : Bool := a.bare == b.bare

end SelectorCheck
