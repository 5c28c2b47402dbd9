import SelectorCheck.Text.Basic

/-!
# Versions and profiles

Which pseudo names a selector may use depends on the version of the language
and on the profile that the style sheet is delivered for. Both are small
closed sets. Each member has a name that is shown and a number that a caller
may use in its place; a number outside the range stands for nothing.

## Main definitions

* `Version`, `Profile` — the two sets.
* `Version.number`, `Version.ofNumber?` — the numbers, which are ordered as
  the versions are.
-/

namespace SelectorCheck

/-! ## Versions -/

/-- A version of the language of selectors. -/
inductive Version where
  | css1
  | css2
  | css21
  | css3
deriving DecidableEq, Repr

namespace Version

/-- All versions, the oldest first. -/
def all : List Version := [css1, css2, css21, css3]

/-- The name that is shown. -/
def name : Version → Text
  | css1 => "CSS1".toList
  | css2 => "CSS2".toList
  | css21 => "CSS21".toList
  | css3 => "CSS3".toList

/-- The place in the order of the versions, from one. -/
def number : Version → Nat
  | css1 => 1
  | css2 => 2
  | css21 => 3
  | css3 => 4

/-- The version with a number, if there is one. -/
def ofNumber? (n : Int) : Option Version := all.find? fun v => (v.number : Int) == n

/-- The version with a name, if there is one. -/
def ofName? (t : Text) : Option Version := all.find? fun v => v.name == t

theorem ofNumber?_number (v : Version) : ofNumber? v.number = some v := by
  cases v <;> decide +kernel

theorem ofName?_name (v : Version) : ofName? v.name = some v := by
  cases v <;> decide +kernel

end Version

/-! ## Profiles -/

/-- What a style sheet is delivered for. -/
inductive Profile where
  /-- Devices without restrictions of their own. -/
  | general
  /-- Television sets. -/
  | tv
  /-- Mobile devices. -/
  | mobile
deriving DecidableEq, Repr

namespace Profile

/-- All profiles. -/
def all : List Profile := [general, tv, mobile]

/-- The name that is shown. -/
def name : Profile → Text
  | general => "DEFAULT".toList
  | tv => "TV".toList
  | mobile => "MOBILE".toList

/-- The number of a profile, from zero. -/
def number : Profile → Nat
  | general => 0
  | tv => 1
  | mobile => 2

/-- The profile with a number, if there is one. -/
def ofNumber? (n : Int) : Option Profile := all.find? fun p => (p.number : Int) == n

/-- The profile with a name, if there is one. -/
def ofName? (t : Text) : Option Profile := all.find? fun p => p.name == t

theorem ofNumber?_number (p : Profile) : ofNumber? p.number = some p := by
  cases p <;> decide +kernel

theorem ofName?_name (p : Profile) : ofName? p.name = some p := by
  cases p <;> decide +kernel

end Profile

end SelectorCheck
