import SelectorCheck.Level.Basic

/-!
# The names that a level admits

A level is given by four tables of names: pseudo-classes, pseudo-elements,
pseudo-functions, and the exceptions, which are pseudo-elements that may also
be written with a single colon. A level need not have every table. A missing
table admits nothing.

The television and mobile profiles bring a table of pseudo-classes of their
own, which replaces that of the version. All other tables depend on the
version only.

## Main definitions

* `Level` — the four tables.
* `Level.of` — the tables for a version and a profile.
* `Level.table` — one of the tables, by its category.
* `Level.admitsClass`, `Level.admitsElement`, `Level.admitsFunction`,
  `Level.admitsLegacyElement` — what a selector may use.
-/

namespace SelectorCheck

/-- Names in ascending order of their code points. -/
abbrev NameTable := List Text

/-- Whether a table, if there is one, holds a name. -/
def holds (table : Option NameTable) (name : Text) : Bool := table.any (·.contains name)

@[simp] theorem holds_none (name : Text) : holds none name = false := rfl

@[simp] theorem holds_some (table : NameTable) (name : Text) :
    holds (some table) name = table.contains name := rfl

namespace Level

/-! ## The tables -/

/-- Pseudo-classes of the first version. -/
def classes1 : NameTable := ["active", "link", "visited"].map String.toList

/-- Pseudo-classes of the second version and its revision. -/
def classes2 : NameTable :=
  ["active", "first-child", "focus", "hover", "link", "visited"].map String.toList

/-- Pseudo-classes of the third version. -/
def classes3 : NameTable :=
  ["active", "any-link", "blank", "checked", "current", "default", "defined", "disabled",
    "empty", "enabled", "first-child", "first-of-type", "focus", "focus-visible",
    "focus-within", "fullscreen", "future", "hover", "in-range", "indeterminate", "invalid",
    "last-child", "last-of-type", "link", "local-link", "only-child", "only-of-type",
    "optional", "out-of-range", "past", "pause", "placeholder-shown", "playing", "read-only",
    "read-write", "required", "root", "scope", "target", "target-within", "user-invalid",
    "valid", "visited"].map String.toList

/-- Pseudo-classes of the television profile. -/
def tvClasses : NameTable :=
  ["active", "first-child", "focus", "link", "visited"].map String.toList

/-- Pseudo-classes of the mobile profile. -/
def mobileClasses : NameTable := ["active", "focus", "link", "visited"].map String.toList

/-- Pseudo-elements of the first version. -/
def elements1 : NameTable := ["first-letter", "first-line"].map String.toList

/-- Pseudo-elements of the second version and its revision. -/
def elements2 : NameTable :=
  ["after", "before", "first-letter", "first-line"].map String.toList

/-- Pseudo-elements of the third version. -/
def elements3 : NameTable :=
  ["after", "backdrop", "before", "first-letter", "first-line", "marker", "placeholder",
    "selection"].map String.toList

/-- Pseudo-functions of the second version and its revision. -/
def functions2 : NameTable := ["lang"].map String.toList

/-- Pseudo-functions of the third version. -/
def functions3 : NameTable :=
  ["dir", "has", "is", "lang", "not", "nth-child", "nth-col", "nth-last-child", "nth-last-col",
    "nth-last-of-type", "nth-of-type", "where"].map String.toList

/-! ## Which table applies -/

/-- The pseudo-classes of a version. -/
def versionClasses : Version → NameTable
  | .css1 => classes1
  | .css2 | .css21 => classes2
  | .css3 => classes3

/-- The pseudo-classes of a profile that has a table of its own. -/
def profileClasses : Profile → Option NameTable
  | .general => none
  | .tv => some tvClasses
  | .mobile => some mobileClasses

/-- The pseudo-elements of a version. -/
def versionElements : Version → NameTable
  | .css1 => elements1
  | .css2 | .css21 => elements2
  | .css3 => elements3

/-- The pseudo-functions of a version; the first has none. -/
def versionFunctions : Version → Option NameTable
  | .css1 => none
  | .css2 | .css21 => some functions2
  | .css3 => some functions3

/-- The pseudo-elements that a version also admits behind a single colon. The first version, which
knows the single colon only, has no such table. -/
def versionExceptions : Version → Option NameTable
  | .css1 => none
  | .css2 | .css21 | .css3 => some elements2

end Level

/-! ## Levels -/

/-- The names that selectors may use. -/
structure Level where
  classes : Option NameTable
  elements : Option NameTable
  functions : Option NameTable
  exceptions : Option NameTable
deriving DecidableEq, Repr

/-- The kinds of names that a level has tables for. -/
inductive Category where
  | classes
  | elements
  | functions
  | exceptions
deriving DecidableEq, Repr

namespace Category

/-- All kinds of names. -/
def all : List Category := [classes, elements, functions, exceptions]

/-- The word for a kind of names. -/
def label : Category → Text
  | classes => "classes".toList
  | elements => "elements".toList
  | functions => "functions".toList
  | exceptions => "exceptions".toList

/-- The kind of names that a word stands for. -/
def ofLabel? (t : Text) : Option Category := all.find? fun c => c.label == t

theorem ofLabel?_label (c : Category) : ofLabel? c.label = some c := by
  cases c <;> decide +kernel

end Category

namespace Level

/-- The tables for a version and a profile. Without a version only the profile can have a table;
without a profile the version decides. -/
def of (version : Option Version) (profile : Option Profile) : Level where
  classes := (profile.bind profileClasses).or (version.map versionClasses)
  elements := version.map versionElements
  functions := version.bind versionFunctions
  exceptions := version.bind versionExceptions

/-- The table of a category. -/
def table (level : Level) : Category → Option NameTable
  | .classes => level.classes
  | .elements => level.elements
  | .functions => level.functions
  | .exceptions => level.exceptions

/-- The pseudo-elements behind a single colon. A level without exceptions has no other way to
write one, so all its pseudo-elements count. -/
def legacyElements (level : Level) : Option NameTable := level.exceptions.or level.elements

/-- Whether a name may stand behind a single colon as a pseudo-class. -/
def admitsClass (level : Level) (name : Text) : Bool := holds level.classes name

/-- Whether a name may stand behind two colons. -/
def admitsElement (level : Level) (name : Text) : Bool := holds level.elements name

/-- Whether a name may stand before an argument. -/
def admitsFunction (level : Level) (name : Text) : Bool := holds level.functions name

/-- Whether a name may stand behind a single colon as a pseudo-element. -/
def admitsLegacyElement (level : Level) (name : Text) : Bool := holds level.legacyElements name

/-- Whether a category, given the name of a candidate, admits it. A missing name is admitted
nowhere. -/
def admits (level : Level) (category : Category) (name : Option Text) : Bool :=
  name.any (holds (level.table category))

end Level

end SelectorCheck
