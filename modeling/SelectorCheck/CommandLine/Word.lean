import SelectorCheck.Text.DecimalDigit

/-!
# The words of a command line

An option begins with a hyphen and may be cut short as long as no other option
begins the same way. The value of an option is the next word, or follows an
equals sign. Options without values that have a one-letter form may share one
hyphen, and an equals sign between the first letter and the others changes
nothing. Behind two hyphens that stand alone no word is an option.

A hyphen also begins words that are no options: a lone hyphen, a negative
number, and anything with a space in it that no option begins.

## Main definitions

* `CommandLine.Flag` — the options; `Flag.spellings` lists how they are
  written.
* `CommandLine.Word`, `CommandLine.classify` — what a word is on its own.
* `CommandLine.classifyAll` — what the words of a command line are.
-/

namespace SelectorCheck.CommandLine

/-! ## Options and their spellings -/

/-- The options. -/
inductive Flag where
  | help
  | version
  | profile
  | list
  | strict
  | verbose
  /-- The option that shows the version of the program. -/
  | release
deriving DecidableEq, Repr

namespace Flag

/-- The ways to write an option in full. -/
def spellings : List (Text × Flag) :=
  [("-h".toList, help), ("--help".toList, help), ("--css-version".toList, version),
    ("--profile".toList, profile), ("--list".toList, list), ("--strict".toList, strict),
    ("-v".toList, verbose), ("--verbose".toList, verbose), ("--version".toList, release)]

/-- The option that is written like this. -/
def ofSpelling? (t : Text) : Option Flag := spellings.lookup t

/-- The options that begin like this. -/
def beginningWith (t : Text) : List Flag :=
  (spellings.filter fun entry => t.isPrefixOf entry.1).map (·.2)

/-- Whether an option has a value. -/
def takesValue : Flag → Bool
  | version | profile | list => true
  | help | strict | verbose | release => false

end Flag

/-! ## Words on their own -/

/-- What a word is on its own. -/
inductive Word where
  /-- A selector, or the value of an option. -/
  | plain (t : Text)
  /-- Two hyphens. -/
  | separator
  /-- An option. -/
  | option (flag : Flag)
  /-- An option with a value behind an equals sign. -/
  | assigned (flag : Flag) (value : Text)
  /-- A one-letter option with further letters behind it, which stand for options as well. -/
  | cluster (flag : Flag) (letters : Text)
  /-- A word that begins as an option does and is none. -/
  | unknown
deriving DecidableEq, Repr

/-- The text before the first equals sign, and the text behind it if there is one. -/
def splitAssignment (t : Text) : Text × Option Text :=
  match t.dropWhile (· != '=') with
  | [] => (t, none)
  | _ :: value => (t.takeWhile (· != '='), some value)

/-- An option with or without a value behind an equals sign. -/
def Word.ofAssignment (flag : Flag) : Option Text → Word
  | none => option flag
  | some value => assigned flag value

/-- A word that begins as an option does, and that no option begins. -/
def unmatched (t : Text) : Word :=
  if t.isNegativeNumber || t.contains ' ' then .plain t else .unknown

/-- A word that begins with two hyphens, if it is unambiguous. -/
def classifyLong (t : Text) : Option Word :=
  let (spelling, value) := splitAssignment t
  match Flag.beginningWith spelling with
  | [] => some (unmatched t)
  | [flag] => some (.ofAssignment flag value)
  | _ => none

/-- A word that begins with one hyphen. -/
def classifyShort (t : Text) : Word :=
  match Flag.ofSpelling? (t.take 2) with
  | some flag => .cluster flag (t.drop 2)
  | none => unmatched t

/-- What a word is that does not stand behind two hyphens, if it is unambiguous. -/
def classify (t : Text) : Option Word :=
  match t with
  | '-' :: rest =>
    match Flag.ofSpelling? t with
    | some flag => some (.option flag)
    | none =>
      match splitAssignment t, rest with
      | _, [] => some (.plain t)
      | (spelling, some value), c :: _ =>
        match Flag.ofSpelling? spelling with
        | some flag =>
          some (if c = '-' || value.isEmpty then .assigned flag value else .cluster flag value)
        | none => if c = '-' then classifyLong t else some (classifyShort t)
      | _, c :: _ => if c = '-' then classifyLong t else some (classifyShort t)
  | _ => some (.plain t)

/-- What the words are, if all of them are unambiguous. -/
def classifyAll : List Text → Option (List Word)
  | [] => some []
  | t :: rest =>
    if t = ['-', '-'] then some (.separator :: rest.map .plain)
    else
      match classify t with
      | none => none
      | some word => (classifyAll rest).map (word :: ·)

end SelectorCheck.CommandLine
