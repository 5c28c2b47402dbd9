import SelectorCheck.CommandLine.Options
import SelectorCheck.Validator

/-!
# Running a command line

A command line checks its selectors and reports on the bad ones, one line
each. With the strict option it reports on the first bad one only. Instead of
checking it may list the names of a category. With the verbose option the
records of the check come first. Neither is possible where the version or the
profile has been left empty.

## Main definitions

* `CommandLine.Outcome` — exit status and output.
* `CommandLine.check`, `CommandLine.listNames` — the two things to do.
* `CommandLine.run` — what a command line comes to.
-/

namespace SelectorCheck.CommandLine

/-- What a command line comes to. -/
structure Outcome where
  status : Nat
  stdout : Text
  /-- The error output. A command line that is refused has none of its own. -/
  stderr : Option Text
deriving DecidableEq, Repr

/-- Texts, each on a line of its own. -/
def lines (texts : List Text) : Text := texts.flatMap (· ++ ['\n'])

@[simp] theorem lines_nil : lines [] = [] := rfl

@[simp] theorem lines_cons (t : Text) (rest : List Text) :
    lines (t :: rest) = t ++ '\n' :: lines rest := by
  simp [lines]

/-- The name and release of the program. -/
def releaseText : Text := "csspseudo 0.1.0".toList

/-- A record of the check as a line of the error output. -/
def recordLine (r : LogRecord) : Text :=
  r.logger ++ " - DEBUG - ".toList ++ r.message

/-- Checks the selectors of a command line against a context. -/
def check (context : Context) (o : Options) : Outcome :=
  let validator : Validator := { context := some context, strict := o.strict }
  let checked := validator.checkAll (o.selectors.map some)
  let records := if o.verbose then checked.log.map recordLine else []
  let reports :=
    match checked.result with
    | .ok _ => checked.validator.collected
    | .error diagnostic => [diagnostic]
  { status := if reports.isEmpty then 0 else 1
    stdout := []
    stderr := some (lines (records ++ reports.map Diagnostic.text)) }

/-- Lists the names of a category. Where there is no table there are no names. -/
def listNames (context : Context) (category : Category) : Outcome :=
  { status := 0
    stdout := lines ((context.level.table category).getD [])
    stderr := some [] }

/-- How the program is used. -/
def usage : Text :=
  "usage: csspseudo [-h] [--css-version VERSION] [--profile PROFILE] [--list CATEGORY] ".toList ++
    "[--strict] [-v] [--version] [selectors ...]".toList

/-- What a command line comes to, or why its version or its profile names nothing. -/
def run (words : List Text) : Except LabelError Outcome :=
  match read words with
  | .refused => .ok ⟨2, [], none⟩
  | .help => .ok ⟨0, lines [usage], some []⟩
  | .release => .ok ⟨0, lines [releaseText], some []⟩
  | .run options =>
    match options.context, options.list with
    | .error reason, _ => .error reason
    | .ok context, some category => .ok (listNames context category)
    | .ok context, none => .ok (check context options)

end SelectorCheck.CommandLine
