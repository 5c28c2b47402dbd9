import SelectorCheck.Error.Basic

/-!
# Diagnostics

A diagnostic is the report on one rejected selector: the code, the selector,
the column at which the trouble begins, the wording, and the class of the
error. Columns count from one, and the column behind the last character is a
column too.

A diagnostic can be turned into an excerpt, which is what an editor needs to
mark the place: the wording with the selector as a single line and the columns
between which the mark goes. Without a column or a selector there is nothing
to mark.

## Main definitions

* `Diagnostic`, `Diagnostic.ofError`, `Diagnostic.make` — reports, made from
  an error or from their parts.
* `Diagnostic.text`, `Diagnostic.debug` — how a report is written.
* `Diagnostic.same` — whether two reports are about the same trouble.
* `Excerpt`, `Diagnostic.excerpt` — the place to mark.
-/

namespace SelectorCheck

/-- The report on a rejected selector. -/
structure Diagnostic where
  code : Text
  selector : Option Text
  column : Option Int
  message : Text
  errorClass : Text
deriving DecidableEq, Repr

/-- A line of text with a mark in it. -/
structure Mark where
  /-- The line. -/
  line : Text
  /-- The first column of the mark. -/
  column : Int
  /-- The column behind the mark. -/
  endColumn : Int
deriving DecidableEq, Repr

/-- A wording, with the place that it is about if there is one. -/
structure Excerpt where
  message : Text
  mark : Option Mark
deriving DecidableEq, Repr

namespace Excerpt

/-- What stands for the name of the file that the line is from. -/
def fileName : Text := "<selector>".toList

/-- The number of the line; a selector is a single one. -/
def lineNumber : Nat := 1

/-- The wording, with the line that it is about. -/
def text (e : Excerpt) : Text :=
  match e.mark with
  | none => e.message
  | some _ =>
    e.message ++ " (".toList ++ fileName ++ ", line ".toList ++ Decimal.ofNat lineNumber ++
      ")".toList

end Excerpt

namespace Diagnostic

/-- The class that is shown where none is given. -/
def standardClass : Text := ErrorClass.selector.name

/-- The report with these parts. Without a wording the code is its own wording. -/
def make (code : Text) (selector : Option Text) (column : Option Int) (message : Option Text)
    (errorClass : Text) : Diagnostic :=
  let wording := message.getD []
  ⟨code, selector, column, if wording = [] then code else wording, errorClass⟩

/-- The report on an error in a selector. -/
def ofError (e : SelectorError) (selector : Option Text) : Diagnostic :=
  make e.code.text selector (e.position.map (· + 1)) (some e.message) e.errorClass.name

/-- The selector with the column, as far as they are known. -/
def location (d : Diagnostic) : Text :=
  d.selector.getD [] ++
    match d.column with
    | some column => ':' :: Decimal.ofInt column
    | none => []

/-- The report on one line. A wording that is the code itself is not repeated. -/
def text (d : Diagnostic) : Text :=
  d.location ++ ": ".toList ++ d.code ++
    if d.message = d.code then [] else " - ".toList ++ d.message

/-- How a report is shown. -/
def debug (d : Diagnostic) : Text :=
  "SelectorDiagnostic(".toList ++ Text.quoted d.code ++
    (match d.column with
    | some column => ", column=".toList ++ Decimal.ofInt column
    | none => []) ++ ")".toList

/-- Two reports are about the same trouble if code, selector and column agree. -/
def same (a b : Diagnostic) : Bool :=
  a.code == b.code && a.selector == b.selector && a.column == b.column

/-- The place of the trouble: one column, unless it lies behind the selector. -/
def excerpt (d : Diagnostic) : Excerpt where
  message := d.message
  mark :=
    match d.column, d.selector with
    | some column, some line => some ⟨line, column, min (column + 1) (line.length + 1)⟩
    | _, _ => none

end Diagnostic

end SelectorCheck
