import SelectorCheck.Diagnostic

/-!
# Computations that leave a record

Building functions and checking selectors leaves records that a log may show.
A traced computation comes to a value or to a failure, and to the records that
were left on the way, also on the way to a failure.

## Main definitions

* `LogRecord` — the records; `LogRecord.message` words them.
* `Traced` — a result with its records.
* `Traced.bind` — one computation after the other: the records add up.
-/

namespace SelectorCheck

/-- What is recorded. -/
inductive LogRecord where
  /-- The function `name` is about to be built from the argument text `value`. -/
  | building (name value : Text)
  /-- There is no function of this name. -/
  | rejectedFunction (name : Text)
  /-- A selector was found wrong. -/
  | rejectedSelector (selector : Option Text) (diagnostic : Diagnostic)
deriving DecidableEq, Repr

namespace LogRecord

/-- The name of the log that a record goes to. -/
def logger : LogRecord → Text
  | building .. | rejectedFunction _ => "csspseudo.pseudo".toList
  | rejectedSelector .. => "csspseudo.parser".toList

/-- The wording of a record. -/
def message : LogRecord → Text
  | building name value =>
    "Building :".toList ++ name ++ "(".toList ++ value ++ ")".toList
  | rejectedFunction name => "Rejected pseudo-function ".toList ++ Text.quoted name
  | rejectedSelector selector diagnostic =>
    "Rejected selector ".toList ++ Text.quotedOrNone selector ++ ": ".toList ++ diagnostic.text

/-- The wording of a record behind the name of its log. -/
def line (r : LogRecord) : Text := r.logger ++ ": ".toList ++ r.message

end LogRecord

/-- A result with the records left on the way to it. -/
structure Traced (α : Type) where
  log : List LogRecord
  result : Except Failure α
deriving Repr

namespace Traced

variable {α β : Type}

/-- A value and no records. -/
def value (a : α) : Traced α := ⟨[], .ok a⟩

/-- A failure and no records. -/
def failure (f : Failure) : Traced α := ⟨[], .error f⟩

/-- An error without causes and no records. -/
def error (e : SelectorError) : Traced α := failure (.ofError e)

/-- A result that was come to without records. -/
def ofExcept : Except SelectorError α → Traced α
  | .ok a => value a
  | .error e => error e

/-- A computation after a record. -/
def recording (r : LogRecord) (t : Traced α) : Traced α := ⟨r :: t.log, t.result⟩

/-- A computation after other records. -/
def following (log : List LogRecord) (t : Traced α) : Traced α := ⟨log ++ t.log, t.result⟩

/-- The value under a function. -/
def map (f : α → β) (t : Traced α) : Traced β := ⟨t.log, t.result.map f⟩

/-- The failure under a function. -/
def mapFailure (f : Failure → Failure) (t : Traced α) : Traced α := ⟨t.log, t.result.mapError f⟩

/-- One computation after the other. -/
def bind (t : Traced α) (f : α → Traced β) : Traced β :=
  match t.result with
  | .ok a => (f a).following t.log
  | .error e => ⟨t.log, .error e⟩

@[simp] theorem log_value (a : α) : (value a).log = [] := rfl

@[simp] theorem result_value (a : α) : (value a).result = .ok a := rfl

@[simp] theorem log_failure (f : Failure) : (failure f : Traced α).log = [] := rfl

@[simp] theorem result_failure (f : Failure) : (failure f : Traced α).result = .error f := rfl

@[simp] theorem result_error (e : SelectorError) :
    (error e : Traced α).result = .error (.ofError e) := rfl

@[simp] theorem result_recording (r : LogRecord) (t : Traced α) :
    (recording r t).result = t.result := rfl

@[simp] theorem result_following (log : List LogRecord) (t : Traced α) :
    (following log t).result = t.result := rfl

@[simp] theorem bind_value (a : α) (f : α → Traced β) : (value a).bind f = f a := rfl

@[simp] theorem bind_error (e : SelectorError) (f : α → Traced β) :
    (error e : Traced α).bind f = error e := rfl

/-- A chain of computations has a value exactly if all its links have one. -/
theorem result_bind_eq_ok_iff {t : Traced α} {f : α → Traced β} {b : β} :
    (t.bind f).result = .ok b ↔ ∃ a, t.result = .ok a ∧ (f a).result = .ok b := by
  unfold bind
  cases t.result with
  | ok a => simp
  | error e => simp

end Traced

end SelectorCheck
