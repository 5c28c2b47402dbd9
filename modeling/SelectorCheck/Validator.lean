import SelectorCheck.Selector.Parser

/-!
# Checking many selectors

A validator checks selectors under a context and keeps going past a bad one.
What is wrong is collected as diagnostics, in the order in which the selectors
were checked, unless collecting is switched off. A strict validator does not
go on: the first bad selector ends the check, and nothing is collected.

Context, strictness and collecting may be changed between two checks, and what
was collected may be cleared.

## Main definitions

* `Validator` — a context, two switches and what was collected.
* `Validator.check`, `Validator.checkAll` — checking one selector or many.
* `Validator.Action`, `Validator.perform` — everything that can be done to a
  validator.
-/

namespace SelectorCheck

/-- A validator. Where it has no context the standard one holds. -/
structure Validator where
  context : Option Context := none
  /-- Whether diagnostics are collected. -/
  collecting : Bool := true
  /-- Whether the first bad selector ends the check. -/
  strict : Bool := false
  /-- What was collected. -/
  collected : List Diagnostic := []
deriving DecidableEq, Repr

namespace Validator

/-- What a check comes to: the validator as it is left, the records on the way, and a result,
unless a bad selector ended the check. -/
structure Checked (α : Type) where
  validator : Validator
  log : List LogRecord
  result : Except Diagnostic α

/-- Checks one selector. A bad one has no result. -/
def check (v : Validator) (selector : Option Text) : Checked (Option Selector) :=
  let reading := Selector.parse? v.context selector
  match reading.result with
  | .ok parsed => ⟨v, reading.log, .ok (some parsed)⟩
  | .error failure =>
    let diagnostic := Diagnostic.ofError failure.error selector
    let log := reading.log ++ [.rejectedSelector selector diagnostic]
    if v.strict then ⟨v, log, .error diagnostic⟩
    else if v.collecting then
      ⟨{ v with collected := v.collected ++ [diagnostic] }, log, .ok none⟩
    else ⟨v, log, .ok none⟩

/-- Checks selectors in order. -/
def checkAll (v : Validator) : List (Option Text) → Checked (List (Option Selector))
  | [] => ⟨v, [], .ok []⟩
  | selector :: rest =>
    let first := v.check selector
    match first.result with
    | .error diagnostic => ⟨first.validator, first.log, .error diagnostic⟩
    | .ok parsed =>
      let others := first.validator.checkAll rest
      ⟨others.validator, first.log ++ others.log, others.result.map (parsed :: ·)⟩

/-- What can be done to a validator. -/
inductive Action where
  | check (selector : Option Text)
  | checkAll (selectors : List (Option Text))
  /-- Changes what is given. -/
  | set (strict collecting : Option Bool) (context : Option (Option Context))
  | clear

/-- What an action answers. -/
inductive Answer where
  | checked (result : Option Selector)
  | checkedAll (results : List (Option Selector))
  | done

/-- The validator with the given attributes changed. -/
def set (v : Validator) (strict collecting : Option Bool) (context : Option (Option Context)) :
    Validator :=
  { v with
    strict := strict.getD v.strict
    collecting := collecting.getD v.collecting
    context := context.getD v.context }

/-- The validator with nothing collected. -/
def clear (v : Validator) : Validator := { v with collected := [] }

/-- A check whose result is an answer. -/
def Checked.answer {α : Type} (f : α → Answer) (c : Checked α) : Checked Answer :=
  ⟨c.validator, c.log, c.result.map f⟩

/-- Performs an action. -/
def perform (v : Validator) : Action → Checked Answer
  | .check selector => (v.check selector).answer .checked
  | .checkAll selectors => (v.checkAll selectors).answer .checkedAll
  | .set strict collecting context => ⟨v.set strict collecting context, [], .ok .done⟩
  | .clear => ⟨v.clear, [], .ok .done⟩

/-- Performs actions one after the other, each on the validator that the last one left. -/
def performAll (v : Validator) : List Action → List (Checked Answer)
  | [] => []
  | action :: rest =>
    let first := v.perform action
    first :: first.validator.performAll rest

end Validator

end SelectorCheck
