import SelectorCheck.LanguageTag
import SelectorCheck.Nth.Parser
import SelectorCheck.Selector.Negation

/-!
# Building functions

A function is built from its name and its argument text. The name decides who
reads the text: language tags, expressions and negations each have a grammar
of their own. More names are admitted in selectors than can be built.

## Main definitions

* `FunctionKind.construct`, `FunctionClass.construct` — the function of a kind
  and the value of a class, by whatever name it was called.
* `buildWith` — the function with a name, given how selectors are read.
-/

namespace SelectorCheck

/-- The function of a kind that was called `name` with the argument text `value`. Selectors in it
are read by `read`. -/
def FunctionKind.construct (read : Text → Traced Selector) (kind : FunctionKind) (name : Text)
    (value : Option Text) (context : Option Context) : Traced PseudoFunction :=
  match kind with
  | .lang =>
    (Traced.ofExcept (LanguageTag.parse name value context)).map fun tag =>
      ⟨name, value.getD [], .plain (.language tag)⟩
  | .nth kind =>
    (Traced.ofExcept (Nth.parse name value context)).map fun expression =>
      ⟨name, value.getD [], .plain (.counting kind expression)⟩
  | .negation =>
    (Negation.parse read name value context).map fun simple =>
      ⟨name, value.getD [], .negated simple⟩

/-- The value of a class that was called `name` with the argument text `value`. Functions that count
read their arguments alike, so the kind need not be known for that. -/
def FunctionClass.construct (read : Text → Traced Selector) (valueClass : FunctionClass)
    (name : Text) (value : Option Text) (context : Option Context) : Traced ClassValue :=
  match valueClass with
  | .kind k => (k.construct read name value context).map .function
  | .counting =>
    (Traced.ofExcept (Nth.parse name value context)).map fun expression =>
      .kindless ⟨name, value.getD [], expression⟩

/-- The error for a function without a name. -/
def namelessFunction (value : Option Text) (context : Option Context) : SelectorError :=
  { code := .missingFunctionName, value := value, context := context }

/-- The error for a function that cannot be built. -/
def unbuiltFunction (name : Text) (value : Option Text) (context : Option Context) :
    SelectorError :=
  { code := .unknownPseudoFunction, name := some name, value := value, context := context }

/-- The function that was called `name` with the argument text `value`. Selectors in it are read
by `read`. What is done about a name is recorded. -/
def buildWith (read : Text → Traced Selector) (name : Option Text) (value : Option Text)
    (context : Option Context) : Traced PseudoFunction :=
  match name with
  | none | some [] => .error (namelessFunction value context)
  | some (c :: rest) =>
    match FunctionKind.ofName? (c :: rest) with
    | none =>
      (Traced.error (unbuiltFunction (c :: rest) value context)).recording
        (.rejectedFunction (c :: rest))
    | some kind =>
      (kind.construct read (c :: rest) value context).recording
        (.building (c :: rest) (value.getD []))

end SelectorCheck
