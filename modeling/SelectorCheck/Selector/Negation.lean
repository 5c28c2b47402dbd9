import SelectorCheck.Selector.Printer
import SelectorCheck.Trace

/-!
# What a negation may hold

The argument of a negation is a selector, but a negation holds one simple
selector only, and neither a negation nor a pseudo-element. The first simple
selector that is too much is the one that an error points at.

## Main definitions

* `Selector.sole` — the only simple selector of a selector, or the place of
  the one that is too much.
* `Negation.accept` — the simple selector that a negation holds, or what is
  wrong with it.
* `Negation.parse` — the argument of a negation, given how selectors are read.
-/

namespace SelectorCheck

/-- The only simple selector of a selector. If there are more, the place of the first one of the
second member of a list; in a single complex selector, of the second compound selector; and in a
single compound selector, of the second simple selector. -/
def Selector.sole : Selector → Except Int Simple
  | list _ second _ => .error second.first.first.pos
  | complex c =>
    match c.links with
    | link :: _ => .error link.compound.first.pos
    | [] =>
      match c.first.others with
      | simple :: _ => .error simple.pos
      | [] => .ok c.first.first

namespace Negation

/-- Why a selector cannot stand in a negation. -/
structure Objection where
  code : ErrorCode
  position : Int
  token : Option Text := none

/-- The simple selector of a negation that the selector is the argument of. -/
def accept (s : Selector) : Except Objection PlainSimple :=
  match s.sole with
  | .error position => .error { code := .notSimple, position := position }
  | .ok simple =>
    match simple.plain? with
    | none => .error { code := .nestedNegation, position := simple.pos }
    | some plain =>
      if simple.kind = .pseudoElement then
        .error { code := .elementInNegation, position := simple.pos, token := some simple.text }
      else .ok plain

/-- The error about an argument of a negation. -/
def rejection (name value : Text) (context : Option Context) (objection : Objection) :
    SelectorError :=
  { code := objection.code, name := some name, value := some value, token := objection.token,
    position := some objection.position, context := context }

/-- The error about an argument that is no selector because of another error. -/
def unreadable (name value : Text) (context : Option Context) (cause : SelectorError) :
    SelectorError :=
  rejection name value context
    { code := .invalidNot, position := cause.position.getD 0, token := some cause.message }

/-- The simple selector that the argument of the function `name` holds. Selectors are read by
`read`; a selector that cannot be read is the cause of the failure. -/
def parse (read : Text → Traced Selector) (name : Text) (value : Option Text)
    (context : Option Context) : Traced PlainSimple :=
  match value with
  | none => .error (.missingArgument name none context)
  | some v =>
    if v.allBlank then .error (.missingArgument name (some v) context)
    else
      ((read v).mapFailure fun f => f.causing (unreadable name v context f.error)).bind fun s =>
        match accept s with
        | .ok simple => .value simple
        | .error objection => .error (rejection name v context objection)

end Negation

end SelectorCheck
