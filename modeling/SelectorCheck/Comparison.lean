import SelectorCheck.Selector.Basic
import SelectorCheck.Diagnostic

/-!
# Comparing values

Values of different kinds are never the same. Two selectors, and two parts of
selectors of the same layer, are the same if they differ in positions only.
Two diagnostics are the same if they are about the same trouble. Everything
else is the same if it agrees in all its parts.

Contexts, expressions and texts can be members of a set. Parts of selectors
and diagnostics cannot, since they may be the same without agreeing.

## Main definitions

* `Value` — what can be compared.
* `Value.same`, `Value.hashable` — the two properties above.
* `Value.distinct` — the size of a set of two values.
-/

namespace SelectorCheck

/-- A value that can be compared. -/
inductive Value where
  | selector (s : Selector)
  | compound (c : Compound)
  | simple (s : Simple)
  | function (f : PseudoFunction)
  | nth (e : Nth)
  | context (c : Context)
  | diagnostic (d : Diagnostic)
  | text (t : Text)
deriving DecidableEq, Repr

namespace Value

/-- Whether two values are the same. -/
def same : Value → Value → Bool
  | selector a, selector b => a.same b
  | compound a, compound b => a.same b
  | simple a, simple b => a.same b
  | function a, function b => a.same b
  | nth a, nth b => a == b
  | context a, context b => a == b
  | diagnostic a, diagnostic b => a.same b
  | text a, text b => a == b
  | _, _ => false

/-- Whether a value can be a member of a set. -/
def hashable : Value → Bool
  | nth _ | context _ | text _ => true
  | _ => false

/-- The number of different values among two, if both can be members of a set. -/
def distinct (a b : Value) : Option Nat :=
  if a.hashable && b.hashable then some (if a.same b then 1 else 2) else none

end Value

end SelectorCheck
