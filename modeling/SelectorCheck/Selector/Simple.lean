import SelectorCheck.Nth.Basic
import SelectorCheck.Selector.Kind

/-!
# Simple selectors and pseudo-functions

A simple selector is one condition on an element. If it is a pseudo-function
it carries the function, with its argument understood. The argument of a
negation is a simple selector again, but not a negation, so functions nest
just once: a `PlainFunction` holds no selector, a `PseudoFunction` is a plain
one or the negation of a `PlainSimple`, and no negation can be inside another.

The type of a simple selector is told by its kind alone. Name, argument text
and function are there as far as the kind calls for them; a caller who makes a
simple selector may leave out or add what he likes.

## Main definitions

* `SimpleOf`, `FunctionOf` — simple selectors and functions, for any functions
  and arguments.
* `PseudoFunction`, `ClassValue` — the functions in selectors, and the values
  that a class of functions can have besides.
* `PlainSimple`, `Simple` — the simple selectors that may and those that need
  not stand in a negation.
* `SimpleOf.plain?` — a simple selector as one that may stand in a negation.
* `SimpleOf.bare`, `FunctionOf.bare` — the parts that matter when two are
  compared, which are all but positions and argument texts of functions.
-/

namespace SelectorCheck

/-! ## Values -/

/-- A simple selector that carries a function of type `F` if it is a pseudo-function. -/
structure SimpleOf (F : Type) where
  kind : SimpleKind
  name : Option Text
  /-- The text between the parentheses. -/
  arg : Option Text
  function : Option F
  /-- Where the simple selector begins. -/
  pos : Int
deriving DecidableEq, Repr

/-- A pseudo-function with an argument of type `A`. -/
structure FunctionOf (A : Type) where
  /-- The name that the function was called by. -/
  name : Text
  /-- The text of the argument. -/
  value : Text
  /-- What the text stands for. -/
  argument : A
deriving DecidableEq, Repr

/-- Arguments that hold no selector. -/
inductive PlainArgument where
  | language (tag : Text)
  | counting (kind : NthKind) (expression : Nth)
deriving DecidableEq, Repr

/-- A function whose argument holds no selector. -/
abbrev PlainFunction := FunctionOf PlainArgument

/-- A simple selector that is no negation. -/
abbrev PlainSimple := SimpleOf PlainFunction

/-- Arguments of functions. -/
inductive Argument where
  | plain (argument : PlainArgument)
  | negated (simple : PlainSimple)
deriving DecidableEq, Repr

/-- A pseudo-function. -/
abbrev PseudoFunction := FunctionOf Argument

/-- The value of a class of functions. -/
inductive ClassValue where
  | function (f : PseudoFunction)
  /-- A function that counts, of which it is not known what it counts. No selector holds it. -/
  | kindless (f : FunctionOf Nth)
deriving DecidableEq, Repr

/-- A simple selector. -/
abbrev Simple := SimpleOf PseudoFunction

/-! ## From plain values to all values and back -/

namespace SimpleOf

variable {F G : Type}

/-- The simple selector with another function. -/
def withFunction (s : SimpleOf F) (f : Option G) : SimpleOf G :=
  ⟨s.kind, s.name, s.arg, f, s.pos⟩

end SimpleOf

namespace FunctionOf

variable {A B : Type}

/-- The function with another argument. -/
def withArgument (f : FunctionOf A) (argument : B) : FunctionOf B := ⟨f.name, f.value, argument⟩

/-- A plain function is a function. -/
def ofPlain (f : PlainFunction) : PseudoFunction := f.withArgument (.plain f.argument)

/-- A function as a plain one, unless it is a negation. -/
def plain? (f : PseudoFunction) : Option PlainFunction :=
  match f.argument with
  | .plain argument => some (f.withArgument argument)
  | .negated _ => none

end FunctionOf

namespace SimpleOf

/-- A simple selector that is no negation is a simple selector. -/
def ofPlain (s : PlainSimple) : Simple := s.withFunction (s.function.map FunctionOf.ofPlain)

/-- A simple selector as a plain one, unless it is a negation. -/
def plain? (s : Simple) : Option PlainSimple :=
  match s.function with
  | none => some (s.withFunction none)
  | some f => f.plain?.map fun f => s.withFunction (some f)

theorem plain?_ofPlain (s : PlainSimple) : (ofPlain s).plain? = some s := by
  obtain ⟨kind, name, arg, function, pos⟩ := s
  cases function <;> rfl

theorem ofPlain_of_plain? {s : Simple} {p : PlainSimple} (h : s.plain? = some p) :
    ofPlain p = s := by
  obtain ⟨kind, name, arg, function, pos⟩ := s
  rcases function with _ | ⟨called, value, plain | negated⟩ <;>
    simp_all only [plain?, withFunction, FunctionOf.plain?, FunctionOf.withArgument,
      Option.map_some, Option.map_none, Option.some.injEq, reduceCtorEq]
  all_goals
    subst h
    rfl

end SimpleOf

/-! ## Kinds of arguments -/

/-- The function that takes arguments of this form. -/
def PlainArgument.kind : PlainArgument → FunctionKind
  | language _ => .lang
  | counting kind _ => .nth kind

/-- The function that takes arguments of this form. -/
def Argument.kind : Argument → FunctionKind
  | plain argument => argument.kind
  | negated _ => .negation

/-- The kind of a function, whatever name it was called by. -/
def FunctionOf.kind (f : PseudoFunction) : FunctionKind := f.argument.kind

/-! ## What matters in comparisons -/

/-- A simple selector without its position, and with the bare form of its function. -/
def SimpleOf.bareWith {F : Type} (bareFunction : F → F) (s : SimpleOf F) : SimpleOf F :=
  { s with function := s.function.map bareFunction, pos := 0 }

/-- A function without the text of its argument. -/
def FunctionOf.withoutValue {A : Type} (f : FunctionOf A) : FunctionOf A := { f with value := [] }

/-- The argument without positions and texts of arguments. -/
def Argument.bare : Argument → Argument
  | plain argument => plain argument
  | negated simple => negated (simple.bareWith FunctionOf.withoutValue)

/-- The function without positions and texts of arguments. -/
def FunctionOf.bare (f : PseudoFunction) : PseudoFunction :=
  f.withoutValue.withArgument f.argument.bare

/-- The simple selector without positions and without the texts of the arguments of functions. The
text between its own parentheses stays. -/
def SimpleOf.bare (s : Simple) : Simple := s.bareWith FunctionOf.bare

/-- Whether two functions are the same but for positions and argument texts. -/
def FunctionOf.same (f g : PseudoFunction) : Bool := f.bare == g.bare

end SelectorCheck
