import SelectorCheck.Selector.Function
import SelectorCheck.Selector.Grammar
import SelectorCheck.Token.Lexer

/-!
# Reading selectors

A selector is cut into tokens, and the grammar is applied to them. Reading is
recursive, because the argument of a negation is a selector. That selector is
shorter than the one it is in by the name of the function, the colon and the
parentheses, which are six characters, so reading never goes deeper than a
sixth of the length.

## Main definitions

* `Selector.parseWithin` — reading to a given depth.
* `Selector.parse` — reading to the depth that the length allows.
* `PseudoFunction.build`, `ClassValue.ofClass?` — functions on their own.
* `Selector.ofTokens` — what a number of readings of given tokens come to.
-/

namespace SelectorCheck

/-! ## Whole selectors -/

namespace Selector

/-- The error for a selector that is missing or holds blanks only. -/
def empty (source : Option Text) (context : Option Context) : SelectorError :=
  { code := .emptySelector, value := source, position := some 0, context := context }

/-- What the grammar is applied under. Where no context is given the standard one holds, and
selectors within functions are read by `read`. -/
def setting (read : Option Context → Text → Traced Selector) (context : Option Context)
    (source : Option Text) : Grammar.Setting :=
  let context := context.getD .standard
  { context := context, source := source,
    build := fun name value => buildWith (read (some context)) (some name) value (some context) }

/-- The selector that a text is, if negations are nested less than `depth` deep in it. At depth
zero nothing is read. -/
def parseWithin : (depth : Nat) → (context : Option Context) → (source : Text) → Traced Selector
  | 0, context, source => .error (empty (some source) context)
  | depth + 1, context, source =>
    if source.allBlank then .error (empty (some source) context)
    else
      (Traced.ofExcept (Token.ofSelector source)).bind fun tokens =>
        (Grammar.selector (setting (parseWithin depth) context (some source)) tokens).outcome

/-- More levels than negations in a text of this length can have. -/
def depthFor (source : Text) : Nat := source.length / 6 + 1

/-- The selector that a text is. -/
def parse (context : Option Context) (source : Text) : Traced Selector :=
  parseWithin (depthFor source) context source

/-- The selector that an optional text is. A missing text is an empty selector. -/
def parse? (context : Option Context) (source : Option Text) : Traced Selector :=
  match source with
  | none => .error (empty none context)
  | some text => parse context text

end Selector

/-! ## Functions on their own -/

namespace PseudoFunction

/-- The function that is called `name` with the argument text `value`. -/
def build (name value : Option Text) (context : Option Context) : Traced PseudoFunction :=
  buildWith (Selector.parse context) name value context

end PseudoFunction

/-- The value of the class `className` that is called `name`, which need not be the name of a
function, with the argument text `value`. Other classes read no argument. -/
def ClassValue.ofClass? (className name : Text) (value : Option Text)
    (context : Option Context) : Option (Traced ClassValue) :=
  (FunctionClass.ofName? className).map fun valueClass =>
    valueClass.construct (Selector.parse context) name value context

/-! ## Given tokens -/

namespace Selector

/-- What `count` readings of `tokens` come to, each going on where the last one stopped, with the
number of tokens that lie behind by then. -/
def ofTokens (context : Option Context) (source : Option Text) (count : Nat)
    (tokens : List Token) : List (Traced Selector × Nat) :=
  (Grammar.selectors (setting parse context source) count tokens).map fun step =>
    (step.outcome, tokens.length - step.rest.length)

end Selector

end SelectorCheck
