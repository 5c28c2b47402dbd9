import SelectorCheck.Selector.Basic
import SelectorCheck.Text.Quoted

/-!
# Writing selectors

The text of a selector is the shortest way to write it: nothing stands between
the simple selectors of a compound, just the combinator between two compounds,
and just a comma between two members of a list.

A selector can also be shown with all its layers, for which `debug` stands as
it does for every other value.

## Main definitions

* `SimpleOf.text`, `FunctionOf.text` — a simple selector and a function as
  they are written.
* `Selector.text` — the selector as it is written.
* `Selector.debug` — the selector with its layers.
-/

namespace SelectorCheck

/-! ## Simple selectors and functions -/

namespace SimpleOf

variable {F : Type}

/-- The simple selector as it is written in a selector. -/
def text (s : SimpleOf F) : Text :=
  match s.kind with
  | .universal => ['*']
  | .id => '#' :: Text.shownOrNone s.name
  | .className => '.' :: Text.shownOrNone s.name
  | .pseudoClass => ':' :: Text.shownOrNone s.name
  | .pseudoElement => ':' :: ':' :: Text.shownOrNone s.name
  | .pseudoFunction =>
    ':' :: (Text.shownOrNone s.name ++ "(".toList ++ s.arg.getD [] ++ ")".toList)
  | .tag | .other _ => s.name.getD []

/-- How a simple selector is shown: its kind, and its name and argument text if it has them. An
empty name is not shown. -/
def debug (s : SimpleOf F) : Text :=
  let name := s.name.getD []
  "SimpleSelector(".toList ++ Text.quoted s.kind.label ++
    (if name = [] then [] else ", name=".toList ++ Text.quoted name) ++
    (match s.arg with
    | none => []
    | some arg => ", arg=".toList ++ Text.quoted arg) ++ ")".toList

end SimpleOf

/-- How an argument without a selector is shown. -/
def PlainArgument.debug : PlainArgument → Text
  | language tag => Text.quoted tag
  | counting _ expression => expression.debug

/-- How an argument is shown. -/
def Argument.debug : Argument → Text
  | plain argument => argument.debug
  | negated simple => simple.debug

namespace FunctionOf

/-- A function as it is written in a selector. -/
def text {A : Type} (f : FunctionOf A) : Text :=
  ':' :: (f.name ++ "(".toList ++ f.value ++ ")".toList)

/-- How a function is shown. -/
def debug (f : PseudoFunction) : Text :=
  f.kind.className ++ "(".toList ++ Text.quoted f.name ++ ", ".toList ++ f.argument.debug ++
    ")".toList

end FunctionOf

/-! ## Selectors as they are written -/

/-- A compound selector as it is written. -/
def Compound.text (c : Compound) : Text := c.simples.flatMap SimpleOf.text

/-- A compound selector behind its combinator, as it is written. -/
def Link.text (l : Link) : Text := l.combinator.getD [] ++ l.compound.text

/-- A complex selector as it is written. -/
def Complex.text (c : Complex) : Text := c.parts.flatMap Link.text

/-- A selector as it is written. -/
def Selector.text (s : Selector) : Text := [','].intercalate (s.members.map Complex.text)

/-! ## Selectors with their layers -/

/-- A compound selector with its layers. -/
def Compound.debug (c : Compound) : Text :=
  "CompoundSelector(".toList ++ Text.bracketed (c.simples.map SimpleOf.debug) ++ ")".toList

/-- A compound selector with its layers, behind its combinator. -/
def Link.debug (l : Link) : Text :=
  "(".toList ++ Text.quotedOrNone l.combinator ++ ", ".toList ++ l.compound.debug ++ ")".toList

/-- A complex selector with its layers. -/
def Complex.debug (c : Complex) : Text :=
  "ComplexSelector(".toList ++ Text.bracketed (c.parts.map Link.debug) ++ ")".toList

/-- A selector with its layers. -/
def Selector.debug : Selector → Text
  | complex c => c.debug
  | list first second others =>
    "SelectorList(".toList ++
      Text.bracketed ((first :: second :: others).map Complex.debug) ++ ")".toList

end SelectorCheck
