import SelectorCheck.Text.Decimal
import SelectorCheck.Text.Quoted

/-!
# Tokens of a selector

A selector is cut into tokens before it is parsed. A token has a kind, a value
if its kind needs one, and the position at which it begins. The argument of a
function is a single token, because only the function knows how to read it.

Tokens may also be made by a caller. Then the kind may be one that no selector
is cut into, and neither value nor position need fit.

## Main definitions

* `TokenKind`, `TokenKind.label` — the kinds and the words for them.
* `Token`, `Token.debug` — a token and how it is shown.
-/

namespace SelectorCheck

/-- The kinds of tokens. -/
inductive TokenKind where
  /-- A tag name or a pseudo name. -/
  | tag
  /-- The name behind a number sign. -/
  | id
  /-- The name behind a full stop. -/
  | className
  /-- An asterisk. -/
  | universal
  /-- The argument of a function. -/
  | string
  /-- One of the marks that join compound selectors, or the blanks that do. -/
  | combinator
  /-- A comma. -/
  | comma
  /-- A single colon. -/
  | colon
  /-- Two colons. -/
  | doubleColon
  /-- An opening parenthesis. -/
  | parenOpen
  /-- A closing parenthesis. -/
  | parenClose
  /-- The end of the selector. -/
  | eof
  /-- A kind that no selector is cut into. -/
  | other (label : Text)
deriving DecidableEq, Repr

namespace TokenKind

/-- The kinds that selectors are cut into. -/
def known : List TokenKind :=
  [tag, id, className, universal, string, combinator, comma, colon, doubleColon, parenOpen,
    parenClose, eof]

/-- The word for a kind. -/
def label : TokenKind → Text
  | tag => "TAG".toList
  | id => "ID".toList
  | className => "CLASS".toList
  | universal => "UNIVERSAL".toList
  | string => "STRING".toList
  | combinator => "COMBINATOR".toList
  | comma => "COMMA".toList
  | colon => "COLON".toList
  | doubleColon => "DOUBLE_COLON".toList
  | parenOpen => "PAREN_OPEN".toList
  | parenClose => "PAREN_CLOSE".toList
  | eof => "EOF".toList
  | other t => t

/-- The kind that a word stands for. -/
def ofLabel (t : Text) : TokenKind := (known.find? fun k => k.label == t).getD (other t)

/-- The word for a kind is what the kind was made of. -/
theorem label_ofLabel (t : Text) : (ofLabel t).label = t := by
  unfold ofLabel
  cases found : known.find? fun k => k.label == t with
  | none => rfl
  | some k => simpa using List.find?_some found

end TokenKind

/-- A token of a selector. -/
structure Token where
  kind : TokenKind
  /-- The name, the argument or the mark that the token is, where its kind does not say it. -/
  value : Option Text
  /-- Where the token begins. -/
  pos : Int
deriving DecidableEq, Repr

namespace Token

/-- How a token is shown. -/
def debug (t : Token) : Text :=
  "Token(".toList ++ t.kind.label ++ ", ".toList ++ Text.quotedOrNone t.value ++ ", pos=".toList ++
    Decimal.ofInt t.pos ++ ")".toList

end Token

end SelectorCheck
