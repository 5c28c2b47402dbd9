import SelectorCheck.Text.Quoted

/-!
# What can be wrong with a selector

Every rejection has a code, a short text that tools key their own wording on.
The codes of this library are listed here together with the English wording
and with the class of errors that each belongs to. A code of someone else's is
kept as it is and is its own wording.

## Main definitions

* `ErrorClass` — the four classes of errors.
* `ErrorCode` — the codes; `ErrorCode.text` and `ErrorCode.ofText` go between
  a code and its text.
* `ErrorCode.errorClass` — the class that a code belongs to.
* `ErrorCode.message` — the wording, given the name and the piece of input
  that the error is about.
-/

namespace SelectorCheck

/-! ## Classes of errors -/

/-- The classes that errors are told apart by. -/
inductive ErrorClass where
  /-- A selector that does not have the form of one. -/
  | selector
  /-- A pseudo name that is not admitted or not built. -/
  | unknownName
  /-- A selector, a name or an argument that is not there. -/
  | missingInput
  /-- An argument that does not have the form its function wants. -/
  | argumentSyntax
deriving DecidableEq, Repr

namespace ErrorClass

/-- All classes of errors. -/
def all : List ErrorClass := [selector, unknownName, missingInput, argumentSyntax]

/-- The name that is shown. -/
def name : ErrorClass → Text
  | selector => "SelectorError".toList
  | unknownName => "UnknownNameError".toList
  | missingInput => "MissingInputError".toList
  | argumentSyntax => "ArgumentSyntaxError".toList

/-- The class with a name, if there is one. -/
def ofName? (t : Text) : Option ErrorClass := all.find? fun c => c.name == t

theorem ofName?_name (c : ErrorClass) : ofName? c.name = some c := by
  cases c <;> decide +kernel

end ErrorClass

/-! ## Codes -/

/-- What an error is about. -/
inductive ErrorCode where
  | unknownPseudoClass
  | unknownPseudoElement
  | unknownPseudoFunction
  | missingFunctionName
  | missingArgument
  | emptySelector
  | invalidLang
  | invalidNth
  | invalidNot
  | nestedNegation
  | notSimple
  | elementInNegation
  | unexpectedCharacter
  | unterminatedString
  | expectedIdentifier
  | expectedClosingParen
  | unexpectedToken
  | expectedSelector
  | unsupportedAttribute
  /-- A code that this library does not know. -/
  | other (text : Text)
deriving DecidableEq, Repr

namespace ErrorCode

/-- The codes that this library knows. -/
def known : List ErrorCode :=
  [unknownPseudoClass, unknownPseudoElement, unknownPseudoFunction, missingFunctionName,
    missingArgument, emptySelector, invalidLang, invalidNth, invalidNot, nestedNegation,
    notSimple, elementInNegation, unexpectedCharacter, unterminatedString, expectedIdentifier,
    expectedClosingParen, unexpectedToken, expectedSelector, unsupportedAttribute]

/-- The text of a code. -/
def text : ErrorCode → Text
  | unknownPseudoClass => "unknown-pseudo-class".toList
  | unknownPseudoElement => "unknown-pseudo-element".toList
  | unknownPseudoFunction => "unknown-pseudo-function".toList
  | missingFunctionName => "missing-pseudo-function-name".toList
  | missingArgument => "missing-pseudo-argument".toList
  | emptySelector => "empty-selector".toList
  | invalidLang => "invalid-lang-argument".toList
  | invalidNth => "invalid-nth-argument".toList
  | invalidNot => "invalid-not-argument".toList
  | nestedNegation => "nested-negation".toList
  | notSimple => "not-a-simple-selector".toList
  | elementInNegation => "pseudo-element-in-negation".toList
  | unexpectedCharacter => "unexpected-character".toList
  | unterminatedString => "unterminated-string".toList
  | expectedIdentifier => "expected-identifier".toList
  | expectedClosingParen => "expected-closing-paren".toList
  | unexpectedToken => "unexpected-token".toList
  | expectedSelector => "expected-selector-after-combinator".toList
  | unsupportedAttribute => "unsupported-attribute-selector".toList
  | other t => t

/-- The code with a text. -/
def ofText (t : Text) : ErrorCode := (known.find? fun c => c.text == t).getD (other t)

/-- The text of a code is what the code was made of. -/
theorem text_ofText (t : Text) : (ofText t).text = t := by
  unfold ofText
  cases found : known.find? fun c => c.text == t with
  | none => rfl
  | some c => simpa using List.find?_some found

/-- The class of errors that a code belongs to. -/
def errorClass : ErrorCode → ErrorClass
  | unknownPseudoClass | unknownPseudoElement | unknownPseudoFunction => .unknownName
  | missingFunctionName | missingArgument | emptySelector => .missingInput
  | invalidLang | invalidNth | invalidNot | nestedNegation | notSimple | elementInNegation =>
    .argumentSyntax
  | _ => .selector

/-- The wording for a code. `name` is the pseudo name and `token` the piece of input that the
error is about; one that is missing is shown as such. -/
def message (code : ErrorCode) (name token : Option Text) : Text :=
  let called := Text.shownOrNone name
  let shown := Text.shownOrNone token
  let quoted := Text.quotedOrNone token
  match code with
  | unknownPseudoClass => "Unknown pseudo-class :".toList ++ called
  | unknownPseudoElement => "Unknown pseudo-element ::".toList ++ called
  | unknownPseudoFunction =>
    "Unknown or unsupported pseudo-function :".toList ++ called ++ "()".toList
  | missingFunctionName => "Missing pseudo-function name".toList
  | missingArgument => "Missing argument for :".toList ++ called ++ "()".toList
  | emptySelector => "Empty selector".toList
  | invalidLang =>
    "Invalid language tag in :".toList ++ called ++ "(): unexpected ".toList ++ quoted
  | invalidNth =>
    "Invalid an+b expression in :".toList ++ called ++ "(): unexpected ".toList ++ quoted
  | invalidNot => "Invalid selector in :".toList ++ called ++ "(): ".toList ++ shown
  | nestedNegation => ":".toList ++ called ++ "() cannot contain another negation".toList
  | notSimple => ":".toList ++ called ++ "() only accepts a single simple selector".toList
  | elementInNegation =>
    ":".toList ++ called ++ "() cannot contain the pseudo-element ".toList ++ shown
  | unexpectedCharacter => "Unexpected character ".toList ++ quoted
  | unterminatedString => "Unterminated string".toList
  | expectedIdentifier => "Expected identifier after ".toList ++ shown
  | expectedClosingParen => "Expected )".toList
  | unexpectedToken => "Unexpected token ".toList ++ shown
  | expectedSelector => "Expected selector after combinator ".toList ++ quoted
  | unsupportedAttribute => "Attribute selectors are not supported".toList
  | other t => t

end ErrorCode

end SelectorCheck
