import SelectorCheck.Comparison
import SelectorCheck.Main
import SelectorCheck.Proofs.Access.Argument
import SelectorCheck.Proofs.Access.Check
import SelectorCheck.Proofs.Access.Function
import SelectorCheck.Proofs.Access.Lexer
import SelectorCheck.Proofs.Argument.Moved
import SelectorCheck.Proofs.CommandLine.Verdict
import SelectorCheck.Proofs.Selector.Argument
import SelectorCheck.Proofs.Selector.Call
import SelectorCheck.Proofs.Selector.Causes
import SelectorCheck.Proofs.Selector.Composition
import SelectorCheck.Proofs.Selector.Depth
import SelectorCheck.Proofs.Selector.Language
import SelectorCheck.Proofs.Selector.Levels
import SelectorCheck.Proofs.Selector.Mirror
import SelectorCheck.Proofs.Selector.Nested
import SelectorCheck.Proofs.Selector.Padding
import SelectorCheck.Proofs.Selector.Place
import SelectorCheck.Proofs.Selector.PseudoName
import SelectorCheck.Proofs.Selector.Quotation
import SelectorCheck.Proofs.Selector.RoundTrip
import SelectorCheck.Proofs.Selector.UnknownName
import SelectorCheck.Proofs.Selector.WellFormed
import SelectorCheck.Proofs.Token.Lossless
import SelectorCheck.Proofs.Token.Shape
import SelectorCheck.Proofs.Validator.History
import SelectorCheck.Selector.Printer
import SelectorCheck.Proofs.Nth.Selection
import SelectorCheck.Proofs.Nth.Printed
import SelectorCheck.Proofs.Nth.Stage
import SelectorCheck.Proofs.Nth.BreakOff
import SelectorCheck.Proofs.Nth.Grammar
import SelectorCheck.Proofs.LanguageTag.Grammar
import SelectorCheck.Proofs.Selector.Negated
import SelectorCheck.Proofs.Selector.Row
import SelectorCheck.Proofs.Token.Fit
import SelectorCheck.Proofs.Selector.Fit
import SelectorCheck.Proofs.Token.Stretched
import SelectorCheck.Proofs.Selector.Surrounded
import SelectorCheck.Proofs.Text.LetterCase
import SelectorCheck.Proofs.Selector.Recased
import SelectorCheck.Proofs.Selector.Literal
import SelectorCheck.Proofs.Selector.InPlace
import SelectorCheck.Proofs.Argument.Closing
import SelectorCheck.Proofs.Selector.Codes
import SelectorCheck.Proofs.Selector.Tables
import SelectorCheck.Proofs.Validator.Records
import SelectorCheck.Proofs.Token.Resumed
import SelectorCheck.Proofs.Selector.Descent
