import DeclFront.CommandLine.Directory
import DeclFront.CommandLine.Options
import DeclFront.CommandLine.Run
import DeclFront.Diagnostic.Basic
import DeclFront.Diagnostic.Consumer
import DeclFront.Diagnostic.Pool
import DeclFront.Diagnostic.TerminalReporter
import DeclFront.Grammar.Declaration
import DeclFront.Grammar.Failure
import DeclFront.Grammar.Head
import DeclFront.Grammar.Outcome
import DeclFront.Grammar.Reading
import DeclFront.Grammar.Terminal
import DeclFront.Lexeme.Basic
import DeclFront.Lexeme.Character
import DeclFront.Lexeme.Comment
import DeclFront.Lexeme.Next
import DeclFront.Lexeme.Numeral
import DeclFront.Lexeme.StringLiteral
import DeclFront.Lexeme.Symbol
import DeclFront.Lexeme.Word
import DeclFront.Main
import DeclFront.Source.Location
import DeclFront.Source.Range
import DeclFront.Syntax.Declaration
import DeclFront.Text.Munch
import DeclFront.Text.Quoted
import DeclFront.Token.Basic
import DeclFront.Token.Control
import DeclFront.Token.Description
import DeclFront.Token.Keyword
import DeclFront.Token.Punctuator
import DeclFront.TokenStream
import DeclFront.Unicode.Alphabetic
import DeclFront.Unicode.CodeRange
import DeclFront.Unicode.DefaultIgnorable
import DeclFront.Unicode.GraphemeExtend
import DeclFront.Unicode.Numeric
import DeclFront.Unicode.Printable
import DeclFront.Proofs.Position
import DeclFront.Proofs.Tiling
import DeclFront.Proofs.Grammar.Terminals
import DeclFront.Proofs.Grammar.Derivation
import DeclFront.Proofs.Grammar.Reading
import DeclFront.Proofs.Grammar.Head
import DeclFront.Proofs.Grammar.Declaration
import DeclFront.Proofs.Grammar.Acceptance
import DeclFront.Proofs.Grammar.Uniqueness
import DeclFront.Proofs.Grammar.Language
import DeclFront.Proofs.Grammar.Suffix
import DeclFront.Proofs.Grammar.Loop
import DeclFront.Proofs.Grammar.Resumption
import DeclFront.Proofs.Grammar.Origin
import DeclFront.Proofs.Grammar.Relocation
import DeclFront.Proofs.Grammar.Spans
import DeclFront.Proofs.Ranges
import DeclFront.Proofs.Lexeme.FirstChar
import DeclFront.Proofs.Lexeme.Symbol
import DeclFront.Proofs.Lexeme.Found
import DeclFront.Proofs.Lexeme.Legible
import DeclFront.Proofs.Lexeme.Lookahead
import DeclFront.Proofs.Lexeme.Name
import DeclFront.Proofs.Printing.Kinds
import DeclFront.Proofs.Printing.Printable
import DeclFront.Proofs.Printing.Reading
import DeclFront.Proofs.Printing.Head
import DeclFront.Proofs.Printing.Declaration
import DeclFront.Proofs.Printing.RoundTrip
import DeclFront.Proofs.Grammar.Leading
import DeclFront.Proofs.Grammar.Prediction
import DeclFront.Proofs.Grammar.Blame
import DeclFront.Proofs.Grammar.Unclosed
import DeclFront.Proofs.Progress
import DeclFront.Proofs.FailureOrder
import DeclFront.Proofs.Recovery
import DeclFront.Proofs.FirstFailure
import DeclFront.Proofs.Lexeme.Truncation
import DeclFront.Proofs.Grammar.Settled
import DeclFront.Proofs.StandAlone
import DeclFront.Proofs.RejectedModifiers
import DeclFront.Proofs.Grammar.Parentheses
import DeclFront.Proofs.AttributeArguments
import DeclFront.Proofs.Boundary
import DeclFront.Proofs.Lexeme.Longest
import DeclFront.Proofs.Lexeme.LineEnd
import DeclFront.Proofs.Lines
import DeclFront.Proofs.Grammar.Alike
import DeclFront.Proofs.TriviaInsensitive
import DeclFront.Proofs.Concatenation
import DeclFront.Proofs.Lexeme.Nesting
import DeclFront.Proofs.Lexeme.Segments
import DeclFront.Proofs.CommandLine
import DeclFront.Proofs.Lexeme.Numeral
import DeclFront.Proofs.Lexeme.Word
import DeclFront.Proofs.Lexeme.Operator
import DeclFront.Proofs.Lexeme.Invalid
import DeclFront.Proofs.Diagnostic.Delivery
import DeclFront.Proofs.Diagnostic.Session
import DeclFront.Proofs.Text.Digits
import DeclFront.Proofs.Text.Quoted
import DeclFront.Proofs.Token.Dump
import DeclFront.Proofs.Listing
import DeclFront.Proofs.Diagnostic.Styles
import DeclFront.Proofs.Lexeme.Slice
import DeclFront.Proofs.Bounds
import DeclFront.Proofs.Cursor.Basic
import DeclFront.Proofs.Cursor.Walk
import DeclFront.Proofs.Cursor.Head
import DeclFront.Proofs.Cursor.Declaration
import DeclFront.Proofs.Place
