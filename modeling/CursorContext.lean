import CursorContext.Argument.Render
import CursorContext.Argument.Piece
import CursorContext.Argument.Slot
import CursorContext.Bracket
import CursorContext.Context
import CursorContext.Definition
import CursorContext.Divide
import CursorContext.Document
import CursorContext.Exchange
import CursorContext.Fraction
import CursorContext.Frame
import CursorContext.Name
import CursorContext.Nesting
import CursorContext.Position
import CursorContext.Receiver
import CursorContext.Session
import CursorContext.Settings
import CursorContext.Signature
import CursorContext.SignedIndex
import CursorContext.Symbols
import CursorContext.Symbols.Assignment
import CursorContext.Symbols.Basic
import CursorContext.Symbols.ClassHeader
import CursorContext.Symbols.FunctionHeader
import CursorContext.Symbols.Import
import CursorContext.Symbols.Pass
import CursorContext.Text.Blank
import CursorContext.Text.Casing
import CursorContext.Text.Digits
import CursorContext.Text.Letters
import CursorContext.Text.Lowercase
import CursorContext.Text.Numeral
import CursorContext.Text.Ranges
import CursorContext.Text.Units
import CursorContext.Text.Word
import CursorContext.Token
import CursorContext.Token.Lexeme
import CursorContext.Token.Scan
import CursorContext.Value
import CursorContext.Proofs.Nesting.Step
import CursorContext.Proofs.Nesting.Linked
import CursorContext.Proofs.Nesting.Extent
import CursorContext.Proofs.Nesting.Origin
import CursorContext.Proofs.Nesting.Balanced
import CursorContext.Proofs.Nesting.Outermost
import CursorContext.Proofs.Nesting.Alike
import CursorContext.Proofs.Nesting.Renamed
import CursorContext.Proofs.Checked.Fault
import CursorContext.Proofs.CursorCall
import CursorContext.Proofs.ContextFields
import CursorContext.Proofs.Position
import CursorContext.Proofs.Token.Loop
import CursorContext.Proofs.Checked.Access
import CursorContext.Proofs.Token.Tiling
import CursorContext.Proofs.Token.Steady
import CursorContext.Proofs.Token.Heredoc
import CursorContext.Proofs.Token.Recognised
import CursorContext.Proofs.Token.SpacedLexeme
import CursorContext.Proofs.Token.Unplaced
import CursorContext.Proofs.Nesting.Unplaced
import CursorContext.Proofs.Symbols.Unplaced
import CursorContext.Proofs.Whitespace
import CursorContext.Proofs.Token.Spacing
import CursorContext.Proofs.Token.Settled
import CursorContext.Proofs.Token.Appended
import CursorContext.Proofs.Token.Literal
import CursorContext.Proofs.Literal
import CursorContext.Proofs.Checked.Nesting
import CursorContext.Proofs.Symbols.Progress
import CursorContext.Proofs.Symbols.Anchored
import CursorContext.Proofs.Symbols.Surroundings
import CursorContext.Proofs.Symbols.Live
import CursorContext.Proofs.Symbols.Enclosing
import CursorContext.Proofs.Symbols.Renamed
import CursorContext.Proofs.Symbols.MemberName
import CursorContext.Proofs.Checked.Declaration
import CursorContext.Proofs.Checked.Symbols
import CursorContext.Proofs.Argument.Inside
import CursorContext.Proofs.Argument.Listed
import CursorContext.Proofs.Argument.Continued
import CursorContext.Proofs.Checked.Arguments
import CursorContext.Proofs.Checked.Context
import CursorContext.Proofs.Nesting.Continued
import CursorContext.Proofs.Nesting.Sealed
import CursorContext.Proofs.Symbols.ScopeChain
import CursorContext.Proofs.Symbols.WrittenHeader
import CursorContext.Proofs.Symbols.FunctionScope
import CursorContext.Proofs.Session
import CursorContext.Proofs.CallChain
import CursorContext.Proofs.Argument.ArrowFunction
import CursorContext.Proofs.FirstTag
import CursorContext.Proofs.Name
import CursorContext.Proofs.Symbols.ImportClause
import CursorContext.Proofs.Symbols.ImportGroup
import CursorContext.Proofs.ParameterList
import CursorContext.Proofs.Symbols.LoopTarget
import CursorContext.Proofs.Symbols.Introduced
import CursorContext.Proofs.MemberReceiver
import CursorContext.Proofs.Token.Terminated
import CursorContext.Proofs.Symbols.ClassHeader
import CursorContext.Proofs.Symbols.LastImport
import CursorContext.Proofs.OwnClass
import CursorContext.Proofs.Token.OneLine
import CursorContext.Proofs.Argument.Division
import CursorContext.Proofs.Signature
import CursorContext.Proofs.Symbols.CleanNames
import CursorContext.Proofs.Units
