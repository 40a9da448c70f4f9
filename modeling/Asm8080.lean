import Asm8080.Assembler
import Asm8080.Command.Arguments
import Asm8080.Command.FileTree
import Asm8080.Command.Help
import Asm8080.Command.Invocation
import Asm8080.Command.Journal
import Asm8080.Directive
import Asm8080.Fault
import Asm8080.Label
import Asm8080.Listing
import Asm8080.Literal
import Asm8080.Machine.Core
import Asm8080.Machine.EchoCore
import Asm8080.Machine.Panel
import Asm8080.Machine.Session
import Asm8080.Machine.Workbench
import Asm8080.Main
import Asm8080.Object.Code
import Asm8080.Object.Hex
import Asm8080.Opcode
import Asm8080.Operand
import Asm8080.Pass.Counter
import Asm8080.Pass.Emission
import Asm8080.Pass.Survey
import Asm8080.Proofs.ByteAccounting
import Asm8080.Proofs.Compilation
import Asm8080.Proofs.DataLayout
import Asm8080.Proofs.Diagnostics
import Asm8080.Proofs.FaultReports
import Asm8080.Proofs.LabelView
import Asm8080.Proofs.LetterCase
import Asm8080.Proofs.LineSeams
import Asm8080.Proofs.MnemonicMatch
import Asm8080.Proofs.PassAgreement
import Asm8080.Proofs.PlainText
import Asm8080.Proofs.References
import Asm8080.Proofs.Run
import Asm8080.Proofs.SourceProgram
import Asm8080.Proofs.SourceStatements
import Asm8080.Proofs.Tokenization
import Asm8080.Proofs.Walk
import Asm8080.Proofs.Words
import Asm8080.Report
import Asm8080.Sample
import Asm8080.Source.Comment
import Asm8080.Source.Layout
import Asm8080.Source.Mnemonic
import Asm8080.Source.Quotation
import Asm8080.Statement
import Asm8080.Text.Basic
import Asm8080.Text.Blank
import Asm8080.Text.CaseRange
import Asm8080.Text.Json
import Asm8080.Text.LowerCase
import Asm8080.Text.Numeral
import Asm8080.Text.Quoted
import Asm8080.Text.UpperCase
import Asm8080.Text.Utf8
import Asm8080.Token
import Asm8080.ValueList
import Asm8080.Proofs.Placeholders
import Asm8080.Proofs.LineLocality
import Asm8080.Proofs.LayoutFreedom
import Asm8080.Proofs.MissingOperand
import Asm8080.Proofs.LoadedImage
import Asm8080.Proofs.OctalDump
import Asm8080.Proofs.AddressSpace
import Asm8080.Proofs.QuotedLiterals
import Asm8080.Proofs.DataLine
import Asm8080.Proofs.FirstDefinition
import Asm8080.Proofs.ListingRows
import Asm8080.Proofs.SessionCalls
import Asm8080.Proofs.SharedConsole
import Asm8080.Proofs.ConsoleBuffer
import Asm8080.Proofs.HighlightedListing
import Asm8080.Proofs.LaunchGate
import Asm8080.Proofs.RefusedCalls
import Asm8080.Proofs.OperandExchange
import Asm8080.Proofs.RunSlices
import Asm8080.Proofs.WordStarts
import Asm8080.Proofs.PrivateMarks
import Asm8080.Proofs.EndDirective
import Asm8080.Proofs.LiteralGrammar
import Asm8080.Proofs.HexImage
import Asm8080.Proofs.ProtectedText
import Asm8080.Proofs.Comments
import Asm8080.Proofs.PrefixView
import Asm8080.Proofs.JsonText
import Asm8080.Proofs.ReportContents
import Asm8080.Proofs.Surroundings
import Asm8080.Proofs.SingleOutput
import Asm8080.Proofs.PassSeparation
import Asm8080.Proofs.WalkCoverage
import Asm8080.Proofs.ValueSplitting
