import TestDeclaration.CommandLine.FileTree
import TestDeclaration.Main
import TestDeclaration.Proofs.Execution.Causes
import TestDeclaration.Proofs.Execution.Dump
import TestDeclaration.Proofs.Execution.Independence
import TestDeclaration.Proofs.Execution.Layout
import TestDeclaration.Proofs.Execution.Strength
import TestDeclaration.Proofs.Execution.Totals
import TestDeclaration.Proofs.Library.Growth
import TestDeclaration.Proofs.CodeUnit.WholeNumbers
import TestDeclaration.Proofs.CodeUnit.Counter
import TestDeclaration.Proofs.Plan.Acceptance
import TestDeclaration.Proofs.Plan.Continuation
import TestDeclaration.Proofs.Token.Lines
import TestDeclaration.Proofs.Token.Tiling
import TestDeclaration.Proofs.Number.Reading
import TestDeclaration.Proofs.Token.NumberLiteral
import TestDeclaration.Proofs.Library.Lookup
import TestDeclaration.Proofs.Execution.Invocation
import TestDeclaration.Proofs.Plan.Language
import TestDeclaration.Proofs.Plan.EarliestError
import TestDeclaration.Proofs.Token.QuotedLiteral
import TestDeclaration.Proofs.Report.Verdicts
import TestDeclaration.Proofs.Plan.Abbreviation
import TestDeclaration.Proofs.Report.Lines
import TestDeclaration.Proofs.Execution.LineEnding
import TestDeclaration.Proofs.CodeUnit.Substring
import TestDeclaration.Proofs.Execution.ThrownFault
import TestDeclaration.Proofs.Plan.Repetition
import TestDeclaration.Proofs.Value.Store
import TestDeclaration.Proofs.Plan.Termination
