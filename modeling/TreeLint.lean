import TreeLint.Config.File
import TreeLint.Fault.Named
import TreeLint.Output.Format
import TreeLint.Rules.Standard
import TreeLint.Value.Fields
import TreeLint.Value.Json
import TreeLint.Proofs.Rule.Discovery
import TreeLint.Proofs.Run.Isolation
import TreeLint.Proofs.Run.Strictness
import TreeLint.Proofs.Run.Vocabulary
import TreeLint.Proofs.Run.Registration
import TreeLint.Proofs.Diagnostic.Reporting
import TreeLint.Proofs.Model.Reachability
import TreeLint.Proofs.Model.Rounding
import TreeLint.Proofs.Run.Comment
import TreeLint.Proofs.Run.Directive
import TreeLint.Proofs.Run.Limit
import TreeLint.Proofs.Syntax.CallSite
import TreeLint.Proofs.Syntax.Offset
import TreeLint.Proofs.Syntax.Sharing
import TreeLint.Proofs.Rules.Expectation
import TreeLint.Proofs.Rules.UnknownTypes
import TreeLint.Proofs.Output.Agreement
import TreeLint.Proofs.Rule.Verdict
import TreeLint.Proofs.Rule.Ledger
import TreeLint.Proofs.Run.Writing
import TreeLint.Proofs.Config.Discovery
import TreeLint.Proofs.Config.Saving
