import LintRatchet.Main
import LintRatchet.Schema
import LintRatchet.Store.Memory
import LintRatchet.Document.Configuration
import LintRatchet.Proofs.CanonicalForm
import LintRatchet.Proofs.Json.Collecting
import LintRatchet.Proofs.Json.Written
import LintRatchet.Proofs.Document.Baseline
import LintRatchet.Proofs.FileTree.Following
import LintRatchet.Proofs.FileTree.Naming
import LintRatchet.Proofs.Store.File
import LintRatchet.Proofs.Evaluation
import LintRatchet.Proofs.Evaluation.Agreement
import LintRatchet.Proofs.Operations
import LintRatchet.Proofs.Store.Lawful
import LintRatchet.Proofs.Ratchet
import LintRatchet.Proofs.Session
import LintRatchet.Proofs.ErrorLine
import LintRatchet.Proofs.FileTree.Parent
import LintRatchet.Proofs.SourcePath
import LintRatchet.Proofs.SourcePath.Repeated
import LintRatchet.Proofs.SourcePath.Location
import LintRatchet.Proofs.SourcePath.Spelling
import LintRatchet.Proofs.SourcePath.Separation
import LintRatchet.Proofs.Identity
import LintRatchet.Proofs.Report
import LintRatchet.Proofs.Repetition
import LintRatchet.Proofs.Persistence
import LintRatchet.Proofs.Document.HandEdited
import LintRatchet.Proofs.Document.RoundTrip
import LintRatchet.Proofs.Configuration.Expansion
import LintRatchet.Proofs.Store.Loading
import LintRatchet.Proofs.Store.Corruption
import LintRatchet.Proofs.Store.Staged
import LintRatchet.Proofs.Program.Recorded
import LintRatchet.Proofs.Program.Footprint
import LintRatchet.Proofs.Report.Rendering
import LintRatchet.Proofs.Json.Grammar
import LintRatchet.Proofs.Json.Skipping
import LintRatchet.Proofs.Json.Gathering
import LintRatchet.Proofs.Evaluation.Tightening
import LintRatchet.Proofs.CanonicalOrder
import LintRatchet.Proofs.CommandLine
import LintRatchet.Proofs.Json.Denoting
import LintRatchet.Proofs.Json.Refusing
import LintRatchet.Proofs.Schema.Agreement
import LintRatchet.Proofs.Schema
import LintRatchet.Proofs.ErrorLine.Pattern
