import BackingField.FileSystem.Setup
import BackingField.Main
import BackingField.Text.Utf8.RoundTrip
import BackingField.Proofs.Expansion.Gaps
import BackingField.Proofs.Expansion.Idempotence
import BackingField.Proofs.Occurrence.Overlap
import BackingField.Proofs.Run.DryRun
import BackingField.Proofs.Run.Effect
import BackingField.Proofs.Run.Repetition
import BackingField.Proofs.Splice.OnePass
import BackingField.Proofs.Splice.Reordering
import BackingField.Proofs.CommandLine.Execution
import BackingField.Proofs.Expansion.Stepwise
import BackingField.Proofs.Diff.Totals
import BackingField.Proofs.Run.Account
import BackingField.Proofs.Walk.Completion
import BackingField.Proofs.Walk.Coverage
import BackingField.Proofs.FileSystem.Hidden
import BackingField.Proofs.Run.Exclusion
import BackingField.Proofs.Expansion.LineEndings
import BackingField.Proofs.Diff.Shown
import BackingField.Proofs.Processing
import BackingField.Proofs.Occurrence.Extension
import BackingField.Proofs.Occurrence.Unambiguity
import BackingField.Proofs.Expansion.Recovery
import BackingField.Proofs.Expansion.Bare
import BackingField.Proofs.Expansion.Fields
import BackingField.Proofs.Run.Interleaving
import BackingField.Proofs.Walk.Order
import BackingField.Proofs.Walk.Unreadable
