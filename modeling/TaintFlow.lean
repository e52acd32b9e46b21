import TaintFlow.Main
import TaintFlow.Proofs.Artifact.Depth
import TaintFlow.Proofs.Artifact.Documents
import TaintFlow.Proofs.Artifact.Messages
import TaintFlow.Proofs.Artifact.NumericValues
import TaintFlow.Proofs.Artifact.Printing
import TaintFlow.Proofs.Artifact.RoundTrip
import TaintFlow.Proofs.Binding.Coherence
import TaintFlow.Proofs.Binding.Notices
import TaintFlow.Proofs.Binding.References
import TaintFlow.Proofs.Binding.Truncation
import TaintFlow.Proofs.Command.Session
import TaintFlow.Proofs.Grammar.Beginnings
import TaintFlow.Proofs.Grammar.FirstDefect
import TaintFlow.Proofs.Grammar.FirstUses
import TaintFlow.Proofs.Summary.Arrangement
import TaintFlow.Proofs.Summary.Commas
import TaintFlow.Proofs.Summary.Hints
import TaintFlow.Proofs.Summary.KeyNumbers
import TaintFlow.Proofs.Summary.Listing
import TaintFlow.Proofs.Summary.Matches
import TaintFlow.Proofs.Summary.Padding
import TaintFlow.Proofs.Summary.Recovery
import TaintFlow.Proofs.Summary.Repairs
import TaintFlow.Proofs.Summary.Slips
import TaintFlow.Proofs.Text.EditDistance
