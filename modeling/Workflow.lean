import Workflow.Main
import Workflow.Model.Provider
import Workflow.Proofs.Aborts
import Workflow.Proofs.Assignment
import Workflow.Proofs.Budget
import Workflow.Proofs.Conformance
import Workflow.Proofs.Constants
import Workflow.Proofs.Counts
import Workflow.Proofs.Delays
import Workflow.Proofs.Encoding
import Workflow.Proofs.Eviction
import Workflow.Proofs.Expected
import Workflow.Proofs.Failures
import Workflow.Proofs.Fences
import Workflow.Proofs.Globals
import Workflow.Proofs.LineByLine
import Workflow.Proofs.Loops
import Workflow.Proofs.Margins
import Workflow.Proofs.Nesting
import Workflow.Proofs.Parameters
import Workflow.Proofs.References
import Workflow.Proofs.Registry
import Workflow.Proofs.Reordering
import Workflow.Proofs.Rounding
import Workflow.Proofs.ShortCircuit
import Workflow.Proofs.Similarity
import Workflow.Proofs.Spans
import Workflow.Proofs.Spellings
import Workflow.Proofs.Templates
import Workflow.Proofs.Unambiguity
import Workflow.Proofs.Uniqueness
