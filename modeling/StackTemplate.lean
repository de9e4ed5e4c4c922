import StackTemplate.Intrinsic.Registry
import StackTemplate.Resolution.Operation
import StackTemplate.Value.Reader
import StackTemplate.Proofs.Growth
import StackTemplate.Proofs.Limit
import StackTemplate.Proofs.Outcome
import StackTemplate.Proofs.Request
import StackTemplate.Proofs.Settled
import StackTemplate.Proofs.Eventual
import StackTemplate.Proofs.History
import StackTemplate.Proofs.Threshold
import StackTemplate.Proofs.Strictness
import StackTemplate.Proofs.Warrant
import StackTemplate.Proofs.Locality
import StackTemplate.Proofs.CallFree
import StackTemplate.Proofs.Cycle
import StackTemplate.Proofs.Formula
import StackTemplate.Proofs.Height
import StackTemplate.Proofs.Extension
import StackTemplate.Proofs.Reproducible
import StackTemplate.Proofs.Reordered
import StackTemplate.Proofs.KeyOrder
import StackTemplate.Proofs.Balance
import StackTemplate.Proofs.NameRing
import StackTemplate.Proofs.Substitution
import StackTemplate.Proofs.Omission
import StackTemplate.Proofs.Decomposition
import StackTemplate.Proofs.Rendering
import StackTemplate.Proofs.Requoting
import StackTemplate.Proofs.NameCell
import StackTemplate.Proofs.Fields
import StackTemplate.Proofs.Joining
import StackTemplate.Proofs.Equality
import StackTemplate.Proofs.Comparison
import StackTemplate.Proofs.Traversal
import StackTemplate.Proofs.Spelling
import StackTemplate.Proofs.Attribute
import StackTemplate.Proofs.Arn
import StackTemplate.Proofs.ListParameter
import StackTemplate.Proofs.WholeNumber
import StackTemplate.Proofs.Selection
