import Preflight.Action
import Preflight.Conformance
import Preflight.Declaration
import Preflight.Fault
import Preflight.Finding
import Preflight.Operator
import Preflight.Plan.Basic
import Preflight.Plan.Edit
import Preflight.Plan.Scope
import Preflight.Proofs.Acceptance
import Preflight.Proofs.ArrayMisuse
import Preflight.Proofs.Assignments
import Preflight.Proofs.Blame
import Preflight.Proofs.Conflicts
import Preflight.Proofs.Conformance
import Preflight.Proofs.Fallbacks
import Preflight.Proofs.Forgetting
import Preflight.Proofs.Frame
import Preflight.Proofs.IndexFindings
import Preflight.Proofs.IndexedArrays
import Preflight.Proofs.LexicalTyping
import Preflight.Proofs.LookupNames
import Preflight.Proofs.NearestVariable
import Preflight.Proofs.NewDeclaration
import Preflight.Proofs.NewNode
import Preflight.Proofs.OwnedReferences
import Preflight.Proofs.Plan.Building
import Preflight.Proofs.Plan.Checked
import Preflight.Proofs.Plan.Forest
import Preflight.Proofs.Plan.Refusal
import Preflight.Proofs.Plan.Run
import Preflight.Proofs.Plan.Scope
import Preflight.Proofs.Preorder
import Preflight.Proofs.PrincipalTypes
import Preflight.Proofs.Readings
import Preflight.Proofs.ReportSummary
import Preflight.Proofs.Resolution
import Preflight.Proofs.Signatures
import Preflight.Proofs.StaticText
import Preflight.Proofs.Store.Building
import Preflight.Proofs.Store.InPlace
import Preflight.Proofs.Store.Locality
import Preflight.Proofs.Store.Ownership
import Preflight.Proofs.Store.Run
import Preflight.Proofs.Store.Walk
import Preflight.Proofs.Termination
import Preflight.Proofs.Typing
import Preflight.Proofs.Unattached
import Preflight.Proofs.Visibility
import Preflight.Report
import Preflight.Resolution
import Preflight.Store.Basic
import Preflight.Store.Build
import Preflight.Store.Fold
import Preflight.Store.Search
import Preflight.Store.Text
import Preflight.Tag
import Preflight.Text.Blank
import Preflight.Text.CodePoints
import Preflight.Text.Extender
import Preflight.Text.Quoted
import Preflight.Text.Unprintable
import Preflight.Ty
import Preflight.Typing
import Preflight.Variable
import Preflight.Verdict
