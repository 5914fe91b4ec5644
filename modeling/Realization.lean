import Realization.Contract.Basic
import Realization.Contract.Validation
import Realization.Contract.Verdicts
import Realization.Contract.Violation
import Realization.Declaration.Basic
import Realization.Declaration.Encoding
import Realization.Declaration.Json
import Realization.Declaration.Naming
import Realization.Declaration.Role
import Realization.Diagnostic
import Realization.Digest.Blake3
import Realization.Digraph
import Realization.Element
import Realization.Graph.Basic
import Realization.Graph.Fault
import Realization.Graph.Order
import Realization.Graph.Plan
import Realization.Graph.Realize
import Realization.Graph.Session
import Realization.Instance
import Realization.Json
import Realization.Proofs.Acceptance
import Realization.Proofs.Accounts
import Realization.Proofs.Admission
import Realization.Proofs.Advances
import Realization.Proofs.Agreement
import Realization.Proofs.Assurance
import Realization.Proofs.Blame
import Realization.Proofs.Calls
import Realization.Proofs.CheckFaults
import Realization.Proofs.CheckedPlans
import Realization.Proofs.Coherence
import Realization.Proofs.Confluence
import Realization.Proofs.Conformity
import Realization.Proofs.Construction
import Realization.Proofs.Contracts
import Realization.Proofs.Courses
import Realization.Proofs.Crossings
import Realization.Proofs.Cycles
import Realization.Proofs.Delimiting
import Realization.Proofs.Dependency
import Realization.Proofs.Depth
import Realization.Proofs.Diagnosis
import Realization.Proofs.Discipline
import Realization.Proofs.Elements
import Realization.Proofs.Failing
import Realization.Proofs.FirstMentions
import Realization.Proofs.FirstViolation
import Realization.Proofs.Footprint
import Realization.Proofs.Foresight
import Realization.Proofs.Growth
import Realization.Proofs.Integrity
import Realization.Proofs.Interleaving
import Realization.Proofs.Judgement
import Realization.Proofs.Justification
import Realization.Proofs.Kinship
import Realization.Proofs.KnownForms
import Realization.Proofs.LetterCase
import Realization.Proofs.Lifetime
import Realization.Proofs.Moments
import Realization.Proofs.NodeTable
import Realization.Proofs.OneContract
import Realization.Proofs.Ordering
import Realization.Proofs.Peers
import Realization.Proofs.Phases
import Realization.Proofs.PlainNames
import Realization.Proofs.Planning
import Realization.Proofs.Prescription
import Realization.Proofs.PropertyMap
import Realization.Proofs.Realizing
import Realization.Proofs.Recheck
import Realization.Proofs.Refusals
import Realization.Proofs.Repetition
import Realization.Proofs.Reporting
import Realization.Proofs.Representation
import Realization.Proofs.RequestFaults
import Realization.Proofs.Rest
import Realization.Proofs.Roles
import Realization.Proofs.RuleIndex
import Realization.Proofs.Shadows
import Realization.Proofs.Shrinking
import Realization.Proofs.Slots
import Realization.Proofs.Sorting
import Realization.Proofs.Spelling
import Realization.Proofs.Standstill
import Realization.Proofs.StaticCheck
import Realization.Proofs.Stays
import Realization.Proofs.Stopping
import Realization.Proofs.Trails
import Realization.Proofs.Transparency
import Realization.Proofs.TwinPlans
import Realization.Proofs.Twins
import Realization.Proofs.Underway
import Realization.Proofs.VerdictMemory
import Realization.Proofs.Violations
import Realization.Proofs.Work
import Realization.Proofs.WrittenForms
import Realization.Registry.Basic
import Realization.Registry.Refusal
import Realization.Rule
import Realization.Script
import Realization.Settings.Basic
import Realization.Settings.Document
import Realization.Text.Case
import Realization.Text.CaseData
import Realization.Text.Quoted
import Realization.Text.Run
import Realization.Text.Visibility
import Realization.Toml.Document
import Realization.Toml.Literal
import Realization.Toml.Reader
import Realization.Toml.Value
import Realization.TypeRef
