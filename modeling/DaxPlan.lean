import DaxPlan.Layout.Controller
import DaxPlan.Main
import DaxPlan.Proofs.Layout.Sweep
import DaxPlan.Service
import DaxPlan.Proofs.Layout.Separation
import DaxPlan.Proofs.Outline.ParentRule
import DaxPlan.Proofs.Outline.TextualOrder
import DaxPlan.Proofs.Layout.Replay
import DaxPlan.Proofs.Layout.History
import DaxPlan.Proofs.Enrichment.Correlation
import DaxPlan.Proofs.CrossReference.Matching
import DaxPlan.Proofs.Enrichment.Naming
import DaxPlan.Proofs.Enrichment.EventOrder
import DaxPlan.Proofs.Service.Interleaving
import DaxPlan.Proofs.Enrichment.Totals
import DaxPlan.Proofs.Detection.Attribution
import DaxPlan.Proofs.Enrichment.Explanation
import DaxPlan.Proofs.Detection.Recording
import DaxPlan.Proofs.Layout.Preservation
import DaxPlan.Proofs.Session.Saving
import DaxPlan.Proofs.Strict.Outcomes
import DaxPlan.Proofs.Layout.AutoCollapse
import DaxPlan.Proofs.Layout.Uniform
import DaxPlan.Proofs.Layout.SiblingOrder
import DaxPlan.Proofs.Layout.Convergence
import DaxPlan.Proofs.Layout.Showing
import DaxPlan.Proofs.Row.LineText
import DaxPlan.Proofs.Outline.GridCopy
import DaxPlan.Proofs.Outline.Spacing
import DaxPlan.Proofs.Layout.Leaves
import DaxPlan.Proofs.Report.Outline
