import ScreenPlan.Cache.Figures
import ScreenPlan.Planner
import ScreenPlan.Telemetry.Call
import ScreenPlan.Telemetry.Exposition
import ScreenPlan.Text.Displayed
import ScreenPlan.Proofs.Audit.Grammar
import ScreenPlan.Proofs.Plan.Form
import ScreenPlan.Proofs.Plan.Acceptance
import ScreenPlan.Proofs.Cache.Lru
import ScreenPlan.Proofs.Planner.Course
import ScreenPlan.Proofs.Planner.Run
import ScreenPlan.Proofs.Planner.Outcomes
import ScreenPlan.Proofs.Markup.StandIn
import ScreenPlan.Proofs.Json.Scalars
import ScreenPlan.Proofs.Json.ReadBack
import ScreenPlan.Proofs.Markup.Tree
import ScreenPlan.Proofs.Markup.ReadBack
import ScreenPlan.Proofs.Json.Data
import ScreenPlan.Proofs.Json.Encoders
import ScreenPlan.Proofs.Plan.Payload
import ScreenPlan.Proofs.Plan.Gate
import ScreenPlan.Proofs.Text.Blank
import ScreenPlan.Proofs.Text.Phrase
import ScreenPlan.Proofs.Json.Phrase
import ScreenPlan.Proofs.Prompt
import ScreenPlan.Proofs.Planner.Screening
import ScreenPlan.Proofs.Decimal.Order
import ScreenPlan.Proofs.Json.Injective
import ScreenPlan.Proofs.Json.Canonical
import ScreenPlan.Proofs.Cache.Key
import ScreenPlan.Proofs.Planner.History
import ScreenPlan.Proofs.Planner.Provenance
import ScreenPlan.Proofs.Planner.Failures
import ScreenPlan.Proofs.Planner.Recall
import ScreenPlan.Proofs.Text.ByteOrder
import ScreenPlan.Proofs.Json.RoundTrip
import ScreenPlan.Proofs.Json.Reference
import ScreenPlan.Proofs.Json.NonFinite
import ScreenPlan.Proofs.Text.CodePoints
import ScreenPlan.Proofs.Reply
import ScreenPlan.Proofs.Decimal.Finite
import ScreenPlan.Proofs.Json.Decoded
import ScreenPlan.Proofs.Markup.Untyped
import ScreenPlan.Proofs.Planner.Rendering
import ScreenPlan.Proofs.Planner.Accounts
import ScreenPlan.Proofs.Planner.Balance
import ScreenPlan.Proofs.Cache.Balance
import ScreenPlan.Proofs.Cache.Retention
import ScreenPlan.Proofs.Cache.Answers
import ScreenPlan.Proofs.Cache.Membership
import ScreenPlan.Proofs.Audit.Report
import ScreenPlan.Proofs.Markup.Outline
import ScreenPlan.Proofs.Planner.Spared
import ScreenPlan.Proofs.Planner.Generations
import ScreenPlan.Proofs.Audit.Distinct
import ScreenPlan.Proofs.Markup.Twins
import ScreenPlan.Proofs.Markup.Props
import ScreenPlan.Proofs.Planner.Scopes
import ScreenPlan.Proofs.Planner.Flagged
import ScreenPlan.Proofs.Prompt.Sections
