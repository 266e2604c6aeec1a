import ClaimCheck.Main
import ClaimCheck.Proofs.Environment.Missing
import ClaimCheck.Proofs.Text.Utf8
import ClaimCheck.Proofs.Clock
import ClaimCheck.Proofs.Config.Load
import ClaimCheck.Proofs.Metadata.Builder
import ClaimCheck.Proofs.Chat.Call
import ClaimCheck.Proofs.Evaluation
import ClaimCheck.Proofs.Check.Course
import ClaimCheck.Proofs.Check.Verdict
import ClaimCheck.Proofs.Template.Scan
import ClaimCheck.Proofs.Template.Render
import ClaimCheck.Proofs.Config.Section
import ClaimCheck.Proofs.Check.Sent
import ClaimCheck.Proofs.Environment.Report
import ClaimCheck.Proofs.Config.Unset
import ClaimCheck.Proofs.Config.Announced
import ClaimCheck.Proofs.Config.Prompt
import ClaimCheck.Proofs.Evaluation.Configured
import ClaimCheck.Proofs.Metadata.Equality
import ClaimCheck.Proofs.Number.Numeral
import ClaimCheck.Proofs.Number.Figure
import ClaimCheck.Proofs.Duration.Quantity
import ClaimCheck.Proofs.Duration.Whole
import ClaimCheck.Proofs.Duration.Reading
import ClaimCheck.Proofs.RateLimit.RoundTrip
import ClaimCheck.Proofs.Chat.Fault
import ClaimCheck.Proofs.Evaluation.Fault
import ClaimCheck.Proofs.Chat.Closing
import ClaimCheck.Proofs.Chat.Headers
import ClaimCheck.Proofs.Number.Sign
import ClaimCheck.Proofs.Config.Conform
import ClaimCheck.Proofs.Config.Warned
import ClaimCheck.Proofs.Config.Decided
import ClaimCheck.Proofs.Environment.Agreement
import ClaimCheck.Proofs.Config.Referenced
import ClaimCheck.Metadata.Builder
import ClaimCheck.Proofs.Validation.Issues
import ClaimCheck.Proofs.Metadata.Bag
import ClaimCheck.Proofs.Metadata.Issues
import ClaimCheck.Proofs.Metadata.History
import ClaimCheck.Proofs.Template.Occurrence
import ClaimCheck.Proofs.Template.Substitution
import ClaimCheck.Proofs.Template.Distinct
import ClaimCheck.Proofs.Evaluation.Question
import ClaimCheck.Proofs.Config.CustomPrompt
import ClaimCheck.Proofs.Text.FinalSigma
import ClaimCheck.Proofs.Evaluation.Course
import ClaimCheck.Proofs.Environment.Substitution
import ClaimCheck.Proofs.Environment.Leftover
import ClaimCheck.Proofs.RateLimit.FirstMatch
import ClaimCheck.Proofs.Number.Canonical
import ClaimCheck.Proofs.Number.Reach
import ClaimCheck.Proofs.Duration.BareFigure
import ClaimCheck.Proofs.Duration.WholeUnits
import ClaimCheck.Proofs.Evaluation.Verdict
import ClaimCheck.Proofs.Evaluation.Request
import ClaimCheck.Proofs.Metadata.Hashed
