import CaseCover.Main
import CaseCover.Proofs.Analysis.Links
import CaseCover.Proofs.Analysis.Traversal
import CaseCover.Proofs.Batch.Dispatch
import CaseCover.Proofs.Batch.Outcome
import CaseCover.Proofs.Cache.Sources
import CaseCover.Proofs.Cache.Validity
import CaseCover.Proofs.Coverage.ChainAsSwitch
import CaseCover.Proofs.Coverage.ChainMeaning
import CaseCover.Proofs.Coverage.Equality
import CaseCover.Proofs.Coverage.Missing
import CaseCover.Proofs.Decimal.Rounding
import CaseCover.Proofs.Enum.Flags
import CaseCover.Proofs.Enum.Members
import CaseCover.Proofs.FileTree.Entry
import CaseCover.Proofs.FileTree.Walk
import CaseCover.Proofs.Path.Clean
import CaseCover.Proofs.Path.Glob
import CaseCover.Proofs.Report.FileOrder
import CaseCover.Proofs.Report.Notes
import CaseCover.Proofs.Report.Underline
import CaseCover.Proofs.Sorting
import CaseCover.Proofs.Source.Preorder
import CaseCover.Proofs.Text.Order
import CaseCover.Proofs.Watch.Freshness
import CaseCover.Proofs.Watch.Observation
import CaseCover.Watch
import CaseCover.Proofs.Watch.Balance
import CaseCover.Proofs.Engine.Round
import CaseCover.Proofs.Engine.Settings
import CaseCover.Proofs.Suppression.Lines
import CaseCover.Proofs.Analysis.Options
import CaseCover.Proofs.Analysis.Reading
import CaseCover.Proofs.Issue.Distinct
import CaseCover.Proofs.Engine.Files
import CaseCover.Proofs.Engine.Loading
import CaseCover.Proofs.Engine.Reported
import CaseCover.Proofs.Enum.Memory
import CaseCover.Proofs.Cache.Stream
import CaseCover.Proofs.Enum.FlagSet
import CaseCover.Proofs.Coverage.ChainGrammar
import CaseCover.Proofs.Text.Characters
import CaseCover.Proofs.Suppression.Rules
import CaseCover.Proofs.Path.Relative
import CaseCover.Proofs.Ignore.Containment
import CaseCover.Proofs.Source.Layout
import CaseCover.Proofs.Source.Reader
import CaseCover.Proofs.Source.ReadTypes
import CaseCover.Proofs.Source.ReadExprs
import CaseCover.Proofs.Source.ReadStmts
import CaseCover.Proofs.Source.Spacing
import CaseCover.Proofs.Source.ReadFile
import CaseCover.Proofs.Suppression.Extent
import CaseCover.Proofs.Coverage.Difference
import CaseCover.Proofs.Coverage.Unmatched
import CaseCover.Proofs.Coverage.Rearranging
import CaseCover.Proofs.Coverage.ChainTail
import CaseCover.Proofs.Report.DisplayColumn
import CaseCover.Proofs.Report.Careful
import CaseCover.Proofs.Config.SeverityName
import CaseCover.Proofs.Coverage.Denotation
import CaseCover.Proofs.Report.SharedIndent
import CaseCover.Proofs.Source.Words
import CaseCover.Proofs.Coverage.PureForm
import CaseCover.Proofs.Coverage.ReadForm
