import CommentGrade.Main
import CommentGrade.Proofs.Analysis.Completion
import CommentGrade.Proofs.Comment.Runs
import CommentGrade.Proofs.Pattern.Notation
import CommentGrade.Proofs.Comment.WrittenForm
import CommentGrade.Proofs.Text.Seam
import CommentGrade.Proofs.Comment.Locality
import CommentGrade.Proofs.Comment.Tags
import CommentGrade.Proofs.Summary.Medians
import CommentGrade.Proofs.Analysis.Flags
import CommentGrade.Proofs.Decoding.Legacy
import CommentGrade.Proofs.Files.Marks
import CommentGrade.Proofs.Number.Exact
import CommentGrade.Proofs.Readability.Tables
import CommentGrade.Proofs.Summary.Contents
import CommentGrade.Proofs.Report.Consistency
import CommentGrade.Proofs.Settings.Layers
import CommentGrade.Proofs.Settings.RoundTrip
import CommentGrade.Proofs.Json.Contents
import CommentGrade.Proofs.Settings.Failures
import CommentGrade.Proofs.Report.Snippet
import CommentGrade.Proofs.CommandLine.Runs
import CommentGrade.Proofs.Report.Agreement
import CommentGrade.Proofs.Number.Placed
import CommentGrade.Proofs.CommandLine.ExitCode
import CommentGrade.Proofs.Comment.LineEnds
import CommentGrade.Proofs.Comment.PlainText
import CommentGrade.Proofs.Comment.FirstLine
import CommentGrade.Proofs.Comment.DocClosers
import CommentGrade.Proofs.Comment.DelimiterPairs
import CommentGrade.Proofs.Report.Histogram
import CommentGrade.Proofs.Log.Hierarchy
import CommentGrade.Proofs.Log.Routing
import CommentGrade.Proofs.Comment.Returns
import CommentGrade.Proofs.Comment.BlockLineEnds
import CommentGrade.Proofs.Summary.Affine
import CommentGrade.Proofs.Summary.Coherence
import CommentGrade.Proofs.Text.Positions
import CommentGrade.Proofs.Readability.Faults
import CommentGrade.Proofs.Files.Texts
import CommentGrade.Proofs.Analysis.Listing
import CommentGrade.Proofs.CommandLine.Resolution
import CommentGrade.Proofs.Files.Paths
import CommentGrade.Proofs.CommandLine.Hints
import CommentGrade.Proofs.ReadingTime.WordCount
import CommentGrade.Proofs.ReadingTime.Offsets
import CommentGrade.Proofs.Language.Detection
import CommentGrade.Proofs.Report.Ordinals
import CommentGrade.Proofs.Summary.Parts
