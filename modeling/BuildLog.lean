import BuildLog.Arguments
import BuildLog.CommandLine
import BuildLog.Config
import BuildLog.Detail
import BuildLog.DetailLine
import BuildLog.Dictionary
import BuildLog.Double
import BuildLog.Double.Shortest
import BuildLog.FailureLine
import BuildLog.Feed
import BuildLog.FileTree
import BuildLog.Header
import BuildLog.Json.Basic
import BuildLog.Json.Failure
import BuildLog.Json.Printer
import BuildLog.Json.Reader
import BuildLog.Json.Record
import BuildLog.Json.Skip
import BuildLog.Json.Token
import BuildLog.Main
import BuildLog.Malformed
import BuildLog.Measurements
import BuildLog.Proofs.ArtifactRequests
import BuildLog.Proofs.ArtifactRoundTrip
import BuildLog.Proofs.CommandRun
import BuildLog.Proofs.CutLines
import BuildLog.Proofs.DetailForms
import BuildLog.Proofs.ErrorSettings
import BuildLog.Proofs.FailingDetails
import BuildLog.Proofs.FailingLine
import BuildLog.Proofs.FailureLanguage
import BuildLog.Proofs.FeedDecoding
import BuildLog.Proofs.FirstPayload
import BuildLog.Proofs.HarnessStamp
import BuildLog.Proofs.HeaderEnd
import BuildLog.Proofs.HeaderProperties
import BuildLog.Proofs.JobDetails
import BuildLog.Proofs.JsonScalars
import BuildLog.Proofs.JsonValues
import BuildLog.Proofs.LineNesting
import BuildLog.Proofs.LinkOrigins
import BuildLog.Proofs.MarkerEnd
import BuildLog.Proofs.MarkerGrammar
import BuildLog.Proofs.MeasurementTruncation
import BuildLog.Proofs.ParsedValues
import BuildLog.Proofs.PartialConfig
import BuildLog.Proofs.PayloadPlace
import BuildLog.Proofs.PrettyText
import BuildLog.Proofs.RecordFields
import BuildLog.Proofs.RenderedDetails
import BuildLog.Proofs.RenderedSteps
import BuildLog.Proofs.ReportBounds
import BuildLog.Proofs.ScanLanguages
import BuildLog.Proofs.SectionIndependence
import BuildLog.Proofs.SessionRun
import BuildLog.Proofs.StampedLines
import BuildLog.Proofs.StepDurations
import BuildLog.Proofs.StepErrors
import BuildLog.Proofs.StepGrowth
import BuildLog.Proofs.StepRun
import BuildLog.Proofs.StepSpans
import BuildLog.Proofs.TruncationLaws
import BuildLog.Proofs.ValueTypes
import BuildLog.Report
import BuildLog.Section
import BuildLog.Session
import BuildLog.Step
import BuildLog.StepLog
import BuildLog.StepMarker
import BuildLog.Text.Blank
import BuildLog.Text.DecimalDigit
import BuildLog.Text.Hidden
import BuildLog.Text.Lines
import BuildLog.Text.Quoted
import BuildLog.Text.Scan
import BuildLog.Text.Scan.Lemmas
import BuildLog.Text.Utf8
import BuildLog.Timestamp
import BuildLog.Toml.Basic
import BuildLog.Toml.Document
import BuildLog.Toml.Failure
import BuildLog.Toml.Outline
import BuildLog.Toml.Range
import BuildLog.Toml.Scalar
import BuildLog.Toml.Token
import BuildLog.Toml.Tree
import BuildLog.Truncation
