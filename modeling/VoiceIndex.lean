import VoiceIndex.Text.Blank
import VoiceIndex.Text.Pieces
import VoiceIndex.Text.Limit
import VoiceIndex.Text.Numeral
import VoiceIndex.Text.Case.Lower
import VoiceIndex.Json.Writer
import VoiceIndex.Json.Reader
import VoiceIndex.Json.Fields
import VoiceIndex.Path
import VoiceIndex.Disk.Access
import VoiceIndex.Disk.Tree
import VoiceIndex.Disk.Basic
import VoiceIndex.Error
import VoiceIndex.Text.Order
import VoiceIndex.Record.Format
import VoiceIndex.Store.Edit
import VoiceIndex.Store.Format
import VoiceIndex.Source.CommandFile
import VoiceIndex.Source.ListFile
import VoiceIndex.Query.Search
import VoiceIndex.Query.Facet
import VoiceIndex.Settings
import VoiceIndex.Index.Import
import VoiceIndex.Cli.Run
import VoiceIndex.Main
import VoiceIndex.Proofs.Text.Pieces
import VoiceIndex.Proofs.Query.ListIndex
import VoiceIndex.Proofs.Source.Provenance
import VoiceIndex.Proofs.Path.Ending
import VoiceIndex.Proofs.Path.Order
import VoiceIndex.Proofs.Path.Below
import VoiceIndex.Proofs.Disk.Folders
import VoiceIndex.Proofs.Disk.Access
import VoiceIndex.Proofs.Disk.Program
import VoiceIndex.Proofs.Json.Scalar
import VoiceIndex.Proofs.Json.RoundTrip
import VoiceIndex.Proofs.Json.Record
import VoiceIndex.Proofs.Disk.Frame
import VoiceIndex.Proofs.Disk.Walk
import VoiceIndex.Proofs.Store.RoundTrip
import VoiceIndex.Proofs.Settings.RoundTrip
import VoiceIndex.Proofs.Store.Numbers
import VoiceIndex.Proofs.Index.Snapshot
import VoiceIndex.Proofs.Index.Durability
import VoiceIndex.Proofs.Index.Numbering
import VoiceIndex.Proofs.Index.Degraded
import VoiceIndex.Proofs.Cli.Action
import VoiceIndex.Proofs.Cli.Search
import VoiceIndex.Proofs.Text.Blank
import VoiceIndex.Proofs.Text.Lower
import VoiceIndex.Proofs.Query.Search
import VoiceIndex.Proofs.Source.CommandFile
import VoiceIndex.Proofs.Text.Limit
import VoiceIndex.Proofs.Text.Order
import VoiceIndex.Proofs.Source.Application
import VoiceIndex.Proofs.Index.Import
import VoiceIndex.Proofs.Query.ListName
import VoiceIndex.Proofs.Query.FacetValues
import VoiceIndex.Proofs.Query.Facet
import VoiceIndex.Proofs.Cli.Frame
import VoiceIndex.Proofs.Record.Content
import VoiceIndex.Proofs.Source.Verbatim
import VoiceIndex.Proofs.Source.Body
import VoiceIndex.Proofs.Source.Header
import VoiceIndex.Proofs.Source.Walk
import VoiceIndex.Proofs.Source.Scan
import VoiceIndex.Proofs.Store.Run
import VoiceIndex.Proofs.Store.Drafts
import VoiceIndex.Proofs.Store.Application
import VoiceIndex.Proofs.Store.Lists
import VoiceIndex.Proofs.Query.Breakdown
import VoiceIndex.Proofs.Text.Sigma
import VoiceIndex.Proofs.Text.Normal
import VoiceIndex.Proofs.Text.Numeral
import VoiceIndex.Proofs.Query.Scope
import VoiceIndex.Proofs.Query.Literal
import VoiceIndex.Proofs.Query.Request
import VoiceIndex.Proofs.Query.ListGrowth
import VoiceIndex.Proofs.Source.ListTable
import VoiceIndex.Proofs.Source.ListFile
import VoiceIndex.Proofs.Source.Lines
import VoiceIndex.Proofs.Source.ApplicationName
import VoiceIndex.Proofs.Source.Fields
import VoiceIndex.Proofs.Query.Placeholder
import VoiceIndex.Proofs.Cli.Arguments
