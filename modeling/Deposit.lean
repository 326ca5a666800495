import Deposit.Text.Utf8
import Deposit.Text.Blank
import Deposit.Text.Hex
import Deposit.Text.Percent
import Deposit.Text.Split
import Deposit.Text.Lowercase
import Deposit.Text.Base64Url
import Deposit.Text.Tags
import Deposit.Text.FileError
import Deposit.Text.Visible
import Deposit.Number.Binary64
import Deposit.Json.Basic
import Deposit.Json.Parse
import Deposit.Json.Record
import Deposit.Xml.Escape
import Deposit.Xml.Unescape
import Deposit.Xml.Element
import Deposit.Xml.Reader
import Deposit.Checksum.Md5
import Deposit.Checksum.Source
import Deposit.Url.Punycode
import Deposit.Url.Host
import Deposit.Url.Basic
import Deposit.Url.Parse
import Deposit.Pid
import Deposit.Network
import Deposit.Identity
import Deposit.License
import Deposit.GeneratedFile
import Deposit.SystemMetadata
import Deposit.ResourceMap
import Deposit.DescriptiveRecord
import Deposit.Storage.Record
import Deposit.Error
import Deposit.Config
import Deposit.Classification
import Deposit.Text.Dictionary
import Deposit.Yaml.Basic
import Deposit.Yaml.Scalar
import Deposit.Yaml.Printer
import Deposit.PackageInfo
import Deposit.Metrics
import Deposit.Publication.Journal
import Deposit.Publication.Act
import Deposit.Publication.World
import Deposit.Publication.Lookup
import Deposit.Publication.Classify
import Deposit.Publication.Collect
import Deposit.Publication.Upload
import Deposit.Publication.Member
import Deposit.Publication.Run
import Deposit.Http.Status
import Deposit.Http.Exchange
import Deposit.Http.Fetch
import Deposit.Storage.Service
import Deposit.Repository.ErrorDocument
import Deposit.Repository.MemberNode
import Deposit.Publication.Remote
import Deposit.Yaml.Reader
import Deposit.CommandLine.Options
import Deposit.CommandLine.Invocation
import Deposit.CommandLine.Run
import Deposit.Main
import Deposit.Proofs.Publication.Course
import Deposit.Proofs.Publication.Following
import Deposit.Proofs.Publication.Discipline
import Deposit.Proofs.Publication.Accounts
import Deposit.Proofs.Classification
import Deposit.Proofs.Publication.Description
import Deposit.Proofs.Text.Blank
import Deposit.Proofs.Text.Split
import Deposit.Proofs.Text.Utf8
import Deposit.Proofs.Xml.Escape
import Deposit.Proofs.Xml.Events
import Deposit.Proofs.DescriptiveRecord
import Deposit.Proofs.Text.Tags
import Deposit.Proofs.Checksum
import Deposit.Proofs.Publication.Classify
import Deposit.Proofs.Xml.Values
import Deposit.Proofs.Xml.Layout
import Deposit.Proofs.ErrorDocument
import Deposit.Proofs.MemberNode
import Deposit.Proofs.ResourceMap
import Deposit.Proofs.Publication.Calls
import Deposit.Proofs.Text.Dictionary
import Deposit.Proofs.PackageInfo
import Deposit.Proofs.Publication.Places
import Deposit.Proofs.Xml.Markup
import Deposit.Proofs.RecordMarkup
import Deposit.Proofs.Metrics
import Deposit.Proofs.Publication.Tally
import Deposit.Proofs.Publication.Generated
import Deposit.Proofs.Publication.Stored
import Deposit.Proofs.RecordTexts
import Deposit.Proofs.SystemMetadata
import Deposit.Proofs.Text.Percent
import Deposit.Proofs.ResourceGraph
import Deposit.Proofs.Text.Base64Url
import Deposit.Proofs.Json.Grammar
import Deposit.Proofs.Json.Strings
import Deposit.Proofs.Json.Numbers
import Deposit.Proofs.Json.Steps
import Deposit.Proofs.Json.Reader
import Deposit.Proofs.Identity
import Deposit.Proofs.Text.Infix
import Deposit.Proofs.Url.Words
import Deposit.Proofs.Url.Hosts
import Deposit.Proofs.Url.Paths
import Deposit.Proofs.Url.Reading
import Deposit.Proofs.RecordParties
import Deposit.Proofs.Orcid
import Deposit.Proofs.Publication.Acts
import Deposit.Proofs.Publication.Links
import Deposit.Proofs.Publication.PackageInfo
import Deposit.Proofs.Publication.Order
import Deposit.Proofs.Publication.Kinds
import Deposit.Proofs.CommandLine.Settings
import Deposit.Proofs.Xml.Cut
import Deposit.Proofs.Xml.Grammar
import Deposit.Proofs.RecordCuts
import Deposit.Proofs.LegalDocuments
import Deposit.Proofs.Url.Composition
import Deposit.Proofs.Network
import Deposit.Proofs.Endpoints
import Deposit.Proofs.Text.Pieces
import Deposit.Proofs.Yaml.Mapping
import Deposit.Proofs.Provenance
import Deposit.Proofs.Memory
