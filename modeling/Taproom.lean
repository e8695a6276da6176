import Taproom.Archive.Bytes
import Taproom.Archive.Bzip2
import Taproom.Archive.Gzip
import Taproom.Archive.Kind
import Taproom.Archive.Sketch
import Taproom.Archive.Tar
import Taproom.Archive.Zip
import Taproom.Archive.Zstd
import Taproom.Bottle
import Taproom.Bottle.Keg
import Taproom.Calendar
import Taproom.Calendar.Layout
import Taproom.Checkout
import Taproom.Cli.Command
import Taproom.Cli.Completion
import Taproom.Cli.Console
import Taproom.Cli.Flag
import Taproom.Cli.Help
import Taproom.Cli.Make
import Taproom.Cli.Run
import Taproom.Cli.Show
import Taproom.Config
import Taproom.Dict
import Taproom.Digest.Sha256
import Taproom.Disk.Action
import Taproom.Disk.Basic
import Taproom.Disk.Change
import Taproom.Disk.Listing
import Taproom.Disk.Refusal
import Taproom.Disk.Search
import Taproom.Dispatch
import Taproom.Fault
import Taproom.Fetch
import Taproom.Formula.Basic
import Taproom.Formula.Check
import Taproom.Formula.Reader
import Taproom.Formula.Record
import Taproom.Git.Difference
import Taproom.Git.Ignore
import Taproom.Git.Remote
import Taproom.Git.Repository
import Taproom.Git.Revision
import Taproom.Git.Tap
import Taproom.Git.Worktree
import Taproom.Graph.Basic
import Taproom.Graph.Order
import Taproom.Graph.Package
import Taproom.Graph.Record
import Taproom.Http.Client
import Taproom.Http.Route
import Taproom.Index.Basic
import Taproom.Index.Repository
import Taproom.Json
import Taproom.Json.Fields
import Taproom.Json.Written
import Taproom.Keg.Builder
import Taproom.Keg.Cellar
import Taproom.Keg.Receipt
import Taproom.Keg.Test
import Taproom.Keg.Variables
import Taproom.Main
import Taproom.Manager.Api
import Taproom.Manager.Basic
import Taproom.Manager.Client
import Taproom.Path
import Taproom.Platform
import Taproom.Plist
import Taproom.Plist.Binary
import Taproom.Plist.Markup
import Taproom.Plist.Plain
import Taproom.Plist.Reader
import Taproom.Program
import Taproom.Receiver
import Taproom.Regex.Basic
import Taproom.Regex.CharSet
import Taproom.Regex.Fault
import Taproom.Regex.Reader
import Taproom.Regex.Stack
import Taproom.Regex.Tree
import Taproom.Scheduler.Basic
import Taproom.Scheduler.Build
import Taproom.Scheduler.Local
import Taproom.Scheduler.Nomad
import Taproom.Semver
import Taproom.Server
import Taproom.Service
import Taproom.Shell.Builtin
import Taproom.Shell.Command
import Taproom.Shell.Expand
import Taproom.Shell.FileTools
import Taproom.Shell.Run
import Taproom.Shell.Session
import Taproom.Shell.Stream
import Taproom.Shell.TextTools
import Taproom.Shell.Token
import Taproom.Shell.Word
import Taproom.Store
import Taproom.Tap
import Taproom.Text.Age
import Taproom.Text.Base64
import Taproom.Text.Binary
import Taproom.Text.Cut
import Taproom.Text.Distance
import Taproom.Text.Duration
import Taproom.Text.Glob
import Taproom.Text.Number
import Taproom.Text.PathPattern
import Taproom.Text.Quoted
import Taproom.Text.Real
import Taproom.Text.Substitute
import Taproom.Text.Utf8
import Taproom.Unicode.Category
import Taproom.Unicode.Fold
import Taproom.Unicode.Ranges
import Taproom.Unicode.Script
import Taproom.Unpack
import Taproom.Url
import Taproom.Url.Address
import Taproom.Version
import Taproom.View
import Taproom.Xml
import Taproom.Xml.Name
import Taproom.Yaml.Cursor
import Taproom.Yaml.Fault
import Taproom.Yaml.Node
import Taproom.Yaml.Resolve
import Taproom.Yaml.Scalar
import Taproom.Yaml.Shape
import Taproom.Yaml.Token
import Taproom.Proofs.Dict
import Taproom.Proofs.Order
import Taproom.Proofs.Graph
import Taproom.Proofs.Installation
import Taproom.Proofs.Dispatch
import Taproom.Proofs.Path
import Taproom.Proofs.Formula
import Taproom.Proofs.Disk
import Taproom.Proofs.KegPath
import Taproom.Proofs.Action
import Taproom.Proofs.Directories
import Taproom.Proofs.Extraction
import Taproom.Proofs.Unpacking
import Taproom.Proofs.Json
import Taproom.Proofs.Search
import Taproom.Proofs.Tap
import Taproom.Proofs.Import
import Taproom.Proofs.Stamps
import Taproom.Proofs.Handover
import Taproom.Proofs.Index
import Taproom.Proofs.Operations
import Taproom.Proofs.Restart
import Taproom.Proofs.Flags
import Taproom.Proofs.BottleName
import Taproom.Proofs.Faults
import Taproom.Proofs.Ground
import Taproom.Proofs.Edits
import Taproom.Proofs.Receiving
import Taproom.Proofs.Uploads
import Taproom.Proofs.Views
import Taproom.Proofs.Registrations
import Taproom.Proofs.Progress
import Taproom.Proofs.Marks
import Taproom.Proofs.Layout
import Taproom.Proofs.Filling
import Taproom.Proofs.Cleanup
import Taproom.Proofs.Leftovers
import Taproom.Proofs.Histories
import Taproom.Proofs.Blocking
import Taproom.Proofs.Workers
import Taproom.Proofs.Failures
import Taproom.Proofs.Refusals
import Taproom.Proofs.Reimport
import Taproom.Proofs.Command
import Taproom.Proofs.Pouring
import Taproom.Proofs.Capacity
import Taproom.Proofs.Locality
import Taproom.Proofs.Checks
import Taproom.Proofs.Resolution
import Taproom.Proofs.Revisions
import Taproom.Proofs.Newest
import Taproom.Proofs.Placement
import Taproom.Proofs.Queue
import Taproom.Proofs.Cluster
import Taproom.Proofs.Detection
import Taproom.Proofs.Tags
import Taproom.Proofs.Confinement
import Taproom.Proofs.Colours
import Taproom.Proofs.Substitution
import Taproom.Proofs.Requirements
