import McpTrust.Effects
import McpTrust.Transition
import McpTrust.Python.Binary64
import McpTrust.Python.Errors
import McpTrust.Python.Text
import McpTrust.Python.Base64
import McpTrust.Python.Lines
import McpTrust.Python.Numeral
import McpTrust.Python.PathOrder
import McpTrust.Python.PyFloat
import McpTrust.Python.DateTime
import McpTrust.Python.FixedPoint
import McpTrust.Python.FloatRepr
import McpTrust.Python.IsoFormat
import McpTrust.Python.Json
import McpTrust.Python.DictUpdate
import McpTrust.Python.JsonDecode
import McpTrust.Python.JsonEncode
import McpTrust.Python.JsonErrors
import McpTrust.Python.JsonLoads
import McpTrust.Python.JsonHooks
import McpTrust.Python.JsonRoundtrip
import McpTrust.Python.Unicode
import McpTrust.Python.Utf8
import McpTrust.Python.JsonContext
import McpTrust.Python.Sha256
import McpTrust.Core.Patterns
import McpTrust.Core.Models
import McpTrust.Core.Drift
import McpTrust.Core.Captures
import McpTrust.Core.Governance
import McpTrust.Core.Grading
import McpTrust.Core.Attribution
import McpTrust.Store.Sqlite
import McpTrust.Store.Repository
import McpTrust.Store.Readable
import McpTrust.Store.Readback
import McpTrust.Engine.DockerCli
import McpTrust.Engine.Sandbox
import McpTrust.Engine.Scan
import McpTrust.Core.PublicProjection
import McpTrust.Store.Servers
import McpTrust.Store.Verdicts
import McpTrust.Core.Totals
import McpTrust.Core.HistoryViews
import McpTrust.Engine.LaunchVector
import McpTrust.Engine.Lifecycle
import McpTrust.Engine.Confinement
import McpTrust.Engine.Cleanup
import McpTrust.Catalog.RuntimeSnapshot
import McpTrust.Catalog.GradeBinding
import McpTrust.Catalog.SnapshotTrust
import McpTrust.Catalog.Admission
import McpTrust.Catalog.Payloads
import McpTrust.Catalog.StrictJson
import McpTrust.Catalog.TrustRoot
import McpTrust.Catalog.Threshold
import McpTrust.Catalog.Verified
import McpTrust.Catalog.Checkpoint
import McpTrust.Catalog.Soundness
import McpTrust.Catalog.Consumer
import McpTrust.Catalog.RootRotation
import McpTrust.Portability.Models
import McpTrust.Catalog.Replay
import McpTrust.Portability.Compare
import McpTrust.Catalog.RootUpdateErrors
import McpTrust.Corpus.Registry
import McpTrust.Catalog.DataModel
import McpTrust.Corpus.FirstBatch
import McpTrust.Failure
import McpTrust.Refresh.Inputs
import McpTrust.Refresh.FileRoundtrip
import McpTrust.Site.Package
import McpTrust.Site.Publish
import McpTrust.Launch.State
import McpTrust.Refresh.LockPolicies
import McpTrust.Refresh.LockAgreement
import McpTrust.Refresh.Overrides
import McpTrust.Refresh.Policy
import McpTrust.Refresh.Bundle
import McpTrust.Refresh.LocalRows
import McpTrust.Launch.Readiness
import McpTrust.Qualification.Records
import McpTrust.Qualification.Capacity
import McpTrust.Qualification.SetGraph
import McpTrust.Qualification.Names
import McpTrust.Qualification.Reading
import McpTrust.Qualification.Scan
import McpTrust.Qualification.Graph
import McpTrust.Qualification.History
import McpTrust.Qualification.Operations
import McpTrust.Qualification.Runs
import McpTrust.Site.Surfaces
import McpTrust.Site.Movement
import McpTrust.Site.Masking
import McpTrust.Site.SpecShift
import McpTrust.Site.DangerScore
import McpTrust.Walk
import McpTrust.Corpus.Lineage
import McpTrust.Corpus.ManifestJson
import McpTrust.Portability.HostValues
import McpTrust.Portability.Inspect
import McpTrust.Portability.Literals
import McpTrust.Portability.Escapes
import McpTrust.Portability.Redaction
import McpTrust.Portability.Views
import McpTrust.Posture.AuthPosture
import McpTrust.Posture.Boundary
import McpTrust.Posture.Binding
import McpTrust.Posture.Totality
import McpTrust.Release.Routes
import McpTrust.Refresh.Dockerfile
import McpTrust.Portability.Stability
import McpTrust.Corpus.Assessment
import McpTrust.Refresh.PythonPins
import McpTrust.Corpus.Eligibility
import McpTrust.Portability.Prompts
import McpTrust.Refresh.Scanned
import McpTrust.Refresh.Codec
import McpTrust.Python.Seconds
import McpTrust.Python.IsoRoundtrip
import McpTrust.Python.JsonArrange
import McpTrust.Python.JsonWritable
import McpTrust.Qualification.HostCapacity
import McpTrust.Refresh.RunWords
import McpTrust.Refresh.RunPolicy
import McpTrust.Catalog.GradeOrder
import McpTrust.Refresh.Extraction
import McpTrust.Python.Sha1
import McpTrust.Python.JsonLine
import McpTrust.Refresh.NpmCache
import McpTrust.Release.ReadbackManifest
import McpTrust.Site.Parity
import McpTrust.Python.IsoOrder
import McpTrust.Store.Recording
import McpTrust.Site.OperatorPackage
import McpTrust.Keyed
import McpTrust.Store.Upserts
import McpTrust.Launch.Sanitized
import McpTrust.Corpus.Ledgers
import McpTrust.Corpus.Records
import McpTrust.Corpus.Promotion
import McpTrust.Corpus.CatalogPlan
import McpTrust.Launch.Receipts
import McpTrust.Launch.ScanRuns
import McpTrust.Corpus.Drafts
import McpTrust.Launch.ScanLog
import McpTrust.Launch.Bundle
