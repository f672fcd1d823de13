import BeamSdk.Library.Transition
import BeamSdk.Library.Abi
import BeamSdk.Contract.Calls
import BeamSdk.Contract.OpenSet
import BeamSdk.Contract.Ledger
import BeamSdk.Contract.Refinement
import BeamSdk.Contract.Guarantees
import BeamSdk.Contract.Repeat
import BeamSdk.Contract.EventLog
import BeamSdk.Library.Origin
import BeamSdk.Contract.Provenance
import BeamSdk.Contract.Stale
import BeamSdk.Library.AbiInjective
import BeamSdk.Contract.Reported
import BeamSdk.Library.Hex
import BeamSdk.Library.OrderedMap
import BeamSdk.Library.Script
import BeamSdk.Relay.Interface
import BeamSdk.Relay.Subjects
import BeamSdk.Relay.Customers
import BeamSdk.Relay.Starts
import BeamSdk.Relay.Pass
import BeamSdk.Relay.World
import BeamSdk.Relay.Charging
import BeamSdk.Relay.Listing
import BeamSdk.Relay.Outcomes
import BeamSdk.Relay.Organizations
import BeamSdk.Library.Json
import BeamSdk.Relay.Projections
import BeamSdk.Contract.Acceptance
import BeamSdk.Relay.Writers
import BeamSdk.Contract.Paging
import BeamSdk.Relay.Paging
import BeamSdk.Bridge.Report
import BeamSdk.Bridge.Webhook
import BeamSdk.Bridge.Bridge
import BeamSdk.Bridge.Replies
import BeamSdk.Go.Recovery
import BeamSdk.Go.Registered
import BeamSdk.Go.Resumes
import BeamSdk.Go.Fence
import BeamSdk.Go.Uploads
import BeamSdk.Go.Cleanup
import BeamSdk.HuggingFace.Finalize
import BeamSdk.Library.Iterator
import BeamSdk.Library.Tiling
import BeamSdk.Plan.Materialize
import BeamSdk.Plan.Expansion
import BeamSdk.Plan.Alike
import BeamSdk.Go.Exactness
import BeamSdk.Library.Wakeup
import BeamSdk.Python.Recovery
import BeamSdk.Python.Resumes
import BeamSdk.Library.Holders
import BeamSdk.Rust.Recovery
import BeamSdk.Rust.Resumes
import BeamSdk.TypeScript.Recovery
import BeamSdk.TypeScript.Resumes
import BeamSdk.TypeScript.Ownership
import BeamSdk.TypeScript.Fence
import BeamSdk.Library.Uri
import BeamSdk.Web.Broker
import BeamSdk.Web.Gate
import BeamSdk.Web.Transport
import BeamSdk.Web.Create
import BeamSdk.Signing.Directives
import BeamSdk.Signing.Staging
import BeamSdk.Signing.Agreement
import BeamSdk.Signing.Routes
import BeamSdk.Signing.Inside
import BeamSdk.Signing.Foreground
import BeamSdk.Library.Utf16
import BeamSdk.Web.Sse
import BeamSdk.Web.Chunks
import BeamSdk.Web.Handle
import BeamSdk.Web.Served
import BeamSdk.Web.Told
import BeamSdk.Web.Agent
import BeamSdk.Web.Answers
import BeamSdk.Library.Sha256
import BeamSdk.Identity.Derived
import BeamSdk.Rust.Disposal
import BeamSdk.Python.Fence
import BeamSdk.Batch.Compact
import BeamSdk.Batch.Lossless
import BeamSdk.Batch.Agreement
import BeamSdk.Python.Uploads
import BeamSdk.Python.Cleanup
import BeamSdk.Plan.Integrity
import BeamSdk.Library.Spending
import BeamSdk.Workflow.Config
import BeamSdk.Workflow.Handlers
import BeamSdk.Workflow.Budget
import BeamSdk.Workflow.Rotation
import BeamSdk.Relay.Allowlist
import BeamSdk.Relay.Unrecordable
import BeamSdk.Contract.Linked
import BeamSdk.Library.Trace
import BeamSdk.Relay.Jobs
import BeamSdk.Bridge.Forwarding
import BeamSdk.Web.Session
import BeamSdk.Web.Resources
import BeamSdk.Web.Releases
import BeamSdk.Library.Pattern
import BeamSdk.Web.Logger
import BeamSdk.Web.Redaction
import BeamSdk.Web.RedactedUrl
import BeamSdk.Web.Withheld
import BeamSdk.Web.Logged
import BeamSdk.Web.Emitter
import BeamSdk.Web.Iterable
import BeamSdk.Web.Provider
import BeamSdk.Web.Renegotiation
import BeamSdk.Web.Streamed
import BeamSdk.Library.Windows
import BeamSdk.Rust.HuggingFace
import BeamSdk.Rust.SourceHasher
import BeamSdk.Library.Orbit
import BeamSdk.Rust.ListParts
import BeamSdk.Library.Calendar
import BeamSdk.Rust.Expiry
import BeamSdk.Go.Groups
import BeamSdk.Go.Splits
import BeamSdk.Rust.CivilTime
import BeamSdk.Go.Integrity
import BeamSdk.Library.Cut
import BeamSdk.Rust.PartsXml
import BeamSdk.Library.QueryString
import BeamSdk.Rust.SigV4
import BeamSdk.Rust.Presigned
import BeamSdk.Rust.S3
import BeamSdk.Rust.Verified
