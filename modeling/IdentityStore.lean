import IdentityStore.Config.Load
import IdentityStore.Keyed.Repository
import IdentityStore.Locks
import IdentityStore.Locks.Mutexes
import IdentityStore.LogFilter
import IdentityStore.Plan.Crew
import IdentityStore.Proofs.Text.Utf8
import IdentityStore.Proofs.Text.Split
import IdentityStore.Startup
import IdentityStore.Store.Watched
import IdentityStore.Proofs.Json.Quoted
import IdentityStore.Proofs.Decimal.Rounding
import IdentityStore.Proofs.Json.Numeral
import IdentityStore.Proofs.Decimal.Shortest
import IdentityStore.Proofs.Json.Floating
import IdentityStore.Proofs.Json.Written
import IdentityStore.Proofs.Json.Document
import IdentityStore.Proofs.Uuid
import IdentityStore.Proofs.Principal
import IdentityStore.Proofs.Keys
import IdentityStore.Proofs.Plan.Invariant
import IdentityStore.Proofs.Store.Answer
import IdentityStore.Proofs.Membership
import IdentityStore.Proofs.Keyed.Representation
import IdentityStore.Proofs.Keyed.View
import IdentityStore.Proofs.Keyed.Lookup
import IdentityStore.Proofs.Plan.Cut
import IdentityStore.Proofs.Keyed.Integrity
import IdentityStore.Proofs.Directory
import IdentityStore.Proofs.Keyed.Change
import IdentityStore.Proofs.Keyed.Refinement
import IdentityStore.Proofs.Snapshot.Copies
import IdentityStore.Proofs.Snapshot.Mirror
import IdentityStore.Proofs.Snapshot.Change
import IdentityStore.Proofs.Snapshot.Refinement
import IdentityStore.Proofs.Agreement
import IdentityStore.Proofs.Plan.Conduct
import IdentityStore.Proofs.Keyed.Contents
import IdentityStore.Proofs.Keyed.Conduct
import IdentityStore.Proofs.Keyed.SideBySide
import IdentityStore.Proofs.Keyed.Ledger
import IdentityStore.Proofs.Keyed.Revival
import IdentityStore.Proofs.Keyed.Dangling
import IdentityStore.Proofs.Keyed.Belonging
import IdentityStore.Proofs.Plan.Trace
import IdentityStore.Proofs.Keyed.Creation
import IdentityStore.Proofs.Keyed.Identity
import IdentityStore.Proofs.Plan.Within
import IdentityStore.Proofs.Keyed.Within
import IdentityStore.Proofs.Plan.Retry
import IdentityStore.Proofs.Keyed.Retry
import IdentityStore.Proofs.Keyed.Cascade
import IdentityStore.Proofs.Keyed.Isolation
import IdentityStore.Proofs.Plan.Tidy
import IdentityStore.Proofs.Plan.Progress
import IdentityStore.Proofs.Plan.Failure
import IdentityStore.Proofs.Keyed.Tidy
import IdentityStore.Proofs.Snapshot.Turn
import IdentityStore.Proofs.Snapshot.Removal
import IdentityStore.Proofs.Snapshot.Coherence
import IdentityStore.Proofs.Plan.Gathering
import IdentityStore.Proofs.Keyed.Compaction
import IdentityStore.Proofs.Locks.Sharing
import IdentityStore.Proofs.Locks.Turns
import IdentityStore.Proofs.Locks.Entries
import IdentityStore.Proofs.Locks.Lines
import IdentityStore.Proofs.Config.Document
import IdentityStore.Proofs.Documents
import IdentityStore.Proofs.Plan.Rejection
import IdentityStore.Proofs.Keyed.Rejection
import IdentityStore.Proofs.Keyed.ReadBack
import IdentityStore.Proofs.Keyed.Batch
import IdentityStore.Proofs.Keyed.AllAtOnce
import IdentityStore.Proofs.Snapshot.Retention
import IdentityStore.Proofs.Nested
import IdentityStore.Proofs.Config.Address
import IdentityStore.Proofs.Server.Address
import IdentityStore.Proofs.Startup
import IdentityStore.Proofs.Store.Glob
import IdentityStore.Proofs.Keyed.Entries
