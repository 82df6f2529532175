import Reconcile.Text.Blank
import Reconcile.Text.Quoted
import Reconcile.Duration
import Reconcile.Json.Printer
import Reconcile.Json.Reader
import Reconcile.Keyed
import Reconcile.Action
import Reconcile.Changes
import Reconcile.Entity.Identity
import Reconcile.Memo.Basic
import Reconcile.Crud.Call
import Reconcile.Store.Backend
import Reconcile.Mapper
import Reconcile.Scenario.World
import Reconcile.Scenario.Session
import Reconcile.Kdl.Reader
import Reconcile.Files.Tree
import Reconcile.Settings.Json
import Reconcile.Settings.Locate
import Reconcile.Polling
import Reconcile.Provider
import Reconcile.Module.Manifest
import Reconcile.Module.Migration
import Reconcile.Module.SqlScan
import Reconcile.PostOrder
import Reconcile.Module.Plan
import Reconcile.Module.Execution
import Reconcile.Module.Directory
import Reconcile.Proofs.Cache.Frame
import Reconcile.Proofs.Cache.Phases
import Reconcile.Proofs.Traffic.Basic
import Reconcile.Proofs.Traffic.Placeholder
import Reconcile.Proofs.Cache.Housed
import Reconcile.Proofs.Cache.Tidy
import Reconcile.Proofs.Traffic.Identity
import Reconcile.Proofs.Crud.Batch
import Reconcile.Proofs.Cache.Mirror
import Reconcile.Proofs.Cache.Found
import Reconcile.Proofs.Crud.Transparent
import Reconcile.Proofs.Traffic.Programs
import Reconcile.Proofs.Crud.Failure
import Reconcile.Proofs.Traffic.Stable
import Reconcile.Proofs.Traffic.Lookups
import Reconcile.Proofs.Crud.Paired
import Reconcile.Proofs.Crud.Merged
import Reconcile.Proofs.Crud.Reordered
import Reconcile.Proofs.Crud.Unsettled
import Reconcile.Proofs.Crud.Updated
import Reconcile.Proofs.Crud.Answered
import Reconcile.Proofs.Traffic.Sharing
import Reconcile.Proofs.Traffic.Unfilled
import Reconcile.Proofs.Crud.Nested
import Reconcile.Proofs.Module.Uninstall
import Reconcile.Proofs.Module.Reading
import Reconcile.Proofs.Module.Loading
import Reconcile.Proofs.Module.Repeated
import Reconcile.Proofs.Module.Resort
import Reconcile.Proofs.Module.Migration
import Reconcile.Proofs.Store.History
import Reconcile.Proofs.Store.Ledger
import Reconcile.Proofs.Store.Calls
import Reconcile.Proofs.Store.OrderedMap
import Reconcile.Proofs.Store.Numbers
import Reconcile.Proofs.Entity.Key
import Reconcile.Proofs.Entity.RoundTrip
import Reconcile.Proofs.Store.Backend
import Reconcile.Proofs.Store.Failure
import Reconcile.Proofs.Store.Reading
import Reconcile.Proofs.Store.Lookup
import Reconcile.Proofs.Store.ReadBack
import Reconcile.Proofs.Module.Manifest
import Reconcile.Proofs.Settings.LastWins
import Reconcile.Proofs.Waiting.Poll
import Reconcile.Proofs.Kdl.Entry
import Reconcile.Proofs.Kdl.Block
import Reconcile.Proofs.Module.Provides
import Reconcile.Proofs.Waiting.Retry
import Reconcile.Proofs.Module.SqlScan
