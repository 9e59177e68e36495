import TenantOperator.Cluster.Watch
import TenantOperator.Main
import TenantOperator.Manifest.Template
import TenantOperator.Schedule.Dispatch
import TenantOperator.Simulation.World
import TenantOperator.Proofs.Store.Filed
import TenantOperator.Proofs.Store.Footprint
import TenantOperator.Proofs.Store.Calm
import TenantOperator.Proofs.Tenancy.Resolved
import TenantOperator.Proofs.Naming
import TenantOperator.Proofs.Tenancy.Bundle
import TenantOperator.Proofs.Tenancy.Routing
import TenantOperator.Proofs.Tenancy.Sync
import TenantOperator.Proofs.Tenancy.Matrix
import TenantOperator.Proofs.Tenancy.Cascade
import TenantOperator.Proofs.Tenancy.Workload
import TenantOperator.Proofs.Tenancy.Idempotence
import TenantOperator.Proofs.Interleaving.Pool
import TenantOperator.Proofs.Interleaving.Tidy
import TenantOperator.Proofs.Interleaving.Discard
import TenantOperator.Proofs.Store.Versions
import TenantOperator.Proofs.Tenancy.Entries
import TenantOperator.Proofs.Tenancy.Steps
import TenantOperator.Proofs.Interleaving.Waits
import TenantOperator.Proofs.Interleaving.Atomic
import TenantOperator.Proofs.Interleaving.Runs
import TenantOperator.Proofs.Interleaving.Rebuild
import TenantOperator.Proofs.Interleaving.Publish
import TenantOperator.Proofs.Interleaving.Entry
import TenantOperator.Proofs.Interleaving.Steady
import TenantOperator.Proofs.Interleaving.Cleaning
import TenantOperator.Proofs.Interleaving.Revival
import TenantOperator.Proofs.Quiescence.Backlog
import TenantOperator.Proofs.Quiescence.Growth
import TenantOperator.Proofs.Quiescence.Served
import TenantOperator.Proofs.Quiescence.Convergence
import TenantOperator.Proofs.Interruption.Falters
import TenantOperator.Proofs.Interruption.Resumes
import TenantOperator.Proofs.Interruption.Converging
import TenantOperator.Proofs.Interruption.Resolver
import TenantOperator.Proofs.Interruption.Repeat
import TenantOperator.Proofs.Interruption.Retry
import TenantOperator.Proofs.Removal.Removed
import TenantOperator.Proofs.Interleaving.Unaware
import TenantOperator.Proofs.Interleaving.Orphans
import TenantOperator.Proofs.Frame.Footprint
import TenantOperator.Proofs.Frame.Unaltered
import TenantOperator.Proofs.Interleaving.Log
import TenantOperator.Proofs.Interleaving.Writers
import TenantOperator.Proofs.Interleaving.Births
import TenantOperator.Proofs.Interleaving.Resolvers
import TenantOperator.Proofs.Interleaving.Synthesizers
import TenantOperator.Proofs.Interruption.Akin
import TenantOperator.Proofs.Interruption.Sweeps
import TenantOperator.Proofs.Interruption.Teardowns
import TenantOperator.Proofs.Removal.Order
import TenantOperator.Proofs.Interleaving.Attended
import TenantOperator.Proofs.Interleaving.Deeds
import TenantOperator.Proofs.Areas.Sourced
import TenantOperator.Proofs.Areas.Valid
import TenantOperator.Proofs.Tours.Entering
import TenantOperator.Proofs.Tours.Standing
import TenantOperator.Proofs.Tours.Again
import TenantOperator.Proofs.Store.History
import TenantOperator.Proofs.Areas.Rederived
import TenantOperator.Proofs.Removal.Withdrawn
import TenantOperator.Proofs.Tours.Orders
import TenantOperator.Proofs.Schedule.Locks
import TenantOperator.Proofs.Store.Upsert
import TenantOperator.Proofs.Areas.Overlap
import TenantOperator.Proofs.Areas.Merged
import TenantOperator.Proofs.Areas.Routes
import TenantOperator.Proofs.Cluster.Alike
import TenantOperator.Proofs.Tenancy.Lookups
import TenantOperator.Proofs.Store.Faults
import TenantOperator.Proofs.Interruption.Additions
import TenantOperator.Proofs.Interruption.Children
import TenantOperator.Proofs.Decimal.Binary64
import TenantOperator.Proofs.Schedule.Times
import TenantOperator.Proofs.Schedule.Attempts
import TenantOperator.Proofs.Schedule.Delays
import TenantOperator.Proofs.Tenancy.Owners
import TenantOperator.Proofs.Json.Text
import TenantOperator.Proofs.Areas.Recognised
import TenantOperator.Proofs.Json.Record
import TenantOperator.Proofs.Resource.Spec
import TenantOperator.Proofs.Tenancy.Labels
import TenantOperator.Proofs.Simulation.World
