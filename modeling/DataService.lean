import DataService.Model.Cache.Key
import DataService.Model.Cache.Rank
import DataService.Model.Cache.Result
import DataService.Model.Decimal.NumberForm
import DataService.Model.Decimal.Shortest
import DataService.Model.Deployment.Basic
import DataService.Model.Deployment.Caching
import DataService.Model.Deployment.Capture
import DataService.Model.Deployment.Polls
import DataService.Model.Deployment.Reading
import DataService.Model.Deployment.Replay
import DataService.Model.Document.Basic
import DataService.Model.Document.Reader
import DataService.Model.Document.Record
import DataService.Model.Document.Writer
import DataService.Model.Error
import DataService.Model.Filter.CanonicalText
import DataService.Model.Filter.Documents
import DataService.Model.Filter.Simplify
import DataService.Model.Filter.Tree
import DataService.Model.Identity
import DataService.Model.Metrics
import DataService.Model.Population
import DataService.Model.PushDown.FieldMap
import DataService.Model.PushDown.Restate
import DataService.Model.Query
import DataService.Model.Row
import DataService.Model.Run.Basic
import DataService.Model.Run.Hooks
import DataService.Model.Run.Script
import DataService.Model.Service.Basic
import DataService.Model.Service.Definition
import DataService.Model.Service.Deposit
import DataService.Model.Service.Lookup
import DataService.Model.Service.Settings
import DataService.Model.Store.Bounded
import DataService.Model.Store.Interface
import DataService.Model.Store.Scripted
import DataService.Model.Table
import DataService.Model.Text.Printable
import DataService.Model.Text.Quoted
import DataService.Proofs.Cache.Completeness
import DataService.Proofs.Cache.JoiningWays
import DataService.Proofs.Cache.LookupOrder
import DataService.Proofs.Cache.WithinBounds
import DataService.Proofs.Deployment.Acts
import DataService.Proofs.Deployment.Capturing
import DataService.Proofs.Deployment.Changes
import DataService.Proofs.Deployment.Completion
import DataService.Proofs.Deployment.Containment
import DataService.Proofs.Deployment.Counters
import DataService.Proofs.Deployment.Efforts
import DataService.Proofs.Deployment.Errands
import DataService.Proofs.Deployment.FailedWrites
import DataService.Proofs.Deployment.Flights
import DataService.Proofs.Deployment.Gauges
import DataService.Proofs.Deployment.Informing
import DataService.Proofs.Deployment.Joining
import DataService.Proofs.Deployment.LiveReplay
import DataService.Proofs.Deployment.Loops
import DataService.Proofs.Deployment.Moves
import DataService.Proofs.Deployment.Operations
import DataService.Proofs.Deployment.Placement
import DataService.Proofs.Deployment.Playbacks
import DataService.Proofs.Deployment.Populations
import DataService.Proofs.Deployment.Protocol
import DataService.Proofs.Deployment.Provenance
import DataService.Proofs.Deployment.Readers
import DataService.Proofs.Deployment.Refusal
import DataService.Proofs.Deployment.Reported
import DataService.Proofs.Deployment.Resolution
import DataService.Proofs.Deployment.Runs
import DataService.Proofs.Deployment.SharedBoards
import DataService.Proofs.Deployment.SingleFlight
import DataService.Proofs.Deployment.SpentPolls
import DataService.Proofs.Deployment.Stirring
import DataService.Proofs.Deployment.StoppedTarget
import DataService.Proofs.Deployment.Stores
import DataService.Proofs.Deployment.Stranded
import DataService.Proofs.Deployment.TargetCalls
import DataService.Proofs.Deployment.Termination
import DataService.Proofs.Deployment.Ties
import DataService.Proofs.Deployment.Touching
import DataService.Proofs.Deployment.Traced
import DataService.Proofs.Deployment.Undertakings
import DataService.Proofs.Deployment.WellKept
import DataService.Proofs.Document.MemberOrder
import DataService.Proofs.Filter.Comparison
import DataService.Proofs.Filter.Delimited
import DataService.Proofs.Filter.Documents
import DataService.Proofs.Filter.Merge
import DataService.Proofs.Filter.Nodes
import DataService.Proofs.Filter.NormalForm
import DataService.Proofs.Filter.Shown
import DataService.Proofs.Filter.SimplifiedValue
import DataService.Proofs.Filter.Truth
import DataService.Proofs.Filter.Unambiguous
import DataService.Proofs.Filter.Unfiltered
import DataService.Proofs.Population.Captured
import DataService.Proofs.Population.Growth
import DataService.Proofs.Population.Outcome
import DataService.Proofs.PushDown.Composition
import DataService.Proofs.PushDown.Drops
import DataService.Proofs.PushDown.Mappable
import DataService.Proofs.PushDown.SimplifiedRestated
import DataService.Proofs.PushDown.Survivors
import DataService.Proofs.Run.NestedCallbacks
import DataService.Proofs.Service.FailedDeposits
import DataService.Proofs.Service.Permanence
import DataService.Proofs.Service.UnreliableLookup
import DataService.Proofs.Store.Balance
import DataService.Proofs.Store.FirstInFirstOut
import DataService.Proofs.Store.Forgetful
import DataService.Proofs.Store.Keyed
import DataService.Proofs.Store.Unreliable
import DataService.Proofs.Tally
