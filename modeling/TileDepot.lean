import TileDepot.ByteSize.Basic
import TileDepot.ByteSize.Unit
import TileDepot.Cache.Counters
import TileDepot.Cache.PartitionedMap
import TileDepot.Cache.TileCache
import TileDepot.Clock
import TileDepot.Depot.Plan
import TileDepot.Depot.State
import TileDepot.Depot.Stores
import TileDepot.Depot.Sweeps
import TileDepot.Error
import TileDepot.Eviction.Accountant
import TileDepot.Eviction.Enforcement
import TileDepot.Eviction.Monitor
import TileDepot.Eviction.Policy
import TileDepot.Eviction.Sweep
import TileDepot.Grid.CoverageTable
import TileDepot.Grid.Level
import TileDepot.Grid.Pyramid
import TileDepot.Json.Number
import TileDepot.Json.Reader
import TileDepot.Json.Value
import TileDepot.Json.Writer
import TileDepot.Lock.Files
import TileDepot.Lock.Room
import TileDepot.Lock.Shards
import TileDepot.Lock.Wait
import TileDepot.Number.Binary64
import TileDepot.Number.Decimal
import TileDepot.Number.Logarithm
import TileDepot.Number.Shortest
import TileDepot.Number.Word
import TileDepot.Page.Atlas
import TileDepot.Page.Books
import TileDepot.Page.Ledger
import TileDepot.Page.Page
import TileDepot.Page.Snapshot
import TileDepot.Page.Stats
import TileDepot.Page.TileSet
import TileDepot.Proofs.Allowances
import TileDepot.Proofs.Amounts
import TileDepot.Proofs.Atlas
import TileDepot.Proofs.Books
import TileDepot.Proofs.Broker.LastPut
import TileDepot.Proofs.Broker.Losses
import TileDepot.Proofs.Broker.Renaming
import TileDepot.Proofs.Broker.Serving
import TileDepot.Proofs.Cache.Alike
import TileDepot.Proofs.Cache.Balance
import TileDepot.Proofs.Cache.Bound
import TileDepot.Proofs.Cache.Partitioned
import TileDepot.Proofs.Cache.Payloads
import TileDepot.Proofs.Cache.Recency
import TileDepot.Proofs.Cache.Steps
import TileDepot.Proofs.Cache.Storage
import TileDepot.Proofs.Candidates
import TileDepot.Proofs.Coverage
import TileDepot.Proofs.Crowd
import TileDepot.Proofs.Depot.Accounting
import TileDepot.Proofs.Depot.Booked
import TileDepot.Proofs.Depot.Emptying
import TileDepot.Proofs.Depot.Enforcement
import TileDepot.Proofs.Depot.OnePage
import TileDepot.Proofs.Depot.Reachable
import TileDepot.Proofs.Depot.Requests
import TileDepot.Proofs.Depot.Swept
import TileDepot.Proofs.Depot.Visibility
import TileDepot.Proofs.Drift
import TileDepot.Proofs.Estimates
import TileDepot.Proofs.Events
import TileDepot.Proofs.Fill
import TileDepot.Proofs.Filled
import TileDepot.Proofs.Frequency
import TileDepot.Proofs.Grid
import TileDepot.Proofs.Handover
import TileDepot.Proofs.Holdings
import TileDepot.Proofs.Interleaving
import TileDepot.Proofs.Json.Documents
import TileDepot.Proofs.Json.Literals
import TileDepot.Proofs.Json.Numbers
import TileDepot.Proofs.Kept
import TileDepot.Proofs.Ledger
import TileDepot.Proofs.Lock.Exclusion
import TileDepot.Proofs.Lock.Files
import TileDepot.Proofs.Lock.Handles
import TileDepot.Proofs.Lock.Patience
import TileDepot.Proofs.Lock.Waits
import TileDepot.Proofs.Number.Digits
import TileDepot.Proofs.Number.Errors
import TileDepot.Proofs.Number.Finite
import TileDepot.Proofs.Number.Quotients
import TileDepot.Proofs.Number.Ranks
import TileDepot.Proofs.Number.Rounding
import TileDepot.Proofs.Orphans
import TileDepot.Proofs.PageReads
import TileDepot.Proofs.PageRuns
import TileDepot.Proofs.Parameters
import TileDepot.Proofs.Partition
import TileDepot.Proofs.Policy
import TileDepot.Proofs.Quotas
import TileDepot.Proofs.Reload
import TileDepot.Proofs.RenamedLayer
import TileDepot.Proofs.Run
import TileDepot.Proofs.SharedId
import TileDepot.Proofs.Shelved
import TileDepot.Proofs.Shortfall
import TileDepot.Proofs.Snapshot
import TileDepot.Proofs.Storable
import TileDepot.Proofs.Store.Alone
import TileDepot.Proofs.Store.Heard
import TileDepot.Proofs.Store.LockedReads
import TileDepot.Proofs.Store.Mapping
import TileDepot.Proofs.Store.Overtaking
import TileDepot.Proofs.Store.Population
import TileDepot.Proofs.Store.Renaming
import TileDepot.Proofs.Store.Tiers
import TileDepot.Proofs.Store.Transparency
import TileDepot.Proofs.Store.WholeMoves
import TileDepot.Proofs.StoredSizes
import TileDepot.Proofs.Sweeps
import TileDepot.Proofs.Table
import TileDepot.Proofs.Tally
import TileDepot.Proofs.TileSet
import TileDepot.Proofs.Trials
import TileDepot.Proofs.Uncharted
import TileDepot.Proofs.View
import TileDepot.Proofs.Watch
import TileDepot.Run
import TileDepot.Settings.LayerQuota
import TileDepot.Settings.Reader
import TileDepot.Settings.Settings
import TileDepot.Store.Broker
import TileDepot.Store.CacheAside
import TileDepot.Store.Call
import TileDepot.Store.Event
import TileDepot.Store.Gate
import TileDepot.Store.Handover
import TileDepot.Store.Locks
import TileDepot.Store.Records
import TileDepot.Store.Resident
import TileDepot.Store.TwoTier
import TileDepot.Text.Characters
import TileDepot.Text.Sha256
import TileDepot.Text.SipHash
import TileDepot.Tile.Parameters
import TileDepot.Tile.Range
import TileDepot.Tile.Tile
import TileDepot.Yaml.Node
import TileDepot.Yaml.Reader
