import Sdskv.Container.ClassMap
import Sdskv.Container.OrderedMap
import Sdskv.Container.Scan
import Sdskv.Container.Countdown
import Sdskv.Loop.Counter
import Sdskv.Loop.Checked
import Sdskv.Loop.While
import Sdskv.Loop.Visits
import Sdskv.Ownership.Holders
import Sdskv.Ownership.Scope
import Sdskv.Path.Directory
import Sdskv.Path.FileSystem
import Sdskv.Transition.Run
import Sdskv.Transition.Simulation
import Sdskv.Concurrency.AtomicObject
import Sdskv.Concurrency.RwLock
import Sdskv.Concurrency.Guarded
import Sdskv.Concurrency.Product
import Sdskv.Wire.Codec
import Sdskv.Wire.Record
import Sdskv.Wire.Buffer
import Sdskv.Wire.Bitmap
import Sdskv.Json.Value
import Sdskv.Common.Types
import Sdskv.Datastore.Interface
import Sdskv.Datastore.Map.Basic
import Sdskv.Datastore.Map.Listing
import Sdskv.Datastore.Map.Refinement
import Sdskv.Datastore.Map.PrefixScan
import Sdskv.Datastore.Map.Range
import Sdskv.Datastore.Map.Locks
import Sdskv.Datastore.Map.Concurrent
import Sdskv.Datastore.BatchReturn
import Sdskv.Datastore.LevelDB.Basic
import Sdskv.Datastore.LevelDB.Race
import Sdskv.Datastore.BerkeleyDB.Basic
import Sdskv.Datastore.BerkeleyDB.Reads
import Sdskv.Datastore.BerkeleyDB.Buffers
import Sdskv.Datastore.ListKeys
import Sdskv.Datastore.PrefixScan
import Sdskv.Datastore.LevelDB.Comparator
import Sdskv.Datastore.BerkeleyDB.Comparator
import Sdskv.Datastore.Mkdirs
import Sdskv.Datastore.Paths
import Sdskv.Rpc.Types
import Sdskv.Rpc.ListDb
import Sdskv.Rpc.Put
import Sdskv.Rpc.PutBatch
import Sdskv.Rpc.PutEquivalence
import Sdskv.Rpc.PackedLayout
import Sdskv.Rpc.NoOverwrite
import Sdskv.Rpc.Read
import Sdskv.Rpc.Backends
import Sdskv.Rpc.Multi
import Sdskv.Rpc.ExistsMulti
import Sdskv.Rpc.GetMulti
import Sdskv.Rpc.GetPacked
import Sdskv.Rpc.LengthErase
import Sdskv.Rpc.GetPackedValues
import Sdskv.Rpc.PackedRoundTrip
import Sdskv.Rpc.ListKeyvals
import Sdskv.Rpc.ListKeys
import Sdskv.Rpc.ListKeysRetry
import Sdskv.Client.Get
import Sdskv.Client.GetPaths
import Sdskv.Client.MapApi
import Sdskv.Client.Sessions
import Sdskv.Client.Objects
import Sdskv.Client.PackedStrings
import Sdskv.Client.Exits
import Sdskv.Client.Calls
import Sdskv.Client.ListKeys
import Sdskv.Client.ListKeyvals
import Sdskv.Client.Paging
import Sdskv.Client.GetMulti
import Sdskv.Client.ProviderHandle
import Sdskv.Client.Assignment
import Sdskv.Provider.Tables
import Sdskv.Provider.Ids
import Sdskv.Provider.Locking
import Sdskv.Provider.Registration
import Sdskv.Client.OpenAll
import Sdskv.Rpc.Messages
import Sdskv.Rpc.Handlers
import Sdskv.Config.Validate
import Sdskv.Config.Schema
import Sdskv.Config.Populate
import Sdskv.Migration.Handler
import Sdskv.Migration.NoLoss
import Sdskv.Migration.Complete
import Sdskv.Migration.Itself
import Sdskv.Migration.Race
import Sdskv.Migration.Client
import Sdskv.Migration.Keys
import Sdskv.Migration.ReadErrors
import Sdskv.Migration.Database.Callbacks
import Sdskv.Migration.Database.Network
import Sdskv.Migration.Database.Survival
import Sdskv.Rpc.Batched
import Sdskv.Rpc.Bounds.Walk
import Sdskv.Rpc.Bounds.Put
import Sdskv.Rpc.Bounds.GetMulti
import Sdskv.Rpc.Bounds.Requests
import Sdskv.Rpc.Counters
import Sdskv.Benchmark.Batches
import Sdskv.Benchmark.Paging
