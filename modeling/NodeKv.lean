import NodeKv.Machine.Outcome
import NodeKv.Machine.Simulation
import NodeKv.Machine.Updates
import NodeKv.Model.Values
import NodeKv.Model.Lmdb.Batch
import NodeKv.Model.Cache.Env
import NodeKv.Model.Cache.Generations
import NodeKv.Proofs.Cache.Refinement
import NodeKv.Proofs.Cache.Replay
import NodeKv.Proofs.Cache.Actions
import NodeKv.Soundness.Cache.Assertion
import NodeKv.Soundness.Cache.Freshness
import NodeKv.Soundness.Cache.Termination
import NodeKv.Model.Lmdb.Native
import NodeKv.Machine.Ledger
import NodeKv.Model.Lmdb.Db
import NodeKv.Proofs.Lmdb.Attempt
import NodeKv.Soundness.Lmdb.Flush
import NodeKv.Soundness.Lmdb.Conservation
import NodeKv.Model.Level.Db
import NodeKv.Soundness.Level.Batching
import NodeKv.Machine.Debounce
import NodeKv.Soundness.Autoflush
import NodeKv.Model.Lmdb.Session
import NodeKv.Proofs.Lmdb.Readers
import NodeKv.Machine.Versions
import NodeKv.Proofs.Lmdb.Views
import NodeKv.Soundness.Lmdb.Snapshots
import NodeKv.Machine.WorkPool
import NodeKv.Model.Lmdb.Life
import NodeKv.Proofs.Lmdb.Life
import NodeKv.Soundness.Lmdb.Closing
import NodeKv.Model.Lmdb.Process
import NodeKv.Soundness.Lmdb.Shutdown
import NodeKv.Machine.Largest
import NodeKv.Model.Cache.Directories
import NodeKv.Soundness.Cache.Directories
import NodeKv.Soundness.Cache.Rotation
import NodeKv.Machine.Heap
import NodeKv.Machine.Iterator
import NodeKv.Model.Lmdb.Handles
import NodeKv.Soundness.Lmdb.Handles
import NodeKv.Machine.Mutex
import NodeKv.Model.Lmdb.Turns
import NodeKv.Proofs.Lmdb.Writers
import NodeKv.Soundness.Lmdb.Writers
import NodeKv.Machine.Utf8
import NodeKv.Model.Decode
import NodeKv.Model.Level.Cursor
import NodeKv.Model.Level.Session
import NodeKv.Soundness.Level.Cursors
import NodeKv.Soundness.Level.Lookup
import NodeKv.Model.Rocks.Families
import NodeKv.Soundness.Rocks.Families
import NodeKv.Soundness.Lmdb.Implicit
import NodeKv.Proofs.Lmdb.Scope
import NodeKv.Proofs.Compare
import NodeKv.Soundness.Lmdb.Deletes
import NodeKv.Model.Cache.Get
import NodeKv.Soundness.Cache.Lookup
import NodeKv.Proofs.Decode
import NodeKv.Machine.Block
import NodeKv.Model.Hex
import NodeKv.Proofs.Hex
import NodeKv.Soundness.Codec.Hex
import NodeKv.Machine.Decimal
import NodeKv.Proofs.Integers
import NodeKv.Soundness.Codec.Integers
import NodeKv.Soundness.Codec.Memory
import NodeKv.Soundness.Lmdb.Bounds
import NodeKv.Machine.Slots
import NodeKv.Model.Lmdb.Slots
import NodeKv.Soundness.Lmdb.Slots
import NodeKv.Model.Cache.Creation
import NodeKv.Soundness.Cache.Creation
import NodeKv.Model.Cache.Registry
import NodeKv.Soundness.Cache.Registry
import NodeKv.Model.Comparators
import NodeKv.Soundness.Order.Numbers
import NodeKv.Machine.Lexicographic
import NodeKv.Machine.Utf8Order
import NodeKv.Soundness.Order.Texts
import NodeKv.Soundness.Order.Search
import NodeKv.Model.Lmdb.Cursor
import NodeKv.Proofs.Lmdb.Stored
import NodeKv.Soundness.Level.Order
import NodeKv.Soundness.Lmdb.Order
import NodeKv.Soundness.Order.Keys
import NodeKv.Machine.Script
import NodeKv.Model.Buffers
import NodeKv.Proofs.Lmdb.ByRef
import NodeKv.Soundness.Lmdb.ByRef
import NodeKv.Machine.PathTree
import NodeKv.Model.Files
import NodeKv.Proofs.Files
import NodeKv.Soundness.Files
import NodeKv.Soundness.Cache.Stale
import NodeKv.Proofs.Lmdb.Journaled
import NodeKv.Soundness.Lmdb.Serial
import NodeKv.Model.Rocks.Life
import NodeKv.Proofs.Rocks.Share
import NodeKv.Soundness.Rocks.Life
import NodeKv.Soundness.Rocks.Refinement
import NodeKv.Machine.Zipper
import NodeKv.Model.Lmdb.Deleting
import NodeKv.Proofs.Lmdb.Deleting
import NodeKv.Soundness.Lmdb.Deleting
import NodeKv.Machine.Places
import NodeKv.Model.Engines
import NodeKv.Soundness.Engines.Cursors
import NodeKv.Model.Lmdb.Exists
import NodeKv.Soundness.Codec.Shown
import NodeKv.Soundness.Lmdb.Exists
import NodeKv.Soundness.Lmdb.Listing
import NodeKv.Soundness.Lmdb.Maps
import NodeKv.Soundness.Lmdb.Scans
import NodeKv.Model.Cache.Stored
import NodeKv.Soundness.Cache.Lives
import NodeKv.Model.Cache.Close
import NodeKv.Soundness.Cache.Close
import NodeKv.Model.Cache.Exists
import NodeKv.Soundness.Cache.Exists
