import Linglongta.Foundations.Bytes
import Linglongta.Foundations.ByteFile
import Linglongta.Foundations.Program
import Linglongta.Foundations.Ownership
import Linglongta.Foundations.Census
import Linglongta.Foundations.Concurrency
import Linglongta.Foundations.Integers
import Linglongta.Foundations.AddressSpace
import Linglongta.Foundations.TwoRuns
import Linglongta.Foundations.ShiftRegister
import Linglongta.Foundations.PointerChain
import Linglongta.Foundations.CutLog
import Linglongta.Foundations.Monitor
import Linglongta.Foundations.Atomic
import Linglongta.Foundations.Progress
import Linglongta.Crc32
import Linglongta.Crc32.Polynomial
import Linglongta.Rwlock
import Linglongta.Rwlock.Progress
import Linglongta.Rwlock.Threads
import Linglongta.Queue.Stailq
import Linglongta.Queue.Lists
import Linglongta.Slab.Classes
import Linglongta.Slab.Allocator
import Linglongta.Slab.Chunks
import Linglongta.Slab.Partition
import Linglongta.Slab.Capacity
import Linglongta.Slab.Extents
import Linglongta.Slab.Contents
import Linglongta.Slab.Limit
import Linglongta.Storage.Index
import Linglongta.Storage.State
import Linglongta.Storage.Operations
import Linglongta.Storage.Execution
import Linglongta.Storage.Open
import Linglongta.Storage.Outcomes
import Linglongta.Storage.Slots
import Linglongta.Storage.Loading
import Linglongta.Storage.SlotInvariant
import Linglongta.Storage.Runs
import Linglongta.Storage.Records
import Linglongta.Storage.DataFiles
import Linglongta.Storage.Sessions
import Linglongta.Storage.SizeClass
import Linglongta.Storage.Headers
import Linglongta.Storage.Sound
import Linglongta.Storage.CrashSafety
import Linglongta.Storage.Mirror
import Linglongta.Storage.Refinement
import Linglongta.Storage.UpdateOutcome
import Linglongta.Storage.Locks
import Linglongta.Storage.Handles
import Linglongta.Storage.Discipline
import Linglongta.Storage.Concurrency
import Linglongta.Storage.Linearizable
import Linglongta.Storage.Rwlocks
import Linglongta.IndexLog.Logger
import Linglongta.IndexLog.Format
import Linglongta.IndexLog.Tail
import Linglongta.IndexLog.Writes
import Linglongta.IndexLog.Threads
import Linglongta.IndexLog.Alone
import Linglongta.IndexLog.Linearizable
import Linglongta.IndexLog.Torn
import Linglongta.IndexLog.Magic
import Linglongta.IndexLog.Replay
import Linglongta.IndexLog.Restarts
import Linglongta.IndexLog.Recovery
import Linglongta.Foundations.CString
import Linglongta.Server.Protocol
import Linglongta.Server.Task
import Linglongta.Server.AssignThread
import Linglongta.Server.Dispatch
import Linglongta.Server.Receiving
import Linglongta.Server.Heads
import Linglongta.Server.Buffering
import Linglongta.Server.Body
import Linglongta.Server.Gathering
import Linglongta.Server.Sizes
import Linglongta.Server.Rounds
import Linglongta.Server.QueryThread
import Linglongta.Server.FailedGet
import Linglongta.Server.ErrorLogs
import Linglongta.Server.Segmentation
import Linglongta.Server.Ownership
import Linglongta.Server.Service
import Linglongta.Server.Wire
import Linglongta.Server.Life
import Linglongta.Hash.Bobhash
import Linglongta.Hash.Readers
import Linglongta.Hash.HashKey
