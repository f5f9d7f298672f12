import DoraOS.Library.Runs
import DoraOS.Library.History
import DoraOS.Library.KeyOrder
import DoraOS.Library.BitSet
import DoraOS.Library.Ring
import DoraOS.Library.Segments
import DoraOS.Library.Circular
import DoraOS.Library.Rota
import DoraOS.Library.Lockstep
import DoraOS.Library.ByteWords
import DoraOS.Library.Links
import DoraOS.Kernel.TaskList
import DoraOS.Kernel.ListWalk
import DoraOS.Kernel.TaskRing
import DoraOS.Kernel.TaskRingRun
import DoraOS.Kernel.Status
import DoraOS.Kernel.Task
import DoraOS.Kernel.TaskRingLists
import DoraOS.Kernel.Frame
import DoraOS.Kernel.Membership
import DoraOS.Kernel.Run
import DoraOS.Kernel.Sleep
import DoraOS.Kernel.WakeUp
import DoraOS.Kernel.Scheduler
import DoraOS.Kernel.PriorityTable
import DoraOS.Kernel.Effects
import DoraOS.Kernel.Moves
import DoraOS.Kernel.ReadyState
import DoraOS.Kernel.Operations
import DoraOS.Kernel.Deletion
import DoraOS.Kernel.Accesses
import DoraOS.Kernel.PriorityRange
import DoraOS.Kernel.RoundRobin
import DoraOS.Memory.Heap
import DoraOS.Memory.Tiling
import DoraOS.Memory.Alloc
import DoraOS.Memory.Free
import DoraOS.Memory.Owned
import DoraOS.Memory.HeapRun
import DoraOS.Memory.Coalesce
import DoraOS.Memory.Balance
import DoraOS.Fifo.Fifo
import DoraOS.Fifo.Stream
import DoraOS.Fifo.Levels
import DoraOS.Ipc.Objects
import DoraOS.Ipc.System
import DoraOS.Ipc.TaskStep
import DoraOS.Ipc.Coherent
import DoraOS.Ipc.MutexEffect
import DoraOS.Ipc.MutexExclusion
import DoraOS.Ipc.Inheritance
import DoraOS.Ipc.InheritanceBound
import DoraOS.Ipc.Timeout
import DoraOS.Ipc.QueueProtocol
import DoraOS.Ipc.QueueFifo
import DoraOS.Ipc.EventWaiters
import DoraOS.Ipc.WaitOrder
import DoraOS.Ipc.EventOrder
import DoraOS.Ipc.Dispatch
import DoraOS.Timer.Swtmr
import DoraOS.Timer.TimerLists
import DoraOS.Timer.TimerRun
import DoraOS.Timer.Waiting
import DoraOS.Timer.Epoch
import DoraOS.Timer.LiveTimers
import DoraOS.Timer.Rings
import DoraOS.Timer.RingLists
import DoraOS.Timer.Expiry
import DoraOS.Creation.Creators
import DoraOS.Creation.FailedCreation
import DoraOS.Creation.EventGet
import DoraOS.Creation.Unread
import DoraOS.Creation.StaleMemory
import DoraOS.Ipc.SemTokens
import DoraOS.Ipc.LockDepth
import DoraOS.Memory.Pool
import DoraOS.Memory.PoolBounds
import DoraOS.Library.Numeral
import DoraOS.Format.Format
import DoraOS.Format.Text
import DoraOS.Format.Scan
import DoraOS.Format.Follow
import DoraOS.Format.Return
import DoraOS.Format.Numeral
import DoraOS.Format.Directive
import DoraOS.Format.Arguments
import DoraOS.Format.Bounds
import DoraOS.Format.Field
import DoraOS.Format.Salof
import DoraOS.Command.Parsing
import DoraOS.Library.Thumb
import DoraOS.Port.Handlers
import DoraOS.Port.Frames
import DoraOS.Port.ContextSwitch
import DoraOS.Port.SwitchRun
import DoraOS.Memory.HeapStore
import DoraOS.Port.TaskMemory
import DoraOS.Library.WaitGraph
import DoraOS.Ipc.MutexOwner
import DoraOS.Creation.TaskBlocks
