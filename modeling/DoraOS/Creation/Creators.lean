import DoraOS.Fifo.Fifo
import DoraOS.Ipc.System
import DoraOS.Memory.Owned
import DoraOS.Timer.Swtmr

/-! The functions that create kernel objects. Each takes its memory from the
heap with `dos_mem_alloc`, which clears nothing. The fields of an object live
in the record of its module, under the address of its block; a field that its
creator does not assign keeps what the words of the block held. The words of
a block are written where the source clears them or reads them again before
the object is complete. A creator runs without being interrupted. -/
namespace DoraOS

/-- The heap with the modules whose objects are allocated from it. -/
structure Machine where
  heap : Heap
  sys : System
  timers : Timers
  fifo : Nat → FifoRun

/-- The sizes of the structures on the 32-bit target. -/
def sizeofTask : Nat := 92
def sizeofSem : Nat := 36
def sizeofMutex : Nat := 36
def sizeofEvent : Nat := 32
def sizeofSwtmr : Nat := 28
def sizeofFifo : Nat := 24
def sizeofMemp : Nat := 28
def sizeofMempNode : Nat := 12

/-- The byte at an address, the first byte of a word being its lowest. -/
def Heap.byte (h : Heap) (addr : Nat) : UInt8 :=
  UInt8.ofNat (h.mem (addr / 4 * 4) / 2 ^ (8 * (addr % 4)))

/-- The words of a block read as a `struct dos_task`. -/
def Tcb.ofWords (h : Heap) (task : Nat) : Tcb where
  taskStatus := BitVec.ofNat 16 (h.mem (task + 8))
  priority := h.mem (task + 8) / 2 ^ 16 % 2 ^ 16
  taskTick := h.mem (task + 32)
  taskInitTick := h.mem (task + 36)
  waitEvent := BitVec.ofNat 32 (h.mem (task + 40))
  waitEventOpt := BitVec.ofNat 32 (h.mem (task + 44))
  eventGet := BitVec.ofNat 32 (h.mem (task + 48))

/-- `task->stack_addr`, the second word of the control block. -/
def Heap.stackAddr (h : Heap) (task : Nat) : Nat := h.mem (task + 4)

/-- `dos_mem_free(task)` and `dos_mem_free(task->stack_addr)`. -/
def Heap.releaseTask (h : Heap) (task : Nat) : Option Heap :=
  (h.dosMemFree task).bind fun r => (r.1.dosMemFree (r.1.stackAddr task)).map Prod.fst

/-- `dos_task_list_init` of the pend list of an object. -/
def System.initPend (s : System) (id : PendId) : System :=
  s.setKernel { s.k with lists := s.k.lists.dosTaskListInit (.pend id) }

/-- The loop of `dos_memp_create` over the nodes of a pool, with the last node
behind it. `status` is not assigned. -/
def Heap.linkMempNodes (memp blkSize : Nat) : Nat → Heap → Nat → Heap
  | 0, h, node => (h.write (node + 8) 0).write (node + 4) memp
  | i + 1, h, node =>
      let nextNode := (node + sizeofMempNode + blkSize) % 2 ^ 32
      linkMempNodes memp blkSize i ((h.write (node + 8) nextNode).write (node + 4) memp) nextNode

/-- `dos_memp_create` behind its allocation. -/
def Heap.initMemp (h : Heap) (memp base mempSize mempCnt blkSize : Nat) : Heap :=
  let h := (((h.write (memp + 12) base).write memp mempSize).write (memp + 4) mempCnt).write
    (memp + 8) mempCnt
  let h := (h.write (base + 4) memp).write (memp + 24) base
  linkMempNodes memp blkSize (mempCnt - 1) h base

namespace Machine

variable (m : Machine)

/-- `dos_mem_alloc`. It returns with the scheduler still locked when there is
no heap. -/
def dosMemAlloc (size : Nat) : Option (Machine × Nat) :=
  let k := m.sys.k.dosSchedulerLock
  if m.heap.alignMemHeapBegin = 0 then some ({ m with sys := m.sys.setKernel k }, 0)
  else
    (m.heap.dosMemAlloc size).map fun r =>
      ({ m with heap := r.1, sys := m.sys.setKernel k.dosSchedulerUnlock }, r.2)

def dosMemFree (mem : Nat) : Option Machine :=
  (m.heap.dosMemFree mem).map fun r => { m with heap := r.1 }

def store (block offset word : Nat) : Machine :=
  { m with heap := m.heap.write (block + offset) word }

/-- `dos_task_create`. The initial frame on the stack of the task is not
modelled. -/
def dosTaskCreate (stackSize prio tick : Nat) : Option (Machine × Nat) :=
  if prio > m.sys.k.config.dosMaxPriorityNum then some (m, 0)
  else do
    let task ← m.dosMemAlloc sizeofTask
    if task.2 = 0 then some (task.1, 0)
    else do
      let stack ← task.1.dosMemAlloc stackSize
      if stack.2 = 0 then do
        let freed ← stack.1.dosMemFree task.2
        some (freed, 0)
      else do
        let m := stack.1.store task.2 4 stack.2
        let found := m.sys.k.mapTcb task.2 fun _ => Tcb.ofWords m.heap task.2
        let k ← found.dosTaskCreate task.2 prio tick
        some ({ m with sys := m.sys.setKernel k }, task.2)

/-- `dos_sem_create`. A count above the maximum is only logged. -/
def dosSemCreate (cnt maxCnt : Nat) : Option (Machine × Nat) := do
  let sem ← m.dosMemAlloc sizeofSem
  if sem.2 = 0 then some (sem.1, 0)
  else
    let m := sem.1
    some ({ m with
      heap := m.heap.memset sem.2 sizeofSem
      sys := (m.sys.setSem sem.2 ⟨cnt, maxCnt⟩).initPend (.sem sem.2) }, sem.2)

def dosMutexCreate : Option (Machine × Nat) := do
  let mutex ← m.dosMemAlloc sizeofMutex
  if mutex.2 = 0 then some (mutex.1, 0)
  else
    let m := mutex.1
    some ({ m with
      heap := m.heap.memset mutex.2 sizeofMutex
      sys := (m.sys.setMutex mutex.2 {}).initPend (.mutex mutex.2) }, mutex.2)

/-- `dos_mutex_delete`, whose result `dos_fifo_create` ignores. -/
def dosMutexDelete (mutex : Nat) : Option Machine :=
  if mutex = 0 then some m
  else if m.sys.k.lists.dosTaskListIsEmpty (.pend (.mutex mutex)) then
    { m with
      heap := m.heap.memset mutex sizeofMutex
      sys := m.sys.setMutex mutex {} }.dosMemFree mutex
  else some m

def dosEventCreate : Option (Machine × Nat) := do
  let event ← m.dosMemAlloc sizeofEvent
  if event.2 = 0 then some (event.1, 0)
  else
    let m := event.1
    some ({ m with sys := (m.sys.setEvent event.2 {}).initPend (.event event.2) }, event.2)

def dosQueueCreate (len size : Nat) : Option (Machine × Nat) :=
  if len = 0 ∨ size = 0 then some (m, 0)
  else do
    let total := (Queue.sizeofQueue + len * size % 2 ^ 32) % 2 ^ 32
    let queue ← m.dosMemAlloc total
    if queue.2 = 0 then some (queue.1, 0)
    else do
      let m := queue.1
      let made ← Queue.dosQueueCreate m.sys.mem (some queue.2) len size
      let sys := { m.sys.setQueue queue.2 made.1 with mem := made.2 }
      some ({ m with
        heap := m.heap.memset queue.2 total
        sys := (sys.initPend (.queue queue.2 .read)).initPend (.queue queue.2 .write) }, queue.2)

/-- `dos_memp_create`. With `DOS_HEAP_TO_MEMP` the blocks of the pool are behind
its structure; without it they are at `base`. -/
def dosMempCreate (base : Option Nat) (mempSize blkSize : Nat) : Option (Machine × Nat) :=
  if blkSize = 0 ∨ mempSize = 0 ∨ mempSize < blkSize ∨ base = some 0 then some (m, 0)
  else
    let mempCnt := match base with
      | some _ => mempSize / (blkSize + sizeofMempNode)
      | none => mempSize / blkSize
    let total := match base with
      | some _ => sizeofMemp
      | none => (sizeofMemp + sizeofMempNode * mempCnt + mempSize) % 2 ^ 32
    do
      let memp ← m.dosMemAlloc total
      if memp.2 = 0 then some (memp.1, 0)
      else
        let m := memp.1
        let base := base.getD ((memp.2 + sizeofMemp) % 2 ^ 32)
        some ({ m with heap := m.heap.initMemp memp.2 base mempSize mempCnt blkSize }, memp.2)

/-- `dos_swtmr_create`. `cb` tells whether there is a callback. The parameters
are checked behind the allocation. -/
def dosSwtmrCreate (timeout mode : Nat) (cb : Bool) : Option (Machine × Nat) := do
  let swtmr ← m.dosMemAlloc sizeofSwtmr
  if swtmr.2 = 0 then some (swtmr.1, 0)
  else if cb = false ∨ timeout = 0 then some (swtmr.1, 0)
  else if mode % 4 = 0 ∨ mode % 4 = 3 then some (swtmr.1, 0)
  else
    let m := swtmr.1
    some ({ m with timers := m.timers.dosSwtmrCreate swtmr.2 timeout mode }, swtmr.2)

def fifoBlock (fifo : Nat) : Machine := m.store fifo 20 (fifo + sizeofFifo)

/-- The end of `dos_fifo_create`. The buffer keeps what the block held. -/
def initFifo (fifo : Nat) (size : BitVec 32) : Option (Machine × Nat) :=
  (DoraOS.dosFifoCreate size fun i => m.heap.byte (fifo + sizeofFifo + i)).map fun made =>
    let m := ((m.store fifo 0 made.size.toNat).store fifo 4 0).store fifo 8 0
    ({ m with fifo := fun p => if p = fifo then FifoRun.start made else m.fifo p }, fifo)

/-- `dos_fifo_create` from the second mutex on. When there is no memory for it,
the pointer to the first one is read from the freed block. -/
def fifoWriteMutex (fifo : Nat) (size : BitVec 32) : Option (Machine × Nat) := do
  let write ← m.dosMutexCreate
  let m := write.1.store fifo 16 write.2
  if write.2 = 0 then do
    let freed ← m.dosMemFree fifo
    let deleted ← freed.dosMutexDelete (freed.heap.mem (fifo + 12))
    some (deleted, 0)
  else m.initFifo fifo size

/-- `dos_fifo_create` from the first mutex on. -/
def fifoReadMutex (fifo : Nat) (size : BitVec 32) : Option (Machine × Nat) := do
  let read ← m.dosMutexCreate
  let m := read.1.store fifo 12 read.2
  if read.2 = 0 then do
    let freed ← m.dosMemFree fifo
    some (freed, 0)
  else m.fifoWriteMutex fifo size

def dosFifoCreate (size : BitVec 32) : Option (Machine × Nat) :=
  if size = 0 then some (m, 0)
  else do
    let fifo ← m.dosMemAlloc (sizeofFifo + (dosFifoSize size).toNat)
    if fifo.2 = 0 then some (fifo.1, 0)
    else (fifo.1.fifoBlock fifo.2).fifoReadMutex fifo.2 size

end Machine

inductive Creator where
  | task (stackSize prio tick : Nat)
  | sem (cnt maxCnt : Nat)
  | mutex
  | event
  | queue (len size : Nat)
  | memp (base : Option Nat) (mempSize blkSize : Nat)
  | swtmr (timeout mode : Nat) (cb : Bool)
  | fifo (size : BitVec 32)

/-- The call, with the pointer it returns. `DOS_NULL` is zero. -/
def Machine.create (m : Machine) : Creator → Option (Machine × Nat)
  | .task stackSize prio tick => m.dosTaskCreate stackSize prio tick
  | .sem cnt maxCnt => m.dosSemCreate cnt maxCnt
  | .mutex => m.dosMutexCreate
  | .event => m.dosEventCreate
  | .queue len size => m.dosQueueCreate len size
  | .memp base mempSize blkSize => m.dosMempCreate base mempSize blkSize
  | .swtmr timeout mode cb => m.dosSwtmrCreate timeout mode cb
  | .fifo size => m.dosFifoCreate size

/-- Every allocation that the call makes, and that another one may follow, cuts
its node. -/
def Machine.CutsFirst (m : Machine) : Creator → Prop
  | .task _ prio _ => prio ≤ m.sys.k.config.dosMaxPriorityNum → m.heap.Cuts sizeofTask
  | .fifo size => size ≠ 0 →
      m.heap.Cuts (sizeofFifo + (dosFifoSize size).toNat) ∧
        ∀ r ∈ m.dosMemAlloc (sizeofFifo + (dosFifoSize size).toNat),
          r.2 ≠ 0 → (r.1.fifoBlock r.2).heap.Cuts sizeofMutex
  | _ => True

instance (m : Machine) : ∀ c, Decidable (m.CutsFirst c)
  | .task _ _ _ => inferInstanceAs (Decidable (_ → m.heap.Cuts sizeofTask))
  | .fifo _ => inferInstanceAs (Decidable (_ → _ ∧ _))
  | .sem _ _ => inferInstanceAs (Decidable True)
  | .mutex => inferInstanceAs (Decidable True)
  | .event => inferInstanceAs (Decidable True)
  | .queue _ _ => inferInstanceAs (Decidable True)
  | .memp _ _ _ => inferInstanceAs (Decidable True)
  | .swtmr _ _ _ => inferInstanceAs (Decidable True)

/-- The machine at start-up with a heap of so many bytes. -/
def Machine.boot (heapSize : Nat) : Machine where
  heap := (Heap.dosMemHeapInit (fun _ => 0) 0x20000000 heapSize).1
  sys := System.small
  timers := Timers.dosSwtmrInit 10 false
  fifo _ := FifoRun.start ⟨1, 0, 0, fun _ => 0⟩

end DoraOS
