import DoraOS.Kernel.TaskList
import Mathlib.Data.BitVec

/-! The objects of `src/sem.c`, `src/mutex.c`, `src/queue.c` and `src/event.c`,
with the functions that touch an object or the memory alone. The pend lists
that the objects embed are kept with the task lists of the kernel. -/
namespace DoraOS

structure Sem where
  semCount : Nat
  semMaxCount : Nat
  deriving DecidableEq

/-- `struct dos_mutex`. The default values are those of `dos_mutex_create`. -/
structure Mutex where
  mutexCount : Nat := 0
  mutexPriority : Nat := 0
  mutexOwner : Option TaskId := none
  deriving DecidableEq

/-- `struct dos_event`. The default value is that of `dos_event_create`. -/
structure Event where
  eventFlag : BitVec 32 := 0
  deriving DecidableEq

/-- `struct dos_queue`. Pointers are byte addresses. -/
structure Queue where
  queueLen : Nat
  queueSize : Nat
  queueHeadPtr : Nat
  queueTailPtr : Nat
  queueRwCount : QueueOp → Nat
  queueRwPtr : QueueOp → Nat

def Mutex.mutexCountInc (x : Mutex) : Mutex :=
  { x with mutexCount := (x.mutexCount + 1) % 2 ^ 16 }

namespace Event

def waitEventOp : BitVec 32 := 0x03
def waitAnyEvent : BitVec 32 := 0x01
def waitAllEvent : BitVec 32 := 0x02
def noClrEvent : BitVec 32 := 0x04

def dosCheckEvent (event : Event) (wantEvent op : BitVec 32) : Event × Bool :=
  let got :=
    if op &&& waitEventOp = waitAnyEvent then event.eventFlag &&& wantEvent ≠ 0
    else if op &&& waitEventOp = waitAllEvent then event.eventFlag &&& wantEvent = wantEvent
    else False
  if got then
    if op &&& noClrEvent = 0 then ({ event with eventFlag := event.eventFlag &&& ~~~wantEvent }, true)
    else (event, true)
  else (event, false)

end Event

abbrev Memory := Nat → UInt8

def Memory.memcpy (mem : Memory) (dst src size : Nat) : Memory :=
  fun a => if dst ≤ a ∧ a < dst + size then mem (src + (a - dst)) else mem a

def Memory.memzero (mem : Memory) (dst size : Nat) : Memory :=
  fun a => if dst ≤ a ∧ a < dst + size then 0 else mem a

namespace Queue

def sizeofQueue : Nat := 84

/-- `dos_queue_create` in the block that `dos_mem_alloc` returned, if any. -/
def dosQueueCreate (mem : Memory) (block : Option Nat) (len size : Nat) : Option (Queue × Memory) :=
  if len = 0 ∨ size = 0 then none
  else
    match block with
    | none => none
    | some queue =>
        let queueSize := len * size % 2 ^ 32
        let head := (queue + sizeofQueue) % 2 ^ 32
        some
          ({ queueLen := len
             queueSize := size
             queueHeadPtr := head
             queueTailPtr := (head + len * size % 2 ^ 32) % 2 ^ 32
             queueRwCount := fun op => match op with
               | .read => 0
               | .write => len
             queueRwPtr := fun _ => head },
            mem.memzero queue ((sizeofQueue + queueSize) % 2 ^ 32))

/-- Assignment to `queue_rw_count[op]`, a 16-bit field. -/
def setRwCount (queue : Queue) (op : QueueOp) (count : Nat) : Queue :=
  { queue with queueRwCount := fun op' => if op' = op then count % 2 ^ 16 else queue.queueRwCount op' }

def setRwPtr (queue : Queue) (op : QueueOp) (ptr : Nat) : Queue :=
  { queue with queueRwPtr := fun op' => if op' = op then ptr else queue.queueRwPtr op' }

/-- The pointer behind the slot that `queue_rw_ptr[op]` is on. -/
def nextPtr (queue : Queue) (op : QueueOp) : Nat :=
  let ptr := (queue.queueRwPtr op + queue.queueSize) % 2 ^ 32
  if ptr = queue.queueTailPtr then queue.queueHeadPtr else ptr

def dosQueueCopy (queue : Queue) (mem : Memory) (buff size : Nat) (op : QueueOp) : Queue × Memory :=
  let mem := match op with
    | .read => mem.memcpy buff (queue.queueRwPtr op) size
    | .write => mem.memcpy (queue.queueRwPtr op) buff size
  (queue.setRwPtr op (queue.nextPtr op), mem)

end Queue

end DoraOS
