import DoraOS.Ipc.System
import DoraOS.Library.Ring

/-! A queue as a bounded FIFO. With timeout 0 nobody waits, so the handler runs
to its end on its own; a sequence of reads and writes then moves messages
through the ring of slots behind `struct dos_queue` in the order in which they
were written. -/
namespace DoraOS

def Memory.bytes (mem : Memory) (addr n : Nat) : List UInt8 :=
  (List.range n).map fun i => mem (addr + i)

@[simp] theorem Memory.length_bytes (mem : Memory) (addr n : Nat) :
    (mem.bytes addr n).length = n := by
  simp [bytes]

theorem Memory.getElem?_bytes (mem : Memory) (addr n j : Nat) :
    (mem.bytes addr n)[j]? = if j < n then some (mem (addr + j)) else none := by
  by_cases hj : j < n
  · simp [bytes, hj]
  · simp [bytes, hj]

/-- The byte of a copy. -/
theorem Memory.memcpy_at (mem : Memory) {dst src size j : Nat} (hj : j < size) :
    mem.memcpy dst src size (dst + j) = mem (src + j) := by
  simp [memcpy, hj]

theorem Memory.memcpy_off (mem : Memory) {dst src size a : Nat}
    (ha : a < dst ∨ dst + size ≤ a) : mem.memcpy dst src size a = mem a := by
  have hOff : ¬(dst ≤ a ∧ a < dst + size) := by omega
  simp [memcpy, hOff]

namespace System

/-- `dos_queue_create` of the queue `q`, in the block that `dos_mem_alloc`
returned. -/
def dosQueueCreate (s : System) (q : Nat) (block : Option Nat) (len size : Nat) : Option System :=
  (Queue.dosQueueCreate s.mem block len size).map fun r =>
    { s.setQueue q r.1 with
      mem := r.2
      k := { s.k with
        lists := (s.k.lists.dosTaskListInit (.pend (.queue q .read))).dosTaskListInit
          (.pend (.queue q .write)) } }

variable {s : System} {c : TaskId} {q : Nat} {op : QueueOp} {buff n : Nat} {caller : Option TaskId}

theorem handlerNow_fails (h : buff = 0 ∨ n = 0 ∨ (s.queue q).queueRwCount op = 0) :
    s.dosQueueHandlerNow caller q op buff n = (s, [.returned caller .nok]) := by
  unfold dosQueueHandlerNow
  rcases h with h | h | h
  · simp [h]
  · simp [h]
  · simp [h]

theorem handlerNow_succeeds (hBuff : buff ≠ 0) (hn : n ≠ 0)
    (hCount : (s.queue q).queueRwCount op ≠ 0) (hEmpty : s.pending (.queue q op.other) = []) :
    s.dosQueueHandlerNow caller q op buff n =
      (((s.queueTake q op).queueCopy q op buff (min n (s.queue q).queueSize)).queueCredit q op,
        [.returned caller .ok]) := by
  have hPend : ((s.queueTake q op).queueCopy q op buff
      (min n (s.queue q).queueSize)).pending (.queue q op.other) = [] := hEmpty
  simp [dosQueueHandlerNow, hBuff, hn, hCount, hPend]

end System

/-- A queue in use: the system, the messages passed to the successful writes,
and the bytes that the successful reads delivered. -/
structure QueueRun where
  sys : System
  written : List (List UInt8)
  delivered : List (List UInt8)

/-- What callers do: they change memory, write and read with timeout 0. -/
inductive QueueEvent where
  | store (addr : Nat) (byte : UInt8)
  | write (buff n : Nat)
  | read (buff m : Nat)

def Label.isOk : Label → Bool
  | .returned _ .ok => true
  | _ => false

/-- One step of a caller. A message is what the buffer holds before a write,
a delivery what it holds behind a read. -/
def queueRunStep (caller : Option TaskId) (q : Nat) (x : QueueRun) : QueueEvent → Option QueueRun
  | .store addr byte =>
      some { x with sys := { x.sys with mem := fun a => if a = addr then byte else x.sys.mem a } }
  | .write buff n =>
      let r := x.sys.dosQueueHandlerNow caller q .write buff n
      some
        { sys := r.1
          written := if r.2.any Label.isOk then x.written ++ [x.sys.mem.bytes buff n] else x.written
          delivered := x.delivered }
  | .read buff m =>
      let r := x.sys.dosQueueHandlerNow caller q .read buff m
      let size := (x.sys.queue q).queueSize
      some
        { sys := r.1
          written := x.written
          delivered :=
            if r.2.any Label.isOk then x.delivered ++ [r.1.mem.bytes buff (min m size)]
            else x.delivered }

/-- The callers' memory is apart from the block of the queue. -/
def QueueEvent.Apart (block len size : Nat) : QueueEvent → Prop
  | .store addr _ => addr < block ∨ block + Queue.sizeofQueue + len * size ≤ addr
  | .write buff n => buff + min n size ≤ block ∨ block + Queue.sizeofQueue + len * size ≤ buff
  | .read buff m => buff + min m size ≤ block ∨ block + Queue.sizeofQueue + len * size ≤ buff

instance (block len size : Nat) (event : QueueEvent) : Decidable (event.Apart block len size) := by
  unfold QueueEvent.Apart
  split <;> infer_instance

/-- As far as both go, the delivered bytes are those of the message. -/
def Delivers (d w : List UInt8) : Prop := ∀ j, j < d.length → j < w.length → d[j]? = w[j]?

/-- The slot `i` of the ring at `head` holds a message, cut to the slot. -/
def SlotHolds (mem : Memory) (head size i : Nat) (w : List UInt8) : Prop :=
  ∀ j b, j < size → w[j]? = some b → mem (head + i * size + j) = b

namespace Queue

/-- The constant fields of a queue whose ring begins at `head`. -/
structure Shape (queue : Queue) (head len size : Nat) : Prop where
  lenIs : queue.queueLen = len
  sizeIs : queue.queueSize = size
  headIs : queue.queueHeadPtr = head
  tailIs : queue.queueTailPtr = head + len * size

/-- A pointer moves to the next slot of the ring. -/
theorem nextPtr_eq {queue : Queue} {head len size i : Nat} (h : queue.Shape head len size)
    (hSize : 0 < size) (hSpace : head + len * size < 2 ^ 32) {op : QueueOp} (hi : i < len)
    (hPtr : queue.queueRwPtr op = head + i * size) :
    queue.nextPtr op = head + Ring.next len i * size := by
  have hBehind : (i + 1) * size ≤ len * size := Nat.mul_le_mul_right size hi
  have hSucc : (i + 1) * size = i * size + size := Nat.add_one_mul i size
  have hMod : (head + i * size + size) % 2 ^ 32 = head + (i + 1) * size := by
    rw [Nat.mod_eq_of_lt (by omega)]
    omega
  unfold nextPtr
  simp only [hPtr, h.sizeIs, h.tailIs, h.headIs, hMod]
  by_cases hLast : i + 1 = len
  · simp [Ring.next, Ring.wrap, hLast]
  · have hLt : i + 1 < len := by omega
    have hShort : (i + 1) * size < len * size := Nat.mul_lt_mul_of_pos_right hLt hSize
    rw [if_neg (by omega)]
    simp [Ring.next, Ring.wrap, hLt]

end Queue

namespace System

variable {s : System} {q : Nat} {op : QueueOp} {buff n : Nat}

/-- The state behind a successful call: the counters, the pointer and the
memory of `_dos_queue_copy`. -/
structure Served (s s' : System) (q : Nat) (op : QueueOp) (buff n : Nat) : Prop where
  shape : ∀ head len size, (s.queue q).Shape head len size → (s'.queue q).Shape head len size
  pending : ∀ id, s'.pending id = s.pending id
  taken : (s'.queue q).queueRwCount op = ((s.queue q).queueRwCount op - 1) % 2 ^ 16
  credited : (s'.queue q).queueRwCount op.other = ((s.queue q).queueRwCount op.other + 1) % 2 ^ 16
  moved : (s'.queue q).queueRwPtr op = (s.queue q).nextPtr op
  stays : (s'.queue q).queueRwPtr op.other = (s.queue q).queueRwPtr op.other
  mem : s'.mem = ((s.queue q).dosQueueCopy s.mem buff n op).2

theorem served_queue (s : System) (q : Nat) (op : QueueOp) (buff n : Nat) :
    (((s.queueTake q op).queueCopy q op buff n).queueCredit q op).queue q =
      (((s.queue q).setRwCount op ((s.queue q).queueRwCount op - 1)).setRwPtr op
        ((s.queue q).nextPtr op)).setRwCount op.other ((s.queue q).queueRwCount op.other + 1) := by
  cases op <;> simp [queueCredit, queueCopy, queueTake, setQueue, Queue.dosQueueCopy,
    Queue.setRwCount, Queue.setRwPtr, Queue.nextPtr, QueueOp.other]

theorem served (s : System) (q : Nat) (op : QueueOp) (buff n : Nat) :
    Served s (((s.queueTake q op).queueCopy q op buff n).queueCredit q op) q op buff n where
  shape head len size h := by
    rw [served_queue]
    exact ⟨h.lenIs, h.sizeIs, h.headIs, h.tailIs⟩
  pending _ := rfl
  taken := by
    rw [served_queue]
    cases op <;> simp [Queue.setRwCount, Queue.setRwPtr, QueueOp.other]
  credited := by
    rw [served_queue]
    simp [Queue.setRwCount]
  moved := by
    rw [served_queue]
    simp [Queue.setRwCount, Queue.setRwPtr]
  stays := by
    rw [served_queue]
    cases op <;> simp [Queue.setRwCount, Queue.setRwPtr, QueueOp.other]
  mem := by
    cases op <;> simp [queueCredit, queueCopy, queueTake, setQueue, Queue.dosQueueCopy,
      Queue.setRwCount]

end System

/-- The refinement relation: the ring holds the messages that were written and
not delivered yet, oldest first. -/
structure QueueOk (q head len size : Nat) (x : QueueRun) : Prop where
  shape : (x.sys.queue q).Shape head len size
  empty : ∀ op, x.sys.pending (.queue q op) = []
  ordered : x.delivered.length ≤ x.written.length
  reads : (x.sys.queue q).queueRwCount .read = x.written.length - x.delivered.length
  writes : (x.sys.queue q).queueRwCount .write = len - (x.written.length - x.delivered.length)
  ring : ∃ first last, (x.sys.queue q).queueRwPtr .read = head + first * size ∧
    (x.sys.queue q).queueRwPtr .write = head + last * size ∧
    Ring.Holds len (SlotHolds x.sys.mem head size) first last (x.written.drop x.delivered.length)
  delivers : ∀ (k : Nat) d w, x.delivered[k]? = some d → x.written[k]? = some w → Delivers d w

namespace QueueOk

variable {q head len size : Nat} {x : QueueRun} {caller : Option TaskId}

theorem stored_le (h : QueueOk q head len size x) :
    x.written.length - x.delivered.length ≤ len := by
  obtain ⟨first, last, _, _, hRing⟩ := h.ring
  simpa using hRing.length

/-- A call finds its counter at zero exactly when the queue is full or empty. -/
theorem count_zero (h : QueueOk q head len size x) :
    ((x.sys.queue q).queueRwCount .write = 0 ↔ x.written.length - x.delivered.length = len) ∧
      ((x.sys.queue q).queueRwCount .read = 0 ↔ x.written.length - x.delivered.length = 0) := by
  have hLe := h.stored_le
  rw [h.writes, h.reads]
  omega

/-- Memory outside the ring may change. -/
theorem store (h : QueueOk q head len size x) {s' : System} (hQueue : s'.queue = x.sys.queue)
    (hPend : ∀ id, s'.pending id = x.sys.pending id)
    (hMem : ∀ i j, i < len → j < size → s'.mem (head + i * size + j) =
      x.sys.mem (head + i * size + j)) : QueueOk q head len size { x with sys := s' } := by
  obtain ⟨first, last, hRead, hWrite, hRing⟩ := h.ring
  refine ⟨?_, ?_, h.ordered, ?_, ?_, ⟨first, last, ?_, ?_, ?_⟩, h.delivers⟩
  · rw [hQueue]
    exact h.shape
  · intro op
    rw [hPend]
    exact h.empty op
  · rw [hQueue]
    exact h.reads
  · rw [hQueue]
    exact h.writes
  · rw [hQueue]
    exact hRead
  · rw [hQueue]
    exact hWrite
  · refine hRing.mono ?_
    intro i hi w hSlot j b hj hb
    rw [hMem i j hi hj]
    exact hSlot j b hj hb

section Calls

variable {s' : System} {buff n : Nat}

/-- Different slots do not overlap. -/
theorem slot_apart {i last : Nat} (hne : i ≠ last) {j m : Nat} (hj : j < size) (hm : m ≤ size) :
    head + i * size + j < head + last * size ∨ head + last * size + m ≤ head + i * size + j := by
  rcases Nat.lt_or_gt_of_ne hne with hLt | hGt
  · have hMul : (i + 1) * size ≤ last * size := Nat.mul_le_mul_right size hLt
    have hSucc := Nat.add_one_mul i size
    omega
  · have hMul : (last + 1) * size ≤ i * size := Nat.mul_le_mul_right size hGt
    have hSucc := Nat.add_one_mul last size
    omega

theorem slot_inside (head : Nat) {i j : Nat} (hi : i < len) (hj : j < size) :
    head + i * size + j < head + len * size := by
  have hMul : (i + 1) * size ≤ len * size := Nat.mul_le_mul_right size hi
  have hSucc := Nat.add_one_mul i size
  omega

/-- A successful write appends its message. -/
theorem write (h : QueueOk q head len size x) (hSize : 0 < size) (hLen : len < 2 ^ 16)
    (hSpace : head + len * size < 2 ^ 32)
    (hServed : System.Served x.sys s' q .write buff (min n size))
    (hRoom : x.written.length - x.delivered.length < len) :
    QueueOk q head len size ⟨s', x.written ++ [x.sys.mem.bytes buff n], x.delivered⟩ := by
  obtain ⟨first, last, hRead, hWrite, hRing⟩ := h.ring
  have hOrdered := h.ordered
  have hMem : s'.mem = x.sys.mem.memcpy (head + last * size) buff (min n size) := by
    rw [hServed.mem]
    simp [Queue.dosQueueCopy, hWrite]
  have hTaken := hServed.taken
  have hCredited : (s'.queue q).queueRwCount .read = _ := hServed.credited
  rw [h.writes] at hTaken
  rw [show QueueOp.write.other = .read from rfl, h.reads] at hCredited
  refine ⟨hServed.shape _ _ _ h.shape, ?_, ?_, ?_, ?_, ⟨first, Ring.next len last, ?_, ?_, ?_⟩, ?_⟩
  · intro op
    exact (hServed.pending _).trans (h.empty op)
  · simp only [List.length_append, List.length_singleton]
    omega
  · simp only [List.length_append, List.length_singleton]
    rw [hCredited]
    omega
  · simp only [List.length_append, List.length_singleton]
    rw [hTaken]
    omega
  · exact hServed.stays.trans hRead
  · rw [hServed.moved]
    exact Queue.nextPtr_eq h.shape hSize hSpace hRing.last_lt hWrite
  · have hDrop : (x.written ++ [x.sys.mem.bytes buff n]).drop x.delivered.length =
        x.written.drop x.delivered.length ++ [x.sys.mem.bytes buff n] :=
      List.drop_append_of_le_length hOrdered
    rw [hDrop]
    refine hRing.push (by simpa using hRoom) ?_ ?_
    · intro i _ hne w hSlot j b hj hb
      rw [hMem, Memory.memcpy_off _ (slot_apart hne hj (Nat.min_le_right n size))]
      exact hSlot j b hj hb
    · intro j b hj hb
      rw [Memory.getElem?_bytes] at hb
      split at hb
      · rename_i hn
        rw [hMem, Memory.memcpy_at _ (by omega)]
        exact Option.some.inj hb
      · cases hb
  · intro k d w hd hw
    have hk : k < x.delivered.length := (List.getElem?_eq_some_iff.mp hd).1
    rw [List.getElem?_append_left (by omega)] at hw
    exact h.delivers k d w hd hw

/-- A successful read delivers the oldest message. -/
theorem read (h : QueueOk q head len size x) (hSize : 0 < size) (hLen : len < 2 ^ 16)
    (hSpace : head + len * size < 2 ^ 32)
    (hServed : System.Served x.sys s' q .read buff (min n size))
    (hStored : 0 < x.written.length - x.delivered.length)
    (hApart : buff + min n size ≤ head ∨ head + len * size ≤ buff) :
    QueueOk q head len size
      ⟨s', x.written, x.delivered ++ [s'.mem.bytes buff (min n size)]⟩ := by
  obtain ⟨first, last, hRead, hWrite, hRing⟩ := h.ring
  have hLe := h.stored_le
  have hMem : s'.mem = x.sys.mem.memcpy buff (head + first * size) (min n size) := by
    rw [hServed.mem]
    simp [Queue.dosQueueCopy, hRead]
  have hTaken := hServed.taken
  have hCredited : (s'.queue q).queueRwCount .write = _ := hServed.credited
  rw [h.reads] at hTaken
  rw [show QueueOp.read.other = .write from rfl, h.writes] at hCredited
  have hOldest : x.delivered.length < x.written.length := by omega
  have hSplit := List.drop_eq_getElem_cons hOldest
  rw [hSplit] at hRing
  refine ⟨hServed.shape _ _ _ h.shape, ?_, ?_, ?_, ?_, ⟨Ring.next len first, last, ?_, ?_, ?_⟩, ?_⟩
  · intro op
    exact (hServed.pending _).trans (h.empty op)
  · simp only [List.length_append, List.length_singleton]
    omega
  · simp only [List.length_append, List.length_singleton]
    rw [hTaken]
    omega
  · simp only [List.length_append, List.length_singleton]
    rw [hCredited]
    omega
  · rw [hServed.moved]
    exact Queue.nextPtr_eq h.shape hSize hSpace hRing.first_lt hRead
  · exact hServed.stays.trans hWrite
  · rw [List.length_append, List.length_singleton]
    refine hRing.pop.mono ?_
    intro i hi w hSlot j b hj hb
    have hInside : head + i * size + j < head + len * size := slot_inside head hi hj
    rw [hMem, Memory.memcpy_off _ (by omega)]
    exact hSlot j b hj hb
  · intro k d w hd hw
    rcases Nat.lt_or_ge k x.delivered.length with hk | hk
    · rw [List.getElem?_append_left hk] at hd
      exact h.delivers k d w hd hw
    · rw [List.getElem?_append_right hk] at hd
      have hIndex : k = x.delivered.length := by
        have hLt := (List.getElem?_eq_some_iff.mp hd).1
        simp only [List.length_singleton] at hLt
        omega
      subst hIndex
      rw [Nat.sub_self, List.getElem?_cons_zero, Option.some.injEq] at hd
      rw [List.getElem?_eq_getElem hOldest, Option.some.injEq] at hw
      intro j hjd hjw
      rw [← hd, Memory.length_bytes] at hjd
      have hSlot := hRing.head j w[j] (by omega) (by rw [hw]; exact List.getElem?_eq_getElem hjw)
      rw [← hd, Memory.getElem?_bytes, if_pos hjd, hMem, Memory.memcpy_at _ hjd, hSlot,
        List.getElem?_eq_getElem hjw]

end Calls

end QueueOk

section Run

variable {caller : Option TaskId} {q block len size : Nat} {x x' : QueueRun} {event : QueueEvent}

/-- A new queue is empty. -/
theorem queueOk_create {s s₀ : System} (hSpace : block + Queue.sizeofQueue + len * size < 2 ^ 32)
    (hCreate : s.dosQueueCreate q (some block) len size = some s₀) :
    QueueOk q (block + Queue.sizeofQueue) len size ⟨s₀, [], []⟩ := by
  simp only [System.dosQueueCreate, Queue.dosQueueCreate, Option.map_eq_some_iff,
    Option.ite_none_left_eq_some] at hCreate
  obtain ⟨r, ⟨hPositive, hr⟩, rfl⟩ := hCreate
  have hHead : (block + Queue.sizeofQueue) % 2 ^ 32 = block + Queue.sizeofQueue :=
    Nat.mod_eq_of_lt (by omega)
  have hBytes : len * size % 2 ^ 32 = len * size := Nat.mod_eq_of_lt (by omega)
  have hTail : (block + Queue.sizeofQueue + len * size) % 2 ^ 32 =
      block + Queue.sizeofQueue + len * size := Nat.mod_eq_of_lt hSpace
  rw [← Option.some.inj hr]
  simp only [hHead, hBytes, hTail]
  refine ⟨?_, ?_, Nat.le_refl _, ?_, ?_, ⟨0, 0, ?_, ?_, ?_⟩, ?_⟩
  · exact ⟨by simp [System.setQueue], by simp [System.setQueue], by simp [System.setQueue],
      by simp [System.setQueue]⟩
  · intro op
    show TaskLists.items _ (.pend (.queue q op)) = []
    cases op <;> simp [TaskLists.dosTaskListInit]
  · simp [System.setQueue]
  · simp [System.setQueue]
  · simp [System.setQueue]
  · simp [System.setQueue]
  · exact Ring.holds_nil (by omega)
  · intro k d w hd
    simp at hd

/-- Every step of a caller keeps the refinement relation. -/
theorem queueOk_step (hLen : len < 2 ^ 16) (hSize : 0 < size)
    (hSpace : block + Queue.sizeofQueue + len * size < 2 ^ 32)
    (h : QueueOk q (block + Queue.sizeofQueue) len size x) (hApart : event.Apart block len size)
    (hStep : queueRunStep caller q x event = some x') :
    QueueOk q (block + Queue.sizeofQueue) len size x' := by
  have hSizeIs := h.shape.sizeIs
  cases event with
  | store addr byte =>
      rw [← Option.some.inj hStep]
      refine h.store rfl (fun _ => rfl) ?_
      intro i j hi hj
      have hInside := QueueOk.slot_inside (block + Queue.sizeofQueue) hi hj
      have hOff : block + Queue.sizeofQueue + i * size + j ≠ addr := by
        simp only [QueueEvent.Apart] at hApart
        omega
      simp [hOff]
  | write buff n =>
      rw [← Option.some.inj hStep]
      by_cases hFails : buff = 0 ∨ n = 0 ∨ (x.sys.queue q).queueRwCount .write = 0
      · rw [System.handlerNow_fails hFails]
        exact h
      · simp only [not_or] at hFails
        rw [System.handlerNow_succeeds hFails.1 hFails.2.1 hFails.2.2 (h.empty _), hSizeIs]
        have hRoom : x.written.length - x.delivered.length < len := by
          have hLe := h.stored_le
          have hFull := h.count_zero.1.not.mp hFails.2.2
          omega
        exact h.write hSize hLen hSpace (System.served x.sys q .write buff (min n size)) hRoom
  | read buff m =>
      rw [← Option.some.inj hStep]
      by_cases hFails : buff = 0 ∨ m = 0 ∨ (x.sys.queue q).queueRwCount .read = 0
      · rw [System.handlerNow_fails hFails]
        exact h
      · simp only [not_or] at hFails
        rw [System.handlerNow_succeeds hFails.1 hFails.2.1 hFails.2.2 (h.empty _), hSizeIs]
        have hStored : 0 < x.written.length - x.delivered.length := by
          have hEmpty := h.count_zero.2.not.mp hFails.2.2
          omega
        have hRing : buff + min m size ≤ block + Queue.sizeofQueue ∨
            block + Queue.sizeofQueue + len * size ≤ buff := by
          simp only [QueueEvent.Apart] at hApart
          omega
        exact h.read hSize hLen hSpace (System.served x.sys q .read buff (min m size)) hStored hRing

end Run

/-- What a FIFO of at most `len` messages does. The number of stored messages is
that of the successful writes less that of the successful reads. -/
structure BehavesAsFifo (caller : Option TaskId) (q len : Nat) (x : QueueRun) : Prop where
  ordered : x.delivered.length ≤ x.written.length
  bounded : x.written.length - x.delivered.length ≤ len
  reads : (x.sys.queue q).queueRwCount .read = x.written.length - x.delivered.length
  total : (x.sys.queue q).queueRwCount .read + (x.sys.queue q).queueRwCount .write = len
  pointers : ∀ op, ∃ i < len, (x.sys.queue q).queueRwPtr op =
      (x.sys.queue q).queueHeadPtr + i * (x.sys.queue q).queueSize ∧
    (x.sys.queue q).queueRwPtr op < (x.sys.queue q).queueTailPtr
  delivers : ∀ (k : Nat) d, x.delivered[k]? = some d → ∃ w, x.written[k]? = some w ∧ Delivers d w
  writeFails : ∀ buff n, buff ≠ 0 → n ≠ 0 →
    ((x.sys.dosQueueHandlerNow caller q .write buff n).2.any Label.isOk = false ↔
      x.written.length - x.delivered.length = len)
  readFails : ∀ buff m, buff ≠ 0 → m ≠ 0 →
    ((x.sys.dosQueueHandlerNow caller q .read buff m).2.any Label.isOk = false ↔
      x.written.length - x.delivered.length = 0)
  failure : ∀ op buff n, (x.sys.dosQueueHandlerNow caller q op buff n).2.any Label.isOk = false →
    (x.sys.dosQueueHandlerNow caller q op buff n).1 = x.sys

namespace QueueOk

variable {q head len size : Nat} {x : QueueRun} (caller : Option TaskId)

/-- A call fails exactly when its counter is zero. -/
theorem fails_iff (h : QueueOk q head len size x) (op : QueueOp) {buff n : Nat} (hBuff : buff ≠ 0)
    (hn : n ≠ 0) : (x.sys.dosQueueHandlerNow caller q op buff n).2.any Label.isOk = false ↔
      (x.sys.queue q).queueRwCount op = 0 := by
  by_cases hCount : (x.sys.queue q).queueRwCount op = 0
  · rw [System.handlerNow_fails (Or.inr (Or.inr hCount))]
    simp [hCount, Label.isOk]
  · rw [System.handlerNow_succeeds hBuff hn hCount (h.empty _)]
    simp [hCount, Label.isOk]

theorem failure (h : QueueOk q head len size x) (op : QueueOp) (buff n : Nat)
    (hFails : (x.sys.dosQueueHandlerNow caller q op buff n).2.any Label.isOk = false) :
    (x.sys.dosQueueHandlerNow caller q op buff n).1 = x.sys := by
  by_cases hArgs : buff = 0 ∨ n = 0
  · rw [System.handlerNow_fails (hArgs.imp_right Or.inl)]
  · rw [not_or] at hArgs
    have hCount := (h.fails_iff caller op hArgs.1 hArgs.2).mp hFails
    rw [System.handlerNow_fails (Or.inr (Or.inr hCount))]

theorem pointers (h : QueueOk q head len size x) (hSize : 0 < size) (op : QueueOp) :
    ∃ i < len, (x.sys.queue q).queueRwPtr op =
        (x.sys.queue q).queueHeadPtr + i * (x.sys.queue q).queueSize ∧
      (x.sys.queue q).queueRwPtr op < (x.sys.queue q).queueTailPtr := by
  obtain ⟨first, last, hRead, hWrite, hRing⟩ := h.ring
  have hFirst := hRing.first_lt
  have hLast := hRing.last_lt
  rw [h.shape.headIs, h.shape.tailIs, h.shape.sizeIs]
  cases op with
  | read =>
      have hInside := slot_inside head hFirst hSize
      exact ⟨first, hFirst, hRead, by omega⟩
  | write =>
      have hInside := slot_inside head hLast hSize
      exact ⟨last, hLast, hWrite, by omega⟩

theorem behavesAsFifo (h : QueueOk q head len size x) (hSize : 0 < size) :
    BehavesAsFifo caller q len x where
  ordered := h.ordered
  bounded := h.stored_le
  reads := h.reads
  total := by
    have hLe := h.stored_le
    rw [h.reads, h.writes]
    omega
  pointers := h.pointers hSize
  delivers k d hd := by
    have hk : k < x.delivered.length := (List.getElem?_eq_some_iff.mp hd).1
    have hw := List.getElem?_eq_getElem (Nat.lt_of_lt_of_le hk h.ordered)
    exact ⟨_, hw, h.delivers k d _ hd hw⟩
  writeFails buff n hBuff hn := (h.fails_iff caller .write hBuff hn).trans h.count_zero.1
  readFails buff m hBuff hm := (h.fails_iff caller .read hBuff hm).trans h.count_zero.2
  failure := h.failure caller

end QueueOk

/-- A queue in a block of the 32-bit address space behaves as a FIFO of `len`
messages along every sequence of writes and reads with timeout 0 whose callers
keep their memory apart from the block. -/
theorem queue_refines_fifo (caller : Option TaskId) (s s₀ : System) (q block len size : Nat)
    (hLen : 0 < len ∧ len < 2 ^ 16) (hSize : 0 < size ∧ size < 2 ^ 16)
    (hSpace : block + Queue.sizeofQueue + len * size < 2 ^ 32)
    (hCreate : s.dosQueueCreate q (some block) len size = some s₀) (events : List QueueEvent)
    (x : QueueRun) (run : Transition.RunsIf (queueRunStep caller q)
      (fun _ event => event.Apart block len size) ⟨s₀, [], []⟩ events x) :
    BehavesAsFifo caller q len x := by
  have hOk : QueueOk q (block + Queue.sizeofQueue) len size x := by
    refine Transition.RunsIf.invariant run (QueueOk q (block + Queue.sizeofQueue) len size)
      (queueOk_create hSpace hCreate) ?_
    intro x event x' h hApart hStep
    exact queueOk_step hLen.2 hSize.1 hSpace h hApart hStep
  exact hOk.behavesAsFifo caller hSize.1

/-- Two messages through a queue of two: the first is longer than a slot, the
second is read in part. -/
theorem queue_refines_fifo_two : ∃ s₀ x,
    System.small.dosQueueCreate 0 (some 0x20000000) 2 4 = some s₀ ∧
    Transition.RunsIf (queueRunStep none 0) (fun _ event => event.Apart 0x20000000 2 4)
      ⟨s₀, [], []⟩ [.store 0x20001000 7, .store 0x20001004 9, .write 0x20001000 5,
        .store 0x20001000 8, .write 0x20001000 2, .read 0x20002000 9, .read 0x20002000 1] x ∧
    x.written = [[7, 0, 0, 0, 9], [8, 0]] ∧ x.delivered = [[7, 0, 0, 0], [8]] ∧
    BehavesAsFifo none 0 2 x := by
  have hCreate := (Option.some_get
    (by decide : (System.small.dosQueueCreate 0 (some 0x20000000) 2 4).isSome = true)).symm
  have hRun : Transition.RunsIf (queueRunStep none 0) (fun _ event => event.Apart 0x20000000 2 4)
      ⟨(System.small.dosQueueCreate 0 (some 0x20000000) 2 4).get (by decide), [], []⟩
      [.store 0x20001000 7, .store 0x20001004 9, .write 0x20001000 5,
        .store 0x20001000 8, .write 0x20001000 2, .read 0x20002000 9, .read 0x20002000 1] _ :=
    Transition.runsIf_of_isSome (by decide +kernel)
  exact ⟨_, _, hCreate, hRun, by decide +kernel, by decide +kernel,
    queue_refines_fifo none System.small _ 0 0x20000000 2 4 (by decide) (by decide) (by decide)
      hCreate _ _ hRun⟩

end DoraOS
