import DoraOS.Creation.Creators
import DoraOS.Kernel.Frame
import DoraOS.Memory.Balance

/-! A creator that returns `DOS_NULL` has given back what it allocated. The
exception is `dos_swtmr_create`, which checks its parameters behind the
allocation. What is given back must have been cut from its node, since
`dos_mem_free` takes the bytes behind an uncut block for a header. -/
namespace DoraOS

namespace Kernel

/-- The ready lists and the table of ready priorities are the same. -/
structure ReadyKept (k k' : Kernel) : Prop where
  lists : ∀ p, k'.lists.list (.priority p) = k.lists.list (.priority p)
  bitmap : k'.dosTaskPriority = k.dosTaskPriority

variable {k k' k'' : Kernel}

theorem ReadyKept.rfl : k.ReadyKept k := ⟨fun _ => Eq.refl _, Eq.refl _⟩

theorem ReadyKept.trans (hFirst : k.ReadyKept k') (hSecond : k'.ReadyKept k'') :
    k.ReadyKept k'' :=
  ⟨fun p => (hSecond.lists p).trans (hFirst.lists p), hSecond.bitmap.trans hFirst.bitmap⟩

/-- A pair of lock and unlock may ask for a context switch and nothing else. -/
theorem lock_unlock (k : Kernel) : k.dosSchedulerLock.dosSchedulerUnlock.lists = k.lists ∧
    k.dosSchedulerLock.dosSchedulerUnlock.dosTaskPriority = k.dosTaskPriority ∧
    k.dosSchedulerLock.dosSchedulerUnlock.config = k.config := by
  unfold dosSchedulerUnlock
  dsimp only
  split
  · split
    · have hSame := sameTasks_scheduler
        { k.dosSchedulerLock with schedulerLock := k.dosSchedulerLock.schedulerLock - 1 }
      exact ⟨hSame.lists, hSame.dosTaskPriority, congrArg Statics.config hSame.statics⟩
    · exact ⟨rfl, rfl, rfl⟩
  · exact ⟨rfl, rfl, rfl⟩

theorem readyKept_lock_unlock : k.ReadyKept k.dosSchedulerLock.dosSchedulerUnlock :=
  ⟨fun p => congrArg (fun ls => ls.list (.priority p)) (lock_unlock k).1, (lock_unlock k).2.1⟩

end Kernel

/-- The used blocks with their sizes, the result of `dos_get_mem_heap_info`,
the ready lists and the table of ready priorities are as before. -/
structure Machine.KeepsAll (m m' : Machine) (bs : List Block) : Prop where
  blocks : ∃ bs', m'.heap.Tiled bs' ∧
    (Block.areas m'.heap.firstNode bs').Perm (Block.areas m.heap.firstNode bs)
  info : m'.heap.memHeapSize = m.heap.memHeapSize
  ready : m.sys.k.ReadyKept m'.sys.k

/-- A timer is created with a callback, a timeout and one of the two modes. -/
def Creator.Valid : Creator → Prop
  | .swtmr timeout mode cb => cb = true ∧ timeout ≠ 0 ∧ (mode % 4 = 1 ∨ mode % 4 = 2)
  | _ => True

/-- A timer is refused when its memory has been allocated. -/
def Machine.RefusesLate (m : Machine) (c : Creator) : Prop :=
  ¬c.Valid ∧ ∃ r ∈ m.dosMemAlloc sizeofSwtmr, r.2 ≠ 0

namespace Machine

variable {m m' : Machine} {n p : Nat} {bs : List Block} {owned : List (Nat × Nat)}

section Allocate

/-- `m` behind an allocation that left the heap `h`. -/
def allocated (m : Machine) (h : Heap) : Machine :=
  { m with heap := h, sys := m.sys.setKernel m.sys.k.dosSchedulerLock.dosSchedulerUnlock }

theorem dosMemAlloc_eq (hPos : 0 < m.heap.alignMemHeapBegin) (n : Nat) :
    m.dosMemAlloc n = (m.heap.dosMemAlloc n).map fun r => (m.allocated r.1, r.2) := by
  rw [dosMemAlloc, if_neg (by omega)]
  rfl

/-- An allocation returns, and changes nothing when it returns null. -/
theorem dosMemAlloc_cases (hTiled : m.heap.Tiled bs) (n : Nat) :
    m.dosMemAlloc n = some (m.allocated m.heap, 0) ∨
      ∃ h p, p ≠ 0 ∧ m.dosMemAlloc n = some (m.allocated h, p) := by
  obtain ⟨best, hBest, -⟩ := hTiled.bestNode (dosAlign n)
  rw [dosMemAlloc_eq hTiled.framed.begin_pos, hTiled.dosMemAlloc_eq hBest, Option.map_some]
  split
  · exact Or.inl rfl
  · refine Or.inr ⟨_, _, ?_, rfl⟩
    rw [Heap.userMem, memNodeSize]
    omega

/-- An allocation that cuts its node, in the terms of its callers. -/
theorem dosMemAlloc_owns (hOwns : m.heap.Owns bs owned) (hCuts : m.heap.Cuts n) :
    m.dosMemAlloc n = some (m.allocated m.heap, 0) ∨
      ∃ h bs' p, m.dosMemAlloc n = some (m.allocated h, p) ∧
        Heap.Granted m.heap h bs' owned n p := by
  rcases hOwns.alloc hCuts with hNull | ⟨h, bs', p, hAlloc, hGranted⟩
  · left
    rw [dosMemAlloc_eq hOwns.tiled.framed.begin_pos, hNull]
    rfl
  · refine Or.inr ⟨h, bs', p, ?_, hGranted⟩
    rw [dosMemAlloc_eq hOwns.tiled.framed.begin_pos, hAlloc]
    rfl

end Allocate

/-- The call returns, and when it returns null nothing has changed. -/
def Cleans (m : Machine) (bs : List Block) (r : Option (Machine × Nat)) : Prop :=
  ∃ m' p, r = some (m', p) ∧ (p = 0 → m.KeepsAll m' bs)

theorem keepsAll_refl (hTiled : m.heap.Tiled bs) : m.KeepsAll m bs :=
  ⟨⟨bs, hTiled, List.Perm.rfl⟩, rfl, .rfl⟩

theorem keepsAll_allocated (hTiled : m.heap.Tiled bs) : m.KeepsAll (m.allocated m.heap) bs :=
  ⟨⟨bs, hTiled, List.Perm.rfl⟩, rfl, Kernel.readyKept_lock_unlock⟩

theorem cleans_checked (hTiled : m.heap.Tiled bs) : m.Cleans bs (some (m, 0)) :=
  ⟨m, 0, rfl, fun _ => keepsAll_refl hTiled⟩

/-- A creator with one allocation that completes the object behind it. -/
theorem cleans_single {f : Machine × Nat → Option (Machine × Nat)} (hTiled : m.heap.Tiled bs)
    (hNull : ∀ m₁, f (m₁, 0) = some (m₁, 0))
    (hMade : ∀ m₁ p, p ≠ 0 → ∃ m₂, f (m₁, p) = some (m₂, p)) :
    m.Cleans bs ((m.dosMemAlloc n).bind f) := by
  rcases dosMemAlloc_cases hTiled n with hAlloc | ⟨h, p, hp, hAlloc⟩
  · rw [hAlloc, Option.bind_some, hNull]
    exact ⟨_, _, rfl, fun _ => keepsAll_allocated hTiled⟩
  · obtain ⟨m₂, hf⟩ := hMade (m.allocated h) p hp
    rw [hAlloc, Option.bind_some, hf]
    exact ⟨m₂, p, rfl, fun hZero => absurd hZero hp⟩

theorem cleans_sem (hTiled : m.heap.Tiled bs) (cnt maxCnt : Nat) :
    m.Cleans bs (m.dosSemCreate cnt maxCnt) := by
  refine cleans_single hTiled (fun _ => rfl) ?_
  intro m₁ p hp
  simp [hp]

def mutexMade (m : Machine) (h : Heap) (mutex : Nat) : Machine :=
  { m.allocated h with
    heap := h.memset mutex sizeofMutex
    sys := ((m.allocated h).sys.setMutex mutex {}).initPend (.mutex mutex) }

theorem dosMutexCreate_of_alloc {h : Heap} {mutex : Nat} (hMutex : mutex ≠ 0)
    (hAlloc : m.dosMemAlloc sizeofMutex = some (m.allocated h, mutex)) :
    m.dosMutexCreate = some (m.mutexMade h mutex, mutex) := by
  simp only [dosMutexCreate, hAlloc, Option.bind_eq_bind, Option.bind_some, if_neg hMutex]
  rfl

theorem dosMutexCreate_of_null (hNull : m.dosMemAlloc sizeofMutex = some (m.allocated m.heap, 0)) :
    m.dosMutexCreate = some (m.allocated m.heap, 0) := by
  simp [dosMutexCreate, hNull]

/-- The list of a new mutex is a pend list. -/
theorem readyKept_mutexMade (m : Machine) (h : Heap) (mutex : Nat) :
    m.sys.k.ReadyKept (m.mutexMade h mutex).sys.k :=
  Kernel.readyKept_lock_unlock.trans ⟨fun _ => rfl, rfl⟩

theorem cleans_mutex (hTiled : m.heap.Tiled bs) : m.Cleans bs m.dosMutexCreate := by
  refine cleans_single hTiled (fun _ => rfl) ?_
  intro m₁ p hp
  simp [hp]

theorem cleans_event (hTiled : m.heap.Tiled bs) : m.Cleans bs m.dosEventCreate := by
  refine cleans_single hTiled (fun _ => rfl) ?_
  intro m₁ p hp
  simp [hp]

theorem cleans_queue (hTiled : m.heap.Tiled bs) (len size : Nat) :
    m.Cleans bs (m.dosQueueCreate len size) := by
  unfold dosQueueCreate
  split
  · exact cleans_checked hTiled
  next hSizes =>
    refine cleans_single hTiled (fun _ => rfl) ?_
    intro m₁ p hp
    simp [hp, Queue.dosQueueCreate, hSizes]

theorem cleans_memp (hTiled : m.heap.Tiled bs) (base : Option Nat) (mempSize blkSize : Nat) :
    m.Cleans bs (m.dosMempCreate base mempSize blkSize) := by
  unfold dosMempCreate
  split
  · exact cleans_checked hTiled
  · refine cleans_single hTiled (fun _ => rfl) ?_
    intro m₁ p hp
    simp [hp]

theorem cleans_swtmr (hTiled : m.heap.Tiled bs) {timeout mode : Nat} {cb : Bool}
    (hValid : (Creator.swtmr timeout mode cb).Valid) :
    m.Cleans bs (m.dosSwtmrCreate timeout mode cb) := by
  obtain ⟨hCb, hTimeout, hMode⟩ := hValid
  refine cleans_single hTiled (fun _ => rfl) ?_
  intro m₁ p hp
  have hModes : ¬(mode % 4 = 0 ∨ mode % 4 = 3) := by omega
  simp [hp, hCb, hTimeout, hModes]

/-- A timer that is refused keeps the memory that there was for it. -/
theorem swtmr_refused (hTiled : m.heap.Tiled bs) {timeout mode : Nat} {cb : Bool}
    (hValid : ¬(Creator.swtmr timeout mode cb).Valid) :
    ∃ m', m.dosSwtmrCreate timeout mode cb = some (m', 0) ∧
      (m.KeepsAll m' bs ↔ ¬m.RefusesLate (.swtmr timeout mode cb)) := by
  rcases dosMemAlloc_cases hTiled sizeofSwtmr with hNull | ⟨h, p, hp, hAlloc⟩
  · refine ⟨m.allocated m.heap, by simp [dosSwtmrCreate, hNull],
      iff_of_true (keepsAll_allocated hTiled) ?_⟩
    rintro ⟨-, r, hr, hSome⟩
    rw [hNull] at hr
    obtain rfl := Option.mem_some_iff.mp hr
    exact hSome rfl
  · refine ⟨m.allocated h, ?_, iff_of_false ?_ (not_not_intro ⟨hValid, _, hAlloc, hp⟩)⟩
    · have hBad : (cb = false ∨ timeout = 0) ∨ mode % 4 = 0 ∨ mode % 4 = 3 := by
        by_contra hGood
        rw [not_or, not_or, Bool.not_eq_false] at hGood
        exact hValid ⟨hGood.1.1, hGood.1.2, by omega⟩
      simp only [dosSwtmrCreate, hAlloc, Option.bind_eq_bind, Option.bind_some, if_neg hp]
      rcases hBad with hArgs | hMode
      · rw [if_pos hArgs]
      · rw [if_pos hMode, ite_self]
    · intro hKeeps
      rw [dosMemAlloc_eq hTiled.framed.begin_pos, Option.map_eq_some_iff] at hAlloc
      obtain ⟨⟨g, q⟩, hAlloc, hEq⟩ := hAlloc
      obtain ⟨hHeap, rfl⟩ := Prod.mk.inj hEq
      have hInfo : g.memHeapSize = m.heap.memHeapSize := by
        rw [← hKeeps.info, ← hHeap]
        rfl
      have hLess := (hTiled.alloc_balance hAlloc hp).2
      rw [hInfo, show dosAlign sizeofSwtmr = 28 from rfl] at hLess
      omega

/-- The count of free bytes behind an allocation of `k` bytes and a free. -/
theorem size_restored {size k : Nat} (hWord : size < 2 ^ 32) (hSmall : k < 2 ^ 30) :
    ((size + (2 ^ 32 - k)) % 2 ^ 32 + k) % 2 ^ 32 = size := by
  omega

theorem cleans_task (hTiled : m.heap.Tiled bs) (hWord : m.heap.memHeapSize < 2 ^ 32)
    {stackSize prio tick : Nat} (hCuts : m.CutsFirst (.task stackSize prio tick)) :
    m.Cleans bs (m.dosTaskCreate stackSize prio tick) := by
  unfold dosTaskCreate
  split
  · exact cleans_checked hTiled
  next hPrio =>
    rcases dosMemAlloc_owns ⟨hTiled, List.Perm.rfl⟩ (hCuts (Nat.not_lt.mp hPrio)) with
      hNull | ⟨h₁, bs₁, task, hAlloc, hGranted⟩
    · rw [hNull]
      exact ⟨_, _, rfl, fun _ => keepsAll_allocated hTiled⟩
    · have hOwns : (m.allocated h₁).heap.Owns bs₁ _ := hGranted.owns
      simp only [hAlloc, Option.bind_eq_bind, Option.bind_some, if_neg hGranted.nonnull]
      rcases dosMemAlloc_cases hOwns.tiled stackSize with hNull | ⟨h₂, stack, hStack, hSecond⟩
      · -- no memory for the stack: the control block is freed
        obtain ⟨h₃, bs₃, hFree, hReleased⟩ := hOwns.free
        have hFreed : ((m.allocated h₁).allocated (m.allocated h₁).heap).dosMemFree task =
            some ((m.allocated h₁).allocated h₃) := by
          rw [dosMemFree]
          exact congrArg (Option.map _) hFree
        simp only [hNull, Option.bind_some, if_true, hFreed]
        refine ⟨_, _, rfl, fun _ => ⟨⟨bs₃, hReleased.owns.tiled, hReleased.owns.areas.symm⟩, ?_, ?_⟩⟩
        · show h₃.memHeapSize = m.heap.memHeapSize
          rw [hReleased.size]
          show (h₁.memHeapSize + _) % _ = _
          rw [hGranted.size, size_restored hWord hGranted.small]
        · exact Kernel.readyKept_lock_unlock.trans Kernel.readyKept_lock_unlock
      · have hConfig : ((m.allocated h₁).allocated h₂).sys.k.config = m.sys.k.config :=
          (Kernel.lock_unlock _).2.2.trans (Kernel.lock_unlock _).2.2
        have hAccepts : ¬prio > ((m.allocated h₁).allocated h₂).sys.k.config.dosMaxPriorityNum := by
          rwa [hConfig]
        simp only [hSecond, Option.bind_some, if_neg hStack, Kernel.dosTaskCreate, Kernel.mapTcb,
          store, if_neg hAccepts]
        exact ⟨_, task, rfl, fun hZero => absurd hZero hGranted.nonnull⟩

/-- The block of a fifo has room for its structure. -/
theorem fifo_fits {size : BitVec 32} (hSize : size ≠ 0) :
    sizeofFifo ≤ dosAlign (sizeofFifo + (dosFifoSize size).toNat) := by
  obtain ⟨⟨k, hk, hPow⟩, -⟩ := fifoSize_pow hSize
  have hLe : 2 ^ k ≤ 2 ^ 31 := Nat.pow_le_pow_right (by decide) (by omega)
  rw [hPow, sizeofFifo, dosAlign]
  omega

section Fifo

variable {fifo mutex k : Nat} {size : BitVec 32}

/-- The fields of a fifo are inside its block. -/
theorem fifo_field (hRoom : sizeofFifo ≤ k) (h : Heap) (offset : Nat)
    (hOffset : offset < sizeofFifo) (word : Nat) : h.Edits (h.write (fifo + offset) word) fifo k :=
  Heap.edits_write (Nat.le_add_right _ _) (by omega)

/-- The clean-up when the second mutex is missing. The freed block still holds
the pointer to the first one. -/
theorem fifo_undone
    (hOwns : m.heap.Owns bs ((fifo, k) :: (mutex, dosAlign sizeofMutex) :: owned))
    (hRoom : sizeofFifo ≤ k) (hPtr : m.heap.mem (fifo + 12) = mutex) (hMutex : mutex ≠ 0)
    (hEmpty : m.sys.k.lists.dosTaskListIsEmpty (.pend (.mutex mutex)) = true) :
    ∃ freed m' bs', m.dosMemFree fifo = some freed ∧
      freed.dosMutexDelete (freed.heap.mem (fifo + 12)) = some m' ∧
      m'.heap.Owns bs' owned ∧ m.sys.k.ReadyKept m'.sys.k ∧
      m'.heap.memHeapSize =
        ((m.heap.memHeapSize + k) % 2 ^ 32 + dosAlign sizeofMutex) % 2 ^ 32 := by
  obtain ⟨h₁, bs₁, hFree, hReleased⟩ := hOwns.free
  have hSame : h₁.mem (fifo + 12) = mutex := by
    refine (hReleased.mem _ ⟨(fifo, k), List.mem_cons_self, Nat.le_add_right _ _, ?_⟩).trans hPtr
    show fifo + 12 < fifo + k
    rw [sizeofFifo] at hRoom
    omega
  have hClears : h₁.Edits (h₁.memset mutex sizeofMutex) mutex (dosAlign sizeofMutex) :=
    Heap.edits_memset (by decide)
  obtain ⟨hCleared, hSize⟩ := hReleased.owns.edit List.mem_cons_self hClears
  obtain ⟨h₂, bs₂, hFree', hReleased'⟩ := hCleared.free
  refine ⟨{ m with heap := h₁ },
    { m with heap := h₂, sys := m.sys.setMutex mutex {} }, bs₂, ?_, ?_, hReleased'.owns, .rfl, ?_⟩
  · rw [dosMemFree, hFree]
    rfl
  · have hDelete : dosMutexDelete { m with heap := h₁ } mutex =
        some { m with heap := h₂, sys := m.sys.setMutex mutex {} } := by
      rw [dosMutexDelete, if_neg hMutex, if_pos hEmpty, dosMemFree, hFree']
      rfl
    exact (congrArg (dosMutexDelete { m with heap := h₁ }) hSame).trans hDelete
  · show h₂.memHeapSize = _
    rw [hReleased'.size, hSize, hReleased.size]

theorem fifoWriteMutex_cleans
    (hOwns : m.heap.Owns bs ((mutex, dosAlign sizeofMutex) :: (fifo, k) :: owned))
    (hRoom : sizeofFifo ≤ k) (hPtr : m.heap.mem (fifo + 12) = mutex) (hFifo : fifo ≠ 0)
    (hMutex : mutex ≠ 0) (hSize : size ≠ 0)
    (hEmpty : m.sys.k.lists.dosTaskListIsEmpty (.pend (.mutex mutex)) = true) :
    ∃ m' p, m.fifoWriteMutex fifo size = some (m', p) ∧ (p = 0 → ∃ bs', m'.heap.Owns bs' owned ∧
      m.sys.k.ReadyKept m'.sys.k ∧ m'.heap.memHeapSize =
        ((m.heap.memHeapSize + k) % 2 ^ 32 + dosAlign sizeofMutex) % 2 ^ 32) := by
  rcases dosMemAlloc_cases hOwns.tiled sizeofMutex with hNull | ⟨h₁, write, hWrite, hAlloc⟩
  · have hMem : (fifo, k) ∈ (mutex, dosAlign sizeofMutex) :: (fifo, k) :: owned :=
      List.mem_cons_of_mem _ List.mem_cons_self
    obtain ⟨hStored, hStoredSize⟩ := hOwns.edit hMem (fifo_field hRoom m.heap 16 (by decide) 0)
    have hStore : ((m.allocated m.heap).store fifo 16 0).heap.Owns bs _ :=
      hStored.perm (List.Perm.swap _ _ _)
    have hLists : ((m.allocated m.heap).store fifo 16 0).sys.k.lists = m.sys.k.lists :=
      (Kernel.lock_unlock m.sys.k).1
    obtain ⟨freed, m', bs', hFreed, hDeleted, hOwns', hReady, hBytes⟩ :=
      fifo_undone hStore hRoom ((Heap.mem_write_of_ne (by omega)).trans hPtr) hMutex
        (by rw [hLists, hEmpty])
    simp only [fifoWriteMutex, dosMutexCreate_of_null hNull, Option.bind_eq_bind, Option.bind_some,
      if_true, hFreed, hDeleted]
    refine ⟨m', 0, rfl, fun _ => ⟨bs', hOwns', Kernel.readyKept_lock_unlock.trans hReady, ?_⟩⟩
    rw [hBytes, ← hStoredSize]
    rfl
  · simp only [fifoWriteMutex, dosMutexCreate_of_alloc hWrite hAlloc, Option.bind_eq_bind,
      Option.bind_some, if_neg hWrite, initFifo, DoraOS.dosFifoCreate, if_neg hSize,
      Option.map_some]
    exact ⟨_, _, rfl, fun hZero => absurd hZero hFifo⟩

theorem fifoReadMutex_cleans (hOwns : m.heap.Owns bs ((fifo, k) :: owned))
    (hCuts : m.heap.Cuts sizeofMutex) (hRoom : sizeofFifo ≤ k) (hFifo : fifo ≠ 0) (hSize : size ≠ 0) :
    ∃ m' p, m.fifoReadMutex fifo size = some (m', p) ∧ (p = 0 → ∃ bs', m'.heap.Owns bs' owned ∧
      m.sys.k.ReadyKept m'.sys.k ∧
      m'.heap.memHeapSize = (m.heap.memHeapSize + k) % 2 ^ 32) := by
  rcases dosMemAlloc_owns hOwns hCuts with hNull | ⟨h₁, bs₁, read, hAlloc, hGranted⟩
  · obtain ⟨hStored, hStoredSize⟩ :=
      hOwns.edit List.mem_cons_self (fifo_field hRoom m.heap 12 (by decide) 0)
    obtain ⟨h₁, bs₁, hFree, hReleased⟩ := hStored.free
    have hFreed : ((m.allocated m.heap).store fifo 12 0).heap.dosMemFree fifo = some (h₁, true) :=
      hFree
    simp only [fifoReadMutex, dosMutexCreate_of_null hNull, Option.bind_eq_bind, Option.bind_some,
      if_true, dosMemFree, hFreed, Option.map_some]
    refine ⟨_, _, rfl, fun _ => ⟨bs₁, hReleased.owns, Kernel.readyKept_lock_unlock, ?_⟩⟩
    show h₁.memHeapSize = _
    rw [hReleased.size, hStoredSize]
  · have hClears : h₁.Edits (h₁.memset read sizeofMutex) read (dosAlign sizeofMutex) :=
      Heap.edits_memset (by decide)
    obtain ⟨hCleared, hClearedSize⟩ := hGranted.owns.edit List.mem_cons_self hClears
    obtain ⟨hStored, hStoredSize⟩ := hCleared.edit (List.mem_cons_of_mem _ List.mem_cons_self)
      (fifo_field hRoom _ 12 (by decide) read)
    have hEmpty : ((m.mutexMade h₁ read).store fifo 12 read).sys.k.lists.dosTaskListIsEmpty
        (.pend (.mutex read)) = true := by
      simp [TaskLists.dosTaskListIsEmpty, store, mutexMade, System.initPend, System.setKernel,
        TaskLists.dosTaskListInit]
    have hStore : ((m.mutexMade h₁ read).store fifo 12 read).heap.Owns bs₁ _ := hStored
    obtain ⟨m', p, hRest, hClean⟩ := fifoWriteMutex_cleans hStore hRoom Heap.mem_write_self hFifo
      hGranted.nonnull hSize hEmpty
    simp only [fifoReadMutex, dosMutexCreate_of_alloc hGranted.nonnull hAlloc, Option.bind_eq_bind,
      Option.bind_some, if_neg hGranted.nonnull, hRest]
    refine ⟨m', p, rfl, fun hZero => ?_⟩
    obtain ⟨bs', hOwns', hReady, hBytes⟩ := hClean hZero
    refine ⟨bs', hOwns', (readyKept_mutexMade m h₁ read).trans hReady, ?_⟩
    have hLess : ((m.mutexMade h₁ read).store fifo 12 read).heap.memHeapSize =
        (m.heap.memHeapSize + (2 ^ 32 - dosAlign sizeofMutex)) % 2 ^ 32 :=
      hStoredSize.trans (hClearedSize.trans hGranted.size)
    have hSmall := hGranted.small
    rw [hBytes, hLess]
    omega

theorem cleans_fifo (hTiled : m.heap.Tiled bs) (hWord : m.heap.memHeapSize < 2 ^ 32)
    (hCuts : m.CutsFirst (.fifo size)) : m.Cleans bs (m.dosFifoCreate size) := by
  unfold dosFifoCreate
  split
  · exact cleans_checked hTiled
  next hSize =>
    obtain ⟨hFirst, hSecond⟩ := hCuts hSize
    have hRoom := fifo_fits hSize
    rcases dosMemAlloc_owns ⟨hTiled, List.Perm.rfl⟩ hFirst with
      hNull | ⟨h₁, bs₁, fifo, hAlloc, hGranted⟩
    · rw [hNull]
      exact ⟨_, _, rfl, fun _ => keepsAll_allocated hTiled⟩
    · obtain ⟨hBlock, hBlockSize⟩ := hGranted.owns.edit List.mem_cons_self
        (fifo_field hRoom h₁ 20 (by decide) (fifo + sizeofFifo))
      have hOwns : ((m.allocated h₁).fifoBlock fifo).heap.Owns bs₁ _ := hBlock
      obtain ⟨m', p, hRest, hClean⟩ := fifoReadMutex_cleans hOwns
        (hSecond _ hAlloc hGranted.nonnull) hRoom hGranted.nonnull hSize
      simp only [hAlloc, Option.bind_eq_bind, Option.bind_some, if_neg hGranted.nonnull, hRest]
      refine ⟨m', p, rfl, fun hZero => ?_⟩
      obtain ⟨bs', hOwns', hReady, hBytes⟩ := hClean hZero
      refine ⟨⟨bs', hOwns'.tiled, hOwns'.areas.symm⟩, ?_,
        Kernel.readyKept_lock_unlock.trans hReady⟩
      have hLess : ((m.allocated h₁).fifoBlock fifo).heap.memHeapSize = _ :=
        hBlockSize.trans hGranted.size
      rw [hBytes, hLess, size_restored hWord hGranted.small]

end Fifo

/-- A creator whose earlier allocations cut their nodes. -/
theorem creation_cleans_iff (hTiled : m.heap.Tiled bs) (hWord : m.heap.memHeapSize < 2 ^ 32)
    {c : Creator} (hCuts : m.CutsFirst c) :
    ∃ m' p, m.create c = some (m', p) ∧ (p = 0 → (m.KeepsAll m' bs ↔ ¬m.RefusesLate c)) := by
  have hChecked (hValid : c.Valid) (hCleans : m.Cleans bs (m.create c)) :
      ∃ m' p, m.create c = some (m', p) ∧ (p = 0 → (m.KeepsAll m' bs ↔ ¬m.RefusesLate c)) := by
    obtain ⟨m', p, hCreate, hKeeps⟩ := hCleans
    exact ⟨m', p, hCreate, fun hNull => iff_of_true (hKeeps hNull) fun hLate => hLate.1 hValid⟩
  cases c with
  | task stackSize prio tick => exact hChecked trivial (cleans_task hTiled hWord hCuts)
  | sem cnt maxCnt => exact hChecked trivial (cleans_sem hTiled cnt maxCnt)
  | mutex => exact hChecked trivial (cleans_mutex hTiled)
  | event => exact hChecked trivial (cleans_event hTiled)
  | queue len size => exact hChecked trivial (cleans_queue hTiled len size)
  | memp base mempSize blkSize =>
      exact hChecked trivial (cleans_memp hTiled base mempSize blkSize)
  | swtmr timeout mode cb =>
      by_cases hValid : (Creator.swtmr timeout mode cb).Valid
      · exact hChecked hValid (cleans_swtmr hTiled hValid)
      · obtain ⟨m', hCreate, hIff⟩ := swtmr_refused hTiled hValid
        exact ⟨m', 0, hCreate, fun _ => hIff⟩
  | fifo size => exact hChecked trivial (cleans_fifo hTiled hWord hCuts)

end Machine

/-- A creator returns, and a call that returns null has left the used blocks of
the heap, the count of free bytes, the ready lists and their bitmap as they
were, unless it has refused a timer for which there was memory. If the call
fails, the blocks that it gives back were cut from their nodes. -/
theorem failed_creation_keeps_all (m : Machine) (bs : List Block) (c : Creator)
    (hTiled : m.heap.Tiled bs) (hWord : m.heap.memHeapSize < 2 ^ 32)
    (hCuts : (∀ r ∈ m.create c, r.2 = 0) → m.CutsFirst c) :
    ∃ m' p, m.create c = some (m', p) ∧ (p = 0 → (m.KeepsAll m' bs ↔ ¬m.RefusesLate c)) := by
  by_cases hFails : ∀ r ∈ m.create c, r.2 = 0
  · exact Machine.creation_cleans_iff hTiled hWord (hCuts hFails)
  · simp only [not_forall] at hFails
    obtain ⟨⟨m', p⟩, hCreate, hp⟩ := hFails
    exact ⟨m', p, hCreate, fun hNull => absurd hNull hp⟩

/-- A heap with room for a fifo of eight bytes and for one of its mutexes. -/
theorem failed_creation_keeps_all_fifo : ∃ bs m',
    (Machine.boot 116).create (.fifo 8) = some (m', 0) ∧ (Machine.boot 116).KeepsAll m' bs := by
  obtain ⟨b, -, hTiled⟩ : ∃ b : Block, b.used = false ∧ (Machine.boot 116).heap.Tiled [b] :=
    Heap.dosMemHeapInit_tiled (by decide +kernel) (by decide +kernel) (by decide)
  obtain ⟨m', p, hCreate, hKeeps⟩ := failed_creation_keeps_all (Machine.boot 116) [b] (.fifo 8)
    hTiled (by decide +kernel) fun _ => by decide +kernel
  have hNull : ((Machine.boot 116).create (.fifo 8)).map Prod.snd = some 0 := by decide +kernel
  rw [hCreate] at hNull
  obtain rfl : p = 0 := Option.some.inj hNull
  exact ⟨[b], m', hCreate, (hKeeps rfl).mpr fun hLate => hLate.1 trivial⟩

/-- A timer with a timeout of zero is refused, and its block stays allocated. -/
theorem refused_timer_keeps_block : ∃ bs m', (Machine.boot 128).heap.Tiled bs ∧
    (Machine.boot 128).create (.swtmr 0 1 true) = some (m', 0) ∧
    (Machine.boot 128).heap.memHeapSize = 104 ∧ m'.heap.memHeapSize = 76 ∧
    (Machine.boot 128).heap.used 0x20000010 = 0 ∧ m'.heap.used 0x20000010 = 1 ∧
    ¬(Machine.boot 128).KeepsAll m' bs := by
  obtain ⟨b, -, hTiled⟩ : ∃ b : Block, b.used = false ∧ (Machine.boot 128).heap.Tiled [b] :=
    Heap.dosMemHeapInit_tiled (by decide +kernel) (by decide +kernel) (by decide)
  have hBefore : (Machine.boot 128).heap.memHeapSize = 104 := by decide +kernel
  have hResult : ((Machine.boot 128).create (.swtmr 0 1 true)).map (fun r =>
      (r.2, r.1.heap.memHeapSize, r.1.heap.used 0x20000010)) = some (0, 76, 1) := by decide +kernel
  obtain ⟨⟨m', p⟩, hCreate, hEq⟩ := Option.map_eq_some_iff.mp hResult
  simp only [Prod.mk.injEq] at hEq
  obtain ⟨rfl, hAfter, hUsed⟩ := hEq
  refine ⟨[b], m', hTiled, hCreate, hBefore, hAfter, by decide +kernel, hUsed, ?_⟩
  intro hKeeps
  have hInfo := hKeeps.info
  rw [hBefore, hAfter] at hInfo
  exact absurd hInfo (by decide)

/-- A block of 100 bytes that held a stale size is free in front of a used block.
`dos_task_create` takes it without cutting it and gives it back when there is
no memory for the stack. The used block behind it is then part of a free node. -/
theorem uncut_block_swallows_used : ∃ (x : HeapRun) (bs : List Block) (m' : Machine),
    Transition.RunsIf heapStep CutsNode ⟨(Machine.boot 300).heap, []⟩
      [.alloc 100, .alloc 16, .store 0x20000018 96 24, .free 0x20000018] x ∧
    x.heap.Tiled bs ∧ x.live = [0x20000084] ∧ x.heap.usedBytes = some 16 ∧
    Machine.create { Machine.boot 300 with heap := x.heap } (.task 1000 3 5) = some (m', 0) ∧
    m'.heap.usedBytes = some 0 := by
  obtain ⟨x, hRun, hLive, hUsed, hResult⟩ : ∃ x, Transition.RunsIf heapStep CutsNode
      ⟨(Machine.boot 300).heap, []⟩
      [.alloc 100, .alloc 16, .store 0x20000018 96 24, .free 0x20000018] x ∧
      x.live = [0x20000084] ∧ x.heap.usedBytes = some 16 ∧
      (Machine.create { Machine.boot 300 with heap := x.heap } (.task 1000 3 5)).map
        (fun r => (r.2, r.1.heap.usedBytes)) = some (0, some 0) :=
    ⟨_, Transition.runsIf_of_isSome (by decide +kernel), by decide +kernel, by decide +kernel,
      by decide +kernel⟩
  obtain ⟨b, hFree, hTiled⟩ : ∃ b : Block, b.used = false ∧ (Machine.boot 300).heap.Tiled [b] :=
    Heap.dosMemHeapInit_tiled (by decide +kernel) (by decide +kernel) (by decide)
  have hStart : HeapOk (Machine.boot 300).heap ⟨(Machine.boot 300).heap, []⟩ [b] :=
    ⟨hTiled, .rfl, by simp [Block.live, hFree]⟩
  obtain ⟨bs, hOk⟩ := hRun.invariant (fun y => ∃ bs, HeapOk _ y bs) ⟨[b], hStart⟩
    fun y event y' hInv hCuts hStep => hInv.elim fun bs hOk => hOk.step hCuts hStep
  obtain ⟨⟨m', p⟩, hCreate, hEq⟩ := Option.map_eq_some_iff.mp hResult
  obtain ⟨rfl, hNone⟩ := Prod.mk.inj hEq
  exact ⟨x, bs, m', hRun, hOk.tiled, hLive, hUsed, hCreate, hNone⟩

end DoraOS
