import DoraOS.Creation.Creators
import DoraOS.Ipc.EventWaiters
import DoraOS.Memory.HeapRun

/-! The nesting of the scheduler lock. `_dos_scheduler_lock` is an 8-bit counter
that callers and the kernel itself step up and down; it is compared with the
depth counted in the integers. -/
namespace DoraOS

/-- The calls that take the scheduler lock, and `dos_mem_free`. -/
inductive LockEvent where
  | lock
  | unlock
  | memAlloc (size : Nat)
  | memFree (mem : Nat)
  | eventSet (e : Nat) (setEvent : BitVec 32)
  deriving DecidableEq

structure LockRun where
  machine : Machine
  depth : Int

def Machine.lockCount (m : Machine) : Nat := m.sys.k.schedulerLock

/-- One call. The depth counts the calls of `dos_scheduler_lock` and
`dos_scheduler_unlock` only, and an unlock at depth zero does not count. -/
def lockStep (x : LockRun) : LockEvent → Option LockRun
  | .lock =>
      some ⟨{ x.machine with sys := x.machine.sys.setKernel x.machine.sys.k.dosSchedulerLock },
        x.depth + 1⟩
  | .unlock =>
      some ⟨{ x.machine with sys := x.machine.sys.setKernel x.machine.sys.k.dosSchedulerUnlock },
        if 0 < x.depth then x.depth - 1 else x.depth⟩
  | .memAlloc size => (x.machine.dosMemAlloc size).map fun r => ⟨r.1, x.depth⟩
  | .memFree mem => (x.machine.dosMemFree mem).map fun m => ⟨m, x.depth⟩
  | .eventSet e setEvent =>
      (x.machine.sys.dosEventSetNow e setEvent).map fun r =>
        ⟨{ x.machine with sys := r.1 }, x.depth⟩

/-- The lock is not nested 255 times when a call takes it once more, and there
is a heap to allocate from. -/
def Nests (x : LockRun) : LockEvent → Prop
  | .lock => x.depth < 255
  | .memAlloc _ => x.depth < 255 ∧ x.machine.heap.alignMemHeapBegin ≠ 0
  | .eventSet _ _ => x.depth < 255
  | _ => True

instance (x : LockRun) (event : LockEvent) : Decidable (Nests x event) := by
  unfold Nests
  split <;> infer_instance

namespace Kernel

variable {k : Kernel}

theorem schedulerLock_scheduler (k : Kernel) : k.dosScheduler.schedulerLock = k.schedulerLock :=
  congrArg Statics.schedulerLock (sameTasks_scheduler k).statics

theorem schedulerLock_lock (hDepth : k.schedulerLock < 255) :
    k.dosSchedulerLock.schedulerLock = k.schedulerLock + 1 :=
  Nat.mod_eq_of_lt (by omega)

theorem schedulerLock_unlock (k : Kernel) :
    k.dosSchedulerUnlock.schedulerLock = k.schedulerLock - 1 := by
  unfold dosSchedulerUnlock
  dsimp only
  split
  · split
    · rw [schedulerLock_scheduler]
    · rfl
  · omega

end Kernel

namespace System

variable {s : System}

theorem schedulerLock_eventVisit (e : Nat) (t : TaskId) :
    (s.dosEventVisit e t).k.schedulerLock = s.k.schedulerLock := by
  unfold dosEventVisit
  dsimp only
  split
  · let k := s.k.mapTcb t fun tcb => { tcb with eventGet := tcb.waitEvent }
    have hWake : (k.dosTaskWake t).schedulerLock = k.schedulerLock :=
      congrArg Kernel.Statics.schedulerLock (Kernel.onlyTask_wake k t).statics
    exact (Kernel.schedulerLock_scheduler (k.dosTaskWake t)).trans hWake
  · rfl

/-- The loop of `dos_event_set` never touches the lock. -/
theorem schedulerLock_eventWalk {e value : Nat} {r : System × List TaskId}
    (hWalk : dosEventWalk e value s = some r) : r.1.k.schedulerLock = s.k.schedulerLock := by
  induction value generalizing s r with
  | zero =>
      rw [← Option.some.inj hWalk]
  | succ value ih =>
      rw [dosEventWalk] at hWalk
      dsimp only at hWalk
      split at hWalk
      · cases hWalk
      · rename_i t hNext
        obtain ⟨w, hRest, rfl⟩ := Option.map_eq_some_iff.mp hWalk
        exact (ih hRest).trans (schedulerLock_eventVisit (s := s.setKernel _) e t)

/-- `dos_event_set` unlocks what it has locked. -/
theorem schedulerLock_eventSet (hDepth : s.k.schedulerLock < 255) {e : Nat} {setEvent : BitVec 32}
    {r : System × List TaskId} (hSet : s.dosEventSetNow e setEvent = some r) :
    r.1.k.schedulerLock = s.k.schedulerLock := by
  unfold dosEventSetNow at hSet
  dsimp only at hSet
  split at hSet
  · rw [← Option.some.inj hSet]
  · split at hSet
    · rw [← Option.some.inj hSet]
      rfl
    · obtain ⟨w, hWalk, rfl⟩ := Option.map_eq_some_iff.mp hSet
      have hLocked := (schedulerLock_eventWalk hWalk).trans (Kernel.schedulerLock_lock hDepth)
      show w.1.k.dosSchedulerUnlock.schedulerLock = _
      rw [Kernel.schedulerLock_unlock, hLocked]
      rfl

end System

namespace Machine

variable {m : Machine}

/-- `dos_mem_alloc` unlocks what it has locked. -/
theorem lockCount_memAlloc (hDepth : m.lockCount < 255) (hHeap : m.heap.alignMemHeapBegin ≠ 0)
    {size : Nat} {r : Machine × Nat} (hAlloc : m.dosMemAlloc size = some r) :
    r.1.lockCount = m.lockCount := by
  simp only [dosMemAlloc, if_neg hHeap] at hAlloc
  obtain ⟨g, -, rfl⟩ := Option.map_eq_some_iff.mp hAlloc
  show m.sys.k.dosSchedulerLock.dosSchedulerUnlock.schedulerLock = _
  rw [Kernel.schedulerLock_unlock, Kernel.schedulerLock_lock hDepth]
  rfl

end Machine

/-- A call that is neither a lock nor an unlock leaves the counter alone. -/
theorem LockRun.kept {x x' : LockRun} {event : LockEvent}
    (hCount : (x.machine.lockCount : Int) = x.depth)
    (hNests : Nests x event) (hStep : lockStep x event = some x') (hLock : event ≠ .lock)
    (hUnlock : event ≠ .unlock) :
    x'.machine.lockCount = x.machine.lockCount ∧ x'.depth = x.depth := by
  cases event with
  | lock => exact absurd rfl hLock
  | unlock => exact absurd rfl hUnlock
  | memAlloc size =>
      obtain ⟨r, hAlloc, rfl⟩ := Option.map_eq_some_iff.mp hStep
      have hDepth := hNests.1
      exact ⟨Machine.lockCount_memAlloc (by omega) hNests.2 hAlloc, rfl⟩
  | memFree mem =>
      obtain ⟨m, hFree, rfl⟩ := Option.map_eq_some_iff.mp hStep
      obtain ⟨r, -, rfl⟩ := Option.map_eq_some_iff.mp hFree
      exact ⟨rfl, rfl⟩
  | eventSet e setEvent =>
      obtain ⟨r, hSet, rfl⟩ := Option.map_eq_some_iff.mp hStep
      have hDepth : x.depth < 255 := hNests
      have hLess : x.machine.sys.k.schedulerLock < 255 := by
        unfold Machine.lockCount at hCount
        omega
      exact ⟨System.schedulerLock_eventSet hLess hSet, rfl⟩

/-- The counter is the depth. -/
theorem LockRun.count_step {x x' : LockRun} {event : LockEvent}
    (hCount : (x.machine.lockCount : Int) = x.depth) (hNests : Nests x event)
    (hStep : lockStep x event = some x') : (x'.machine.lockCount : Int) = x'.depth := by
  by_cases hLock : event = .lock
  · subst hLock
    rw [← Option.some.inj hStep]
    have hDepth : x.depth < 255 := hNests
    have hNew : x.machine.sys.k.dosSchedulerLock.schedulerLock = x.machine.lockCount + 1 :=
      Kernel.schedulerLock_lock (by unfold Machine.lockCount at hCount; omega)
    show (x.machine.sys.k.dosSchedulerLock.schedulerLock : Int) = x.depth + 1
    omega
  by_cases hUnlock : event = .unlock
  · subst hUnlock
    rw [← Option.some.inj hStep]
    have hNew : x.machine.sys.k.dosSchedulerUnlock.schedulerLock = x.machine.lockCount - 1 :=
      Kernel.schedulerLock_unlock _
    show (x.machine.sys.k.dosSchedulerUnlock.schedulerLock : Int) =
      if 0 < x.depth then x.depth - 1 else x.depth
    split
    · omega
    · omega
  · obtain ⟨hSame, hDepth⟩ := LockRun.kept hCount hNests hStep hLock hUnlock
    rw [hSame, hDepth, hCount]

/-- In every run of calls that never nest the lock 256 times, on an initialised
heap, `dos_scheduler_is_lock` tells whether the depth is positive, and
`dos_mem_alloc` and `dos_event_set` return with the count they found. -/
theorem lock_depth_faithful (x₀ : LockRun) (hOpen : x₀.machine.lockCount = 0) (hZero : x₀.depth = 0)
    (events : List LockEvent) (x : LockRun) (run : Transition.RunsIf lockStep Nests x₀ events x) :
    (x.machine.sys.isLocked ↔ 0 < x.depth) ∧
    (∀ size, Nests x (.memAlloc size) →
      (∀ m' p, x.machine.dosMemAlloc size = some (m', p) → m'.lockCount = x.machine.lockCount) ∧
      ∀ bs, x.machine.heap.Tiled bs → (x.machine.dosMemAlloc size).isSome = true) ∧
    ∀ e setEvent, Nests x (.eventSet e setEvent) →
      (∀ s' visited, x.machine.sys.dosEventSetNow e setEvent = some (s', visited) →
        s'.k.schedulerLock = x.machine.lockCount) ∧
      ∀ cfg, EventsOk cfg x.machine.sys →
        (x.machine.sys.dosEventSetNow e setEvent).isSome = true := by
  have hCount : (x.machine.lockCount : Int) = x.depth :=
    run.invariant (fun y => (y.machine.lockCount : Int) = y.depth) (by rw [hOpen, hZero]; rfl)
      fun _ _ _ hOld hNests hStep => LockRun.count_step hOld hNests hStep
  refine ⟨?_, ?_, ?_⟩
  · show x.machine.lockCount ≠ 0 ↔ 0 < x.depth
    omega
  · intro size hNests
    refine ⟨?_, ?_⟩
    · intro m' p hAlloc
      have hDepth := hNests.1
      exact Machine.lockCount_memAlloc (by omega) hNests.2 hAlloc
    · intro bs hTiled
      have hReturns := hTiled.dosMemAlloc_isSome size
      simpa [Machine.dosMemAlloc, hNests.2] using hReturns
  · intro e setEvent hNests
    refine ⟨?_, ?_⟩
    · intro s' visited hSet
      have hDepth : x.depth < 255 := hNests
      unfold Machine.lockCount at hCount ⊢
      exact System.schedulerLock_eventSet (by omega) hSet
    · intro cfg hOk
      obtain ⟨s', visited, hSet, -⟩ := hOk.set e setEvent
      rw [hSet]
      rfl

/-- An allocation and a `dos_event_set` under the lock. -/
theorem lock_depth_faithful_nested : ∃ x,
    Transition.RunsIf lockStep Nests ⟨Machine.boot 1000, 0⟩
      [.lock, .memAlloc 10, .lock, .eventSet 0 1, .unlock] x ∧
    x.depth = 1 ∧ x.machine.sys.isLocked := by
  have hDepth : (Transition.execIf lockStep Nests ⟨Machine.boot 1000, 0⟩
      [.lock, .memAlloc 10, .lock, .eventSet 0 1, .unlock]).map LockRun.depth = some 1 := by
    decide +kernel
  obtain ⟨x, hExec, hOne⟩ := Option.map_eq_some_iff.mp hDepth
  have hRun := Transition.runsIf_of_execIf hExec
  refine ⟨x, hRun, hOne, (lock_depth_faithful _ (by decide +kernel) rfl _ x hRun).1.mpr ?_⟩
  rw [hOne]
  decide

/-- The machine before `dos_mem_heap_init`. -/
def Machine.heapless : Machine :=
  { Machine.boot 1000 with heap := { mem := fun _ => 0, alignMemHeapBegin := 0, alignMemHeapEnd := 0 } }

/-- After 256 locks the scheduler is not locked, and `dos_mem_alloc` returns with
the scheduler locked when there is no heap. -/
theorem lock_wraps : (∃ x, Transition.Runs lockStep ⟨Machine.boot 1000, 0⟩
      (List.replicate 256 .lock) x ∧ x.depth = 256 ∧ ¬x.machine.sys.isLocked) ∧
    ∃ m', Machine.heapless.dosMemAlloc 10 = some (m', 0) ∧
      Machine.heapless.lockCount = 0 ∧ m'.lockCount = 1 := by
  have hWraps : (Transition.exec lockStep ⟨Machine.boot 1000, 0⟩ (List.replicate 256 .lock)).map
      (fun x => (x.depth, x.machine.sys.k.schedulerLock)) = some (256, 0) := by
    decide +kernel
  obtain ⟨x, hExec, hEq⟩ := Option.map_eq_some_iff.mp hWraps
  simp only [Prod.mk.injEq] at hEq
  refine ⟨⟨x, Transition.runs_of_exec hExec, hEq.1, fun hLocked => hLocked hEq.2⟩, _, rfl, rfl, rfl⟩

end DoraOS
