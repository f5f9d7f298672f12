import DoraOS.Kernel.Effects

/-! The kernel operations with no more than the guards of the source. A
deleted task may go on to call the kernel until it is switched out, a post
takes whatever task its pend list holds, and the clean-up of
`_dos_queue_handler`, which no section protects, has two steps. Every other
operation runs to its end before the next one begins. The source enables
interrupts inside some of them (`dos_task_delete` reads the status of the task
long before it acts on it), and a call that a handler makes there is not in this
machine. Each operation changes a task in one of a few ways; the facts that keep
the lists linked follow from that. -/
namespace DoraOS

/-- The kernel operations. `create` carries what the memory of the control
block held, `choose` is the context switch, `resetFlags` and `unlink` are the
two steps of the queue clean-up and `cleanUp` is that of the other calls.
`tick` carries the timer task that an overflow of the tick counter wakes, with
the pend list it is on. -/
inductive Operation where
  | create (t : TaskId) (memory : Tcb) (prio tick : Nat)
  | start
  | schedule
  | choose
  | delete (t : TaskId)
  | recycle
  | sleep (sleepTick : Nat)
  | wait (id : PendId) (timeout : Nat)
  | cleanUp
  | resetFlags
  | unlink
  | wake (id : PendId) (t : TaskId)
  | setPriority (t : TaskId) (prio : Nat)
  | tick (notify : Option (PendId × TaskId))
  | lock
  | unlock

/-- The kernel between two operations. `unlinking` holds for a task between
the two steps of the queue clean-up, and `priorities` are those that tasks
have been created with. -/
structure OpState where
  k : Kernel
  unlinking : TaskId → Bool
  priorities : List Nat

namespace OpState

variable (s : OpState)

def setKernel (k : Kernel) : OpState := { s with k := k }

def setUnlinking (t : TaskId) (b : Bool) : OpState :=
  { s with unlinking := fun t' => if t' = t then b else s.unlinking t' }

/-- The current task executes code of its own: it is not inside a wait or a
clean-up, and it has not lost the processor. A task that sleeps with the
scheduler locked keeps it, and so does one that has deleted itself. -/
def Executes (c : TaskId) : Prop :=
  s.k.systemIsRun = true ∧ s.k.dosCurrentTask = some c ∧ s.k.alloc c = true ∧
    s.unlinking c = false ∧ s.k.is c .suspend = false ∧
    (s.k.is c .ready = true ∨ s.k.is c .unused = true ∨ s.k.schedulerLock ≠ 0)

instance (c : TaskId) : Decidable (s.Executes c) := inferInstanceAs (Decidable (_ ∧ _))

/-- The current task has been resumed from a wait whose timeout has expired. -/
def TimedOut (c : TaskId) : Prop :=
  s.k.dosCurrentTask = some c ∧ s.k.alloc c = true ∧ s.unlinking c = false ∧
    s.k.is c .timeout = true

instance (c : TaskId) : Decidable (s.TimedOut c) := inferInstanceAs (Decidable (_ ∧ _))

/-- A step of the current task, if it meets the guard. -/
def byCurrent (guard : TaskId → Prop) [DecidablePred guard] (f : TaskId → OpState) :
    Option OpState :=
  match s.k.dosCurrentTask with
  | some c => if guard c then some (f c) else none
  | none => none

def startUp (cfg : Config) : OpState where
  k := Kernel.boot cfg
  unlinking _ := false
  priorities := []

def initial (k : Kernel) (idle : TaskId) : OpState where
  k := k
  unlinking _ := false
  priorities := [k.priority idle]

end OpState

/-- One operation from its call to its return. The mutex calls pass
`dos_set_task_priority` the priority of a task or one that a mutex has saved. -/
def operate (s : OpState) : Operation → Option OpState
  | .create t memory prio tick =>
      if s.k.alloc t = false ∧ prio < 2 ^ 16 then
        ((s.k.mapTcb t fun _ => memory).dosTaskCreate t prio tick).map fun k =>
          { s with k := k, priorities := prio :: s.priorities }
      else none
  | .start => if s.k.systemIsRun = false then some (s.setKernel s.k.dosSystemStartRun) else none
  | .schedule => some (s.setKernel s.k.dosScheduler)
  | .choose => if s.k.systemIsRun = true then some (s.setKernel s.k.dosChooseTask) else none
  | .delete t => if s.k.alloc t = true then some (s.setKernel (s.k.dosTaskDelete t).1) else none
  | .recycle =>
      if s.k.dosCurrentTask = s.k.dosIdleTask then some (s.setKernel s.k.dosIdleRecycle) else none
  | .sleep sleepTick =>
      s.byCurrent s.Executes fun c => s.setKernel (s.k.dosTaskSleep c sleepTick)
  | .wait id timeout =>
      s.byCurrent (fun c => s.Executes c ∧ s.k.schedulerLock = 0 ∧ s.k.dosIdleTask ≠ some c)
        fun c => s.setKernel (s.k.dosTaskWait c id timeout)
  | .cleanUp => s.byCurrent s.TimedOut fun c => s.setKernel (s.k.dosTimeoutCleanUp c)
  | .resetFlags =>
      s.byCurrent s.TimedOut fun c => (s.setKernel
        ((s.k.dosResetTaskStatus c (Flag.timeout.mask ||| Flag.suspend.mask)).dosSetTaskStatus c
          Flag.ready.mask)).setUnlinking c true
  | .unlink =>
      s.byCurrent (fun c => s.unlinking c = true)
        fun c => (s.setKernel (s.k.dosTaskItemDel .pend c)).setUnlinking c false
  | .wake id t =>
      if t ∈ s.k.lists.items (.pend id) then some (s.setKernel (s.k.dosTaskWake t)) else none
  | .setPriority t prio =>
      if s.k.alloc t = true ∧ prio ∈ s.priorities then
        some (s.setKernel (s.k.dosSetTaskPriority t prio))
      else none
  | .tick notify =>
      if s.k.systemIsRun = true ∧ ∀ w ∈ notify, w.2 ∈ s.k.lists.items (.pend w.1) then
        some (s.setKernel (s.k.dosTickUpdate (notify.map Prod.snd)))
      else none
  | .lock => some (s.setKernel s.k.dosSchedulerLock)
  | .unlock => some (s.setKernel s.k.dosSchedulerUnlock)

namespace TaskView

/-- The effect of `_dos_insert_task_sleep_list`. -/
def asleep (v : TaskView) (l : ListId) : TaskView :=
  { v with
    status := (v.status &&& ~~~Flag.ready.mask) ||| Flag.delay.mask
    statusOwner := some l }

/-- The start of `dos_task_wait`. -/
def pended (v : TaskView) (id : PendId) : TaskView :=
  { v with status := v.status ||| Flag.suspend.mask, pendOwner := some (.pend id) }

/-- The end of `dos_task_wait` with `DOS_WAIT_FOREVER`. -/
def parked (v : TaskView) : TaskView :=
  { v with status := v.status &&& ~~~Flag.ready.mask, statusOwner := none }

/-- A new task in memory that held `status`. -/
def fresh (status : BitVec 16) (prio : Nat) : TaskView where
  alloc := true
  status := status ||| Flag.ready.mask
  priority := prio
  statusOwner := some (.priority prio)
  pendOwner := none

/-- The effect of `dos_task_delete`, with the list the task is left on. -/
def removed (v : TaskView) (alloc : Bool) (l : Option ListId) : TaskView where
  alloc := alloc
  status := Flag.unused.mask
  priority := v.priority
  statusOwner := l
  pendOwner := none

end TaskView

/-- What an operation can make of a task that is `s.k.view t` before it, with
the clean-up bit of the task. -/
inductive Change (s : OpState) (t : TaskId) : Operation → TaskView → Bool → Prop where
  | same (op : Operation) : Change s t op (s.k.view t) (s.unlinking t)
  | create {memory : Tcb} {prio tick : Nat} (hFree : s.k.alloc t = false) :
      Change s t (.create t memory prio tick) (.fresh memory.taskStatus prio) (s.unlinking t)
  | sleep {n : Nat} {l : ListId} (hRun : s.Executes t) (hTicks : n ≠ 0)
      (hl : l = .sleep1 ∨ l = .sleep2) :
      Change s t (.sleep n) ((s.k.view t).asleep l) (s.unlinking t)
  | wait {id : PendId} {timeout : Nat} {l : ListId} (hRun : s.Executes t)
      (hl : l = .sleep1 ∨ l = .sleep2) :
      Change s t (.wait id timeout) (((s.k.view t).pended id).asleep l) (s.unlinking t)
  | waitForever {id : PendId} (hRun : s.Executes t) :
      Change s t (.wait id uint32Max) ((s.k.view t).pended id).parked (s.unlinking t)
  | cleanUp (hLate : s.TimedOut t) :
      Change s t .cleanUp (s.k.view t).flagsReset.unpended (s.unlinking t)
  | resetFlags (hLate : s.TimedOut t) : Change s t .resetFlags (s.k.view t).flagsReset true
  | unlink (hBit : s.unlinking t = true) : Change s t .unlink (s.k.view t).unpended false
  | wake {id : PendId} (hPend : (s.k.view t).pendOwner = some (.pend id)) :
      Change s t (.wake id t) (s.k.view t).woken (s.unlinking t)
  | notify {id : PendId} (hPend : (s.k.view t).pendOwner = some (.pend id)) :
      Change s t (.tick (some (id, t))) (s.k.view t).woken (s.unlinking t)
  | expire {notify : Option (PendId × TaskId)} (hSleep : (s.k.view t).Sleeping) :
      Change s t (.tick notify) (s.k.view t).expired (s.unlinking t)
  | setPriority {prio : Nat} (hAlloc : s.k.alloc t = true) :
      Change s t (.setPriority t prio) ((s.k.view t).withPriority prio) (s.unlinking t)
  | deleteSelf (hAlloc : s.k.alloc t = true) :
      Change s t (.delete t) ((s.k.view t).removed true (some .recycle)) (s.unlinking t)
  | deleteOther : Change s t (.delete t) ((s.k.view t).removed false none) (s.unlinking t)
  | recycle (hOwner : (s.k.view t).statusOwner = some .recycle) :
      Change s t .recycle { s.k.view t with alloc := false, statusOwner := none } (s.unlinking t)

/-- What the flags of a task say about the lists it is on. A task with a linked
item has the flag for which `dos_task_delete` unlinks that item, but for one
between the two steps of the queue clean-up. -/
structure TaskView.Tidy (v : TaskView) (unlinking : Bool) : Prop where
  clean : v.alloc = true → Flag.Clean v.status
  free : v.alloc = false → v.statusOwner = none ∧ v.pendOwner = none
  status : v.statusOwner ≠ none → Flag.test v.status .ready = true ∨
    Flag.test v.status .delay = true ∨ v.status = Flag.unused.mask
  pend : v.pendOwner ≠ none → Flag.test v.status .suspend = true ∨ unlinking = true
  recycle : v.statusOwner = some .recycle → v.status = Flag.unused.mask ∧ v.pendOwner = none

namespace TaskView.Tidy

variable {s : OpState} {t : TaskId} {v : TaskView} {b : Bool}

/-- A woken task is ready and on no pend list. -/
theorem woken (h : v.Tidy b) {id : PendId} (hPend : v.pendOwner = some (.pend id)) :
    v.woken.Tidy b := by
  refine ⟨?_, ?_, fun _ => Or.inl (by simp), fun hp => absurd rfl hp, nofun⟩
  · exact fun hAlloc => ((h.clean hAlloc).reset _).or (Flag.clean_mask _)
  · intro hFree
    rw [(h.free hFree).2] at hPend
    cases hPend

/-- The two forms of the clean-up: the pend item goes with the flags, or the
task stays marked until it does. -/
theorem flagsReset (h : v.Tidy b) (hAlloc : v.alloc = true)
    (hTimeout : Flag.test v.status .timeout = true) {v' : TaskView} {b' : Bool}
    (hNext : v' = v.flagsReset.unpended ∨ v' = v.flagsReset ∧ b' = true) : v'.Tidy b' := by
  have hNot : v.statusOwner ≠ some .recycle := by
    intro hOwner
    rw [(h.recycle hOwner).1] at hTimeout
    simp at hTimeout
  have hClean : Flag.Clean v.flagsReset.status :=
    ((h.clean hAlloc).reset _).or (Flag.clean_mask _)
  have hReady : Flag.test v.flagsReset.status .ready = true := by simp [TaskView.flagsReset]
  rcases hNext with rfl | ⟨rfl, rfl⟩
  · refine ⟨fun _ => hClean, ?_, fun _ => Or.inl hReady, fun hp => absurd rfl hp, ?_⟩
    · intro hFree
      cases hAlloc.symm.trans hFree
    · exact fun hOwner => absurd hOwner hNot
  · refine ⟨fun _ => hClean, ?_, fun _ => Or.inl hReady, fun _ => Or.inr rfl, ?_⟩
    · intro hFree
      cases hAlloc.symm.trans hFree
    · exact fun hOwner => absurd hOwner hNot

theorem withPriority (h : v.Tidy b) (hAlloc : v.alloc = true) (prio : Nat) :
    (v.withPriority prio).Tidy b := by
  unfold TaskView.withPriority
  split
  · rename_i hReady
    refine ⟨?_, ?_, fun _ => Or.inl (by simp), ?_, nofun⟩
    · exact fun hAlloc => ((h.clean hAlloc).reset _).or (Flag.clean_mask _)
    · intro hFree
      cases hAlloc.symm.trans hFree
    · intro hPend
      simpa using h.pend hPend
  · exact ⟨h.clean, h.free, h.status, h.pend, h.recycle⟩

end TaskView.Tidy

structure OpState.Tidy (s : OpState) : Prop where
  sound : s.k.Sound
  task : ∀ t, (s.k.view t).Tidy (s.unlinking t)

/-- The memory of a new control block has a zero status word, and a task is not
deleted between the two steps of its queue clean-up. -/
def Operation.Orderly (s : OpState) : Operation → Prop
  | .create _ memory _ _ => memory.taskStatus = 0
  | .delete t => s.unlinking t = false
  | _ => True

instance (s : OpState) (op : Operation) : Decidable (op.Orderly s) := by
  cases op <;> unfold Operation.Orderly <;> infer_instance

theorem Kernel.sound_tickNotify {k : Kernel} (h : k.Sound) (notify : Option TaskId) :
    (k.dosTickNotify notify).Sound := by
  unfold dosTickNotify
  split
  · split
    · exact (touches_wake h _).sound
    · exact h
  · exact h

namespace OpState

open Kernel

variable {s s' : OpState} {op : Operation} {t c : TaskId} {k' : Kernel}

/-- A step of the current task was made by it, under the guard. -/
theorem byCurrent_some {guard : TaskId → Prop} [DecidablePred guard] {f : TaskId → OpState}
    (h : s.byCurrent guard f = some s') :
    ∃ c, s.k.dosCurrentTask = some c ∧ guard c ∧ s' = f c := by
  unfold byCurrent at h
  split at h
  · rename_i c hCurrent
    split at h
    · rename_i hGuard
      exact ⟨c, hCurrent, hGuard, (Option.some.inj h).symm⟩
    · cases h
  · cases h

/-- The outcome of an operation: linked lists, and a change of every task. -/
def Changes (s : OpState) (op : Operation) (s' : OpState) : Prop :=
  s'.k.Sound ∧ ∀ t, Change s t op (s'.k.view t) (s'.unlinking t)

theorem changes_still (h : Still s.k k') : s.Changes op (s.setKernel k') := by
  refine ⟨h.sound, ?_⟩
  intro t
  show Change s t op (k'.view t) (s.unlinking t)
  rw [h.view t]
  exact Change.same op

/-- An operation on one task changes that task only. -/
theorem changes_touches (h : Touches c s.k k')
    (hTask : Change s c op (k'.view c) (s.unlinking c)) : s.Changes op (s.setKernel k') := by
  refine ⟨h.sound, ?_⟩
  intro t
  by_cases ht : t = c
  · rw [ht]
    exact hTask
  · show Change s t op (k'.view t) (s.unlinking t)
    rw [h.view t ht]
    exact Change.same op

/-- The same for a step that moves the task into or out of the clean-up. -/
theorem changes_unlinking {b : Bool} (h : Touches c s.k k')
    (hTask : Change s c op (k'.view c) b) :
    s.Changes op ((s.setKernel k').setUnlinking c b) := by
  refine ⟨h.sound, ?_⟩
  intro t
  show Change s t op (k'.view t) (if t = c then b else s.unlinking t)
  split
  · rename_i ht
    rw [ht]
    exact hTask
  · rename_i ht
    rw [h.view t ht]
    exact Change.same op

section Tidy

variable (h : s.Tidy)

include h

theorem Tidy.pend_none (hSuspend : s.k.is c .suspend = false) (hBit : s.unlinking c = false) :
    (s.k.view c).pendOwner = none := by
  by_contra hLinked
  rcases (h.task c).pend hLinked with hSet | hSet
  · rw [show Flag.test (s.k.view c).status .suspend = s.k.is c .suspend from rfl, hSuspend] at hSet
    cases hSet
  · rw [hBit] at hSet
    cases hSet

/-- A creation makes a new task of a free block. -/
theorem Tidy.changes_create {memory : Tcb} {prio tick : Nat}
    (hStep : operate s (.create t memory prio tick) = some s') :
    s.Changes (.create t memory prio tick) s' := by
  simp only [operate, Option.ite_none_right_eq_some, Option.map_eq_some_iff] at hStep
  obtain ⟨⟨hFree, hWord⟩, k', hCreate, rfl⟩ := hStep
  obtain ⟨hStatus, hPend⟩ := (h.task t).free hFree
  unfold dosTaskCreate at hCreate
  split at hCreate
  · cases hCreate
  · have hk := Option.some.inj hCreate
    have hMade := creates_initTcb h.sound hFree hStatus hPend (fun _ => memory) tick
      (show prio < 2 ^ 32 by omega)
    rw [hk] at hMade
    refine ⟨hMade.sound, ?_⟩
    intro x
    by_cases hx : x = t
    · have hView : k'.view t = TaskView.fresh memory.taskStatus prio := by
        rw [← hk, view_insertPriorityList]
        simp [Kernel.view, dosInitTcb, mapTcb, Kernel.priority, TaskLists.dosTaskItemInit,
          TaskView.fresh]
      rw [hx]
      show Change s t _ (k'.view t) (s.unlinking t)
      rw [hView]
      exact Change.create hFree
    · show Change s x _ (k'.view x) (s.unlinking x)
      rw [hMade.view x hx]
      exact Change.same _

/-- A deletion unlinks both items, whatever lists they were on. -/
theorem Tidy.view_unlink_tidy (hAlloc : s.k.alloc t = true) (hBit : s.unlinking t = false)
    (hUsed : (s.k.tcb t).taskStatus ≠ Flag.unused.mask) :
    (s.k.dosTaskUnlink t).view t = (s.k.view t).removed true none := by
  have hStatus : (if s.k.is t .delay || s.k.is t .ready then none
      else (s.k.view t).statusOwner) = none := by
    split
    · rfl
    · rename_i hFlags
      simp only [Bool.or_eq_true, not_or] at hFlags
      by_contra hLinked
      rcases (h.task t).status hLinked with hReady | hDelay | hUnused
      · exact hFlags.2 hReady
      · exact hFlags.1 hDelay
      · exact hUsed hUnused
  have hPend : (if s.k.is t .suspend then none else (s.k.view t).pendOwner) = none := by
    split
    · rfl
    · rename_i hSuspend
      exact h.pend_none (by simpa using hSuspend) hBit
  have hTrue : (s.k.view t).alloc = true := hAlloc
  rw [view_unlink, hStatus, hPend, ((h.task t).clean hAlloc).unused]
  rw [TaskView.removed, ← hTrue]

/-- A deletion unlinks what the flags of the task tell. -/
theorem Tidy.changes_delete (hBit : s.unlinking t = false)
    (hStep : operate s (.delete t) = some s') : s.Changes (.delete t) s' := by
  obtain ⟨hAlloc, rfl⟩ := Transition.guard_some hStep
  unfold dosTaskDelete
  split
  · exact changes_still (still_refl h.sound)
  · rename_i hUsed
    have hView := h.view_unlink_tidy hAlloc hBit hUsed
    have hOnly := onlyTask_unlink s.k t
    have hLinked := linked_unlink (t := t) h.sound.linked
    split
    · exact changes_still (still_refl h.sound)
    · split
      · have hTouch := hOnly.touches h.sound hLinked
        refine ⟨⟨hLinked, hTouch.sound.pair⟩, ?_⟩
        intro x
        show Change s x _ (((s.k.dosTaskUnlink t).freeTcb t).view x) (s.unlinking x)
        by_cases hx : x = t
        · rw [hx, view_freeTcb, hView]
          exact Change.deleteOther
        · rw [view_freeTcb_of_ne _ _ hx, hTouch.view x hx]
          exact Change.same _
      · have hOwner : (s.k.dosTaskUnlink t).lists.owner .status t = none :=
          congrArg TaskView.statusOwner hView
        have hBoth := hOnly.trans (onlyTask_itemInsert (s.k.dosTaskUnlink t) t .recycle)
        refine changes_touches (hBoth.touches h.sound (hLinked.insert .recycle t hOwner)) ?_
        rw [view_itemInsert_status _ _ rfl, hView]
        exact Change.deleteSelf hAlloc

theorem Tidy.changes_recycle : s.Changes .recycle (s.setKernel s.k.dosIdleRecycle) := by
  unfold dosIdleRecycle
  split
  · exact changes_still (still_refl h.sound)
  · have hFirst := still_first h.sound .recycle
    split
    · rename_i k₁ t hHead
      have hk : k₁ = _ := (congrArg Prod.fst hHead).symm
      have ht : (s.k.lists.items .recycle).head? = some t := congrArg Prod.snd hHead
      subst hk
      have hOwner : (s.k.view t).statusOwner = some .recycle :=
        (h.sound.linked.mem_iff .recycle t).mp (List.mem_of_head? ht)
      have hOnly := onlyTask_itemDel (s.k.dosGetFirstTask .recycle).1 t .status
      have hTouch := hOnly.touches hFirst.sound (hFirst.sound.linked.del .status t)
      refine ⟨⟨hTouch.sound.linked, hTouch.sound.pair⟩, ?_⟩
      intro x
      show Change s x _ ((((s.k.dosGetFirstTask .recycle).1.dosTaskItemDel .status t).freeTcb t).view
        x) (s.unlinking x)
      by_cases hx : x = t
      · rw [hx, view_freeTcb, view_itemDel_status, view_getFirstTask]
        exact Change.recycle hOwner
      · rw [view_freeTcb_of_ne _ _ hx, hTouch.view x hx, view_getFirstTask]
        exact Change.same _
    · rename_i k₁ hHead
      have hk : k₁ = _ := (congrArg Prod.fst hHead).symm
      subst hk
      exact changes_still hFirst

theorem Tidy.changes_sleep (hRun : s.Executes c) (n : Nat) :
    s.Changes (.sleep n) (s.setKernel (s.k.dosTaskSleep c n)) := by
  unfold dosTaskSleep
  split
  · exact changes_still (still_scheduler h.sound)
  · rename_i hTicks
    unfold dosInsertTaskSleepList
    split
    · exact changes_still (still_scheduler h.sound)
    · have hLinked := linked_insertSleepItem (t := c) h.sound.linked h.sound.pair n
      have hTouch := (onlyTask_insertSleepItem s.k c n).touches h.sound hLinked
      have hStill := still_scheduler hTouch.sound
      refine changes_touches (hTouch.trans_still hStill) ?_
      rw [hStill.view c, view_insertSleepItem s.k c n h.sound.pair]
      exact Change.sleep hRun hTicks (h.sound.pair.target n)

/-- A task outside its waits can begin one. -/
theorem Tidy.changes_wait (hRun : s.Executes c) (hIdle : s.k.dosIdleTask ≠ some c) (id : PendId)
    (timeout : Nat) : s.Changes (.wait id timeout) (s.setKernel (s.k.dosTaskWait c id timeout)) := by
  have hFree := h.pend_none hRun.2.2.2.2.1 hRun.2.2.2.1
  refine changes_touches (touches_wait h.sound c id timeout hFree) ?_
  rw [view_wait s.k c id timeout h.sound.pair hIdle]
  split
  · exact Change.wait hRun (h.sound.pair.target timeout)
  · rename_i hForever
    rw [not_not.mp hForever]
    exact Change.waitForever hRun

/-- The timer task that a tick wakes, or none. -/
theorem Tidy.changes_tick {notify : Option (PendId × TaskId)}
    (hNotify : ∀ w ∈ notify, w.2 ∈ s.k.lists.items (.pend w.1)) :
    s.Changes (.tick notify) (s.setKernel (s.k.dosTickUpdate (notify.map Prod.snd))) := by
  have hAdvance := still_tickAdvance h.sound
  -- what the notification does, the rest of the tick only expires sleepers
  have hWake (x : TaskId) :
      (s.k.dosTickAdvance.dosTickNotify (notify.map Prod.snd)).view x = s.k.view x ∨
      ∃ id, notify = some (id, x) ∧ (s.k.view x).pendOwner = some (.pend id) ∧
        (s.k.dosTickAdvance.dosTickNotify (notify.map Prod.snd)).view x = (s.k.view x).woken := by
    cases notify with
    | none => exact Or.inl (hAdvance.view x)
    | some w =>
        unfold dosTickNotify
        dsimp only [Option.map_some]
        split
        · by_cases hx : x = w.2
          · have hPend := (h.sound.linked.mem_iff _ _).mp (hNotify w rfl)
            refine Or.inr ⟨w.1, ?_, ?_, ?_⟩
            · rw [hx]
            · rw [hx]
              exact hPend
            · rw [hx, view_wake_eq, hAdvance.view]
          · exact Or.inl (((touches_wake hAdvance.sound w.2).view x hx).trans (hAdvance.view x))
        · exact Or.inl (hAdvance.view x)
  have hExpire := expires_tickTimeouts (sound_tickNotify hAdvance.sound (notify.map Prod.snd))
  have hAll := hExpire.trans (still_scheduler hExpire.sound).expires
  refine ⟨hAll.sound, ?_⟩
  intro x
  show Change s x _ ((s.k.dosTickUpdate (notify.map Prod.snd)).view x) (s.unlinking x)
  rcases hWake x with hSame | ⟨id, rfl, hPend, hWoken⟩
  · rcases hAll.task x with hStill | ⟨hSleep, hExp⟩
    · rw [show (s.k.dosTickUpdate _).view x = _ from hStill.trans hSame]
      exact Change.same _
    · rw [hSame] at hSleep hExp
      rw [show (s.k.dosTickUpdate _).view x = _ from hExp]
      exact Change.expire hSleep
  · rcases hAll.task x with hStill | ⟨hSleep, _⟩
    · rw [show (s.k.dosTickUpdate _).view x = _ from hStill.trans hWoken]
      exact Change.notify hPend
    · rw [hWoken] at hSleep
      exact absurd hSleep (TaskView.not_sleeping_woken _)

/-- Every operation changes each task in one of the listed ways. -/
theorem Tidy.changes_operate (hOk : op.Orderly s) (hStep : operate s op = some s') :
    s.Changes op s' := by
  cases op with
  | create t memory prio tick => exact h.changes_create hStep
  | start =>
      obtain ⟨_, rfl⟩ := Transition.guard_some hStep
      exact changes_still (still_start h.sound)
  | schedule =>
      simp only [operate, Option.some.injEq] at hStep
      subst hStep
      exact changes_still (still_scheduler h.sound)
  | choose =>
      obtain ⟨_, rfl⟩ := Transition.guard_some hStep
      have hNext := still_next h.sound (.priority s.k.dosCurPriority)
      exact changes_still ⟨⟨hNext.sound.linked, hNext.sound.pair⟩, hNext.view, hNext.key⟩
  | delete t => exact h.changes_delete hOk hStep
  | recycle =>
      obtain ⟨_, rfl⟩ := Transition.guard_some hStep
      exact h.changes_recycle
  | sleep sleepTick =>
      obtain ⟨c, _, hRun, rfl⟩ := byCurrent_some hStep
      exact h.changes_sleep hRun sleepTick
  | wait id timeout =>
      obtain ⟨c, _, ⟨hRun, _, hIdle⟩, rfl⟩ := byCurrent_some hStep
      exact h.changes_wait hRun hIdle id timeout
  | cleanUp =>
      obtain ⟨c, _, hLate, rfl⟩ := byCurrent_some hStep
      refine changes_touches (touches_timeoutCleanUp h.sound c) ?_
      rw [view_timeoutCleanUp_eq]
      exact Change.cleanUp hLate
  | resetFlags =>
      obtain ⟨c, _, hLate, rfl⟩ := byCurrent_some hStep
      refine changes_unlinking (touches_flagsReset h.sound c) ?_
      rw [view_flagsReset]
      exact Change.resetFlags hLate
  | unlink =>
      obtain ⟨c, _, hBit, rfl⟩ := byCurrent_some hStep
      refine changes_unlinking (touches_pendDel h.sound c) ?_
      rw [view_itemDel_pend]
      exact Change.unlink hBit
  | wake id t =>
      obtain ⟨hMem, rfl⟩ := Transition.guard_some hStep
      refine changes_touches (touches_wake h.sound t) ?_
      rw [view_wake_eq]
      exact Change.wake ((h.sound.linked.mem_iff _ t).mp hMem)
  | setPriority t prio =>
      obtain ⟨⟨hAlloc, _⟩, rfl⟩ := Transition.guard_some hStep
      refine changes_touches (touches_setPriority h.sound t prio) ?_
      rw [view_setPriority_eq]
      exact Change.setPriority hAlloc
  | tick notify =>
      obtain ⟨⟨_, hNotify⟩, rfl⟩ := Transition.guard_some hStep
      exact h.changes_tick hNotify
  | lock =>
      simp only [operate, Option.some.injEq] at hStep
      subst hStep
      exact changes_still (still_lock h.sound)
  | unlock =>
      simp only [operate, Option.some.injEq] at hStep
      subst hStep
      exact changes_still (still_unlock h.sound)

end Tidy

/-- No change of a task breaks the correspondence of its flags and lists. -/
theorem Tidy.change {v : TaskView} {b : Bool} (h : (s.k.view t).Tidy (s.unlinking t))
    (hOk : op.Orderly s) (hChange : Change s t op v b) : v.Tidy b := by
  cases hChange with
  | same => exact h
  | @create memory prio tick _ =>
      have hZero : memory.taskStatus = 0 := hOk
      refine ⟨?_, nofun, fun _ => Or.inl (by simp [TaskView.fresh]), fun hp => absurd rfl hp, nofun⟩
      intro _
      rw [TaskView.fresh, hZero]
      exact Flag.clean_zero.or (Flag.clean_mask _)
  | sleep hRun _ hl =>
      refine ⟨?_, ?_, ?_, ?_, ?_⟩
      · exact fun hAlloc => ((h.clean hAlloc).reset _).or (Flag.clean_mask _)
      · intro hFree
        cases hRun.2.2.1.symm.trans hFree
      · exact fun _ => Or.inr (Or.inl (by simp [TaskView.asleep]))
      · intro hPend
        simpa [TaskView.asleep] using h.pend hPend
      · intro hOwner
        rcases hl with rfl | rfl <;> cases hOwner
  | wait hRun hl =>
      refine ⟨?_, ?_, ?_, ?_, ?_⟩
      · exact fun hAlloc => (((h.clean hAlloc).or (Flag.clean_mask _)).reset _).or
          (Flag.clean_mask _)
      · intro hFree
        cases hRun.2.2.1.symm.trans hFree
      · exact fun _ => Or.inr (Or.inl (by simp [TaskView.asleep]))
      · exact fun _ => Or.inl (by simp [TaskView.asleep, TaskView.pended])
      · intro hOwner
        rcases hl with rfl | rfl <;> cases hOwner
  | waitForever hRun =>
      refine ⟨?_, ?_, fun hOwner => absurd rfl hOwner, ?_, nofun⟩
      · exact fun hAlloc => ((h.clean hAlloc).or (Flag.clean_mask _)).reset _
      · intro hFree
        cases hRun.2.2.1.symm.trans hFree
      · exact fun _ => Or.inl (by simp [TaskView.parked, TaskView.pended])
  | cleanUp hLate => exact h.flagsReset hLate.2.1 hLate.2.2.2 (Or.inl rfl)
  | resetFlags hLate => exact h.flagsReset hLate.2.1 hLate.2.2.2 (Or.inr ⟨rfl, rfl⟩)
  | unlink hBit =>
      exact ⟨h.clean, fun hFree => ⟨(h.free hFree).1, rfl⟩, h.status, fun hp => absurd rfl hp,
        fun hOwner => ⟨(h.recycle hOwner).1, rfl⟩⟩
  | wake hPend => exact h.woken hPend
  | notify hPend => exact h.woken hPend
  | expire hSleep =>
      refine ⟨?_, ?_, fun _ => Or.inl (by simp), ?_, nofun⟩
      · intro hAlloc
        have hClean := (h.clean hAlloc).reset Flag.delay.mask
        simp only [TaskView.expired]
        split
        · exact (hClean.or (Flag.clean_mask _)).or (Flag.clean_mask _)
        · exact hClean.or (Flag.clean_mask _)
      · intro hFree
        have hNone := (h.free hFree).1
        rcases hSleep with hSleep | hSleep <;> rw [hNone] at hSleep <;> cases hSleep
      · intro hPend
        simpa using h.pend hPend
  | setPriority hAlloc => exact h.withPriority hAlloc _
  | deleteSelf hAlloc =>
      exact ⟨fun _ => Flag.clean_mask _, nofun, fun _ => Or.inr (Or.inr rfl),
        fun hp => absurd rfl hp, fun _ => ⟨rfl, rfl⟩⟩
  | deleteOther =>
      exact ⟨nofun, fun _ => ⟨rfl, rfl⟩, fun hOwner => absurd rfl hOwner,
        fun hp => absurd rfl hp, nofun⟩
  | recycle hOwner =>
      exact ⟨nofun, fun _ => ⟨rfl, (h.recycle hOwner).2⟩, fun hNew => absurd rfl hNew, h.pend,
        nofun⟩

/-- One operation keeps the flags and the lists in agreement. -/
theorem Tidy.step (h : s.Tidy) (hOk : op.Orderly s) (hStep : operate s op = some s') : s'.Tidy := by
  obtain ⟨hSound, hChange⟩ := h.changes_operate hOk hStep
  exact ⟨hSound, fun t => Tidy.change (h.task t) hOk (hChange t)⟩

/-- The guarded operations keep the flags and lists of a task this tidy too. -/
theorem tidy_of_membership {cfg : Config} {k : Kernel} (h : Membership cfg k) (t : TaskId) :
    (k.view t).Tidy false := by
  by_cases hLive : k.Live t
  · have hOk := h.live t hLive
    refine ⟨fun _ => hOk.clean, ?_, ?_, ?_, ?_⟩
    · intro hFree
      cases hLive.1.symm.trans hFree
    · intro hOwner
      rcases hOk.owner with hn | hr | hs
      · exact absurd hn hOwner
      · exact Or.inl (hOk.ready_iff.mpr hr)
      · exact Or.inr (Or.inl (hOk.delay_iff.mpr hs))
    · intro hPend
      by_contra hNot
      rw [not_or] at hNot
      exact hPend (h.pend_owner hLive (Bool.eq_false_iff.mpr hNot.1))
    · intro hRecycle
      rcases hOk.owner with hn | hr | hs | hs <;> rw [hRecycle] at * <;> simp_all
  · obtain ⟨hOwner, hPend⟩ := h.dead t hLive
    rcases hOwner with ⟨hFree, hNone⟩ | ⟨hAlloc, hStatus, hRecycle⟩
    · exact ⟨fun hAlloc => absurd (hAlloc.symm.trans hFree) (by decide), fun _ => ⟨hNone, hPend⟩,
        fun hOwner => absurd hNone hOwner, fun hp => absurd hPend hp, fun hOwner => by
          rw [hNone] at hOwner
          cases hOwner⟩
    · refine ⟨?_, ?_, fun _ => Or.inr (Or.inr hStatus), fun hp => absurd hPend hp,
        fun _ => ⟨hStatus, hPend⟩⟩
      · intro _
        rw [hStatus]
        exact Flag.clean_mask _
      · intro hFree
        cases hAlloc.symm.trans hFree

theorem tidy_startUp (cfg : Config) : (startUp cfg).Tidy :=
  ⟨⟨membership_boot.linked, membership_boot.pair⟩, tidy_of_membership membership_boot⟩

/-- `dos_task_init` creates the idle task in zero-filled memory. -/
theorem initial_created {cfg : Config} {idle : TaskId} {k : Kernel}
    (hInit : dosTaskInit cfg idle = some k) :
    ∃ k₁ prio, operate (startUp cfg) (.create idle {} prio 20) =
        some { k := k₁, unlinking := fun _ => false, priorities := [prio] } ∧
      prio < cfg.dosMaxPriorityNum ∧ k = { k₁ with dosIdleTask := some idle } := by
  simp only [dosTaskInit, Option.map_eq_some_iff] at hInit
  obtain ⟨k₁, hCreate, rfl⟩ := hInit
  have hMemory : (Kernel.boot cfg).mapTcb idle (fun _ => {}) = Kernel.boot cfg := by
    simp [Kernel.boot, mapTcb]
  refine ⟨k₁, (cfg.dosMaxPriorityNum + (2 ^ 32 - 1)) % 2 ^ 32 % 2 ^ 16, ?_, ?_, rfl⟩
  · have hGuard : (startUp cfg).k.alloc idle = false ∧
        (cfg.dosMaxPriorityNum + (2 ^ 32 - 1)) % 2 ^ 32 % 2 ^ 16 < 2 ^ 16 :=
      ⟨rfl, Nat.mod_lt _ (by decide)⟩
    simp only [operate]
    rw [if_pos hGuard]
    show Option.map _ (((Kernel.boot cfg).mapTcb idle fun _ => {}).dosTaskCreate idle _ 20) = _
    rw [hMemory, hCreate]
    rfl
  · unfold dosTaskCreate at hCreate
    split at hCreate
    · cases hCreate
    · rename_i hRange
      simp only [boot] at hRange
      omega

/-- They agree when the idle task has been created. -/
theorem tidy_initial {cfg : Config} {idle : TaskId} {k : Kernel}
    (hInit : dosTaskInit cfg idle = some k) : (initial k idle).Tidy := by
  obtain ⟨k₁, prio, hStep, _, rfl⟩ := initial_created hInit
  have hMade := (tidy_startUp cfg).step (show (Operation.create idle {} prio 20).Orderly _ from rfl)
    hStep
  exact ⟨⟨hMade.sound.linked, hMade.sound.pair⟩, hMade.task⟩

end OpState

end DoraOS
