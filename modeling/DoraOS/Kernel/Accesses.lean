import DoraOS.Kernel.Operations

/-! The accesses that are safe only because of the state: the calls of
`dos_task_item_del`, whose last statement reads through the list pointer of
the item, the indices into `dos_task_priority_list` and the shifts of a
priority bit. Each function has the list of its accesses in program order,
written next to the model of the function it belongs to. -/
namespace DoraOS

/-- One access. A deletion carries the lists as it finds them. -/
inductive Access where
  | del (lists : TaskLists) (c : ItemKind) (t : TaskId)
  | readyList (i : Nat)
  | priorityBit (n : Nat)

namespace Kernel

variable (k : Kernel)

def insertTaskPriorityListAccesses (t : TaskId) : List Access :=
  [.priorityBit (k.config.priorityTabBit (k.priority t)), .readyList (k.priority t)]

def statusItemDelAccesses (t : TaskId) : List Access :=
  .del k.lists .status t ::
    if (k.lists.dosTaskItemDel .status t).2 = some 0 then
      .readyList (k.priority t) ::
        if (k.dosTaskItemDel .status t).lists.dosTaskListIsEmpty (.priority (k.priority t)) then
          [.priorityBit (k.config.priorityTabBit (k.priority t))]
        else []
    else []

def insertTaskSleepListAccesses (t : TaskId) : List Access :=
  if k.dosIdleTask = some t then []
  else
    ((k.dosResetTaskStatus t Flag.ready.mask).dosSetTaskStatus t
      Flag.delay.mask).statusItemDelAccesses t

def taskWaitAccesses (t : TaskId) (id : PendId) (timeout : Nat) : List Access :=
  let k := (k.dosSetTaskStatus t Flag.suspend.mask).dosTaskItemInsert (.pend id) t
  if timeout ≠ uint32Max then k.insertTaskSleepListAccesses t
  else (k.dosResetTaskStatus t Flag.ready.mask).statusItemDelAccesses t

def taskWakeAccesses (t : TaskId) : List Access :=
  .del k.lists .pend t :: .del (k.dosTaskItemDel .pend t).lists .status t ::
    k.insertTaskPriorityListAccesses t

def setTaskPriorityAccesses (t : TaskId) (prio : Nat) : List Access :=
  if k.is t .ready then
    k.statusItemDelAccesses t ++ (((k.dosStatusItemDel t).dosResetTaskStatus t
      Flag.ready.mask).mapTcb t fun tcb =>
        { tcb with priority := prio }).insertTaskPriorityListAccesses t
  else []

def timeoutCleanUpAccesses (t : TaskId) : List Access :=
  [.del ((k.dosResetTaskStatus t (Flag.timeout.mask ||| Flag.suspend.mask)).dosSetTaskStatus t
    Flag.ready.mask).lists .pend t]

def taskDeleteAccesses (t : TaskId) : List Access :=
  let status := (k.tcb t).taskStatus
  if status = Flag.unused.mask ∨ k.schedulerLock ≠ 0 then []
  else
    let linked := Flag.test status .delay || Flag.test status .ready
    (if linked then k.statusItemDelAccesses t else []) ++
      if Flag.test status .suspend then
        [.del (if linked then k.dosStatusItemDel t else k).lists .pend t]
      else []

def idleRecycleAccesses : List Access :=
  if k.lists.dosTaskListIsEmpty .recycle then []
  else
    match k.dosGetFirstTask .recycle with
    | (k, some t) => [.del k.lists .status t]
    | (_, none) => []

def checkTaskPriorityAccesses : List Access :=
  let k := k.dosFindPriority
  match k.dosCurrentTask with
  | none => []
  | some c =>
      if k.dosCurPriority < k.priority c ∨ k.is c .ready = false then []
      else [.readyList (k.priority c)]

def schedulerAccesses : List Access :=
  if k.interruptCount ≠ 0 then []
  else if k.schedulerLock = 0 ∧ k.systemIsRun = true then k.checkTaskPriorityAccesses
  else []

def schedulerUnlockAccesses : List Access :=
  if k.schedulerLock > 0 ∧ k.schedulerLock - 1 = 0 then
    { k with schedulerLock := k.schedulerLock - 1 }.schedulerAccesses
  else []

def chooseTaskAccesses : List Access := [.readyList k.dosCurPriority]

def systemStartRunAccesses : List Access :=
  k.checkTaskPriorityAccesses ++ [.readyList k.dosCheckTaskPriority.1.dosCurPriority]

def taskSleepAccesses (t : TaskId) (sleepTick : Nat) : List Access :=
  if sleepTick = 0 then k.schedulerAccesses
  else k.insertTaskSleepListAccesses t ++ (k.dosInsertTaskSleepList t sleepTick).schedulerAccesses

def taskCreateAccesses (t : TaskId) (prio tick : Nat) : List Access :=
  if prio > k.config.dosMaxPriorityNum then []
  else (k.dosInitTcb t prio tick).insertTaskPriorityListAccesses t

def expireTaskAccesses (t : TaskId) : List Access :=
  .del k.lists .status t :: k.insertTaskPriorityListAccesses t

def tickExpireAccesses : Nat → Kernel → List Access
  | 0, _ => []
  | fuel + 1, k =>
      if k.lists.dosTaskListIsEmpty k.dosTaskSleepList then []
      else
        match k.dosGetFirstTask k.dosTaskSleepList with
        | (_, none) => []
        | (k, some t) =>
            if k.lists.value .status t > k.dosNextWakeTick then []
            else k.expireTaskAccesses t ++ tickExpireAccesses fuel (k.dosExpireTask t)

def tickTimeoutsAccesses : List Access :=
  if k.dosTickCount ≥ k.dosNextWakeTick then
    tickExpireAccesses (k.lists.dosGetTaskListValue k.dosTaskSleepList + 1) k
  else []

def tickNotifyAccesses (notify : Option TaskId) : List Access :=
  match notify with
  | some t => if k.dosTickCount = 0 then k.taskWakeAccesses t else []
  | none => []

def tickUpdateAccesses (notify : Option TaskId) : List Access :=
  let k₁ := k.dosTickAdvance
  let k₂ := k₁.dosTickNotify notify
  k₁.tickNotifyAccesses notify ++ k₂.tickTimeoutsAccesses ++ k₂.dosTickTimeouts.schedulerAccesses

def currentAccesses (f : TaskId → List Access) : List Access :=
  match k.dosCurrentTask with
  | some c => f c
  | none => []

end Kernel

def Operation.accesses (s : OpState) : Operation → List Access
  | .create t memory prio ticks => (s.k.mapTcb t fun _ => memory).taskCreateAccesses t prio ticks
  | .start => s.k.systemStartRunAccesses
  | .schedule => s.k.schedulerAccesses
  | .choose => s.k.chooseTaskAccesses
  | .delete t => s.k.taskDeleteAccesses t
  | .recycle => s.k.idleRecycleAccesses
  | .sleep sleepTick => s.k.currentAccesses fun c => s.k.taskSleepAccesses c sleepTick
  | .wait id timeout => s.k.currentAccesses fun c => s.k.taskWaitAccesses c id timeout
  | .cleanUp => s.k.currentAccesses fun c => s.k.timeoutCleanUpAccesses c
  | .resetFlags => []
  | .unlink => s.k.currentAccesses fun c => [.del s.k.lists .pend c]
  | .wake _ t => s.k.taskWakeAccesses t
  | .setPriority t prio => s.k.setTaskPriorityAccesses t prio
  | .tick notify => s.k.tickUpdateAccesses (notify.map Prod.snd)
  | .lock => []
  | .unlock => s.k.schedulerUnlockAccesses

/-- A deletion finds its item on a list. -/
def Access.Linked : Access → Prop
  | .del lists c t => lists.owner c t ≠ none
  | _ => True

instance (a : Access) : Decidable a.Linked := by
  cases a <;> unfold Access.Linked <;> infer_instance

namespace Kernel

variable {k : Kernel} {t : TaskId}

theorem linked_insertTaskPriorityListAccesses :
    ∀ a ∈ k.insertTaskPriorityListAccesses t, a.Linked := by
  simp [insertTaskPriorityListAccesses, Access.Linked]

theorem linked_statusItemDelAccesses (h : k.lists.owner .status t ≠ none) :
    ∀ a ∈ k.statusItemDelAccesses t, a.Linked := by
  unfold statusItemDelAccesses
  rw [List.forall_mem_cons]
  refine ⟨h, ?_⟩
  split
  · rw [List.forall_mem_cons]
    refine ⟨trivial, ?_⟩
    split <;> simp [Access.Linked]
  · nofun

theorem linked_checkTaskPriorityAccesses : ∀ a ∈ k.checkTaskPriorityAccesses, a.Linked := by
  unfold checkTaskPriorityAccesses
  dsimp only
  split
  · nofun
  · split <;> simp [Access.Linked]

theorem linked_schedulerAccesses : ∀ a ∈ k.schedulerAccesses, a.Linked := by
  unfold schedulerAccesses
  split
  · nofun
  · split
    · exact linked_checkTaskPriorityAccesses
    · nofun

theorem linked_insertTaskSleepListAccesses (h : k.lists.owner .status t ≠ none) :
    ∀ a ∈ k.insertTaskSleepListAccesses t, a.Linked := by
  unfold insertTaskSleepListAccesses
  split
  · nofun
  · exact linked_statusItemDelAccesses h

theorem linked_taskSleepAccesses (h : k.lists.owner .status t ≠ none) (n : Nat) :
    ∀ a ∈ k.taskSleepAccesses t n, a.Linked := by
  unfold taskSleepAccesses
  split
  · exact linked_schedulerAccesses
  · rw [List.forall_mem_append]
    exact ⟨linked_insertTaskSleepListAccesses h, linked_schedulerAccesses⟩

/-- A task that begins to wait leaves the list of its status item. -/
theorem linked_taskWaitAccesses (h : k.lists.owner .status t ≠ none) (id : PendId)
    (timeout : Nat) : ∀ a ∈ k.taskWaitAccesses t id timeout, a.Linked := by
  have hOwner : ((k.dosSetTaskStatus t Flag.suspend.mask).dosTaskItemInsert (.pend id) t).lists.owner
      .status t ≠ none := by
    have hSame : (k.dosSetTaskStatus t Flag.suspend.mask).lists.owner .status t ≠ none := h
    simpa [Kernel.dosTaskItemInsert, ListId.kind] using hSame
  unfold taskWaitAccesses
  dsimp only
  split
  · exact linked_insertTaskSleepListAccesses hOwner
  · exact linked_statusItemDelAccesses hOwner

/-- A wake removes both items, so both have to be linked. -/
theorem linked_taskWakeAccesses (hPend : k.lists.owner .pend t ≠ none)
    (hStatus : k.lists.owner .status t ≠ none) : ∀ a ∈ k.taskWakeAccesses t, a.Linked := by
  unfold taskWakeAccesses
  rw [List.forall_mem_cons, List.forall_mem_cons]
  refine ⟨hPend, ?_, linked_insertTaskPriorityListAccesses⟩
  simpa [Access.Linked, Kernel.dosTaskItemDel] using hStatus

theorem linked_setTaskPriorityAccesses (h : k.lists.owner .status t ≠ none) (prio : Nat) :
    ∀ a ∈ k.setTaskPriorityAccesses t prio, a.Linked := by
  unfold setTaskPriorityAccesses
  split
  · rw [List.forall_mem_append]
    exact ⟨linked_statusItemDelAccesses h, linked_insertTaskPriorityListAccesses⟩
  · nofun

/-- A deletion removes the pend item of a suspended task. -/
theorem linked_taskDeleteAccesses (hStatus : k.lists.owner .status t ≠ none)
    (hPend : k.is t .suspend = true → k.lists.owner .pend t ≠ none) :
    ∀ a ∈ k.taskDeleteAccesses t, a.Linked := by
  unfold taskDeleteAccesses
  dsimp only
  split
  · nofun
  · rw [List.forall_mem_append]
    constructor
    · split
      · exact linked_statusItemDelAccesses hStatus
      · nofun
    · split
      · rename_i hSuspend
        rw [List.forall_mem_singleton]
        show (ite _ _ _ : Kernel).lists.owner .pend t ≠ none
        split
        · rw [owner_statusItemDel]
          simpa using hPend hSuspend
        · exact hPend hSuspend
      · nofun

/-- The head of a list is linked. -/
theorem linked_idleRecycleAccesses (h : k.lists.Linked) : ∀ a ∈ k.idleRecycleAccesses, a.Linked := by
  unfold idleRecycleAccesses
  split
  · nofun
  · split
    · rename_i k₁ t hHead
      have hk : k₁ = _ := (congrArg Prod.fst hHead).symm
      have ht : (k.lists.items .recycle).head? = some t := congrArg Prod.snd hHead
      subst hk
      rw [List.forall_mem_singleton]
      have hOwner := (h.mem_iff .recycle t).mp (List.mem_of_head? ht)
      show k.lists.owner .status t ≠ none
      rw [show k.lists.owner .status t = some .recycle from hOwner]
      nofun
    · nofun

/-- Every turn of the expiry loop unlinks the head of the sleep list. -/
theorem linked_tickExpireAccesses (fuel : Nat) :
    ∀ {k : Kernel}, k.Sound → ∀ a ∈ tickExpireAccesses fuel k, a.Linked := by
  induction fuel with
  | zero => nofun
  | succ fuel ih =>
      intro k h
      unfold tickExpireAccesses
      split
      · nofun
      · split
        · nofun
        · rename_i k₁ t hHead
          have hk : k₁ = _ := (congrArg Prod.fst hHead).symm
          have ht : (k.lists.items k.dosTaskSleepList).head? = some t := congrArg Prod.snd hHead
          subst hk
          have hFirst := still_first h k.dosTaskSleepList
          split
          · nofun
          · have hOwner := (h.linked.mem_iff _ t).mp (List.mem_of_head? ht)
            rw [h.pair.kind.1] at hOwner
            rw [List.forall_mem_append, expireTaskAccesses, List.forall_mem_cons]
            refine ⟨⟨?_, linked_insertTaskPriorityListAccesses⟩,
              ih (touches_expire hFirst.sound t).sound⟩
            show k.lists.owner .status t ≠ none
            rw [hOwner]
            nofun

/-- The expiry loop removes tasks that it has found on the sleep list. -/
theorem linked_tickTimeoutsAccesses (h : k.Sound) : ∀ a ∈ k.tickTimeoutsAccesses, a.Linked := by
  unfold tickTimeoutsAccesses
  split
  · exact linked_tickExpireAccesses _ h
  · nofun

end Kernel

/-- What a task's flags promise when every wait is timed: an allocated block is
on a list, a waiter and one that has timed out are on a pend list, and so is
a task between the two steps of the queue clean-up. -/
structure TaskView.Tied (v : TaskView) (unlinking : Bool) : Prop where
  linked : v.alloc = true → v.statusOwner ≠ none
  suspend : Flag.test v.status .suspend = true → v.pendOwner ≠ none
  timeout : Flag.test v.status .timeout = true → v.pendOwner ≠ none
  unlinking : unlinking = true → v.pendOwner ≠ none ∧ Flag.test v.status .suspend = false ∧
    Flag.test v.status .timeout = false

/-- A task woken in time is on no pend list and has no stale flag. -/
theorem TaskView.tied_woken {v : TaskView} {b : Bool}
    (hUnexpired : Flag.test v.status .timeout = false ∧ b = false) : v.woken.Tied b := by
  refine ⟨fun _ => nofun, by simp, ?_, ?_⟩
  · simp [hUnexpired.1]
  · exact fun hBit => absurd (hUnexpired.2.symm.trans hBit) nofun

/-- A waiter whose timeout has not expired. -/
def OpState.Unexpired (s : OpState) (t : TaskId) : Prop :=
  s.k.is t .timeout = false ∧ s.unlinking t = false

instance (s : OpState) (t : TaskId) : Decidable (s.Unexpired t) := inferInstanceAs (Decidable (_ ∧ _))

/-- Every wait is timed, and nobody is woken after the timeout has expired. -/
def Operation.Punctual (s : OpState) (op : Operation) : Prop :=
  op.Orderly s ∧
    match op with
    | .wait _ timeout => timeout ≠ uint32Max
    | .wake _ t => s.Unexpired t
    | .tick notify => ∀ w ∈ notify, s.Unexpired w.2
    | _ => True

instance (s : OpState) : (op : Operation) → Decidable (op.Punctual s)
  | .wait _ timeout => inferInstanceAs (Decidable (_ ∧ timeout ≠ uint32Max))
  | .wake _ t => inferInstanceAs (Decidable (_ ∧ s.Unexpired t))
  | .tick notify => inferInstanceAs (Decidable (_ ∧ ∀ w ∈ notify, s.Unexpired w.2))
  | .create _ _ _ _ | .start | .schedule | .choose | .delete _ | .recycle | .sleep _ | .cleanUp
  | .resetFlags | .unlink | .setPriority _ _ | .lock | .unlock =>
      inferInstanceAs (Decidable (_ ∧ True))

namespace OpState

open Kernel Transition

variable {s s' : OpState} {op : Operation} {t : TaskId}

structure Tied (s : OpState) : Prop where
  tidy : s.Tidy
  task : ∀ t, (s.k.view t).Tied (s.unlinking t)

/-- A task in the middle of the queue clean-up is still on its pend list. -/
theorem Tied.pend_some (h : s.Tied) (hBit : s.unlinking t = true) :
    (s.k.view t).pendOwner ≠ none :=
  ((h.task t).unlinking hBit).1

/-- No change of a task breaks what its flags promise. -/
theorem Tied.change (h : s.Tied) (hOk : op.Punctual s) {v : TaskView} {b : Bool}
    (hChange : Change s t op v b) : v.Tied b := by
  have hTask := h.task t
  have hTidy := h.tidy.task t
  cases hChange with
  | same => exact hTask
  | @create memory prio _ hFree =>
      have hZero : memory.taskStatus = 0 := hOk.1
      refine ⟨fun _ => Option.some_ne_none _, ?_, ?_, ?_⟩
      · simp [TaskView.fresh, hZero]
      · simp [TaskView.fresh, hZero]
      · exact fun hBit => absurd (hTidy.free hFree).2 (h.pend_some hBit)
  | sleep hRun =>
      refine ⟨fun _ => Option.some_ne_none _, ?_, ?_, ?_⟩
      · simpa [TaskView.asleep] using hTask.suspend
      · simpa [TaskView.asleep] using hTask.timeout
      · exact fun hBit => absurd (hRun.2.2.2.1.symm.trans hBit) Bool.false_ne_true
  | wait hRun =>
      exact ⟨fun _ => Option.some_ne_none _, fun _ => Option.some_ne_none _,
        fun _ => Option.some_ne_none _,
        fun hBit => absurd (hRun.2.2.2.1.symm.trans hBit) Bool.false_ne_true⟩
  | waitForever => exact absurd rfl hOk.2
  | cleanUp hLate =>
      refine ⟨hTask.linked, ?_, ?_, ?_⟩
      · simp [TaskView.flagsReset, TaskView.unpended]
      · simp [TaskView.flagsReset, TaskView.unpended]
      · exact fun hBit => absurd (hLate.2.2.1.symm.trans hBit) Bool.false_ne_true
  | resetFlags hLate =>
      have hPend : (s.k.view t).flagsReset.pendOwner ≠ none := hTask.timeout hLate.2.2.2
      refine ⟨hTask.linked, fun _ => hPend, fun _ => hPend, fun _ => ⟨hPend, ?_, ?_⟩⟩
      · simp [TaskView.flagsReset]
      · simp [TaskView.flagsReset]
  | unlink hBit =>
      obtain ⟨_, hSuspend, hTimeout⟩ := hTask.unlinking hBit
      refine ⟨hTask.linked, ?_, ?_, fun hBit => absurd hBit Bool.false_ne_true⟩
      · exact fun hSet => absurd (hSuspend.symm.trans hSet) Bool.false_ne_true
      · exact fun hSet => absurd (hTimeout.symm.trans hSet) Bool.false_ne_true
  | wake => exact TaskView.tied_woken hOk.2
  | notify => exact TaskView.tied_woken (hOk.2 _ rfl)
  | expire =>
      refine ⟨fun _ => Option.some_ne_none _, ?_, ?_, ?_⟩
      · exact fun hSet => hTask.suspend (by simpa using hSet)
      · intro hSet
        simp only [TaskView.test_expired, Bool.or_eq_true, Bool.and_eq_true] at hSet
        rcases hSet with (hSet | hSet) | hSet
        · exact hTask.timeout hSet.1
        · cases hSet
        · exact hTask.suspend hSet.1
      · intro hBit
        obtain ⟨hPend, hSuspend, hTimeout⟩ := hTask.unlinking hBit
        exact ⟨hPend, by simp [hSuspend], by simp [hSuspend, hTimeout]⟩
  | setPriority =>
      refine ⟨?_, by simpa using hTask.suspend, by simpa using hTask.timeout,
        by simpa using hTask.unlinking⟩
      intro hAlloc
      unfold TaskView.withPriority
      split
      · exact Option.some_ne_none _
      · exact hTask.linked (by simpa using hAlloc)
  | deleteSelf =>
      exact ⟨fun _ => Option.some_ne_none _, by simp [TaskView.removed], by simp [TaskView.removed],
        fun hBit => absurd (hOk.1.symm.trans hBit) Bool.false_ne_true⟩
  | deleteOther =>
      exact ⟨fun hAlloc => absurd hAlloc Bool.false_ne_true, by simp [TaskView.removed],
        by simp [TaskView.removed],
        fun hBit => absurd (hOk.1.symm.trans hBit) Bool.false_ne_true⟩
  | recycle => exact ⟨fun hAlloc => absurd hAlloc Bool.false_ne_true, hTask.suspend, hTask.timeout,
      hTask.unlinking⟩

/-- One operation keeps what the flags promise. -/
theorem Tied.step (h : s.Tied) (hOk : op.Punctual s) (hStep : operate s op = some s') : s'.Tied := by
  refine ⟨h.tidy.step hOk.1 hStep, ?_⟩
  intro t
  exact h.change hOk ((h.tidy.changes_operate hOk.1 hStep).2 t)

/-- The promise holds when the idle task has been created. -/
theorem tied_initial {cfg : Config} {idle : TaskId} {k : Kernel}
    (hInit : dosTaskInit cfg idle = some k) : (initial k idle).Tied := by
  obtain ⟨k₁, prio, hStep, _, rfl⟩ := initial_created hInit
  have hStart : (startUp cfg).Tied := by
    refine ⟨tidy_startUp cfg, ?_⟩
    intro t
    refine ⟨nofun, ?_, ?_, nofun⟩
    · exact fun hSet => absurd ((Flag.test_zero .suspend).symm.trans hSet) nofun
    · exact fun hSet => absurd ((Flag.test_zero .timeout).symm.trans hSet) nofun
  have hMade := hStart.step
    (show (Operation.create idle {} prio 20).Punctual _ from ⟨rfl, trivial⟩) hStep
  exact ⟨tidy_initial hInit, hMade.task⟩

/-- A waiter on a pend list is on a status list too. -/
theorem Tied.linked_of_pend (h : s.Tied) (hPend : (s.k.view t).pendOwner ≠ none) :
    (s.k.view t).statusOwner ≠ none := by
  apply (h.task t).linked
  by_contra hFree
  exact hPend ((h.tidy.task t).free (by simpa using hFree)).2

/-- Every deletion of an enabled operation finds its item on a list. -/
theorem Tied.accesses_linked (h : s.Tied) (hStep : operate s op = some s') :
    ∀ a ∈ op.accesses s, a.Linked := by
  cases op with
  | create t memory prio tick =>
      show ∀ a ∈ Kernel.taskCreateAccesses _ t prio tick, a.Linked
      unfold taskCreateAccesses
      split
      · exact List.forall_mem_nil _
      · exact linked_insertTaskPriorityListAccesses
  | start =>
      show ∀ a ∈ s.k.systemStartRunAccesses, a.Linked
      unfold systemStartRunAccesses
      rw [List.forall_mem_append, List.forall_mem_singleton]
      exact ⟨linked_checkTaskPriorityAccesses, trivial⟩
  | schedule => exact linked_schedulerAccesses
  | choose => exact List.forall_mem_singleton.mpr trivial
  | delete t =>
      simp only [operate, Option.ite_none_right_eq_some] at hStep
      exact linked_taskDeleteAccesses ((h.task t).linked hStep.1) (h.task t).suspend
  | recycle => exact linked_idleRecycleAccesses h.tidy.sound.linked
  | sleep sleepTick =>
      obtain ⟨c, hCurrent, hRun, _⟩ := byCurrent_some hStep
      simp only [Operation.accesses, currentAccesses, hCurrent]
      exact linked_taskSleepAccesses ((h.task c).linked hRun.2.2.1) sleepTick
  | wait id timeout =>
      obtain ⟨c, hCurrent, ⟨hRun, _⟩, _⟩ := byCurrent_some hStep
      simp only [Operation.accesses, currentAccesses, hCurrent]
      exact linked_taskWaitAccesses ((h.task c).linked hRun.2.2.1) id timeout
  | cleanUp =>
      obtain ⟨c, hCurrent, hLate, _⟩ := byCurrent_some hStep
      simp only [Operation.accesses, currentAccesses, hCurrent]
      exact List.forall_mem_singleton.mpr ((h.task c).timeout hLate.2.2.2)
  | resetFlags => exact List.forall_mem_nil _
  | unlink =>
      obtain ⟨c, hCurrent, hBit, _⟩ := byCurrent_some hStep
      simp only [Operation.accesses, currentAccesses, hCurrent]
      exact List.forall_mem_singleton.mpr (h.pend_some hBit)
  | wake id t =>
      simp only [operate, Option.ite_none_right_eq_some] at hStep
      have hPend : (s.k.view t).pendOwner ≠ none := by
        rw [show (s.k.view t).pendOwner = _ from (h.tidy.sound.linked.mem_iff _ t).mp hStep.1]
        exact Option.some_ne_none _
      exact linked_taskWakeAccesses hPend (h.linked_of_pend hPend)
  | setPriority t prio =>
      simp only [operate, Option.ite_none_right_eq_some] at hStep
      exact linked_setTaskPriorityAccesses ((h.task t).linked hStep.1.1) prio
  | tick notify =>
      simp only [operate, Option.ite_none_right_eq_some] at hStep
      obtain ⟨⟨_, hNotify⟩, _⟩ := hStep
      have hAdvance := still_tickAdvance h.tidy.sound
      show ∀ a ∈ s.k.tickUpdateAccesses (notify.map Prod.snd), a.Linked
      unfold tickUpdateAccesses
      dsimp only
      rw [List.forall_mem_append, List.forall_mem_append]
      refine ⟨⟨?_, linked_tickTimeoutsAccesses (sound_tickNotify hAdvance.sound _)⟩,
        linked_schedulerAccesses⟩
      cases notify with
      | none => exact List.forall_mem_nil _
      | some w =>
          unfold tickNotifyAccesses
          dsimp only [Option.map_some]
          split
          · have hPend : (s.k.view w.2).pendOwner ≠ none := by
              rw [show (s.k.view w.2).pendOwner = _ from
                (h.tidy.sound.linked.mem_iff _ _).mp (hNotify w rfl)]
              exact Option.some_ne_none _
            have hStatus := h.linked_of_pend hPend
            rw [← hAdvance.view] at hPend hStatus
            exact linked_taskWakeAccesses hPend hStatus
          · exact List.forall_mem_nil _
  | lock => exact List.forall_mem_nil _
  | unlock =>
      show ∀ a ∈ s.k.schedulerUnlockAccesses, a.Linked
      unfold schedulerUnlockAccesses
      split
      · exact linked_schedulerAccesses
      · exact List.forall_mem_nil _

/-- Every call of `dos_task_item_del` is made on a linked item, after every run
in which all waits are timed and nobody is woken too late. -/
theorem deleted_items_are_linked (cfg : Config) (idle : TaskId) (k₀ : Kernel)
    (hInit : dosTaskInit cfg idle = some k₀) (ops : List Operation) (s : OpState)
    (run : RunsIf operate (fun s op => op.Punctual s) (initial k₀ idle) ops s)
    (op : Operation) (s' : OpState) (hStep : operate s op = some s')
    (lists : TaskLists) (c : ItemKind) (t : TaskId) (hDel : Access.del lists c t ∈ op.accesses s) :
    lists.owner c t ≠ none := by
  have h : s.Tied := run.invariant Tied (tied_initial hInit) fun _ _ _ h hOk hStep => h.step hOk hStep
  exact h.accesses_linked hStep _ hDel

theorem del_mem_cleanUp {c : TaskId} (hCurrent : s.k.dosCurrentTask = some c) :
    Access.del s.k.lists .pend c ∈ Operation.cleanUp.accesses s := by
  simp only [Operation.accesses, currentAccesses, hCurrent]
  exact List.mem_singleton.mpr rfl

theorem del_mem_wake (s : OpState) (id : PendId) (t : TaskId) :
    Access.del (s.k.dosTaskItemDel .pend t).lists .status t ∈ (Operation.wake id t).accesses s :=
  List.mem_cons_of_mem _ List.mem_cons_self

/-- A task whose wait has timed out finds its pend item linked. -/
theorem deleted_items_are_linked_timeout :
    ∃ k₀ s s', dosTaskInit shippedConfig 0 = some k₀ ∧
      RunsIf operate (fun s op => op.Punctual s) (initial k₀ 0)
        [.create 1 {} 5 10, .start, .wait (.sem 0) 2, .schedule, .choose, .tick none, .tick none,
          .choose] s ∧
      operate s .cleanUp = some s' ∧ s.k.dosCurrentTask = some 1 ∧
      Access.del s.k.lists .pend 1 ∈ Operation.cleanUp.accesses s ∧
      s.k.lists.owner .pend 1 ≠ none := by
  let k₀ := (dosTaskInit shippedConfig 0).get (by decide)
  let s := (execIf operate (fun s op => op.Punctual s) (initial k₀ 0)
    [.create 1 {} 5 10, .start, .wait (.sem 0) 2, .schedule, .choose, .tick none, .tick none,
      .choose]).get (by decide +kernel)
  let s' := (operate s .cleanUp).get (by decide +kernel)
  have hInit : dosTaskInit shippedConfig 0 = some k₀ := (Option.some_get _).symm
  have hRun : RunsIf operate (fun s op => op.Punctual s) (initial k₀ 0) _ s := runsIf_of_isSome _
  have hStep : operate s .cleanUp = some s' := (Option.some_get _).symm
  have hCurrent : s.k.dosCurrentTask = some 1 := by decide +kernel
  have hDel := del_mem_cleanUp hCurrent
  exact ⟨k₀, s, s', hInit, hRun, hStep, hCurrent, hDel,
    deleted_items_are_linked shippedConfig 0 k₀ hInit _ s hRun .cleanUp s' hStep _ _ _ hDel⟩

/-- The wake of a task that waits forever deletes a status item that is on no
list. -/
theorem woken_forever_waiter_is_unlinked :
    ∃ k₀ s s' lists, dosTaskInit shippedConfig 0 = some k₀ ∧
      Runs operate (initial k₀ 0)
        [.create 1 {} 5 10, .start, .wait (.sem 0) uint32Max, .schedule, .choose] s ∧
      operate s (.wake (.sem 0) 1) = some s' ∧
      Access.del lists .status 1 ∈ (Operation.wake (.sem 0) 1).accesses s ∧
      lists.owner .status 1 = none := by
  let k₀ := (dosTaskInit shippedConfig 0).get (by decide)
  let s := (exec operate (initial k₀ 0)
    [.create 1 {} 5 10, .start, .wait (.sem 0) uint32Max, .schedule, .choose]).get (by decide +kernel)
  exact ⟨k₀, s, _, (s.k.dosTaskItemDel .pend 1).lists, (Option.some_get _).symm, runs_of_isSome _,
    (Option.some_get (by decide +kernel)).symm, del_mem_wake s _ 1, by decide +kernel⟩

/-- A waiter that is granted after its timeout has expired keeps the timeout
flag, so that its clean-up deletes the pend item a second time. -/
theorem granted_late_is_unlinked_twice :
    ∃ k₀ s s', dosTaskInit shippedConfig 0 = some k₀ ∧
      Runs operate (initial k₀ 0)
        [.create 1 {} 5 10, .start, .wait (.sem 0) 2, .schedule, .choose, .tick none, .tick none,
          .wake (.sem 0) 1, .choose] s ∧
      operate s .cleanUp = some s' ∧
      Access.del s.k.lists .pend 1 ∈ Operation.cleanUp.accesses s ∧
      s.k.lists.owner .pend 1 = none := by
  let k₀ := (dosTaskInit shippedConfig 0).get (by decide)
  let s := (exec operate (initial k₀ 0)
    [.create 1 {} 5 10, .start, .wait (.sem 0) 2, .schedule, .choose, .tick none, .tick none,
      .wake (.sem 0) 1, .choose]).get (by decide +kernel)
  have hCurrent : s.k.dosCurrentTask = some 1 := by decide +kernel
  exact ⟨k₀, s, _, (Option.some_get _).symm, runs_of_isSome _,
    (Option.some_get (by decide +kernel)).symm, del_mem_cleanUp hCurrent, by decide +kernel⟩

end OpState

end DoraOS
