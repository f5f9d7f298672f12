import DoraOS.Kernel.Task

/-! What each task operation can change. Every operation on a task leaves all
other tasks and the static configuration of the kernel alone; its effect on
the task itself is an equation on a small view of that task. -/
namespace DoraOS

/-- What list membership depends on, for one task. -/
structure TaskView where
  alloc : Bool
  status : BitVec 16
  priority : Nat
  statusOwner : Option ListId
  pendOwner : Option ListId

namespace Kernel

def view (k : Kernel) (t : TaskId) : TaskView where
  alloc := k.alloc t
  status := (k.tcb t).taskStatus
  priority := k.priority t
  statusOwner := k.lists.owner .status t
  pendOwner := k.lists.owner .pend t

/-- The configuration and the variables that only the clock, the scheduler and
initialisation set. -/
structure Statics where
  config : Config
  dosTaskSleepList : ListId
  dosTaskSleepOverflowList : ListId
  dosTickCount : Nat
  dosCurrentTask : Option TaskId
  dosIdleTask : Option TaskId
  systemIsRun : Bool
  schedulerLock : Nat
  interruptCount : Nat

def statics (k : Kernel) : Statics where
  config := k.config
  dosTaskSleepList := k.dosTaskSleepList
  dosTaskSleepOverflowList := k.dosTaskSleepOverflowList
  dosTickCount := k.dosTickCount
  dosCurrentTask := k.dosCurrentTask
  dosIdleTask := k.dosIdleTask
  systemIsRun := k.systemIsRun
  schedulerLock := k.schedulerLock
  interruptCount := k.interruptCount

/-- `k'` differs from `k` at most in the task `t`, in the order and cursors of
the lists, in the priority bits and in the scheduling data. -/
structure OnlyTask (t : TaskId) (k k' : Kernel) : Prop where
  tcb : ∀ x, x ≠ t → k'.tcb x = k.tcb x
  owner : ∀ c x, x ≠ t → k'.lists.owner c x = k.lists.owner c x
  value : ∀ c x, x ≠ t → k'.lists.value c x = k.lists.value c x
  pendValue : k'.lists.value .pend t = k.lists.value .pend t
  alloc : ∀ x, k'.alloc x = k.alloc x
  statics : k'.statics = k.statics

namespace OnlyTask

variable {t : TaskId} {k k' k'' : Kernel}

theorem refl : OnlyTask t k k :=
  ⟨fun _ _ => rfl, fun _ _ _ => rfl, fun _ _ _ => rfl, rfl, fun _ => rfl, rfl⟩

theorem trans (first : OnlyTask t k k') (second : OnlyTask t k' k'') : OnlyTask t k k'' where
  tcb x hx := (second.tcb x hx).trans (first.tcb x hx)
  owner c x hx := (second.owner c x hx).trans (first.owner c x hx)
  value c x hx := (second.value c x hx).trans (first.value c x hx)
  pendValue := second.pendValue.trans first.pendValue
  alloc x := (second.alloc x).trans (first.alloc x)
  statics := second.statics.trans first.statics

/-- The other tasks look as before. -/
theorem view (h : OnlyTask t k k') {x : TaskId} (hx : x ≠ t) : k'.view x = k.view x := by
  simp only [Kernel.view, Kernel.priority, h.tcb x hx, h.owner _ x hx, h.alloc x]

theorem is (h : OnlyTask t k k') {x : TaskId} (hx : x ≠ t) (f : Flag) : k'.is x f = k.is x f := by
  simp only [Kernel.is, h.tcb x hx]

theorem priority (h : OnlyTask t k k') {x : TaskId} (hx : x ≠ t) :
    k'.priority x = k.priority x := by
  simp only [Kernel.priority, h.tcb x hx]

theorem pendKey (h : OnlyTask t k k') (x : TaskId) :
    k'.lists.value .pend x = k.lists.value .pend x := by
  by_cases hx : x = t
  · rw [hx]
    exact h.pendValue
  · exact h.value .pend x hx

end OnlyTask

variable (k : Kernel) (t : TaskId)

theorem onlyTask_mapTcb (f : Tcb → Tcb) : OnlyTask t k (k.mapTcb t f) where
  tcb x hx := by simp [mapTcb, hx]
  owner _ _ _ := rfl
  value _ _ _ := rfl
  pendValue := rfl
  alloc _ := rfl
  statics := rfl

theorem onlyTask_setStatus (m : BitVec 16) : OnlyTask t k (k.dosSetTaskStatus t m) :=
  onlyTask_mapTcb k t _

theorem onlyTask_resetStatus (m : BitVec 16) : OnlyTask t k (k.dosResetTaskStatus t m) :=
  onlyTask_mapTcb k t _

theorem onlyTask_setPtiority : OnlyTask t k (k.dosSetTaskPtiority t) :=
  ⟨fun _ _ => rfl, fun _ _ _ => rfl, fun _ _ _ => rfl, rfl, fun _ => rfl, rfl⟩

theorem onlyTask_resetPtiority : OnlyTask t k (k.dosResetTaskPtiority t) :=
  ⟨fun _ _ => rfl, fun _ _ _ => rfl, fun _ _ _ => rfl, rfl, fun _ => rfl, rfl⟩

theorem onlyTask_itemInsert (l : ListId) : OnlyTask t k (k.dosTaskItemInsert l t) where
  tcb _ _ := rfl
  owner c x hx := by simp [dosTaskItemInsert, hx]
  value c x _ := by simp [dosTaskItemInsert]
  pendValue := by simp [dosTaskItemInsert]
  alloc _ := rfl
  statics := rfl

theorem onlyTask_itemDel (c : ItemKind) : OnlyTask t k (k.dosTaskItemDel c t) where
  tcb _ _ := rfl
  owner c' x hx := by simp [dosTaskItemDel, hx]
  value c' x _ := by simp [dosTaskItemDel]
  pendValue := by simp [dosTaskItemDel]
  alloc _ := rfl
  statics := rfl

theorem onlyTask_insertPriorityList : OnlyTask t k (k.dosInsertTaskPriorityList t) :=
  ((onlyTask_setPtiority k t).trans (onlyTask_setStatus _ t _)).trans (onlyTask_itemInsert _ t _)

theorem onlyTask_statusItemDel : OnlyTask t k (k.dosStatusItemDel t) := by
  unfold dosStatusItemDel
  dsimp only
  split
  · exact (onlyTask_itemDel k t .status).trans (onlyTask_resetPtiority _ t)
  · exact onlyTask_itemDel k t .status

theorem onlyTask_setNextWakeTick (tick : Nat) : OnlyTask t k (k.setNextWakeTick tick) :=
  ⟨fun _ _ => rfl, fun _ _ _ => rfl, fun _ _ _ => rfl, rfl, fun _ => rfl, rfl⟩

theorem onlyTask_setWakeTime (value : Nat) : OnlyTask t k (k.setWakeTime t value) where
  tcb _ _ := rfl
  owner c x hx := by simp [setWakeTime, hx]
  value c x hx := by simp [setWakeTime, hx]
  pendValue := by simp [setWakeTime]
  alloc _ := rfl
  statics := rfl

theorem onlyTask_linkSleepItem : OnlyTask t k (k.dosLinkSleepItem t) := by
  unfold dosLinkSleepItem
  dsimp only
  split
  · exact onlyTask_itemInsert k t _
  · split
    · exact (onlyTask_itemInsert k t _).trans (onlyTask_setNextWakeTick _ t _)
    · exact onlyTask_itemInsert k t _

theorem onlyTask_insertSleepItem (n : Nat) : OnlyTask t k (k.dosInsertSleepItem t n) :=
  ((((onlyTask_resetStatus k t _).trans (onlyTask_setStatus _ t _)).trans
    (onlyTask_statusItemDel _ t)).trans (onlyTask_setWakeTime _ t _)).trans
      (onlyTask_linkSleepItem _ t)

theorem onlyTask_insertSleepList (n : Nat) : OnlyTask t k (k.dosInsertTaskSleepList t n) := by
  unfold dosInsertTaskSleepList
  split
  · exact OnlyTask.refl
  · exact onlyTask_insertSleepItem k t n

/-- `dos_task_wait` concerns no other task, whatever the timeout. -/
theorem onlyTask_wait (id : PendId) (timeout : Nat) : OnlyTask t k (k.dosTaskWait t id timeout) := by
  have hPend := (onlyTask_setStatus k t Flag.suspend.mask).trans
    (onlyTask_itemInsert _ t (.pend id))
  unfold dosTaskWait
  dsimp only
  split
  · exact hPend.trans (onlyTask_insertSleepList _ t timeout)
  · exact (hPend.trans (onlyTask_resetStatus _ t _)).trans (onlyTask_statusItemDel _ t)

theorem onlyTask_wake : OnlyTask t k (k.dosTaskWake t) :=
  (((onlyTask_itemDel k t .pend).trans (onlyTask_itemDel _ t .status)).trans
    (onlyTask_resetStatus _ t _)).trans (onlyTask_insertPriorityList _ t)

theorem onlyTask_setPriority (prio : Nat) : OnlyTask t k (k.dosSetTaskPriority t prio) := by
  unfold dosSetTaskPriority
  split
  · exact (((onlyTask_statusItemDel k t).trans (onlyTask_resetStatus _ t _)).trans
      (onlyTask_mapTcb _ t _)).trans (onlyTask_insertPriorityList _ t)
  · exact onlyTask_mapTcb k t _

theorem onlyTask_timeoutCleanUp : OnlyTask t k (k.dosTimeoutCleanUp t) :=
  ((onlyTask_resetStatus k t _).trans (onlyTask_setStatus _ t _)).trans (onlyTask_itemDel _ t .pend)

/-- An expiry concerns no other task. -/
theorem onlyTask_expire : OnlyTask t k (k.dosExpireTask t) := by
  have hFlags := (onlyTask_itemDel k t .status).trans (onlyTask_resetStatus _ t Flag.delay.mask)
  unfold dosExpireTask
  dsimp only
  split
  · exact (hFlags.trans (onlyTask_setStatus _ t _)).trans (onlyTask_insertPriorityList _ t)
  · exact hFlags.trans (onlyTask_insertPriorityList _ t)

@[simp] theorem next_expire : (k.dosExpireTask t).dosNextWakeTick = k.dosNextWakeTick := by
  unfold dosExpireTask
  dsimp only
  split <;> rfl

theorem onlyTask_unlink : OnlyTask t k (k.dosTaskUnlink t) := by
  have hEnd (k : Kernel) :
      OnlyTask t k ((k.dosResetTaskStatus t Flag.all).dosSetTaskStatus t Flag.unused.mask) :=
    (onlyTask_resetStatus k t _).trans (onlyTask_setStatus _ t _)
  have hPend (k : Kernel) (b : Bool) :
      OnlyTask t k (if b then k.dosTaskItemDel .pend t else k) := by
    cases b with
    | false => exact OnlyTask.refl
    | true => exact onlyTask_itemDel k t .pend
  have hStatus (b : Bool) : OnlyTask t k (if b then k.dosStatusItemDel t else k) := by
    cases b with
    | false => exact OnlyTask.refl
    | true => exact onlyTask_statusItemDel k t
  exact ((hStatus _).trans (hPend _ _)).trans (hEnd _)

section View

@[simp] theorem view_setPtiority (x : TaskId) : (k.dosSetTaskPtiority t).view x = k.view x := rfl

@[simp] theorem view_resetPtiority (x : TaskId) : (k.dosResetTaskPtiority t).view x = k.view x :=
  rfl

@[simp] theorem view_setNextWakeTick (tick : Nat) (x : TaskId) :
    (k.setNextWakeTick tick).view x = k.view x := rfl

@[simp] theorem view_setStatus (m : BitVec 16) :
    (k.dosSetTaskStatus t m).view t = { k.view t with status := (k.view t).status ||| m } := by
  simp [view, dosSetTaskStatus, mapTcb, priority]

@[simp] theorem view_resetStatus (m : BitVec 16) :
    (k.dosResetTaskStatus t m).view t = { k.view t with status := (k.view t).status &&& ~~~m } := by
  simp [view, dosResetTaskStatus, mapTcb, priority]

@[simp] theorem view_itemDel_status :
    (k.dosTaskItemDel .status t).view t = { k.view t with statusOwner := none } := by
  simp [view, dosTaskItemDel, priority]

@[simp] theorem view_itemDel_pend :
    (k.dosTaskItemDel .pend t).view t = { k.view t with pendOwner := none } := by
  simp [view, dosTaskItemDel, priority]

theorem view_itemInsert_status {l : ListId} (hl : l.kind = .status) :
    (k.dosTaskItemInsert l t).view t = { k.view t with statusOwner := some l } := by
  simp [view, dosTaskItemInsert, priority, hl]

@[simp] theorem view_itemInsert_pend (id : PendId) :
    (k.dosTaskItemInsert (.pend id) t).view t =
      { k.view t with pendOwner := some (.pend id) } := by
  simp [view, dosTaskItemInsert, priority, ListId.kind]

@[simp] theorem view_setWakeTime (value : Nat) : (k.setWakeTime t value).view t = k.view t := by
  simp [view, setWakeTime, priority]

@[simp] theorem view_insertPriorityList :
    (k.dosInsertTaskPriorityList t).view t =
      { k.view t with
        status := (k.view t).status ||| Flag.ready.mask
        statusOwner := some (.priority (k.view t).priority) } := by
  simp only [dosInsertTaskPriorityList]
  rw [view_itemInsert_status _ _ rfl, view_setStatus, view_setPtiority]
  rfl

@[simp] theorem view_statusItemDel :
    (k.dosStatusItemDel t).view t = { k.view t with statusOwner := none } := by
  unfold dosStatusItemDel
  dsimp only
  split
  · rw [view_resetPtiority, view_itemDel_status]
  · exact view_itemDel_status k t

/-- The list a task that starts to sleep now goes on. -/
def sleepTarget (n : Nat) : ListId :=
  if (k.dosTickCount + n) % 2 ^ 32 < k.dosTickCount then k.dosTaskSleepOverflowList
  else k.dosTaskSleepList

def SleepPair : Prop :=
  (k.dosTaskSleepList = .sleep1 ∧ k.dosTaskSleepOverflowList = .sleep2) ∨
    (k.dosTaskSleepList = .sleep2 ∧ k.dosTaskSleepOverflowList = .sleep1)

variable {k}

/-- A task that starts to sleep goes on one of the two sleep lists. -/
theorem SleepPair.target (h : k.SleepPair) (n : Nat) :
    k.sleepTarget n = .sleep1 ∨ k.sleepTarget n = .sleep2 := by
  unfold sleepTarget
  rcases h with ⟨hs, ho⟩ | ⟨hs, ho⟩ <;> rw [hs, ho] <;> split <;> simp

theorem SleepPair.congr {k' : Kernel} (h : k.SleepPair) (hs : k'.statics = k.statics) :
    k'.SleepPair := by
  have h1 : k'.dosTaskSleepList = k.dosTaskSleepList := congrArg Statics.dosTaskSleepList hs
  have h2 : k'.dosTaskSleepOverflowList = k.dosTaskSleepOverflowList :=
    congrArg Statics.dosTaskSleepOverflowList hs
  unfold SleepPair
  rw [h1, h2]
  exact h

variable (k)

/-- The task is on the list that its wake time asks for. -/
theorem view_linkSleepItem (h : k.SleepPair) :
    (k.dosLinkSleepItem t).view t = { k.view t with
      statusOwner := some (if k.lists.value .status t < k.dosTickCount then
        k.dosTaskSleepOverflowList else k.dosTaskSleepList) } := by
  have hKind : k.dosTaskSleepList.kind = .status ∧ k.dosTaskSleepOverflowList.kind = .status := by
    rcases h with ⟨hs, ho⟩ | ⟨hs, ho⟩ <;> rw [hs, ho] <;> exact ⟨rfl, rfl⟩
  unfold dosLinkSleepItem
  dsimp only
  split
  · exact view_itemInsert_status k t hKind.2
  · split
    · rw [view_setNextWakeTick]
      exact view_itemInsert_status k t hKind.1
    · exact view_itemInsert_status k t hKind.1

theorem view_insertSleepItem (n : Nat) (h : k.SleepPair) :
    (k.dosInsertSleepItem t n).view t = { k.view t with
      status := ((k.view t).status &&& ~~~Flag.ready.mask) ||| Flag.delay.mask
      statusOwner := some (k.sleepTarget n) } := by
  let k₁ := ((k.dosResetTaskStatus t Flag.ready.mask).dosSetTaskStatus t
    Flag.delay.mask).dosStatusItemDel t
  have hStatics : k₁.statics = k.statics :=
    (((onlyTask_resetStatus k t _).trans (onlyTask_setStatus _ t _)).trans
      (onlyTask_statusItemDel _ t)).statics
  have hTick : k₁.dosTickCount = k.dosTickCount := congrArg Statics.dosTickCount hStatics
  have hSleep : k₁.dosTaskSleepList = k.dosTaskSleepList :=
    congrArg Statics.dosTaskSleepList hStatics
  have hOver : k₁.dosTaskSleepOverflowList = k.dosTaskSleepOverflowList :=
    congrArg Statics.dosTaskSleepOverflowList hStatics
  let k₂ := k₁.setWakeTime t ((k₁.dosTickCount + n) % 2 ^ 32)
  have hPair : k₂.SleepPair := by
    show k₁.SleepPair
    exact h.congr hStatics
  have hValue : k₂.lists.value .status t = (k.dosTickCount + n) % 2 ^ 32 := by
    simp [k₂, setWakeTime, hTick]
  show (k₂.dosLinkSleepItem t).view t = _
  rw [view_linkSleepItem k₂ t hPair, hValue]
  have hTick₂ : k₂.dosTickCount = k.dosTickCount := hTick
  have hSleep₂ : k₂.dosTaskSleepList = k.dosTaskSleepList := hSleep
  have hOver₂ : k₂.dosTaskSleepOverflowList = k.dosTaskSleepOverflowList := hOver
  rw [hTick₂, hSleep₂, hOver₂]
  simp [k₂, k₁, sleepTarget]

/-- The task behind `dos_task_wait`: asleep as well, unless it waits forever. -/
theorem view_wait (id : PendId) (timeout : Nat) (h : k.SleepPair) (hIdle : k.dosIdleTask ≠ some t) :
    (k.dosTaskWait t id timeout).view t =
      if timeout ≠ uint32Max then { k.view t with
        status := (((k.view t).status ||| Flag.suspend.mask) &&& ~~~Flag.ready.mask) |||
          Flag.delay.mask
        statusOwner := some (k.sleepTarget timeout)
        pendOwner := some (.pend id) }
      else { k.view t with
        status := ((k.view t).status ||| Flag.suspend.mask) &&& ~~~Flag.ready.mask
        statusOwner := none
        pendOwner := some (.pend id) } := by
  let k₁ := (k.dosSetTaskStatus t Flag.suspend.mask).dosTaskItemInsert (.pend id) t
  have hView : k₁.view t = { k.view t with
      status := (k.view t).status ||| Flag.suspend.mask
      pendOwner := some (.pend id) } := by
    simp [k₁]
  have hTarget : k₁.sleepTarget timeout = k.sleepTarget timeout := rfl
  unfold dosTaskWait
  dsimp only
  split
  · have hNot : k₁.dosIdleTask ≠ some t := hIdle
    show (k₁.dosInsertTaskSleepList t timeout).view t = _
    rw [dosInsertTaskSleepList, if_neg hNot, view_insertSleepItem k₁ t timeout h, hView, hTarget]
  · show ((k₁.dosResetTaskStatus t Flag.ready.mask).dosStatusItemDel t).view t = _
    rw [view_statusItemDel, view_resetStatus, hView]

@[simp] theorem view_wake :
    (k.dosTaskWake t).view t = { k.view t with
      status := ((k.view t).status &&& ~~~(Flag.suspend.mask ||| Flag.delay.mask)) |||
        Flag.ready.mask
      statusOwner := some (.priority (k.view t).priority)
      pendOwner := none } := by
  simp [dosTaskWake]

theorem view_mapPriority (prio : Nat) :
    (k.mapTcb t fun tcb => { tcb with priority := prio }).view t =
      { k.view t with priority := prio } := by
  simp [view, mapTcb, priority]

/-- A ready task moves to the ready list of its new priority. -/
theorem view_setPriority (prio : Nat) :
    (k.dosSetTaskPriority t prio).view t =
      if k.is t .ready then { k.view t with
        status := ((k.view t).status &&& ~~~Flag.ready.mask) ||| Flag.ready.mask
        priority := prio
        statusOwner := some (.priority prio) }
      else { k.view t with priority := prio } := by
  unfold dosSetTaskPriority
  split
  · simp [view_mapPriority]
  · exact view_mapPriority k t prio

@[simp] theorem view_timeoutCleanUp :
    (k.dosTimeoutCleanUp t).view t = { k.view t with
      status := ((k.view t).status &&& ~~~(Flag.timeout.mask ||| Flag.suspend.mask)) |||
        Flag.ready.mask
      pendOwner := none } := by
  simp [dosTimeoutCleanUp]

/-- An expired task is ready, with the timeout flag if it was suspended. -/
theorem view_expire :
    (k.dosExpireTask t).view t = { k.view t with
      status := (if k.is t .suspend then
          ((k.view t).status &&& ~~~Flag.delay.mask) ||| Flag.timeout.mask
        else (k.view t).status &&& ~~~Flag.delay.mask) ||| Flag.ready.mask
      statusOwner := some (.priority (k.view t).priority) } := by
  have hSuspend : ((k.dosTaskItemDel .status t).dosResetTaskStatus t Flag.delay.mask).is t
      .suspend = k.is t .suspend := by
    simp [is, dosResetTaskStatus, mapTcb, dosTaskItemDel]
  unfold dosExpireTask
  dsimp only
  rw [hSuspend]
  split <;> simp

@[simp] theorem view_freeTcb : (k.freeTcb t).view t = { k.view t with alloc := false } := by
  simp [view, freeTcb, priority]

theorem view_freeTcb_of_ne {x : TaskId} (hx : x ≠ t) : (k.freeTcb t).view x = k.view x := by
  simp [view, freeTcb, priority, hx]

@[simp] theorem view_getFirstTask (l : ListId) (x : TaskId) :
    (k.dosGetFirstTask l).1.view x = k.view x := rfl

/-- Which items `dos_task_delete` removes is decided by the flags of the task. -/
theorem view_unlink :
    (k.dosTaskUnlink t).view t = { k.view t with
      status := ((k.view t).status &&& ~~~Flag.all) ||| Flag.unused.mask
      statusOwner := if k.is t .delay || k.is t .ready then none else (k.view t).statusOwner
      pendOwner := if k.is t .suspend then none else (k.view t).pendOwner } := by
  have hPend (k : Kernel) (b : Bool) : (if b then k.dosTaskItemDel .pend t else k).view t =
      { k.view t with pendOwner := if b then none else (k.view t).pendOwner } := by
    cases b with
    | false => rfl
    | true => exact view_itemDel_pend k t
  have hStatus (b : Bool) : (if b then k.dosStatusItemDel t else k).view t =
      { k.view t with statusOwner := if b then none else (k.view t).statusOwner } := by
    cases b with
    | false => rfl
    | true => exact view_statusItemDel k t
  unfold dosTaskUnlink
  dsimp only
  rw [view_setStatus, view_resetStatus, hPend, hStatus]
  rfl

end View

section Scheduler

/-- `k'` differs from `k` only in time slices and in the scheduler's choice. -/
structure SameTasks (k k' : Kernel) : Prop where
  tcb : ∀ x, { k'.tcb x with taskTick := 0 } = { k.tcb x with taskTick := 0 }
  alloc : k'.alloc = k.alloc
  lists : k'.lists = k.lists
  dosTaskPriority : k'.dosTaskPriority = k.dosTaskPriority
  dosNextWakeTick : k'.dosNextWakeTick = k.dosNextWakeTick
  statics : k'.statics = k.statics

variable {k} {k' : Kernel}

theorem SameTasks.taskStatus (h : SameTasks k k') (x : TaskId) :
    (k'.tcb x).taskStatus = (k.tcb x).taskStatus := by
  have hTcb := congrArg Tcb.taskStatus (h.tcb x)
  exact hTcb

theorem SameTasks.priority (h : SameTasks k k') (x : TaskId) : k'.priority x = k.priority x := by
  have hTcb := congrArg Tcb.priority (h.tcb x)
  exact hTcb

theorem SameTasks.is (h : SameTasks k k') (x : TaskId) (f : Flag) : k'.is x f = k.is x f := by
  simp only [Kernel.is, h.taskStatus x]

theorem SameTasks.view (h : SameTasks k k') (x : TaskId) : k'.view x = k.view x := by
  simp only [Kernel.view, h.taskStatus x, h.priority x, h.lists, h.alloc]

variable (k)

theorem sameTasks_mapTick (c : TaskId) (f : Tcb → Nat) :
    SameTasks k (k.mapTcb c fun tcb => { tcb with taskTick := f tcb }) where
  tcb x := by
    simp only [mapTcb]
    split <;> rfl
  alloc := rfl
  lists := rfl
  dosTaskPriority := rfl
  dosNextWakeTick := rfl
  statics := rfl

theorem sameTasks_findPriority : SameTasks k k.dosFindPriority :=
  ⟨fun _ => rfl, rfl, rfl, rfl, rfl, rfl⟩

/-- The search for the most urgent priority changes no task. -/
theorem sameTasks_check : SameTasks k k.dosCheckTaskPriority.1 := by
  let k₁ := k.dosFindPriority
  have hTick (c : TaskId) (f : Tcb → Nat) :
      SameTasks k (k₁.mapTcb c fun tcb => { tcb with taskTick := f tcb }) :=
    ⟨(sameTasks_mapTick k₁ c f).tcb, rfl, rfl, rfl, rfl, rfl⟩
  unfold dosCheckTaskPriority
  dsimp only
  split
  · exact sameTasks_findPriority k
  · rename_i c hCurrent
    split
    · exact sameTasks_findPriority k
    · split
      · split
        · exact hTick c fun tcb => tcb.taskInitTick
        · exact hTick c fun _ => ((k₁.tcb c).taskTick + (2 ^ 32 - 1)) % 2 ^ 32
      · exact sameTasks_findPriority k

/-- The scheduler changes no task but for its time slice. -/
theorem sameTasks_scheduler : SameTasks k k.dosScheduler := by
  have hRefl : SameTasks k k := ⟨fun _ => rfl, rfl, rfl, rfl, rfl, rfl⟩
  have hCheck := sameTasks_check k
  unfold dosScheduler
  dsimp only
  split
  · exact hRefl
  · split
    · split
      · exact ⟨hCheck.tcb, hCheck.alloc, hCheck.lists, hCheck.dosTaskPriority,
          hCheck.dosNextWakeTick, hCheck.statics⟩
      · exact hCheck
    · exact hRefl

end Scheduler

section Tick

variable {P : Kernel → Prop} (next : ∀ {k} n, P k → P (setNextWakeTick k n))
  (first : ∀ {k : Kernel}, P k → P (k.dosGetFirstTask k.dosTaskSleepList).1)

include next first

/-- The invariant rule for the beginning of `dos_tick_update`. -/
theorem tickAdvance_rule (inc : ∀ {k}, P k → P (dosTickCountInc k))
    (swap : ∀ {k}, P k → P (dosSwapSleepLists k)) {k : Kernel} (h : P k) : P k.dosTickAdvance := by
  unfold dosTickAdvance
  split
  · unfold dosSwitchSleepList
    dsimp only
    split
    · split
      · exact next _ (swap (inc h))
      · have hFirst := first (swap (inc h))
        split
        · rename_i k₁ x hHead
          have hk : k₁ = _ := (congrArg Prod.fst hHead).symm
          subst hk
          exact next _ hFirst
        · rename_i k₁ hHead
          have hk : k₁ = _ := (congrArg Prod.fst hHead).symm
          subst hk
          exact hFirst
    · exact inc h
  · exact inc h

/-- The invariant rule for the expiry loop. Every turn treats the first task of
the sleep list. -/
theorem tickTimeouts_rule
    (expire : ∀ {k : Kernel} {t}, P k → (k.lists.items k.dosTaskSleepList).head? = some t →
      P (k.dosExpireTask t)) {k : Kernel} (h : P k) : P k.dosTickTimeouts := by
  have hLoop : ∀ (fuel : Nat) {k : Kernel}, P k → P (dosTickExpire fuel k) := by
    intro fuel
    induction fuel with
    | zero => exact fun h => h
    | succ fuel ih =>
        intro k h
        unfold dosTickExpire
        split
        · exact next _ h
        · split
          · rename_i k₁ hHead
            have hk : k₁ = _ := (congrArg Prod.fst hHead).symm
            subst hk
            exact first h
          · rename_i k₁ t hHead
            have hk : k₁ = _ := (congrArg Prod.fst hHead).symm
            have ht : (k.lists.items k.dosTaskSleepList).head? = some t := congrArg Prod.snd hHead
            subst hk
            dsimp only
            split
            · exact next _ (first h)
            · refine ih (expire (first h) ?_)
              show ((k.lists.dosGetFirstTask _).1.items _).head? = some t
              rw [TaskLists.first_items]
              exact ht
  unfold dosTickTimeouts
  split
  · exact hLoop _ h
  · exact h

end Tick

end Kernel

end DoraOS
