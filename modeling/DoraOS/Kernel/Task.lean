import DoraOS.Kernel.TaskList
import DoraOS.Kernel.Status

/-! The task management of `src/task.c` and the scheduler of `src/sys.c`.
Every function is a state transformer on the kernel's static variables, its
task control blocks and its task lists. -/
namespace DoraOS

/-- `DOS_UINT32_MAX`, also `DOS_WAIT_FOREVER` and the value of an end item. -/
abbrev uint32Max : Nat := 0xFFFFFFFF

theorem uint32Max_eq : uint32Max = 2 ^ 32 - 1 := rfl

/-- The build configuration read by this part of the kernel. -/
structure Config where
  dosMaxPriorityNum : Nat
  dosHwClzSupt : Bool

def shippedConfig : Config where
  dosMaxPriorityNum := 32
  dosHwClzSupt := true

namespace Config

variable (cfg : Config)

/-- `DOS_PRIORITY_TAB`, the number of words in the table of ready priorities. -/
def dosPriorityTab : Nat :=
  if cfg.dosMaxPriorityNum > 32 then (cfg.dosMaxPriorityNum - 1) / 32 + 1 else 1

/-- `DOS_PRIORITY_TAB_INDEX`. The division truncates towards zero, so that
priority 0 is in the first word too. -/
def priorityTabIndex (prio : Nat) : Nat :=
  if cfg.dosMaxPriorityNum > 32 then (prio - 1) / 32 else 0

def priorityTabBit (prio : Nat) : Nat :=
  if cfg.dosMaxPriorityNum > 32 then prio % 32 else prio

end Config

/-- `struct dos_task` without its stack fields, which no modelled function
reads, and without its two list items, which are kept with the lists. -/
structure Tcb where
  taskStatus : BitVec 16 := 0
  priority : Nat := 0
  taskTick : Nat := 0
  taskInitTick : Nat := 0
  waitEvent : BitVec 32 := 0
  waitEventOpt : BitVec 32 := 0
  eventGet : BitVec 32 := 0

/-- The variables of `task.c` and `sys.c` with the build configuration. `alloc`
tells which control blocks are allocated, and `yieldPending` is the PendSV
request of `DOS_TASK_YIELD`. With at most 32 priorities only the first word of
`dosTaskPriority` exists. -/
structure Kernel where
  config : Config
  tcb : TaskId → Tcb
  alloc : TaskId → Bool
  lists : TaskLists
  dosTaskPriority : Nat → BitVec 32
  dosTaskSleepList : ListId
  dosTaskSleepOverflowList : ListId
  dosNextWakeTick : Nat
  dosTickCount : Nat
  dosCurPriority : Nat
  dosCurrentTask : Option TaskId
  dosIdleTask : Option TaskId
  systemIsRun : Bool
  schedulerLock : Nat
  interruptCount : Nat
  yieldPending : Bool

namespace Kernel

variable (k : Kernel)

def is (t : TaskId) (f : Flag) : Bool := Flag.test (k.tcb t).taskStatus f

def priority (t : TaskId) : Nat := (k.tcb t).priority

/-- A created task that has not been deleted. -/
def Live (t : TaskId) : Prop := k.alloc t = true ∧ k.is t .unused = false

instance (t : TaskId) : Decidable (k.Live t) := inferInstanceAs (Decidable (_ ∧ _))

def mapTcb (t : TaskId) (f : Tcb → Tcb) : Kernel :=
  { k with tcb := fun t' => if t' = t then f (k.tcb t') else k.tcb t' }

def dosSetTaskStatus (t : TaskId) (status : BitVec 16) : Kernel :=
  k.mapTcb t fun tcb => { tcb with taskStatus := tcb.taskStatus ||| status }

def dosResetTaskStatus (t : TaskId) (status : BitVec 16) : Kernel :=
  k.mapTcb t fun tcb => { tcb with taskStatus := tcb.taskStatus &&& ~~~status }

def mapPriorityWord (i : Nat) (f : BitVec 32 → BitVec 32) : Kernel :=
  { k with dosTaskPriority := fun i' =>
      if i' = i then f (k.dosTaskPriority i') else k.dosTaskPriority i' }

def dosSetTaskPtiority (t : TaskId) : Kernel :=
  k.mapPriorityWord (k.config.priorityTabIndex (k.priority t)) fun word =>
    word ||| 1#32 <<< k.config.priorityTabBit (k.priority t)

def dosResetTaskPtiority (t : TaskId) : Kernel :=
  k.mapPriorityWord (k.config.priorityTabIndex (k.priority t)) fun word =>
    word &&& ~~~(1#32 <<< k.config.priorityTabBit (k.priority t))

def dosTaskItemInsert (l : ListId) (t : TaskId) : Kernel :=
  { k with lists := k.lists.dosTaskItemInsert l t }

def dosTaskItemDel (c : ItemKind) (t : TaskId) : Kernel :=
  { k with lists := (k.lists.dosTaskItemDel c t).1 }

def dosInsertTaskPriorityList (t : TaskId) : Kernel :=
  ((k.dosSetTaskPtiority t).dosSetTaskStatus t Flag.ready.mask).dosTaskItemInsert
    (.priority (k.priority t)) t

/-- The removal of a status item as `dos_task_delete`, `dos_task_wait`,
`dos_set_task_priority` and `_dos_insert_task_sleep_list` write it out: the
priority bit is cancelled when the list the item left is empty and so is the
ready list of the task's priority. -/
def dosStatusItemDel (t : TaskId) : Kernel :=
  let left := (k.lists.dosTaskItemDel .status t).2
  let k := k.dosTaskItemDel .status t
  if left = some 0 ∧ k.lists.dosTaskListIsEmpty (.priority (k.priority t)) = true then
    k.dosResetTaskPtiority t
  else k

def setNextWakeTick (tick : Nat) : Kernel := { k with dosNextWakeTick := tick }

def setWakeTime (t : TaskId) (value : Nat) : Kernel :=
  { k with
    lists := k.lists.setItem .status t
      { dosTaskValue := value, dosTaskList := k.lists.owner .status t } }

/-- The choice of the sleep list in `_dos_insert_task_sleep_list`: a wake time
that wrapped goes on the overflow list. -/
def dosLinkSleepItem (t : TaskId) : Kernel :=
  let value := k.lists.value .status t
  if value < k.dosTickCount then k.dosTaskItemInsert k.dosTaskSleepOverflowList t
  else
    let k := k.dosTaskItemInsert k.dosTaskSleepList t
    if k.dosNextWakeTick ≥ value then k.setNextWakeTick value else k

/-- The part of `_dos_insert_task_sleep_list` behind its idle check. -/
def dosInsertSleepItem (t : TaskId) (sleepTick : Nat) : Kernel :=
  let k := (k.dosResetTaskStatus t Flag.ready.mask).dosSetTaskStatus t Flag.delay.mask
  let k := k.dosStatusItemDel t
  (k.setWakeTime t ((k.dosTickCount + sleepTick) % 2 ^ 32)).dosLinkSleepItem t

/-- `_dos_insert_task_sleep_list` with `t` as the current task. -/
def dosInsertTaskSleepList (t : TaskId) (sleepTick : Nat) : Kernel :=
  if k.dosIdleTask = some t then k else k.dosInsertSleepItem t sleepTick

/-- `dos_task_wait` with `t` as the current task. -/
def dosTaskWait (t : TaskId) (id : PendId) (timeout : Nat) : Kernel :=
  let k := (k.dosSetTaskStatus t Flag.suspend.mask).dosTaskItemInsert (.pend id) t
  if timeout ≠ uint32Max then k.dosInsertTaskSleepList t timeout
  else (k.dosResetTaskStatus t Flag.ready.mask).dosStatusItemDel t

def dosTaskWake (t : TaskId) : Kernel :=
  let k := (k.dosTaskItemDel .pend t).dosTaskItemDel .status t
  (k.dosResetTaskStatus t (Flag.suspend.mask ||| Flag.delay.mask)).dosInsertTaskPriorityList t

def dosSetTaskPriority (t : TaskId) (prio : Nat) : Kernel :=
  if k.is t .ready then
    let k := (k.dosStatusItemDel t).dosResetTaskStatus t Flag.ready.mask
    (k.mapTcb t fun tcb => { tcb with priority := prio }).dosInsertTaskPriorityList t
  else k.mapTcb t fun tcb => { tcb with priority := prio }

/-- What a resumed waiter does when it finds the timeout flag set, as
`dos_sem_pend`, `dos_mutex_pend`, `dos_event_wait` and `_dos_queue_handler`
all write it out. -/
def dosTimeoutCleanUp (t : TaskId) : Kernel :=
  ((k.dosResetTaskStatus t (Flag.timeout.mask ||| Flag.suspend.mask)).dosSetTaskStatus t
    Flag.ready.mask).dosTaskItemDel .pend t

/-- `hard_ware_clz` of `port.s`: reverse the bits, then count leading zeros. -/
def hardWareClz (pri : BitVec 32) : Nat := pri.reverse.clz.toNat

def dosBitMap : List Nat :=
  [0, 0, 1, 0, 2, 0, 1, 0, 3, 0, 1, 0, 2, 0, 1, 0,
   4, 0, 1, 0, 2, 0, 1, 0, 3, 0, 1, 0, 2, 0, 1, 0,
   5, 0, 1, 0, 2, 0, 1, 0, 3, 0, 1, 0, 2, 0, 1, 0,
   4, 0, 1, 0, 2, 0, 1, 0, 3, 0, 1, 0, 2, 0, 1, 0,
   6, 0, 1, 0, 2, 0, 1, 0, 3, 0, 1, 0, 2, 0, 1, 0,
   4, 0, 1, 0, 2, 0, 1, 0, 3, 0, 1, 0, 2, 0, 1, 0,
   5, 0, 1, 0, 2, 0, 1, 0, 3, 0, 1, 0, 2, 0, 1, 0,
   4, 0, 1, 0, 2, 0, 1, 0, 3, 0, 1, 0, 2, 0, 1, 0,
   7, 0, 1, 0, 2, 0, 1, 0, 3, 0, 1, 0, 2, 0, 1, 0,
   4, 0, 1, 0, 2, 0, 1, 0, 3, 0, 1, 0, 2, 0, 1, 0,
   5, 0, 1, 0, 2, 0, 1, 0, 3, 0, 1, 0, 2, 0, 1, 0,
   4, 0, 1, 0, 2, 0, 1, 0, 3, 0, 1, 0, 2, 0, 1, 0,
   6, 0, 1, 0, 2, 0, 1, 0, 3, 0, 1, 0, 2, 0, 1, 0,
   4, 0, 1, 0, 2, 0, 1, 0, 3, 0, 1, 0, 2, 0, 1, 0,
   5, 0, 1, 0, 2, 0, 1, 0, 3, 0, 1, 0, 2, 0, 1, 0,
   4, 0, 1, 0, 2, 0, 1, 0, 3, 0, 1, 0, 2, 0, 1, 0]

/-- The bytewise table lookup compiled in without `DOS_HW_CLZ_SUPT`. -/
def dosBitMapLookup (pri : BitVec 32) : Nat :=
  if pri &&& 0xff ≠ 0 then dosBitMap.getD (pri &&& 0xff).toNat 0
  else if pri &&& 0xff00 ≠ 0 then dosBitMap.getD ((pri &&& 0xff00) >>> 8).toNat 0 + 8
  else if pri &&& 0xff0000 ≠ 0 then dosBitMap.getD ((pri &&& 0xff0000) >>> 16).toNat 0 + 16
  else dosBitMap.getD ((pri &&& 0xff000000) >>> 24).toNat 0 + 24

def dosGetHighestPriority (cfg : Config) (pri : BitVec 32) : Nat :=
  if pri = 0 then 0
  else if cfg.dosHwClzSupt then hardWareClz pri else dosBitMapLookup pri

/-- The index at which the loop over the priority table stops. -/
def dosPriorityWord : Nat :=
  if k.config.dosMaxPriorityNum > 32 then
    ((List.range k.config.dosPriorityTab).find? fun i => k.dosTaskPriority i ≠ 0).getD
      k.config.dosPriorityTab
  else 0

/-- The assignment to `dos_cur_priority` in `dos_check_task_priority`. -/
def dosFindPriority : Kernel :=
  let i := k.dosPriorityWord
  { k with dosCurPriority := dosGetHighestPriority k.config (k.dosTaskPriority i) + 32 * i }

/-- `dos_check_task_priority`. Before the first task has been chosen there is
no current task to compare with. -/
def dosCheckTaskPriority : Kernel × Bool :=
  let k := k.dosFindPriority
  match k.dosCurrentTask with
  | none => (k, false)
  | some c =>
      if k.dosCurPriority < k.priority c ∨ k.is c .ready = false then (k, true)
      else if k.lists.dosGetTaskListValue (.priority (k.priority c)) > 1 then
        let tick := ((k.tcb c).taskTick + (2 ^ 32 - 1)) % 2 ^ 32
        if tick = 0 then
          (k.mapTcb c fun tcb => { tcb with taskTick := tcb.taskInitTick }, true)
        else (k.mapTcb c fun tcb => { tcb with taskTick := tick }, false)
      else (k, false)

/-- `dos_scheduler` with the `_dos_scheduler` it calls. A yield only raises
the request for a context switch. -/
def dosScheduler : Kernel :=
  if k.interruptCount ≠ 0 then k
  else if k.schedulerLock = 0 ∧ k.systemIsRun = true then
    let r := k.dosCheckTaskPriority
    if r.2 then { r.1 with yieldPending := true } else r.1
  else k

/-- `dos_choose_task`, called by the context switch. -/
def dosChooseTask : Kernel :=
  let r := k.lists.dosGetNextTask (.priority k.dosCurPriority)
  { k with lists := r.1, dosCurrentTask := r.2, yieldPending := false }

def dosChooseHighestPriorityTask : Kernel :=
  let r := k.lists.dosGetFirstTask (.priority k.dosCurPriority)
  { k with lists := r.1, dosCurrentTask := r.2 }

/-- `dos_system_start_run` up to the start of the first task. -/
def dosSystemStartRun : Kernel :=
  let k := k.dosCheckTaskPriority.1.dosChooseHighestPriorityTask
  { k with dosTickCount := 0, systemIsRun := true }

/-- `dos_scheduler_lock`. The nesting depth is an 8-bit counter. -/
def dosSchedulerLock : Kernel := { k with schedulerLock := (k.schedulerLock + 1) % 2 ^ 8 }

def dosSchedulerUnlock : Kernel :=
  if k.schedulerLock > 0 then
    let k := { k with schedulerLock := k.schedulerLock - 1 }
    if k.schedulerLock = 0 then k.dosScheduler else k
  else k

/-- `dos_task_sleep` with `t` as the current task. -/
def dosTaskSleep (t : TaskId) (sleepTick : Nat) : Kernel :=
  if sleepTick = 0 then k.dosScheduler
  else (k.dosInsertTaskSleepList t sleepTick).dosScheduler

/-- `dos_task_create` up to the insertion into the ready list. -/
def dosInitTcb (t : TaskId) (prio tick : Nat) : Kernel :=
  let tick := if tick = 0 then 1 else tick
  { k with
    tcb := fun t' =>
      if t' = t then
        { k.tcb t with
          taskInitTick := tick, taskTick := tick, waitEvent := 0, waitEventOpt := 0
          priority := prio }
      else k.tcb t'
    lists := (k.lists.dosTaskItemInit .status t).setItem .pend t
      { dosTaskValue := prio, dosTaskList := none }
    alloc := fun t' => if t' = t then true else k.alloc t' }

/-- `dos_task_create` into the control block `t` that `dos_mem_alloc` returned.
The status word and `event_get` keep what the memory held. -/
def dosTaskCreate (t : TaskId) (prio tick : Nat) : Option Kernel :=
  if prio > k.config.dosMaxPriorityNum then none
  else some ((k.dosInitTcb t prio tick).dosInsertTaskPriorityList t)

def freeTcb (t : TaskId) : Kernel :=
  { k with alloc := fun t' => if t' = t then false else k.alloc t' }

/-- `dos_task_delete` from the removal of the status item to the new status. -/
def dosTaskUnlink (t : TaskId) : Kernel :=
  let status := (k.tcb t).taskStatus
  let k := if Flag.test status .delay || Flag.test status .ready then k.dosStatusItemDel t else k
  let k := if Flag.test status .suspend then k.dosTaskItemDel .pend t else k
  (k.dosResetTaskStatus t Flag.all).dosSetTaskStatus t Flag.unused.mask

/-- `dos_task_delete` of an allocated control block. The boolean is true on
`DOS_OK`. -/
def dosTaskDelete (t : TaskId) : Kernel × Bool :=
  if (k.tcb t).taskStatus = Flag.unused.mask then (k, false)
  else if k.schedulerLock ≠ 0 then (k, false)
  else if (k.dosTaskUnlink t).dosCurrentTask ≠ some t then ((k.dosTaskUnlink t).freeTcb t, true)
  else ((k.dosTaskUnlink t).dosTaskItemInsert .recycle t, true)

/-- `dos_get_first_task`, with the task that the cursor is left on. -/
def dosGetFirstTask (l : ListId) : Kernel × Option TaskId :=
  ({ k with lists := (k.lists.dosGetFirstTask l).1 }, (k.lists.dosGetFirstTask l).2)

/-- One turn of the loop of `_dos_idle_task` that frees deleted tasks. -/
def dosIdleRecycle : Kernel :=
  if k.lists.dosTaskListIsEmpty .recycle then k
  else
    match k.dosGetFirstTask .recycle with
    | (k, some t) => (k.dosTaskItemDel .status t).freeTcb t
    | (k, none) => k

def dosSwapSleepLists : Kernel :=
  { k with
    dosTaskSleepList := k.dosTaskSleepOverflowList
    dosTaskSleepOverflowList := k.dosTaskSleepList }

def dosSwitchSleepList : Kernel :=
  if k.lists.dosTaskListIsEmpty k.dosTaskSleepList then
    let k := k.dosSwapSleepLists
    if k.lists.dosTaskListIsEmpty k.dosTaskSleepList then k.setNextWakeTick uint32Max
    else
      match k.dosGetFirstTask k.dosTaskSleepList with
      | (k, some t) => k.setNextWakeTick (k.lists.value .status t)
      | (k, none) => k
  else k

def dosExpireTask (t : TaskId) : Kernel :=
  let k := (k.dosTaskItemDel .status t).dosResetTaskStatus t Flag.delay.mask
  let k := if k.is t .suspend then k.dosSetTaskStatus t Flag.timeout.mask else k
  k.dosInsertTaskPriorityList t

/-- The expiry loop of `dos_tick_update`. Every turn but the last unlinks one
task of the sleep list, so its length bounds the number of turns. -/
def dosTickExpire : Nat → Kernel → Kernel
  | 0, k => k
  | fuel + 1, k =>
      if k.lists.dosTaskListIsEmpty k.dosTaskSleepList then k.setNextWakeTick uint32Max
      else
        match k.dosGetFirstTask k.dosTaskSleepList with
        | (k, none) => k
        | (k, some t) =>
            let tick := k.lists.value .status t
            if tick > k.dosNextWakeTick then k.setNextWakeTick tick
            else dosTickExpire fuel (k.dosExpireTask t)

def dosTickCountInc : Kernel := { k with dosTickCount := (k.dosTickCount + 1) % 2 ^ 32 }

/-- The tick count of `dos_tick_update` and its switch of lists on overflow. -/
def dosTickAdvance : Kernel :=
  if k.dosTickCountInc.dosTickCount = 0 then k.dosTickCountInc.dosSwitchSleepList
  else k.dosTickCountInc

def dosTickTimeouts : Kernel :=
  if k.dosTickCount ≥ k.dosNextWakeTick then
    dosTickExpire (k.lists.dosGetTaskListValue k.dosTaskSleepList + 1) k
  else k

/-- On overflow `dos_swtmr_overflow` posts to the timer queue, whose only
effect on this state is to wake the task `notify` that waits for it, if there
is one. -/
def dosTickNotify (notify : Option TaskId) : Kernel :=
  match notify with
  | some t => if k.dosTickCount = 0 then k.dosTaskWake t else k
  | none => k

def dosTickUpdate (notify : Option TaskId) : Kernel :=
  (k.dosTickAdvance.dosTickNotify notify).dosTickTimeouts.dosScheduler

end Kernel

/-- All lists empty and every item unlinked, as after `_dos_task_list_init`. -/
def TaskLists.empty : TaskLists where
  item _ _ := { dosTaskValue := 0, dosTaskList := none }
  list _ := { items := [], taskItem := none }

/-- The static variables before `dos_task_init` creates the idle task. -/
def Kernel.boot (cfg : Config) : Kernel where
  config := cfg
  tcb _ := {}
  alloc _ := false
  lists := TaskLists.empty
  dosTaskPriority _ := 0
  dosTaskSleepList := .sleep1
  dosTaskSleepOverflowList := .sleep2
  dosNextWakeTick := uint32Max
  dosTickCount := 0
  dosCurPriority := 0
  dosCurrentTask := none
  dosIdleTask := none
  systemIsRun := false
  schedulerLock := 0
  interruptCount := 0
  yieldPending := false

/-- `dos_task_init`. The priority `DOS_IDLE_TASK_PRIORITY` is the last one; it
is computed as an unsigned word and passed as a 16-bit argument. -/
def Kernel.dosTaskInit (cfg : Config) (idle : TaskId) : Option Kernel :=
  let prio := (cfg.dosMaxPriorityNum + (2 ^ 32 - 1)) % 2 ^ 32 % 2 ^ 16
  ((Kernel.boot cfg).dosTaskCreate idle prio 20).map fun k => { k with dosIdleTask := some idle }

end DoraOS
