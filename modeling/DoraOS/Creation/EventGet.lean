import DoraOS.Ipc.Timeout
import DoraOS.Library.Lockstep
import Mathlib.Logic.Function.Basic

/-! The field `event_get` of a control block. `dos_task_create` does not assign
it, `dos_event_set` writes it when it selects a waiter, and `dos_event_wait`
returns it. Nothing else in the kernel depends on it, nor on the bytes that
queues copy. -/
namespace DoraOS

namespace Kernel

variable (k : Kernel) (g : TaskId → BitVec 32)

def withGets : Kernel := { k with tcb := fun t => { k.tcb t with eventGet := g t } }

theorem withGets_self : k.withGets (fun t => (k.tcb t).eventGet) = k := rfl

theorem mapTcb_withGets (t : TaskId) (f : Tcb → Tcb)
    (hf : ∀ tcb v, f { tcb with eventGet := v } = { f tcb with eventGet := v }) :
    (k.withGets g).mapTcb t f = (k.mapTcb t f).withGets g := by
  have hTcb : ((k.withGets g).mapTcb t f).tcb = ((k.mapTcb t f).withGets g).tcb := by
    funext x
    simp only [mapTcb, withGets]
    split
    · exact hf _ _
    · rfl
  simp only [mapTcb, withGets] at hTcb ⊢
  rw [hTcb]

section Operations

variable (t : TaskId)

@[simp] theorem set_withGets (status : BitVec 16) :
    (k.withGets g).dosSetTaskStatus t status = (k.dosSetTaskStatus t status).withGets g :=
  mapTcb_withGets k g t _ fun _ _ => rfl

@[simp] theorem reset_withGets (status : BitVec 16) :
    (k.withGets g).dosResetTaskStatus t status = (k.dosResetTaskStatus t status).withGets g :=
  mapTcb_withGets k g t _ fun _ _ => rfl

@[simp] theorem itemDel_withGets (c : ItemKind) :
    (k.withGets g).dosTaskItemDel c t = (k.dosTaskItemDel c t).withGets g := rfl

@[simp] theorem itemInsert_withGets (l : ListId) :
    (k.withGets g).dosTaskItemInsert l t = (k.dosTaskItemInsert l t).withGets g := rfl

@[simp] theorem setPtiority_withGets :
    (k.withGets g).dosSetTaskPtiority t = (k.dosSetTaskPtiority t).withGets g := rfl

@[simp] theorem resetPtiority_withGets :
    (k.withGets g).dosResetTaskPtiority t = (k.dosResetTaskPtiority t).withGets g := rfl

@[simp] theorem insertPriorityList_withGets :
    (k.withGets g).dosInsertTaskPriorityList t = (k.dosInsertTaskPriorityList t).withGets g := by
  simp only [dosInsertTaskPriorityList, setPtiority_withGets, set_withGets, itemInsert_withGets]
  rfl

@[simp] theorem statusItemDel_withGets :
    (k.withGets g).dosStatusItemDel t = (k.dosStatusItemDel t).withGets g := by
  simp only [dosStatusItemDel, itemDel_withGets, resetPtiority_withGets]
  exact (apply_ite (withGets · g) _ _ _).symm

@[simp] theorem setWakeTime_withGets (value : Nat) :
    (k.withGets g).setWakeTime t value = (k.setWakeTime t value).withGets g := rfl

@[simp] theorem linkSleepItem_withGets :
    (k.withGets g).dosLinkSleepItem t = (k.dosLinkSleepItem t).withGets g := by
  unfold dosLinkSleepItem
  dsimp only
  by_cases hWrap : k.lists.value .status t < k.dosTickCount
  · rw [if_pos hWrap]
    exact if_pos hWrap
  · rw [if_neg hWrap]
    refine (if_neg hWrap).trans ?_
    by_cases hNext : (k.dosTaskItemInsert k.dosTaskSleepList t).dosNextWakeTick ≥
        k.lists.value .status t
    · rw [if_pos hNext]
      exact if_pos hNext
    · rw [if_neg hNext]
      exact if_neg hNext

@[simp] theorem insertSleepItem_withGets (n : Nat) :
    (k.withGets g).dosInsertSleepItem t n = (k.dosInsertSleepItem t n).withGets g := by
  simp only [dosInsertSleepItem, reset_withGets, set_withGets, statusItemDel_withGets,
    setWakeTime_withGets, linkSleepItem_withGets]
  rfl

@[simp] theorem insertSleepList_withGets (n : Nat) :
    (k.withGets g).dosInsertTaskSleepList t n = (k.dosInsertTaskSleepList t n).withGets g := by
  simp only [dosInsertTaskSleepList, insertSleepItem_withGets]
  exact (apply_ite (withGets · g) _ _ _).symm

@[simp] theorem taskWait_withGets (id : PendId) (timeout : Nat) :
    (k.withGets g).dosTaskWait t id timeout = (k.dosTaskWait t id timeout).withGets g := by
  simp only [dosTaskWait, set_withGets, itemInsert_withGets, insertSleepList_withGets,
    reset_withGets, statusItemDel_withGets]
  exact (apply_ite (withGets · g) _ _ _).symm

@[simp] theorem taskWake_withGets :
    (k.withGets g).dosTaskWake t = (k.dosTaskWake t).withGets g := by
  simp only [dosTaskWake, itemDel_withGets, reset_withGets, insertPriorityList_withGets]

@[simp] theorem setPriority_withGets (prio : Nat) :
    (k.withGets g).dosSetTaskPriority t prio = (k.dosSetTaskPriority t prio).withGets g := by
  have hMap : ∀ k : Kernel, (k.withGets g).mapTcb t (fun tcb => { tcb with priority := prio }) =
      (k.mapTcb t fun tcb => { tcb with priority := prio }).withGets g :=
    fun k => mapTcb_withGets k g t _ fun _ _ => rfl
  simp only [dosSetTaskPriority, statusItemDel_withGets, reset_withGets, hMap,
    insertPriorityList_withGets]
  exact (apply_ite (withGets · g) _ _ _).symm

@[simp] theorem timeoutCleanUp_withGets :
    (k.withGets g).dosTimeoutCleanUp t = (k.dosTimeoutCleanUp t).withGets g := by
  simp only [dosTimeoutCleanUp, reset_withGets, set_withGets, itemDel_withGets]

@[simp] theorem findPriority_withGets :
    (k.withGets g).dosFindPriority = k.dosFindPriority.withGets g := rfl

@[simp] theorem checkPriority_withGets : (k.withGets g).dosCheckTaskPriority =
    (k.dosCheckTaskPriority.1.withGets g, k.dosCheckTaskPriority.2) := by
  unfold dosCheckTaskPriority
  rw [findPriority_withGets]
  generalize k.dosFindPriority = k
  dsimp only
  cases hCurrent : k.dosCurrentTask with
  | none =>
      have hSame : (k.withGets g).dosCurrentTask = none := hCurrent
      simp only [hSame]
  | some c =>
      have hSame : (k.withGets g).dosCurrentTask = some c := hCurrent
      simp only [hSame]
      by_cases hYields : k.dosCurPriority < k.priority c ∨ k.is c .ready = false
      · rw [if_pos hYields]
        exact if_pos hYields
      · rw [if_neg hYields]
        refine (if_neg hYields).trans ?_
        by_cases hShared : k.lists.dosGetTaskListValue (.priority (k.priority c)) > 1
        · rw [if_pos hShared]
          refine (if_pos hShared).trans ?_
          by_cases hSlice : ((k.tcb c).taskTick + (2 ^ 32 - 1)) % 2 ^ 32 = 0
          · rw [if_pos hSlice]
            refine (if_pos hSlice).trans ?_
            rw [mapTcb_withGets k g c (fun tcb => { tcb with taskTick := tcb.taskInitTick })
              fun _ _ => rfl]
          · rw [if_neg hSlice]
            refine (if_neg hSlice).trans ?_
            rw [← mapTcb_withGets k g c (fun tcb =>
              { tcb with taskTick := ((k.tcb c).taskTick + (2 ^ 32 - 1)) % 2 ^ 32 }) fun _ _ => rfl]
            rfl
        · rw [if_neg hShared]
          exact if_neg hShared

@[simp] theorem scheduler_withGets : (k.withGets g).dosScheduler = k.dosScheduler.withGets g := by
  unfold dosScheduler
  rw [checkPriority_withGets]
  dsimp only
  by_cases hInterrupt : k.interruptCount ≠ 0
  · rw [if_pos hInterrupt]
    exact if_pos hInterrupt
  · rw [if_neg hInterrupt]
    refine (if_neg hInterrupt).trans ?_
    by_cases hRuns : k.schedulerLock = 0 ∧ k.systemIsRun = true
    · rw [if_pos hRuns]
      refine (if_pos hRuns).trans ?_
      by_cases hYields : k.dosCheckTaskPriority.2 = true
      · rw [if_pos hYields, if_pos hYields]
        rfl
      · rw [if_neg hYields, if_neg hYields]
    · rw [if_neg hRuns]
      exact if_neg hRuns

@[simp] theorem start_withGets :
    (k.withGets g).dosSystemStartRun = k.dosSystemStartRun.withGets g := by
  unfold dosSystemStartRun
  rw [checkPriority_withGets]
  rfl

@[simp] theorem lock_withGets :
    (k.withGets g).dosSchedulerLock = k.dosSchedulerLock.withGets g := rfl

@[simp] theorem unlock_withGets :
    (k.withGets g).dosSchedulerUnlock = k.dosSchedulerUnlock.withGets g := by
  unfold dosSchedulerUnlock
  by_cases hLocked : k.schedulerLock > 0
  · rw [if_pos hLocked]
    refine (if_pos hLocked).trans ?_
    by_cases hLast : k.schedulerLock - 1 = 0
    · rw [if_pos hLast]
      refine (if_pos hLast).trans ?_
      exact scheduler_withGets { k with schedulerLock := k.schedulerLock - 1 } g
    · rw [if_neg hLast]
      exact if_neg hLast
  · rw [if_neg hLocked]
    exact if_neg hLocked

@[simp] theorem taskSleep_withGets (n : Nat) :
    (k.withGets g).dosTaskSleep t n = (k.dosTaskSleep t n).withGets g := by
  simp only [dosTaskSleep, insertSleepList_withGets, scheduler_withGets]
  exact (apply_ite (withGets · g) _ _ _).symm

@[simp] theorem getFirst_withGets (l : ListId) : (k.withGets g).dosGetFirstTask l =
    ((k.dosGetFirstTask l).1.withGets g, (k.dosGetFirstTask l).2) := rfl

@[simp] theorem wakeFirst_withGets (l : ListId) :
    (k.withGets g).wakeFirst l t = (k.wakeFirst l t).withGets g := by
  simp only [wakeFirst, getFirst_withGets, taskWake_withGets, scheduler_withGets]

@[simp] theorem restorePriority_withGets (prio : Nat) :
    (k.withGets g).restorePriority t prio = (k.restorePriority t prio).withGets g := by
  simp only [restorePriority, setPriority_withGets]
  exact (apply_ite (withGets · g) _ _ _).symm

@[simp] theorem unlink_withGets :
    (k.withGets g).dosTaskUnlink t = (k.dosTaskUnlink t).withGets g := by
  have hStatus : ((k.withGets g).tcb t).taskStatus = (k.tcb t).taskStatus := rfl
  have hIte (b : Bool) (k₁ k₂ : Kernel) : (if b then k₁.withGets g else k₂.withGets g) =
      (if b then k₁ else k₂).withGets g := (apply_ite (withGets · g) _ _ _).symm
  simp only [dosTaskUnlink, hStatus, statusItemDel_withGets, itemDel_withGets, hIte,
    reset_withGets, set_withGets]

@[simp] theorem taskDelete_withGets : (k.withGets g).dosTaskDelete t =
    ((k.dosTaskDelete t).1.withGets g, (k.dosTaskDelete t).2) := by
  unfold dosTaskDelete
  rw [unlink_withGets]
  by_cases hUnused : (k.tcb t).taskStatus = Flag.unused.mask
  · rw [if_pos hUnused]
    exact if_pos hUnused
  · rw [if_neg hUnused]
    refine (if_neg hUnused).trans ?_
    by_cases hLocked : k.schedulerLock ≠ 0
    · rw [if_pos hLocked]
      exact if_pos hLocked
    · rw [if_neg hLocked]
      refine (if_neg hLocked).trans ?_
      by_cases hOther : (k.dosTaskUnlink t).dosCurrentTask ≠ some t
      · rw [if_pos hOther]
        exact if_pos hOther
      · rw [if_neg hOther]
        exact if_neg hOther

@[simp] theorem idleRecycle_withGets :
    (k.withGets g).dosIdleRecycle = k.dosIdleRecycle.withGets g := by
  unfold dosIdleRecycle
  rw [getFirst_withGets]
  by_cases hEmpty : k.lists.dosTaskListIsEmpty .recycle = true
  · rw [if_pos hEmpty]
    exact if_pos hEmpty
  · rw [if_neg hEmpty]
    refine (if_neg hEmpty).trans ?_
    rcases k.dosGetFirstTask .recycle with ⟨k₁, _ | t⟩ <;> rfl

@[simp] theorem expireTask_withGets :
    (k.withGets g).dosExpireTask t = (k.dosExpireTask t).withGets g := by
  simp only [dosExpireTask, itemDel_withGets, reset_withGets, set_withGets]
  generalize (k.dosTaskItemDel .status t).dosResetTaskStatus t Flag.delay.mask = k
  by_cases hSuspended : k.is t .suspend = true
  · rw [if_pos hSuspended, ← insertPriorityList_withGets]
    exact congrArg (dosInsertTaskPriorityList · t) (if_pos hSuspended)
  · rw [if_neg hSuspended, ← insertPriorityList_withGets]
    exact congrArg (dosInsertTaskPriorityList · t) (if_neg hSuspended)

@[simp] theorem setNextWakeTick_withGets (n : Nat) :
    (k.withGets g).setNextWakeTick n = (k.setNextWakeTick n).withGets g := rfl

theorem tickExpire_withGets (fuel : Nat) :
    dosTickExpire fuel (k.withGets g) = (dosTickExpire fuel k).withGets g := by
  induction fuel generalizing k with
  | zero => rfl
  | succ fuel ih =>
      have hList : (k.withGets g).dosTaskSleepList = k.dosTaskSleepList := rfl
      unfold dosTickExpire
      rw [getFirst_withGets, hList]
      by_cases hEmpty : k.lists.dosTaskListIsEmpty k.dosTaskSleepList = true
      · rw [if_pos hEmpty]
        exact if_pos hEmpty
      · rw [if_neg hEmpty]
        refine (if_neg hEmpty).trans ?_
        rcases k.dosGetFirstTask k.dosTaskSleepList with ⟨k₁, _ | t⟩
        · rfl
        · dsimp only
          by_cases hLater : k₁.lists.value .status t > k₁.dosNextWakeTick
          · rw [if_pos hLater]
            exact if_pos hLater
          · rw [if_neg hLater, ← ih, ← expireTask_withGets]
            exact if_neg hLater

@[simp] theorem tickTimeouts_withGets :
    (k.withGets g).dosTickTimeouts = k.dosTickTimeouts.withGets g := by
  unfold dosTickTimeouts
  rw [tickExpire_withGets]
  exact (apply_ite (withGets · g) _ _ _).symm

@[simp] theorem switchSleepList_withGets :
    (k.withGets g).dosSwitchSleepList = k.dosSwitchSleepList.withGets g := by
  unfold dosSwitchSleepList
  by_cases hEmpty : k.lists.dosTaskListIsEmpty k.dosTaskSleepList = true
  · rw [if_pos hEmpty]
    refine (if_pos hEmpty).trans ?_
    by_cases hNone : k.dosSwapSleepLists.lists.dosTaskListIsEmpty
        k.dosSwapSleepLists.dosTaskSleepList = true
    · rw [if_pos hNone]
      exact if_pos hNone
    · rw [if_neg hNone]
      refine (if_neg hNone).trans ?_
      have hFirst : (k.withGets g).dosSwapSleepLists.dosGetFirstTask
          (k.withGets g).dosSwapSleepLists.dosTaskSleepList =
          ((k.dosSwapSleepLists.dosGetFirstTask k.dosSwapSleepLists.dosTaskSleepList).1.withGets g,
            (k.dosSwapSleepLists.dosGetFirstTask k.dosSwapSleepLists.dosTaskSleepList).2) := rfl
      rw [hFirst]
      rcases k.dosSwapSleepLists.dosGetFirstTask k.dosSwapSleepLists.dosTaskSleepList with
        ⟨k₁, _ | t⟩ <;> rfl
  · rw [if_neg hEmpty]
    exact if_neg hEmpty

@[simp] theorem tickAdvance_withGets :
    (k.withGets g).dosTickAdvance = k.dosTickAdvance.withGets g := by
  unfold dosTickAdvance
  by_cases hWraps : k.dosTickCountInc.dosTickCount = 0
  · rw [if_pos hWraps, ← switchSleepList_withGets]
    exact if_pos hWraps
  · rw [if_neg hWraps]
    exact if_neg hWraps

end Operations

theorem initTcb_withGets (t : TaskId) (prio tick : Nat) :
    (k.withGets g).dosInitTcb t prio tick = (k.dosInitTcb t prio tick).withGets g := by
  have hTcb : ((k.withGets g).dosInitTcb t prio tick).tcb =
      ((k.dosInitTcb t prio tick).withGets g).tcb := by
    funext x
    simp only [dosInitTcb, withGets]
    by_cases hx : x = t
    · simp only [hx, if_true]
    · simp only [hx, if_false]
  simp only [dosInitTcb, withGets] at hTcb ⊢
  rw [hTcb]

theorem zeroTcb_withGets (t : TaskId) :
    (k.withGets g).zeroTcb t = (k.zeroTcb t).withGets (Function.update g t 0) := by
  have hTcb : ((k.withGets g).zeroTcb t).tcb =
      ((k.zeroTcb t).withGets (Function.update g t 0)).tcb := by
    funext x
    simp only [zeroTcb, mapTcb, withGets]
    by_cases hx : x = t
    · simp only [hx, if_true, Function.update_self]
    · simp only [hx, if_false, Function.update_of_ne hx]
  simp only [zeroTcb, mapTcb, withGets] at hTcb ⊢
  rw [hTcb]

/-- The assignment to `event_get` in `dos_event_set`. -/
theorem setGet_withGets (t : TaskId) :
    (k.withGets g).mapTcb t (fun tcb => { tcb with eventGet := tcb.waitEvent }) =
      (k.mapTcb t fun tcb => { tcb with eventGet := tcb.waitEvent }).withGets
        (Function.update g t (k.tcb t).waitEvent) := by
  have hTcb : ((k.withGets g).mapTcb t fun tcb => { tcb with eventGet := tcb.waitEvent }).tcb =
      ((k.mapTcb t fun tcb => { tcb with eventGet := tcb.waitEvent }).withGets
        (Function.update g t (k.tcb t).waitEvent)).tcb := by
    funext x
    simp only [mapTcb, withGets]
    by_cases hx : x = t
    · simp only [hx, if_true, Function.update_self]
    · simp only [hx, if_false, Function.update_of_ne hx]
  simp only [mapTcb, withGets] at hTcb ⊢
  rw [hTcb]

/-- The control block of a new task is zeroed here. -/
theorem create_withGets (t : TaskId) (prio tick : Nat) :
    kernelStep (k.withGets g) (.create t prio tick) =
      (kernelStep k (.create t prio tick)).map (withGets · (Function.update g t 0)) := by
  simp only [kernelStep, zeroTcb_withGets, dosTaskCreate, initTcb_withGets,
    insertPriorityList_withGets]
  rw [apply_ite (Option.map _), apply_ite (Option.map _)]
  rfl

end Kernel

namespace System

open Kernel

variable (s : System) (g : TaskId → BitVec 32) (mem : Memory)

/-- The system with other values in the fields `event_get` and other bytes in
memory. -/
def disguise : System := { s with k := s.k.withGets g, mem := mem }

def disguised (r : System × List Label) : System × List Label := (r.1.disguise g mem, r.2)

theorem disguise_self : s.disguise (fun t => (s.k.tcb t).eventGet) s.mem = s := rfl

theorem disguise_k : (s.disguise g mem).k = s.k.withGets g := rfl

theorem disguise_pending (id : PendId) : (s.disguise g mem).pending id = s.pending id := rfl

section Calls

variable (c : TaskId)

theorem block_disguise (w : Wait) (timeout : Nat) :
    (s.disguise g mem).block c w timeout = disguised g mem (s.block c w timeout) := by
  simp only [block, disguise_k, taskWait_withGets, scheduler_withGets]
  rfl

theorem semPend_disguise (i timeout : Nat) : (s.disguise g mem).dosSemPend c i timeout =
    disguised g mem (s.dosSemPend c i timeout) := by
  unfold dosSemPend
  rw [apply_ite (disguised g mem), apply_ite (disguised g mem), block_disguise]
  rfl

theorem semPost_disguise (caller : Option TaskId) (i : Nat) :
    (s.disguise g mem).dosSemPost caller i = disguised g mem (s.dosSemPost caller i) := by
  unfold dosSemPost
  rw [disguise_pending, disguise_k]
  cases s.pending (.sem i) with
  | nil =>
      rw [apply_ite (disguised g mem)]
      rfl
  | cons t rest =>
      dsimp only
      rw [apply_ite (disguised g mem), wakeFirst_withGets]
      rfl

theorem inherit_disguise (m : Nat) :
    (s.disguise g mem).inherit c m = (s.inherit c m).disguise g mem := by
  have hMutex : (s.disguise g mem).mutex = s.mutex := rfl
  unfold inherit
  rw [disguise_k, hMutex]
  cases (s.mutex m).mutexOwner with
  | none =>
      rw [apply_ite (disguise · g mem)]
      rfl
  | some o =>
      dsimp only
      rw [apply_ite (disguise · g mem), setPriority_withGets]
      rfl

theorem mutexPend_disguise (m timeout : Nat) : (s.disguise g mem).dosMutexPend c m timeout =
    disguised g mem (s.dosMutexPend c m timeout) := by
  unfold dosMutexPend
  rw [apply_ite (disguised g mem), apply_ite (disguised g mem), apply_ite (disguised g mem),
    inherit_disguise, block_disguise]
  rfl

theorem handOff_disguise (m : Nat) :
    (s.disguise g mem).handOff m = disguised g mem (s.handOff m) := by
  unfold handOff
  rw [disguise_pending, disguise_k]
  cases s.pending (.mutex m) with
  | nil => rfl
  | cons t rest =>
      simp only [wakeFirst_withGets]
      rfl

theorem mutexPost_disguise (m : Nat) : (s.disguise g mem).dosMutexPost c m =
    disguised g mem (s.dosMutexPost c m) := by
  have hSet (k : Kernel) : (s.disguise g mem).setKernel (k.withGets g) =
      (s.setKernel k).disguise g mem := rfl
  unfold dosMutexPost
  rw [apply_ite (disguised g mem), apply_ite (disguised g mem)]
  simp only [disguise_k, restorePriority_withGets, hSet, handOff_disguise]
  rfl

theorem queueHandler_disguise (q : Nat) (op : QueueOp) (buff size timeout : Nat) :
    (s.disguise g mem).dosQueueHandler c q op buff size timeout =
      disguised g mem (s.dosQueueHandler c q op buff size timeout) := by
  unfold dosQueueHandler
  dsimp only
  rw [apply_ite (disguised g mem), apply_ite (disguised g mem), apply_ite (disguised g mem),
    block_disguise]
  rfl

theorem eventWait_disguise (e : Nat) (waitEvent op : BitVec 32) (timeout : Nat) :
    (s.disguise g mem).dosEventWait c e waitEvent op timeout =
      disguised g mem (s.dosEventWait c e waitEvent op timeout) := by
  have hSet : (s.disguise g mem).setWaitEvent c waitEvent op =
      (s.setWaitEvent c waitEvent op).disguise g mem := by
    unfold setWaitEvent
    rw [disguise_k, Kernel.mapTcb_withGets _ _ _ _ fun _ _ => rfl]
    rfl
  unfold dosEventWait
  dsimp only
  rw [apply_ite (disguised g mem), apply_ite (disguised g mem), apply_ite (disguised g mem), hSet,
    block_disguise]
  rfl

theorem eventSet_disguise (e : Nat) (setEvent : BitVec 32) :
    (s.disguise g mem).dosEventSet c e setEvent = disguised g mem (s.dosEventSet c e setEvent) := by
  unfold dosEventSet
  rw [apply_ite (disguised g mem)]
  rfl

theorem call_disguise (a : Call) :
    (s.disguise g mem).call c a = disguised g mem (s.call c a) := by
  cases a with
  | semPend i timeout => exact semPend_disguise s g mem c i timeout
  | semPost i => exact semPost_disguise s g mem (some c) i
  | mutexPend m timeout => exact mutexPend_disguise s g mem c m timeout
  | mutexPost m => exact mutexPost_disguise s g mem c m
  | queue q op buff size timeout => exact queueHandler_disguise s g mem c q op buff size timeout
  | eventWait e waitEvent op timeout => exact eventWait_disguise s g mem c e waitEvent op timeout
  | eventSet e setEvent => exact eventSet_disguise s g mem c e setEvent
  | sleep sleepTick =>
      simp only [call, disguise_k, taskSleep_withGets]
      rfl
  | lock => rfl
  | unlock =>
      simp only [call, disguise_k, unlock_withGets]
      rfl

end Calls

section Steps

variable (c : TaskId)

/-- Queues copy bytes and look at none. -/
theorem queueCopy_disguise (q : Nat) (op : QueueOp) (buff size : Nat) :
    ∃ mem', (s.disguise g mem).queueCopy q op buff size =
      (s.queueCopy q op buff size).disguise g mem' := by
  refine ⟨((s.queue q).dosQueueCopy mem buff size op).2, ?_⟩
  cases op <;> rfl

theorem queueHandlerNow_disguise (caller : Option TaskId) (q : Nat) (op : QueueOp)
    (buff size : Nat) : ∃ mem', (s.disguise g mem).dosQueueHandlerNow caller q op buff size =
      disguised g mem' (s.dosQueueHandlerNow caller q op buff size) := by
  have hTake : (s.disguise g mem).queueTake q op = (s.queueTake q op).disguise g mem := rfl
  have hQueue : (s.disguise g mem).queue = s.queue := rfl
  obtain ⟨mem', hCopy⟩ :=
    queueCopy_disguise (s.queueTake q op) g mem q op buff (min size (s.queue q).queueSize)
  unfold dosQueueHandlerNow
  by_cases hArgs : buff = 0 ∨ size = 0
  · rw [if_pos hArgs, if_pos hArgs]
    exact ⟨mem, rfl⟩
  · rw [if_neg hArgs, if_neg hArgs, hQueue]
    by_cases hCount : (s.queue q).queueRwCount op = 0
    · rw [if_pos hCount, if_pos hCount]
      exact ⟨mem, rfl⟩
    · rw [if_neg hCount, if_neg hCount]
      refine ⟨mem', ?_⟩
      dsimp only
      rw [hTake, hCopy, disguise_pending, disguise_k]
      cases ((s.queueTake q op).queueCopy q op buff
        (min size (s.queue q).queueSize)).pending (.queue q op.other) with
      | nil => rfl
      | cons t rest =>
          dsimp only
          rw [wakeFirst_withGets]
          rfl

theorem tickUpdate_disguise : ∃ mem', (s.disguise g mem).dosTickUpdate =
    disguised g mem' s.dosTickUpdate := by
  have hEnd (r : System × List Label) (mem' : Memory) :
      ((disguised g mem' r).1.setKernel (disguised g mem' r).1.k.dosTickTimeouts.dosScheduler,
        (disguised g mem' r).2) =
      disguised g mem' (r.1.setKernel r.1.k.dosTickTimeouts.dosScheduler, r.2) := by
    simp only [disguised, disguise_k, tickTimeouts_withGets, scheduler_withGets]
    rfl
  have hAdvance : (s.disguise g mem).setKernel (s.disguise g mem).k.dosTickAdvance =
      (s.setKernel s.k.dosTickAdvance).disguise g mem := by
    rw [disguise_k, tickAdvance_withGets]
    rfl
  unfold dosTickUpdate dosSwtmrOverflow
  dsimp only
  rw [hAdvance]
  by_cases hWraps : (s.setKernel s.k.dosTickAdvance).k.dosTickCount = 0
  · have hWraps' : ((s.setKernel s.k.dosTickAdvance).disguise g mem).k.dosTickCount = 0 := hWraps
    rw [if_pos hWraps, if_pos hWraps']
    have hQueue : ((s.setKernel s.k.dosTickAdvance).disguise g mem).swtmrQueue =
        (s.setKernel s.k.dosTickAdvance).swtmrQueue := rfl
    rw [hQueue]
    cases (s.setKernel s.k.dosTickAdvance).swtmrQueue with
    | none => exact ⟨mem, hEnd (s.setKernel s.k.dosTickAdvance, []) mem⟩
    | some q =>
        obtain ⟨mem', hNow⟩ := queueHandlerNow_disguise (s.setKernel s.k.dosTickAdvance) g mem none q
          .write (s.setKernel s.k.dosTickAdvance).swtmrMsg 8
        dsimp only
        refine ⟨mem', ?_⟩
        rw [← hEnd, ← hNow]
        rfl
  · have hWraps' : ¬((s.setKernel s.k.dosTickAdvance).disguise g mem).k.dosTickCount = 0 := hWraps
    rw [if_neg hWraps, if_neg hWraps']
    exact ⟨mem, hEnd (s.setKernel s.k.dosTickAdvance, []) mem⟩

/-- `c` is ready to return the field `event_get` of its control block. -/
def Reads : Prop :=
  s.k.is c .ready = true ∧ s.k.is c .timeout = false ∧
    ∃ e waitEvent, s.pc c = .wait (.event e waitEvent)

theorem resumeWait_disguise {w : Wait} (hReady : s.k.is c .ready = true) (hPc : s.pc c = .wait w)
    (hRead : s.Reads c → g c = (s.k.tcb c).eventGet) :
    (s.disguise g mem).resumeWait c w = disguised g mem (s.resumeWait c w) := by
  have hIs : (s.disguise g mem).k.is c .timeout = s.k.is c .timeout := rfl
  unfold resumeWait
  rw [hIs]
  cases hTimeout : s.k.is c .timeout with
  | true => rfl
  | false =>
      cases w with
      | event e waitEvent =>
          have hGet := hRead ⟨hReady, hTimeout, e, waitEvent, hPc⟩
          show ((s.disguise g mem).setPc c .user, [Label.returned (some c) (.events (g c))]) = _
          rw [hGet]
          rfl
      | _ => rfl

theorem cleanUpWait_disguise (w : Wait) :
    (s.disguise g mem).cleanUpWait c w = disguised g mem (s.cleanUpWait c w) := by
  cases w with
  | event e waitEvent =>
      unfold cleanUpWait setWaitEvent
      simp only [disguise_k, timeoutCleanUp_withGets]
      have hSet (k : Kernel) : (s.disguise g mem).setKernel (k.withGets g) =
          (s.setKernel k).disguise g mem := rfl
      rw [hSet, disguise_k, Kernel.mapTcb_withGets _ _ _ _ fun _ _ => rfl]
      rfl
  | queue q op buff size =>
      simp only [cleanUpWait, disguise_k, reset_withGets, set_withGets]
      rfl
  | _ =>
      simp only [cleanUpWait, disguise_k, timeoutCleanUp_withGets]
      rfl

theorem queueWake_disguise (q : Nat) (op : QueueOp) :
    (s.disguise g mem).queueWake c q op = disguised g mem (s.queueWake c q op) := by
  unfold queueWake
  rw [disguise_pending, disguise_k]
  cases s.pending (.queue q op.other) with
  | nil => rfl
  | cons t rest =>
      dsimp only
      rw [wakeFirst_withGets]
      rfl

end Steps

section Exec

variable {s} {c t : TaskId} {event : SysEvent} {r : System × List Label}

/-- The task whose field `event_get` a step with the result `r` assigns. -/
def writes (s : System) (r : System × List Label) : SysEvent → Option TaskId
  | .create t _ _ => some t
  | .next => s.k.dosCurrentTask.bind fun c => (r.1.pc c).selects
  | _ => none

/-- The values of the disguise behind a step that left `s` and assigned the
field `event_get` of `written`. -/
def renew (written : Option TaskId) (s : System) (g : TaskId → BitVec 32) : TaskId → BitVec 32 :=
  match written with
  | none => g
  | some t => Function.update g t (s.k.tcb t).eventGet

/-- Only the loop of `dos_event_set` selects a task. -/
theorem selects_resumes {pc : Pc} (hNext : s.Resumes c pc r)
    (hNot : ∀ e value, pc ≠ .setLoop e (value + 1)) : (r.1.pc c).selects = none := by
  cases hNext with
  | setSelect e value => exact absurd rfl (hNot e value)
  | _ => simp [setPc, Pc.selects]

/-- A step selects nobody whose field it does not assign. -/
theorem selected_exec (hStep : s.exec event = some r) (hSelected : r.1.Selected t) :
    s.Selected t ∨ s.writes r event = some t := by
  obtain ⟨x, hx⟩ := hSelected
  rcases exec_pc hStep x with hSame | ⟨hRun, ⟨-, hEntry⟩ | ⟨rfl, -⟩⟩
  · exact Or.inl ⟨x, hSame ▸ hx⟩
  · generalize r.1.pc x = pc at hx hEntry
    cases pc <;> simp_all [Pc.selects, Pc.isEntry]
  · right
    simp only [writes, hRun.2.1, Option.bind_some, hx]

/-- Only `dos_task_create` reports a new task. -/
theorem created_exec (hStep : s.exec event = some r) {prio : Nat} (hNew : .created t prio ∈ r.2) :
    s.writes r event = some t := by
  cases steps_of_exec hStep with
  | create x prio' tick =>
      simp only [List.mem_singleton, Label.created.injEq] at hNew
      simp only [writes, hNew.1]
  | overflow q sent hQueue hSend => cases hSend <;> simp at hNew
  | isrSemPost i hPost => cases hPost <;> simp at hNew
  | isrQueue q op buff size hSend => cases hSend <;> simp at hNew
  | call c a hRun hUser hCall =>
      cases hCall with
      | semPost i hPost => cases hPost <;> simp at hNew
      | _ => simp [block] at hNew
  | next c hRun hPc hNext => cases hNext <;> simp at hNew
  | _ => simp at hNew

/-- One turn of the loop of `dos_event_set`. -/
theorem eventSetTurn_disguise (c : TaskId) (e value : Nat) (g : TaskId → BitVec 32) (mem : Memory) :
    (s.disguise g mem).eventSetTurn c e value = disguised
      (renew ((s.eventSetTurn c e value).1.pc c).selects (s.eventSetTurn c e value).1 g) mem
      (s.eventSetTurn c e value) := by
  have hNext : (s.disguise g mem).k.lists.dosGetNextTask (.pend (.event e)) =
    s.k.lists.dosGetNextTask (.pend (.event e)) := rfl
  unfold eventSetTurn
  simp only [hNext]
  cases (s.k.lists.dosGetNextTask (.pend (.event e))).2 with
  | none => simp [setPc, Pc.selects, renew, disguised, disguise]
  | some x =>
      dsimp only
      by_cases hCheck :
          ((s.event e).dosCheckEvent (s.k.tcb x).waitEvent (s.k.tcb x).waitEventOpt).2 = true
      · rw [if_pos hCheck]
        refine (if_pos hCheck).trans ?_
        have hKernel := setGet_withGets { s.k with
          lists := (s.k.lists.dosGetNextTask (.pend (.event e))).1 } g x
        have hGet : ((s.k.mapTcb x fun tcb => { tcb with eventGet := tcb.waitEvent }).tcb
            x).eventGet = (s.k.tcb x).waitEvent := by
          simp only [mapTcb, if_true]
        have hSelects : ((s.setPc c (.setWake e value x)).pc c).selects = some x := by
          simp [setPc, Pc.selects]
        show _ = disguised (renew ((s.setPc c (.setWake e value x)).pc c).selects _ g) mem _
        rw [hSelects]
        show _ = disguised (Function.update g x ((s.k.mapTcb x fun tcb =>
          { tcb with eventGet := tcb.waitEvent }).tcb x).eventGet) mem _
        rw [hGet]
        exact congrArg (fun k => ((((s.disguise g mem).setEvent e
          ((s.event e).dosCheckEvent (s.k.tcb x).waitEvent (s.k.tcb x).waitEventOpt).1).setKernel
            k).setPc c (.setWake e value x), [Label.granted x])) hKernel
      · rw [if_neg hCheck]
        refine (if_neg hCheck).trans ?_
        simp [setPc, Pc.selects, renew, disguised, disguise, setKernel]
        rfl

/-- A further step of a call has the same result in every disguise that it does
not see through. -/
theorem resume_disguise (hRun : s.Running c) (hStep : s.resume c (s.pc c) = some r)
    (g : TaskId → BitVec 32) (mem : Memory) (hRead : s.Reads c → g c = (s.k.tcb c).eventGet) :
    ∃ mem', (s.disguise g mem).resume c (s.pc c) =
      some (disguised (renew (r.1.pc c).selects r.1 g) mem' r) := by
  have hNone := selects_resumes (resumes_of_resume hStep)
  -- a step with a result that does not depend on what is disguised
  have hPlain (hNot : ∀ e value, s.pc c ≠ .setLoop e (value + 1))
      (h : (s.disguise g mem).resume c (s.pc c) = (s.resume c (s.pc c)).map (disguised g mem)) :
      ∃ mem', (s.disguise g mem).resume c (s.pc c) =
        some (disguised (renew (r.1.pc c).selects r.1 g) mem' r) := by
    refine ⟨mem, ?_⟩
    rw [h, hStep, hNone hNot]
    rfl
  cases hPc : s.pc c with
  | user | fault =>
      rw [hPc] at hStep
      cases hStep
  | wait w =>
      rw [hPc] at hStep hNone
      refine ⟨mem, ?_⟩
      rw [hNone (by simp), ← Option.some.inj hStep]
      exact congrArg some (resumeWait_disguise s g mem c hRun.ready hPc hRead)
  | copy q op buff size =>
      rw [hPc] at hStep hNone
      obtain ⟨mem', hCopy⟩ := queueCopy_disguise s g mem q op buff size
      refine ⟨mem', ?_⟩
      rw [hNone (by simp), ← Option.some.inj hStep]
      exact congrArg (fun u : System => some (u.setPc c (.test q op), ([] : List Label))) hCopy
  | setLoop e value =>
      cases value with
      | zero =>
          rw [hPc] at hPlain
          refine hPlain (by simp) ?_
          simp only [resume, disguise_k, unlock_withGets]
          rfl
      | succ value =>
          rw [hPc] at hStep
          have hr : s.eventSetTurn c e value = r := Option.some.inj hStep
          refine ⟨mem, ?_⟩
          rw [← hr]
          exact congrArg some (eventSetTurn_disguise c e value g mem)
  | cleanUp w =>
      rw [hPc] at hPlain
      exact hPlain (by simp) (congrArg some (cleanUpWait_disguise s g mem c w))
  | wake q op =>
      rw [hPc] at hPlain
      exact hPlain (by simp) (congrArg some (queueWake_disguise s g mem c q op))
  | unlink w | credit q op | setLock e =>
      rw [hPc] at hPlain
      exact hPlain (by simp) rfl
  | test q op | setTest e =>
      rw [hPc] at hPlain
      refine hPlain (by simp) ?_
      simp only [resume, disguise_pending]
      rw [apply_ite (Option.map (disguised g mem))]
      rfl
  | setWake e value t =>
      rw [hPc] at hPlain
      refine hPlain (by simp) ?_
      simp only [resume, disguise_k, taskWake_withGets, scheduler_withGets]
      rfl

/-- A step of the current task. -/
theorem byCurrent_disguise {f : System → TaskId → Option (System × List Label)} (hRun : s.Running c)
    (g : TaskId → BitVec 32) (mem : Memory) :
    (s.disguise g mem).byCurrent (f (s.disguise g mem)) = f (s.disguise g mem) c := by
  have hCurrent : (s.disguise g mem).k.dosCurrentTask = some c := hRun.2.1
  have hRun' : (s.disguise g mem).Running c := hRun
  simp only [byCurrent, hCurrent, if_pos hRun']

/-- A step has the same result in every disguise that it does not see through,
and afterwards the disguise covers the field that it assigned. -/
theorem exec_disguise (hStep : s.exec event = some r) (g : TaskId → BitVec 32) (mem : Memory)
    (hRead : ∀ c, s.Reads c → g c = (s.k.tcb c).eventGet) :
    ∃ mem', (s.disguise g mem).exec event =
      some (disguised (renew (s.writes r event) r.1 g) mem' r) := by
  cases event with
  | create t prio tick =>
      simp only [exec, Option.map_eq_some_iff] at hStep
      obtain ⟨k', hCreate, rfl⟩ := hStep
      have hZero : (k'.tcb t).eventGet = 0 := by
        have hSelf := create_withGets s.k (fun x => (s.k.tcb x).eventGet) t prio tick
        rw [Kernel.withGets_self, hCreate, Option.map_some, Option.some.injEq] at hSelf
        rw [hSelf]
        simp [withGets]
      refine ⟨mem, ?_⟩
      simp only [exec, disguise_k, create_withGets, hCreate, Option.map_some, renew, writes]
      rw [← hZero]
      rfl
  | start =>
      simp only [exec, kernelStep, Option.map_eq_some_iff, Option.ite_none_right_eq_some,
        Option.some.injEq] at hStep
      obtain ⟨k', ⟨hStopped, rfl⟩, rfl⟩ := hStep
      refine ⟨mem, ?_⟩
      have hStart : kernelStep (s.k.withGets g) .start = some (s.k.dosSystemStartRun.withGets g) := by
        rw [← start_withGets]
        exact if_pos hStopped
      simp only [exec, disguise_k, hStart]
      rfl
  | switch t =>
      simp only [exec, kernelStep, Option.ite_none_left_eq_some, Option.map_eq_some_iff,
        Option.ite_none_right_eq_some, Option.some.injEq] at hStep
      obtain ⟨hUnlocked, k', ⟨hReady, rfl⟩, rfl⟩ := hStep
      refine ⟨mem, ?_⟩
      have hSwitch : kernelStep (s.k.withGets g) (.switch t) =
          some ((s.k.switchTo t).withGets g) := if_pos hReady
      refine (if_neg hUnlocked).trans ?_
      rw [disguise_k, hSwitch]
      rfl
  | tick =>
      obtain ⟨hRuns, rfl⟩ := Transition.guard_some hStep
      obtain ⟨mem', hTick⟩ := tickUpdate_disguise s g mem
      exact ⟨mem', (if_pos hRuns).trans (congrArg some hTick)⟩
  | isrSemPost i =>
      obtain ⟨hRuns, rfl⟩ := Transition.guard_some hStep
      exact ⟨mem, (if_pos hRuns).trans (congrArg some (semPost_disguise s g mem none i))⟩
  | isrQueue q op buff size =>
      obtain ⟨hRuns, rfl⟩ := Transition.guard_some hStep
      obtain ⟨mem', hNow⟩ := queueHandlerNow_disguise s g mem none q op buff size
      exact ⟨mem', (if_pos hRuns).trans (congrArg some hNow)⟩
  | call a =>
      obtain ⟨c, hRun, hUser, rfl⟩ := call_some hStep
      refine ⟨mem, ?_⟩
      refine (byCurrent_disguise (f := fun u c => if u.pc c = .user then some (u.call c a) else none)
        hRun g mem).trans ?_
      exact (if_pos hUser).trans (congrArg some (call_disguise s g mem c a))
  | next =>
      obtain ⟨c, hRun, hResume⟩ := next_some hStep
      obtain ⟨mem', hEq⟩ := resume_disguise hRun hResume g mem (hRead c)
      refine ⟨mem', ?_⟩
      simp only [writes, hRun.2.1, Option.bind_some]
      exact (byCurrent_disguise (f := fun u c => u.resume c (u.pc c)) hRun g mem).trans hEq

end Exec

end System

end DoraOS
