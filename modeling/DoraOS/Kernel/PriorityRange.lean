import DoraOS.Kernel.Accesses
import DoraOS.Kernel.Scheduler

/-! The range of priorities. `dos_task_create` checks its argument once, and
every later index into `dos_task_priority_list` and every shift of a priority
bit relies on it. -/
namespace DoraOS

/-- An index below `DOS_MAX_PRIORITY_NUM` and a shift below the word size. -/
def Access.InRange (max : Nat) : Access → Prop
  | .del _ _ _ => True
  | .readyList i => i < max
  | .priorityBit n => n < 32

namespace Kernel

/-- All priorities, the bits of the first word and the current priority are
below `max`. -/
structure Ranged (max : Nat) (k : Kernel) : Prop where
  config : k.config.dosMaxPriorityNum = max
  priority : ∀ t, k.priority t < max
  bits : ∀ p, (k.dosTaskPriority 0).getLsbD p = true → p < max
  current : k.dosCurPriority < max

variable {max : Nat} {k : Kernel} {t : TaskId}

namespace Ranged

theorem mapTcb (h : k.Ranged max) {f : Tcb → Tcb}
    (hf : ∀ tcb, tcb.priority < max → (f tcb).priority < max) : (k.mapTcb t f).Ranged max where
  config := h.config
  priority x := by
    simp only [Kernel.priority, Kernel.mapTcb]
    split
    · exact hf _ (h.priority x)
    · exact h.priority x
  bits := h.bits
  current := h.current

theorem setStatus (h : k.Ranged max) (m : BitVec 16) : (k.dosSetTaskStatus t m).Ranged max :=
  h.mapTcb fun _ hPrio => hPrio

theorem resetStatus (h : k.Ranged max) (m : BitVec 16) : (k.dosResetTaskStatus t m).Ranged max :=
  h.mapTcb fun _ hPrio => hPrio

theorem setLists (h : k.Ranged max) (lists : TaskLists) : Ranged max { k with lists := lists } :=
  ⟨h.config, h.priority, h.bits, h.current⟩

section OneWord

variable (hMax : max ≤ 32)

include hMax

/-- The bit that is set is that of a priority in range. -/
theorem setPtiority (h : k.Ranged max) : (k.dosSetTaskPtiority t).Ranged max where
  config := h.config
  priority := h.priority
  bits p hp := by
    have hPrio := h.priority t
    rw [setPtiority_word (h.config ▸ hMax), BitSet.getLsbD_set _ (by omega)] at hp
    simp only [Bool.or_eq_true, decide_eq_true_eq] at hp
    rcases hp with hOld | hNew
    · exact h.bits p hOld
    · exact hNew ▸ hPrio
  current := h.current

theorem resetPtiority (h : k.Ranged max) : (k.dosResetTaskPtiority t).Ranged max where
  config := h.config
  priority := h.priority
  bits p hp := by
    rw [resetPtiority_word (h.config ▸ hMax), BitSet.getLsbD_clear, Bool.and_eq_true] at hp
    exact h.bits p hp.1
  current := h.current

theorem insertPriorityList (h : k.Ranged max) : (k.dosInsertTaskPriorityList t).Ranged max :=
  ((h.setPtiority hMax).setStatus _).setLists _

theorem statusItemDel (h : k.Ranged max) : (k.dosStatusItemDel t).Ranged max := by
  have hDel : (k.dosTaskItemDel .status t).Ranged max := h.setLists _
  unfold dosStatusItemDel
  dsimp only
  split
  · exact hDel.resetPtiority hMax
  · exact hDel

omit hMax in
theorem linkSleepItem (h : k.Ranged max) : (k.dosLinkSleepItem t).Ranged max := by
  unfold dosLinkSleepItem
  dsimp only
  split
  · exact h.setLists _
  · have hLink : (k.dosTaskItemInsert k.dosTaskSleepList t).Ranged max := h.setLists _
    split
    · exact ⟨hLink.config, hLink.priority, hLink.bits, hLink.current⟩
    · exact hLink

theorem insertSleepList (h : k.Ranged max) (n : Nat) : (k.dosInsertTaskSleepList t n).Ranged max := by
  unfold dosInsertTaskSleepList
  split
  · exact h
  · have hOff := ((h.resetStatus (t := t) Flag.ready.mask).setStatus (t := t)
      Flag.delay.mask).statusItemDel (t := t) hMax
    exact (hOff.setLists _).linkSleepItem

theorem taskWait (h : k.Ranged max) (id : PendId) (timeout : Nat) :
    (k.dosTaskWait t id timeout).Ranged max := by
  have hPend : ((k.dosSetTaskStatus t Flag.suspend.mask).dosTaskItemInsert (.pend id) t).Ranged max :=
    (h.setStatus _).setLists _
  unfold dosTaskWait
  dsimp only
  split
  · exact hPend.insertSleepList hMax timeout
  · exact (hPend.resetStatus _).statusItemDel hMax

theorem taskWake (h : k.Ranged max) : (k.dosTaskWake t).Ranged max := by
  have hOff : ((k.dosTaskItemDel .pend t).dosTaskItemDel .status t).Ranged max :=
    (h.setLists _).setLists _
  exact (hOff.resetStatus _).insertPriorityList hMax

/-- A new priority has to be in range. -/
theorem setTaskPriority (h : k.Ranged max) {prio : Nat} (hPrio : prio < max) :
    (k.dosSetTaskPriority t prio).Ranged max := by
  unfold dosSetTaskPriority
  split
  · exact (((h.statusItemDel hMax).resetStatus _).mapTcb fun _ _ => hPrio).insertPriorityList hMax
  · exact h.mapTcb fun _ _ => hPrio

theorem expireTask (h : k.Ranged max) : (k.dosExpireTask t).Ranged max := by
  have hOff : (k.dosTaskItemDel .status t).Ranged max := h.setLists _
  unfold dosExpireTask
  dsimp only
  split
  · exact ((hOff.resetStatus _).setStatus _).insertPriorityList hMax
  · exact (hOff.resetStatus _).insertPriorityList hMax

theorem taskUnlink (h : k.Ranged max) : (k.dosTaskUnlink t).Ranged max := by
  have hStatus (b : Bool) : (if b then k.dosStatusItemDel t else k).Ranged max := by
    split
    · exact h.statusItemDel hMax
    · exact h
  have hPend {k : Kernel} (h : k.Ranged max) (b : Bool) :
      (if b then k.dosTaskItemDel .pend t else k).Ranged max := by
    split
    · exact h.setLists _
    · exact h
  exact ((hPend (hStatus _) _).resetStatus _).setStatus _

theorem taskDelete (h : k.Ranged max) : (k.dosTaskDelete t).1.Ranged max := by
  have hUnlink := h.taskUnlink (t := t) hMax
  unfold dosTaskDelete
  split
  · exact h
  · split
    · exact h
    · split
      · exact ⟨hUnlink.config, hUnlink.priority, hUnlink.bits, hUnlink.current⟩
      · exact hUnlink.setLists _

/-- The search finds a set bit, or nothing in an empty word. -/
theorem findPriority (h : k.Ranged max) : k.dosFindPriority.Ranged max where
  config := h.config
  priority := h.priority
  bits := h.bits
  current := by
    have hWord : k.config.dosMaxPriorityNum ≤ 32 := h.config ▸ hMax
    by_cases hZero : k.dosTaskPriority 0 = 0
    · have hFirst : k.dosPriorityWord = 0 := by
        rw [dosPriorityWord, if_neg (by omega)]
      have hNone : k.dosFindPriority.dosCurPriority = 0 := by
        simp [dosFindPriority, hFirst, hZero, dosGetHighestPriority]
      have hPrio := h.priority 0
      rw [hNone]
      omega
    · exact h.bits _ (findPriority_lowest hWord hZero).1

/-- The priority that the search finds has its bit set, so it is in range. -/
theorem check (h : k.Ranged max) : k.dosCheckTaskPriority.1.Ranged max := by
  have hFind := h.findPriority hMax
  unfold dosCheckTaskPriority
  dsimp only
  split
  · exact hFind
  · split
    · exact hFind
    · split
      · split
        · dsimp only
          exact hFind.mapTcb fun _ hPrio => hPrio
        · dsimp only
          exact hFind.mapTcb fun _ hPrio => hPrio
      · exact hFind

theorem scheduler (h : k.Ranged max) : k.dosScheduler.Ranged max := by
  have hCheck := h.check hMax
  unfold dosScheduler
  dsimp only
  split
  · exact h
  · split
    · split
      · exact ⟨hCheck.config, hCheck.priority, hCheck.bits, hCheck.current⟩
      · exact hCheck
    · exact h

theorem taskSleep (h : k.Ranged max) (n : Nat) : (k.dosTaskSleep t n).Ranged max := by
  unfold dosTaskSleep
  split
  · exact h.scheduler hMax
  · exact (h.insertSleepList hMax n).scheduler hMax

theorem schedulerUnlock (h : k.Ranged max) : k.dosSchedulerUnlock.Ranged max := by
  have hDown : Ranged max { k with schedulerLock := k.schedulerLock - 1 } :=
    ⟨h.config, h.priority, h.bits, h.current⟩
  unfold dosSchedulerUnlock
  dsimp only
  split
  · split
    · exact hDown.scheduler hMax
    · exact hDown
  · exact h

theorem start (h : k.Ranged max) : k.dosSystemStartRun.Ranged max := by
  have hCheck := h.check hMax
  exact ⟨hCheck.config, hCheck.priority, hCheck.bits, hCheck.current⟩

omit hMax in
/-- The memory of a new control block does not matter. -/
theorem initTcb (h : k.Ranged max) (memory : Tcb) {prio : Nat} (tick : Nat) (hPrio : prio < max) :
    ((k.mapTcb t fun _ => memory).dosInitTcb t prio tick).Ranged max := by
  refine ⟨h.config, ?_, h.bits, h.current⟩
  intro x
  by_cases hx : x = t
  · simpa [Kernel.priority, dosInitTcb, hx] using hPrio
  · simpa [Kernel.priority, dosInitTcb, Kernel.mapTcb, hx] using h.priority x

/-- A creation with a priority in range keeps all of them in range. -/
theorem taskCreate (h : k.Ranged max) {memory : Tcb} {prio tick : Nat} (hPrio : prio < max)
    {k' : Kernel} (hCreate : (k.mapTcb t fun _ => memory).dosTaskCreate t prio tick = some k') :
    k'.Ranged max := by
  unfold dosTaskCreate at hCreate
  split at hCreate
  · cases hCreate
  · rw [← Option.some.inj hCreate]
    exact (h.initTcb memory tick hPrio).insertPriorityList hMax

end OneWord

theorem idleRecycle (h : k.Ranged max) : k.dosIdleRecycle.Ranged max := by
  unfold dosIdleRecycle
  split
  · exact h
  · split
    · rename_i k₁ t hHead
      have hk : k₁ = _ := (congrArg Prod.fst hHead).symm
      subst hk
      exact ⟨h.config, h.priority, h.bits, h.current⟩
    · rename_i k₁ hHead
      have hk : k₁ = _ := (congrArg Prod.fst hHead).symm
      subst hk
      exact h.setLists _

theorem tickAdvance (h : k.Ranged max) : k.dosTickAdvance.Ranged max :=
  tickAdvance_rule (fun _ hk => ⟨hk.config, hk.priority, hk.bits, hk.current⟩)
    (fun hk => hk.setLists _) (fun hk => ⟨hk.config, hk.priority, hk.bits, hk.current⟩)
    (fun hk => ⟨hk.config, hk.priority, hk.bits, hk.current⟩) h

theorem tickTimeouts (hMax : max ≤ 32) (h : k.Ranged max) : k.dosTickTimeouts.Ranged max :=
  tickTimeouts_rule (fun _ hk => ⟨hk.config, hk.priority, hk.bits, hk.current⟩)
    (fun hk => hk.setLists _) (fun hk _ => hk.expireTask hMax) h

theorem tickNotify (hMax : max ≤ 32) (h : k.Ranged max) (notify : Option TaskId) :
    (k.dosTickNotify notify).Ranged max := by
  unfold dosTickNotify
  split
  · split
    · exact h.taskWake hMax
    · exact h
  · exact h

section Accesses

variable (hMax : max ≤ 32)

include hMax

theorem insertTaskPriorityListAccesses (h : k.Ranged max) :
    ∀ a ∈ k.insertTaskPriorityListAccesses t, a.InRange max := by
  have hPrio := h.priority t
  have hBit : k.config.priorityTabBit (k.priority t) < 32 := by
    rw [Config.priorityTabBit, if_neg (by rw [h.config]; omega)]
    omega
  unfold Kernel.insertTaskPriorityListAccesses
  rw [List.forall_mem_cons, List.forall_mem_singleton]
  exact ⟨hBit, hPrio⟩

theorem statusItemDelAccesses (h : k.Ranged max) :
    ∀ a ∈ k.statusItemDelAccesses t, a.InRange max := by
  have hBoth := h.insertTaskPriorityListAccesses (t := t) hMax
  unfold Kernel.insertTaskPriorityListAccesses at hBoth
  rw [List.forall_mem_cons, List.forall_mem_singleton] at hBoth
  unfold Kernel.statusItemDelAccesses
  rw [List.forall_mem_cons]
  refine ⟨trivial, ?_⟩
  split
  · rw [List.forall_mem_cons]
    refine ⟨hBoth.2, ?_⟩
    split
    · exact List.forall_mem_singleton.mpr hBoth.1
    · nofun
  · nofun

theorem insertTaskSleepListAccesses (h : k.Ranged max) :
    ∀ a ∈ k.insertTaskSleepListAccesses t, a.InRange max := by
  unfold Kernel.insertTaskSleepListAccesses
  split
  · nofun
  · exact ((h.resetStatus _).setStatus _).statusItemDelAccesses hMax

theorem taskWaitAccesses (h : k.Ranged max) (id : PendId) (timeout : Nat) :
    ∀ a ∈ k.taskWaitAccesses t id timeout, a.InRange max := by
  have hPend : ((k.dosSetTaskStatus t Flag.suspend.mask).dosTaskItemInsert (.pend id) t).Ranged max :=
    (h.setStatus _).setLists _
  unfold Kernel.taskWaitAccesses
  dsimp only
  split
  · exact hPend.insertTaskSleepListAccesses hMax
  · exact (hPend.resetStatus _).statusItemDelAccesses hMax

theorem taskWakeAccesses (h : k.Ranged max) : ∀ a ∈ k.taskWakeAccesses t, a.InRange max := by
  unfold Kernel.taskWakeAccesses
  rw [List.forall_mem_cons, List.forall_mem_cons]
  exact ⟨trivial, trivial, h.insertTaskPriorityListAccesses hMax⟩

theorem setTaskPriorityAccesses (h : k.Ranged max) {prio : Nat} (hPrio : prio < max) :
    ∀ a ∈ k.setTaskPriorityAccesses t prio, a.InRange max := by
  unfold Kernel.setTaskPriorityAccesses
  split
  · rw [List.forall_mem_append]
    exact ⟨h.statusItemDelAccesses hMax, (((h.statusItemDel hMax).resetStatus _).mapTcb
      fun _ _ => hPrio).insertTaskPriorityListAccesses hMax⟩
  · nofun

theorem taskDeleteAccesses (h : k.Ranged max) : ∀ a ∈ k.taskDeleteAccesses t, a.InRange max := by
  unfold Kernel.taskDeleteAccesses
  dsimp only
  split
  · nofun
  · rw [List.forall_mem_append]
    constructor
    · split
      · exact h.statusItemDelAccesses hMax
      · nofun
    · split
      · exact List.forall_mem_singleton.mpr trivial
      · nofun

omit hMax in
theorem checkTaskPriorityAccesses (h : k.Ranged max) :
    ∀ a ∈ k.checkTaskPriorityAccesses, a.InRange max := by
  unfold Kernel.checkTaskPriorityAccesses
  dsimp only
  split
  · nofun
  · split
    · nofun
    · exact List.forall_mem_singleton.mpr (h.priority _)

omit hMax in
theorem schedulerAccesses (h : k.Ranged max) : ∀ a ∈ k.schedulerAccesses, a.InRange max := by
  unfold Kernel.schedulerAccesses
  split
  · nofun
  · split
    · exact h.checkTaskPriorityAccesses
    · nofun

theorem taskSleepAccesses (h : k.Ranged max) (n : Nat) :
    ∀ a ∈ k.taskSleepAccesses t n, a.InRange max := by
  unfold Kernel.taskSleepAccesses
  split
  · exact h.schedulerAccesses
  · rw [List.forall_mem_append]
    exact ⟨h.insertTaskSleepListAccesses hMax, (h.insertSleepList hMax n).schedulerAccesses⟩

/-- Every expiry of a tick is in range. -/
theorem tickExpireAccesses (fuel : Nat) :
    ∀ {k : Kernel}, k.Ranged max → ∀ a ∈ tickExpireAccesses fuel k, a.InRange max := by
  induction fuel with
  | zero => exact fun _ => List.forall_mem_nil _
  | succ fuel ih =>
      intro k h
      unfold Kernel.tickExpireAccesses
      split
      · exact List.forall_mem_nil _
      · split
        · exact List.forall_mem_nil _
        · rename_i k₁ t hHead
          have hk : k₁ = _ := (congrArg Prod.fst hHead).symm
          subst hk
          have hFirst : (k.dosGetFirstTask k.dosTaskSleepList).1.Ranged max := h.setLists _
          split
          · exact List.forall_mem_nil _
          · rw [List.forall_mem_append, expireTaskAccesses, List.forall_mem_cons]
            exact ⟨⟨trivial, hFirst.insertTaskPriorityListAccesses hMax⟩,
              ih (hFirst.expireTask hMax)⟩

theorem tickUpdateAccesses (h : k.Ranged max) (notify : Option TaskId) :
    ∀ a ∈ k.tickUpdateAccesses notify, a.InRange max := by
  have hAdvance := h.tickAdvance
  have hNotify := hAdvance.tickNotify hMax notify
  unfold Kernel.tickUpdateAccesses
  dsimp only
  rw [List.forall_mem_append, List.forall_mem_append]
  refine ⟨⟨?_, ?_⟩, (hNotify.tickTimeouts hMax).schedulerAccesses⟩
  · unfold Kernel.tickNotifyAccesses
    split
    · split
      · exact hAdvance.taskWakeAccesses hMax
      · nofun
    · nofun
  · unfold Kernel.tickTimeoutsAccesses
    split
    · exact tickExpireAccesses hMax _ hNotify
    · nofun

end Accesses

end Ranged

end Kernel

/-- A creation uses a priority below `DOS_MAX_PRIORITY_NUM`. -/
def Operation.Below (max : Nat) : Operation → Prop
  | .create _ _ prio _ => prio < max
  | _ => True

instance (max : Nat) : (op : Operation) → Decidable (op.Below max)
  | .create _ _ prio _ => inferInstanceAs (Decidable (prio < max))
  | .start | .schedule | .choose | .delete _ | .recycle | .sleep _ | .wait _ _ | .cleanUp
  | .resetFlags | .unlink | .wake _ _ | .setPriority _ _ | .tick _ | .lock | .unlock =>
      inferInstanceAs (Decidable True)

namespace OpState

open Kernel Transition

variable {s s' : OpState} {op : Operation} {max : Nat}

structure Ranged (max : Nat) (s : OpState) : Prop where
  kernel : s.k.Ranged max
  priorities : ∀ p ∈ s.priorities, p < max

/-- One operation keeps all priorities in range. -/
theorem Ranged.step (hMax : max ≤ 32) (h : s.Ranged max) (hOk : op.Below max)
    (hStep : operate s op = some s') : s'.Ranged max := by
  have hk := h.kernel
  cases op with
  | create t memory prio tick =>
      simp only [operate, Option.ite_none_right_eq_some, Option.map_eq_some_iff] at hStep
      obtain ⟨_, k', hCreate, rfl⟩ := hStep
      exact ⟨hk.taskCreate hMax hOk hCreate, List.forall_mem_cons.mpr ⟨hOk, h.priorities⟩⟩
  | start =>
      obtain ⟨_, rfl⟩ := guard_some hStep
      exact ⟨hk.start hMax, h.priorities⟩
  | schedule =>
      simp only [operate, Option.some.injEq] at hStep
      subst hStep
      exact ⟨hk.scheduler hMax, h.priorities⟩
  | choose =>
      obtain ⟨_, rfl⟩ := guard_some hStep
      exact ⟨⟨hk.config, hk.priority, hk.bits, hk.current⟩, h.priorities⟩
  | delete t =>
      obtain ⟨_, rfl⟩ := guard_some hStep
      exact ⟨hk.taskDelete hMax, h.priorities⟩
  | recycle =>
      obtain ⟨_, rfl⟩ := guard_some hStep
      exact ⟨hk.idleRecycle, h.priorities⟩
  | sleep sleepTick =>
      obtain ⟨c, _, _, rfl⟩ := byCurrent_some hStep
      exact ⟨hk.taskSleep hMax sleepTick, h.priorities⟩
  | wait id timeout =>
      obtain ⟨c, _, _, rfl⟩ := byCurrent_some hStep
      exact ⟨hk.taskWait hMax id timeout, h.priorities⟩
  | cleanUp =>
      obtain ⟨c, _, _, rfl⟩ := byCurrent_some hStep
      exact ⟨((hk.resetStatus _).setStatus _).setLists _, h.priorities⟩
  | resetFlags =>
      obtain ⟨c, _, _, rfl⟩ := byCurrent_some hStep
      exact ⟨(hk.resetStatus _).setStatus _, h.priorities⟩
  | unlink =>
      obtain ⟨c, _, _, rfl⟩ := byCurrent_some hStep
      exact ⟨hk.setLists _, h.priorities⟩
  | wake id t =>
      obtain ⟨_, rfl⟩ := guard_some hStep
      exact ⟨hk.taskWake hMax, h.priorities⟩
  | setPriority t prio =>
      obtain ⟨⟨_, hPrio⟩, rfl⟩ := guard_some hStep
      exact ⟨hk.setTaskPriority hMax (h.priorities prio hPrio), h.priorities⟩
  | tick notify =>
      obtain ⟨_, rfl⟩ := guard_some hStep
      exact ⟨((hk.tickAdvance.tickNotify hMax _).tickTimeouts hMax).scheduler hMax, h.priorities⟩
  | lock =>
      simp only [operate, Option.some.injEq] at hStep
      subst hStep
      exact ⟨⟨hk.config, hk.priority, hk.bits, hk.current⟩, h.priorities⟩
  | unlock =>
      simp only [operate, Option.some.injEq] at hStep
      subst hStep
      exact ⟨hk.schedulerUnlock hMax, h.priorities⟩

/-- The priority of the idle task is in range. -/
theorem ranged_initial {cfg : Config} {idle : TaskId} {k : Kernel}
    (hMax : cfg.dosMaxPriorityNum ≤ 32) (hInit : dosTaskInit cfg idle = some k) :
    (initial k idle).Ranged cfg.dosMaxPriorityNum := by
  obtain ⟨k₁, prio, hStep, hPrio, rfl⟩ := initial_created hInit
  have hStart : (startUp cfg).Ranged cfg.dosMaxPriorityNum := by
    refine ⟨⟨rfl, ?_, ?_, ?_⟩, nofun⟩
    · exact fun _ => Nat.zero_lt_of_lt hPrio
    · intro p hp
      simp [startUp, boot] at hp
    · exact Nat.zero_lt_of_lt hPrio
  have hMade := hStart.step hMax (show (Operation.create idle {} prio 20).Below _ from hPrio) hStep
  have hk := hMade.kernel
  exact ⟨⟨hk.config, hk.priority, hk.bits, hk.current⟩,
    List.forall_mem_singleton.mpr (hk.priority idle)⟩

/-- Every access of an enabled operation is in range. -/
theorem Ranged.accesses_inRange (hMax : max ≤ 32) (h : s.Ranged max) (hOk : op.Below max)
    (hStep : operate s op = some s') : ∀ a ∈ op.accesses s, a.InRange max := by
  have hk := h.kernel
  -- the accesses of a step of the current task
  have hCurrent {f : TaskId → List Access} (hf : ∀ c, ∀ a ∈ f c, a.InRange max) :
      ∀ a ∈ s.k.currentAccesses f, a.InRange max := by
    unfold currentAccesses
    split
    · exact hf _
    · exact List.forall_mem_nil _
  cases op with
  | create t memory prio tick =>
      show ∀ a ∈ Kernel.taskCreateAccesses _ t prio tick, a.InRange max
      unfold taskCreateAccesses
      split
      · exact List.forall_mem_nil _
      · exact (hk.initTcb memory tick hOk).insertTaskPriorityListAccesses hMax
  | start =>
      show ∀ a ∈ s.k.systemStartRunAccesses, a.InRange max
      unfold systemStartRunAccesses
      rw [List.forall_mem_append, List.forall_mem_singleton]
      exact ⟨hk.checkTaskPriorityAccesses, (hk.check hMax).current⟩
  | schedule => exact hk.schedulerAccesses
  | choose => exact List.forall_mem_singleton.mpr hk.current
  | delete t => exact hk.taskDeleteAccesses hMax
  | recycle =>
      show ∀ a ∈ s.k.idleRecycleAccesses, a.InRange max
      unfold idleRecycleAccesses
      split
      · exact List.forall_mem_nil _
      · split
        · exact List.forall_mem_singleton.mpr trivial
        · exact List.forall_mem_nil _
  | sleep sleepTick => exact hCurrent fun _ => hk.taskSleepAccesses hMax sleepTick
  | wait id timeout => exact hCurrent fun _ => hk.taskWaitAccesses hMax id timeout
  | cleanUp => exact hCurrent fun _ => List.forall_mem_singleton.mpr trivial
  | resetFlags => exact List.forall_mem_nil _
  | unlink => exact hCurrent fun _ => List.forall_mem_singleton.mpr trivial
  | wake id t => exact hk.taskWakeAccesses hMax
  | setPriority t prio =>
      simp only [operate, Option.ite_none_right_eq_some] at hStep
      exact hk.setTaskPriorityAccesses hMax (h.priorities prio hStep.1.2)
  | tick notify => exact hk.tickUpdateAccesses hMax _
  | lock => exact List.forall_mem_nil _
  | unlock =>
      show ∀ a ∈ s.k.schedulerUnlockAccesses, a.InRange max
      unfold schedulerUnlockAccesses
      split
      · exact Kernel.Ranged.schedulerAccesses ⟨hk.config, hk.priority, hk.bits, hk.current⟩
      · exact List.forall_mem_nil _

/-- Every index into `dos_task_priority_list` and every shift of a priority bit
is in range, in every run that creates its tasks below `DOS_MAX_PRIORITY_NUM`. -/
theorem priorities_stay_in_range (cfg : Config) (hMax : cfg.dosMaxPriorityNum ≤ 32) (idle : TaskId)
    (k₀ : Kernel) (hInit : dosTaskInit cfg idle = some k₀) (ops : List Operation) (s : OpState)
    (run : RunsIf operate (fun _ op => op.Below cfg.dosMaxPriorityNum) (initial k₀ idle) ops s)
    (op : Operation) (hOk : op.Below cfg.dosMaxPriorityNum) (s' : OpState)
    (hStep : operate s op = some s') :
    (∀ i, Access.readyList i ∈ op.accesses s → i < cfg.dosMaxPriorityNum) ∧
      ∀ n, Access.priorityBit n ∈ op.accesses s → n < 32 := by
  have h : s.Ranged cfg.dosMaxPriorityNum := run.invariant (Ranged cfg.dosMaxPriorityNum)
    (ranged_initial hMax hInit) fun _ _ _ h hBelow hLast => h.step hMax hBelow hLast
  have hAll := h.accesses_inRange hMax hOk hStep
  exact ⟨fun i hi => hAll _ hi, fun n hn => hAll _ hn⟩

/-- With eight priorities a task of the last one but the idle task's is
created and started. -/
theorem priorities_stay_in_range_eight :
    ∃ k₀ s s', dosTaskInit { shippedConfig with dosMaxPriorityNum := 8 } 0 = some k₀ ∧
      RunsIf operate (fun _ op => op.Below 8) (initial k₀ 0) [.create 1 {} 6 10] s ∧
      operate s .start = some s' ∧ Access.readyList 6 ∈ Operation.start.accesses s ∧ 6 < 8 := by
  let cfg : Config := { shippedConfig with dosMaxPriorityNum := 8 }
  let k₀ := (dosTaskInit cfg 0).get (by decide)
  let s := (execIf operate (fun _ op => op.Below 8) (initial k₀ 0)
    [.create 1 {} 6 10]).get (by decide +kernel)
  have hInit : dosTaskInit cfg 0 = some k₀ := (Option.some_get _).symm
  have hRun : RunsIf operate (fun _ op => op.Below 8) (initial k₀ 0) _ s := runsIf_of_isSome _
  have hStep : operate s .start = some _ := (Option.some_get (by decide +kernel)).symm
  have hCurrent : s.k.dosCheckTaskPriority.1.dosCurPriority = 6 := by decide +kernel
  have hAccess : Access.readyList 6 ∈ Operation.start.accesses s := by
    show _ ∈ s.k.systemStartRunAccesses
    rw [systemStartRunAccesses, hCurrent]
    exact List.mem_append_right _ (List.mem_singleton_self _)
  exact ⟨k₀, s, _, hInit, hRun, hStep, hAccess,
    (priorities_stay_in_range cfg (by decide) 0 k₀ hInit _ s hRun .start trivial _ hStep).1 6 hAccess⟩

/-- A task of priority `DOS_MAX_PRIORITY_NUM` is accepted: the index is the
number of the lists and the shift is the size of the word. -/
theorem priority_max_is_accepted :
    ∃ k₀ s', dosTaskInit shippedConfig 0 = some k₀ ∧
      operate (initial k₀ 0) (.create 1 {} 32 10) = some s' ∧
      Access.readyList 32 ∈ (Operation.create 1 {} 32 10).accesses (initial k₀ 0) ∧
      Access.priorityBit 32 ∈ (Operation.create 1 {} 32 10).accesses (initial k₀ 0) := by
  let k₀ := (dosTaskInit shippedConfig 0).get (by decide)
  have hBoth : (Operation.create 1 {} 32 10).accesses (initial k₀ 0) =
      [.priorityBit 32, .readyList 32] := rfl
  refine ⟨k₀, _, (Option.some_get _).symm, (Option.some_get (by decide +kernel)).symm, ?_, ?_⟩
  · rw [hBoth]
    exact List.mem_cons_of_mem _ List.mem_cons_self
  · rw [hBoth]
    exact List.mem_cons_self

end OpState

end DoraOS
