import DoraOS.Kernel.Run

/-! What the kernel operations are made of. Apart from `dos_task_wait` and the
creation of a task, every operation is a sequence of elementary changes: of the
status flags and the scheduling data of a task, of status items, and removals
of pend items. So pend lists only lose members, what a task waits for does not
change, and no task comes to life. -/
namespace DoraOS

namespace Kernel

/-- `k'` comes from `k` by elementary changes, none of which links a pend item
or touches what a task waits for. -/
inductive Moves : Kernel → Kernel → Prop where
  | trans {k k' k'' : Kernel} (first : Moves k k') (second : Moves k' k'') : Moves k k''
  | del (k : Kernel) (t : TaskId) (c : ItemKind) : Moves k (k.dosTaskItemDel c t)
  | link (k : Kernel) (t : TaskId) {l : ListId} (hl : l.kind = .status) :
      Moves k (k.dosTaskItemInsert l t)
  | other {k k' : Kernel}
      (hWant : ∀ x, (k'.tcb x).waitEvent = (k.tcb x).waitEvent ∧
        (k'.tcb x).waitEventOpt = (k.tcb x).waitEventOpt)
      (hOwner : ∀ x, k'.lists.owner .pend x = k.lists.owner .pend x)
      (hItems : ∀ id, k'.lists.items (.pend id) = k.lists.items (.pend id))
      (hLive : ∀ x, k'.Live x → k.Live x) (hPair : k.SleepPair → k'.SleepPair) : Moves k k'

/-- Nothing that event waiters depend on changed, except that tasks may have
left the pend lists of events. -/
def Calm (k k' : Kernel) : Prop :=
  ∀ t e, k'.lists.owner .pend t = some (.pend (.event e)) →
    k.lists.owner .pend t = some (.pend (.event e)) ∧
      (k'.tcb t).waitEvent = (k.tcb t).waitEvent ∧
      (k'.tcb t).waitEventOpt = (k.tcb t).waitEventOpt

variable {k k' k'' : Kernel} {t : TaskId}

theorem Calm.trans (first : Calm k k') (second : Calm k' k'') : Calm k k'' := by
  intro t e hOwner
  obtain ⟨hOwner', hWant', hOpt'⟩ := second t e hOwner
  obtain ⟨hOwner, hWant, hOpt⟩ := first t e hOwner'
  exact ⟨hOwner, hWant'.trans hWant, hOpt'.trans hOpt⟩

/-- Elementary changes bring nobody on the pend list of an event. -/
theorem Moves.calm (h : Moves k k') : Calm k k' := by
  induction h with
  | trans _ _ first second => exact first.trans second
  | del k t c =>
      intro x e hx
      simp only [dosTaskItemDel, TaskLists.del_owner] at hx
      split at hx
      · cases hx
      · exact ⟨hx, rfl, rfl⟩
  | @link k t l hl =>
      intro x e hx
      simp only [dosTaskItemInsert, TaskLists.insert_owner, hl, reduceCtorEq, false_and,
        if_false] at hx
      exact ⟨hx, rfl, rfl⟩
  | other hWant hOwner =>
      intro x e hx
      exact ⟨(hOwner x).symm.trans hx, hWant x⟩

/-- Pend lists only lose members. -/
theorem Moves.pend_sublist (h : Moves k k') (id : PendId) :
    (k'.lists.items (.pend id)).Sublist (k.lists.items (.pend id)) := by
  induction h with
  | trans _ _ first second => exact second.trans first
  | del k t c =>
      show ((k.lists.dosTaskItemDel c t).1.items (.pend id)).Sublist _
      rw [TaskLists.del_items]
      split
      · exact List.erase_sublist
      · exact List.Sublist.refl _
  | @link k t l hl =>
      have hOther : ListId.pend id ≠ l := by
        rintro rfl
        cases hl
      show ((k.lists.dosTaskItemInsert l t).items (.pend id)).Sublist _
      rw [TaskLists.insert_items, if_neg hOther]
  | other _ _ hItems => rw [hItems]

/-- The sleep list pointers keep naming the sleep lists. -/
theorem Moves.pair (h : Moves k k') (hPair : k.SleepPair) : k'.SleepPair := by
  induction h with
  | trans _ _ first second => exact second (first hPair)
  | del | link => exact hPair
  | other _ _ _ _ hKeep => exact hKeep hPair

/-- A task that is alive was alive before. -/
theorem Moves.live (h : Moves k k') {x : TaskId} (hLive : k'.Live x) : k.Live x := by
  induction h with
  | trans _ _ first second => exact first (second hLive)
  | del | link => exact hLive
  | other _ _ _ hWas => exact hWas x hLive

/-- A change that lists and control blocks have no part in. -/
theorem moves_of_eq (hTcb : k'.tcb = k.tcb) (hAlloc : k'.alloc = k.alloc)
    (hLists : k'.lists = k.lists) (hPair : k.SleepPair → k'.SleepPair) : Moves k k' :=
  Moves.other (fun _ => by rw [hTcb]; exact ⟨rfl, rfl⟩) (fun _ => by rw [hLists])
    (fun _ => by rw [hLists]) (fun _ hLive => by rwa [Live, Kernel.is, hTcb, hAlloc] at hLive) hPair

theorem Moves.refl : Moves k k := moves_of_eq rfl rfl rfl id

theorem SameTasks.moves (h : SameTasks k k') : Moves k k' := by
  refine Moves.other ?_ (fun _ => by rw [h.lists]) (fun _ => by rw [h.lists]) ?_
    (SleepPair.congr · h.statics)
  · intro x
    have hWant := congrArg Tcb.waitEvent (h.tcb x)
    have hOpt := congrArg Tcb.waitEventOpt (h.tcb x)
    exact ⟨hWant, hOpt⟩
  · intro x hLive
    rwa [Live, h.alloc, h.is] at hLive

section Operations

variable (k t)

theorem moves_mapTcb {f : Tcb → Tcb} (hf : ∀ tcb : Tcb,
    ((f tcb).waitEvent = tcb.waitEvent ∧ (f tcb).waitEventOpt = tcb.waitEventOpt) ∧
      (Flag.test (f tcb).taskStatus .unused = false → Flag.test tcb.taskStatus .unused = false)) :
    Moves k (k.mapTcb t f) := by
  refine Moves.other ?_ (fun _ => rfl) (fun _ => rfl) ?_ id
  · intro x
    unfold mapTcb
    dsimp only
    split
    · exact (hf _).1
    · exact ⟨rfl, rfl⟩
  · rintro x ⟨hAlloc, hUsed⟩
    refine ⟨hAlloc, ?_⟩
    unfold Kernel.is mapTcb at hUsed
    dsimp only at hUsed
    split at hUsed
    · exact (hf _).2 hUsed
    · exact hUsed

theorem moves_first (l : ListId) : Moves k (k.dosGetFirstTask l).1 :=
  Moves.other (fun _ => ⟨rfl, rfl⟩) (fun _ => rfl) (fun _ => TaskLists.first_items _ _)
    (fun _ => id) id

theorem moves_setStatus (m : BitVec 16) : Moves k (k.dosSetTaskStatus t m) :=
  moves_mapTcb k t fun _ => ⟨⟨rfl, rfl⟩, fun h => by simp_all⟩

theorem moves_resetStatus {m : BitVec 16} (hm : Flag.test m .unused = false) :
    Moves k (k.dosResetTaskStatus t m) :=
  moves_mapTcb k t fun _ => ⟨⟨rfl, rfl⟩, fun h => by simp_all⟩

/-- The new status of a deleted task. -/
theorem moves_unused (m : BitVec 16) :
    Moves k ((k.dosResetTaskStatus t m).dosSetTaskStatus t Flag.unused.mask) := by
  have hMap : (k.dosResetTaskStatus t m).dosSetTaskStatus t Flag.unused.mask = k.mapTcb t
      fun tcb => { tcb with taskStatus := (tcb.taskStatus &&& ~~~m) ||| Flag.unused.mask } := by
    simp only [dosSetTaskStatus, dosResetTaskStatus, mapTcb]
    congr 1
    funext x
    split <;> rfl
  rw [hMap]
  exact moves_mapTcb k t fun _ => ⟨⟨rfl, rfl⟩, fun h => by simp at h⟩

theorem moves_freeTcb : Moves k (k.freeTcb t) := by
  refine Moves.other (fun _ => ⟨rfl, rfl⟩) (fun _ => rfl) (fun _ => rfl) ?_ id
  rintro x ⟨hAlloc, hUsed⟩
  refine ⟨?_, hUsed⟩
  simp only [freeTcb] at hAlloc
  split at hAlloc
  · cases hAlloc
  · exact hAlloc

theorem moves_insertPriorityList : Moves k (k.dosInsertTaskPriorityList t) := by
  have hBit : Moves k (k.dosSetTaskPtiority t) := moves_of_eq rfl rfl rfl id
  exact (hBit.trans (moves_setStatus _ t _)).trans
    (Moves.link _ t (l := .priority (k.priority t)) rfl)

theorem moves_statusItemDel : Moves k (k.dosStatusItemDel t) := by
  unfold dosStatusItemDel
  dsimp only
  split
  · exact (Moves.del k t .status).trans (moves_of_eq rfl rfl rfl id)
  · exact Moves.del k t .status

theorem moves_wake : Moves k (k.dosTaskWake t) :=
  (((Moves.del k t .pend).trans (Moves.del _ t .status)).trans
    (moves_resetStatus _ t (by simp))).trans (moves_insertPriorityList _ t)

theorem moves_setPriority (prio : Nat) : Moves k (k.dosSetTaskPriority t prio) := by
  unfold dosSetTaskPriority
  dsimp only
  split
  · let k₁ := (k.dosStatusItemDel t).dosResetTaskStatus t Flag.ready.mask
    have hOff : Moves k k₁ := (moves_statusItemDel k t).trans (moves_resetStatus _ t (by simp))
    have hPrio : Moves k₁ (k₁.mapTcb t fun tcb => { tcb with priority := prio }) :=
      moves_mapTcb k₁ t fun _ => ⟨⟨rfl, rfl⟩, id⟩
    exact (hOff.trans hPrio).trans (moves_insertPriorityList _ t)
  · exact moves_mapTcb k t fun _ => ⟨⟨rfl, rfl⟩, id⟩

theorem moves_timeoutCleanUp : Moves k (k.dosTimeoutCleanUp t) :=
  ((moves_resetStatus k t (by simp)).trans (moves_setStatus _ t _)).trans (Moves.del _ t .pend)

theorem moves_expire : Moves k (k.dosExpireTask t) := by
  have hOff := (Moves.del k t .status).trans (moves_resetStatus _ t (m := Flag.delay.mask) (by simp))
  unfold dosExpireTask
  dsimp only
  split
  · exact (hOff.trans (moves_setStatus _ t _)).trans (moves_insertPriorityList _ t)
  · exact hOff.trans (moves_insertPriorityList _ t)

theorem moves_linkSleepItem (hPair : k.SleepPair) : Moves k (k.dosLinkSleepItem t) := by
  obtain ⟨hList, hOverflow⟩ := hPair.kind
  unfold dosLinkSleepItem
  dsimp only
  split
  · exact Moves.link k t hOverflow
  · split
    · exact (Moves.link k t hList).trans (moves_of_eq rfl rfl rfl id)
    · exact Moves.link k t hList

theorem moves_insertSleepItem (hPair : k.SleepPair) (n : Nat) : Moves k (k.dosInsertSleepItem t n) := by
  let k₁ := (k.dosResetTaskStatus t Flag.ready.mask).dosSetTaskStatus t Flag.delay.mask
  have hOff : Moves k (k₁.dosStatusItemDel t) :=
    ((moves_resetStatus k t (by simp)).trans (moves_setStatus _ t _)).trans (moves_statusItemDel _ t)
  have hPair₁ : (k₁.dosStatusItemDel t).SleepPair :=
    SleepPair.congr (k := k₁) hPair (onlyTask_statusItemDel k₁ t).statics
  have hWake : Moves (k₁.dosStatusItemDel t) ((k₁.dosStatusItemDel t).setWakeTime t
      (((k₁.dosStatusItemDel t).dosTickCount + n) % 2 ^ 32)) :=
    Moves.other (fun _ => ⟨rfl, rfl⟩) (fun _ => by simp [setWakeTime]) (fun _ => rfl) (fun _ => id) id
  exact (hOff.trans hWake).trans (moves_linkSleepItem _ t hPair₁)

theorem moves_insertSleepList (hPair : k.SleepPair) (n : Nat) :
    Moves k (k.dosInsertTaskSleepList t n) := by
  unfold dosInsertTaskSleepList
  split
  · exact moves_of_eq rfl rfl rfl id
  · exact moves_insertSleepItem k t hPair n

theorem moves_sleep (hPair : k.SleepPair) (n : Nat) : Moves k (k.dosTaskSleep t n) := by
  unfold dosTaskSleep
  split
  · exact (sameTasks_scheduler k).moves
  · exact (moves_insertSleepList k t hPair n).trans (sameTasks_scheduler _).moves

/-- `dos_task_wait` behind the insertion into the pend list. -/
theorem moves_wait_linked (hPair : k.SleepPair) (id : PendId) (timeout : Nat) :
    Moves ((k.dosSetTaskStatus t Flag.suspend.mask).dosTaskItemInsert (.pend id) t)
      (k.dosTaskWait t id timeout) := by
  unfold dosTaskWait
  dsimp only
  split
  · have hLinked : ((k.dosSetTaskStatus t Flag.suspend.mask).dosTaskItemInsert
      (.pend id) t).SleepPair :=
      hPair
    exact moves_insertSleepList _ t hLinked timeout
  · exact (moves_resetStatus _ t (by simp)).trans (moves_statusItemDel _ t)

theorem moves_unlink : Moves k (k.dosTaskUnlink t) := by
  unfold dosTaskUnlink
  dsimp only
  refine Moves.trans ?_ (moves_unused _ t _)
  have hStatus : Moves k (if Flag.test (k.tcb t).taskStatus .delay ||
      Flag.test (k.tcb t).taskStatus .ready then k.dosStatusItemDel t else k) := by
    split
    · exact moves_statusItemDel k t
    · exact moves_of_eq rfl rfl rfl id
  split
  · exact hStatus.trans (Moves.del _ t .pend)
  · exact hStatus

/-- A deletion makes nobody wait. -/
theorem moves_delete : Moves k (k.dosTaskDelete t).1 := by
  unfold dosTaskDelete
  split
  · exact moves_of_eq rfl rfl rfl id
  · split
    · exact moves_of_eq rfl rfl rfl id
    · split
      · exact (moves_unlink k t).trans (moves_freeTcb _ t)
      · exact (moves_unlink k t).trans (Moves.link _ t rfl)

theorem moves_recycle : Moves k k.dosIdleRecycle := by
  unfold dosIdleRecycle
  split
  · exact moves_of_eq rfl rfl rfl id
  · have hFirst := moves_first k .recycle
    split
    · rename_i k₁ t hHead
      have hk : k₁ = _ := (congrArg Prod.fst hHead).symm
      subst hk
      exact (hFirst.trans (Moves.del _ t .status)).trans (moves_freeTcb _ t)
    · rename_i k₁ hHead
      have hk : k₁ = _ := (congrArg Prod.fst hHead).symm
      subst hk
      exact hFirst

theorem moves_scheduler : Moves k k.dosScheduler := (sameTasks_scheduler k).moves

theorem moves_start : Moves k k.dosSystemStartRun := by
  have hFirst := (sameTasks_check k).moves.trans
    (moves_first _ (.priority k.dosCheckTaskPriority.1.dosCurPriority))
  exact hFirst.trans (moves_of_eq rfl rfl rfl id)

theorem moves_unlock : Moves k k.dosSchedulerUnlock := by
  have hDown : Moves k { k with schedulerLock := k.schedulerLock - 1 } := moves_of_eq rfl rfl rfl id
  unfold dosSchedulerUnlock
  dsimp only
  split
  · split
    · exact hDown.trans (moves_scheduler _)
    · exact hDown
  · exact Moves.refl

theorem moves_tickAdvance : Moves k k.dosTickAdvance :=
  tickAdvance_rule (fun _ hk => hk.trans (moves_of_eq rfl rfl rfl id))
    (fun hk => hk.trans (moves_first _ _)) (fun hk => hk.trans (moves_of_eq rfl rfl rfl id))
    (fun hk => hk.trans (moves_of_eq rfl rfl rfl fun hPair => hPair.symm.imp And.symm And.symm))
    Moves.refl

theorem moves_tickTimeouts : Moves k k.dosTickTimeouts :=
  tickTimeouts_rule (fun _ hk => hk.trans (moves_of_eq rfl rfl rfl id))
    (fun hk => hk.trans (moves_first _ _)) (fun hk _ => hk.trans (moves_expire _ _)) Moves.refl

/-- A tick makes nobody wait. -/
theorem moves_tickUpdate (notify : Option TaskId) : Moves k (k.dosTickUpdate notify) := by
  have hNotify : ∀ k₁ : Kernel, Moves k₁ (k₁.dosTickNotify notify) := by
    intro k₁
    unfold dosTickNotify
    split
    · split
      · exact moves_wake _ _
      · exact Moves.refl
    · exact Moves.refl
  exact (((moves_tickAdvance k).trans (hNotify _)).trans (moves_tickTimeouts _)).trans
    (moves_scheduler _)

end Operations

section Steps

/-- A wait for another kind of object. -/
theorem calm_wait (hPair : k.SleepPair) {id : PendId} (hId : ∀ e, id ≠ .event e) (timeout : Nat) :
    Calm k (k.dosTaskWait t id timeout) := by
  refine Calm.trans ?_ (moves_wait_linked k t hPair id timeout).calm
  refine (moves_setStatus k t Flag.suspend.mask).calm.trans ?_
  intro x e hx
  simp only [dosTaskItemInsert, TaskLists.insert_owner] at hx
  split at hx
  · exact absurd (ListId.pend.inj (Option.some.inj hx)) (hId e)
  · exact ⟨hx, rfl, rfl⟩

/-- A new task waits for nothing. -/
theorem calm_create {prio tick : Nat} (hCreate : (k.zeroTcb t).dosTaskCreate t prio tick = some k') :
    Calm k k' := by
  unfold dosTaskCreate at hCreate
  split at hCreate
  · cases hCreate
  · rw [← Option.some.inj hCreate]
    refine Calm.trans ?_ (moves_insertPriorityList ((k.zeroTcb t).dosInitTcb t prio tick) t).calm
    intro x e hx
    by_cases hEq : x = t
    · simp [dosInitTcb, TaskLists.dosTaskItemInit, hEq] at hx
    · simp only [dosInitTcb, TaskLists.dosTaskItemInit, TaskLists.setItem_owner, hEq, and_false,
        if_false] at hx
      refine ⟨hx, ?_⟩
      simp [dosInitTcb, zeroTcb, mapTcb, hEq]

/-- Every kernel operation but a wait for an event. -/
theorem calm_step {event : KernelEvent} (hPair : k.SleepPair)
    (hOther : ∀ e timeout, event ≠ .wait (.event e) timeout)
    (hStep : kernelStep k event = some k') : Calm k k' := by
  cases event with
  | create t prio tick =>
      simp only [kernelStep, Option.ite_none_right_eq_some] at hStep
      exact calm_create hStep.2
  | start =>
      replace hStep := Transition.guard_some hStep
      rw [← hStep.2]
      exact (moves_start k).calm
  | switch t =>
      replace hStep := Transition.guard_some hStep
      rw [← hStep.2]
      exact (moves_of_eq rfl rfl rfl id).calm
  | schedule =>
      rw [← Option.some.inj hStep]
      exact (moves_scheduler k).calm
  | delete t =>
      replace hStep := Transition.guard_some hStep
      rw [← hStep.2]
      exact (moves_delete k t).calm
  | recycle =>
      replace hStep := Transition.guard_some hStep
      rw [← hStep.2]
      exact (moves_recycle k).calm
  | sleep sleepTick =>
      obtain ⟨t, _, _, rfl⟩ := blockCurrent_some hStep
      exact (moves_sleep k t hPair sleepTick).calm
  | wait id timeout =>
      obtain ⟨t, _, _, rfl⟩ := blockCurrent_some hStep
      refine calm_wait hPair ?_ timeout
      rintro e rfl
      exact hOther e timeout rfl
  | cleanUp =>
      simp only [kernelStep] at hStep
      split at hStep
      · replace hStep := Transition.guard_some hStep
        rw [← hStep.2]
        exact (moves_timeoutCleanUp k _).calm
      · cases hStep
  | wake t =>
      replace hStep := Transition.guard_some hStep
      rw [← hStep.2]
      exact (moves_wake k t).calm
  | setPriority t prio =>
      replace hStep := Transition.guard_some hStep
      rw [← hStep.2]
      exact (moves_setPriority k t prio).calm
  | tick notify =>
      replace hStep := Transition.guard_some hStep
      rw [← hStep.2]
      exact (moves_tickUpdate k notify).calm
  | lock =>
      rw [← Option.some.inj hStep]
      exact (moves_of_eq rfl rfl rfl id).calm
  | unlock =>
      rw [← Option.some.inj hStep]
      exact (moves_unlock k).calm

end Steps

end Kernel

end DoraOS
