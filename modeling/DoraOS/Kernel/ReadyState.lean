import DoraOS.Kernel.Scheduler
import DoraOS.Kernel.Effects

/-! The ready lists at every point of a call. Half-way through the clean-up of
a queue call the flags and the pend item of a task disagree, so the membership
invariant is too strong there; what scheduling needs of it holds throughout.
Operations that call the scheduler last leave the choice to it, and all other
operations leave the processor alone. -/
namespace DoraOS

/-- Ready flag and ready list of a task agree. -/
structure TaskView.ReadyAt (max : Nat) (v : TaskView) : Prop where
  used : v.alloc = true → Flag.test v.status .unused = false ∧ v.priority < max
  ready : v.alloc = true →
    (Flag.test v.status .ready = true ↔ v.statusOwner = some (.priority v.priority))
  list : ∀ p, v.statusOwner = some (.priority p) → p = v.priority
  linked : ∀ l, v.statusOwner = some l → v.alloc = true

namespace TaskView.ReadyAt

variable {max : Nat} {v v' : TaskView}

/-- A used task on its ready list. -/
theorem of_ready (hAlloc : v.alloc = true) (hUnused : Flag.test v.status .unused = false)
    (hPrio : v.priority < max) (hReady : Flag.test v.status .ready = true)
    (hOwner : v.statusOwner = some (.priority v.priority)) : v.ReadyAt max where
  used _ := ⟨hUnused, hPrio⟩
  ready _ := by simp [hReady, hOwner]
  list p hp := by
    rw [hOwner] at hp
    cases hp
    rfl
  linked _ _ := hAlloc

/-- A used task on no ready list. -/
theorem of_unready (hAlloc : v.alloc = true) (hUnused : Flag.test v.status .unused = false)
    (hPrio : v.priority < max) (hReady : Flag.test v.status .ready = false)
    (hOwner : ∀ p, v.statusOwner ≠ some (.priority p)) : v.ReadyAt max where
  used _ := ⟨hUnused, hPrio⟩
  ready _ := by simp [hReady, hOwner]
  list p hp := absurd hp (hOwner p)
  linked _ _ := hAlloc

/-- A control block that is not in use. -/
theorem of_free (hAlloc : v.alloc = false) (hOwner : v.statusOwner = none) : v.ReadyAt max where
  used hUsed := absurd (hAlloc.symm.trans hUsed) (by simp)
  ready hUsed := absurd (hAlloc.symm.trans hUsed) (by simp)
  list p hp := by
    rw [hOwner] at hp
    cases hp
  linked l hl := by
    rw [hOwner] at hl
    cases hl

theorem woken (h : v.ReadyAt max) (hAlloc : v.alloc = true) : v.woken.ReadyAt max :=
  of_ready hAlloc (by simpa using (h.used hAlloc).1) (h.used hAlloc).2 (by simp) rfl

theorem expired (h : v.ReadyAt max) (hAlloc : v.alloc = true) : v.expired.ReadyAt max :=
  of_ready hAlloc (by simpa using (h.used hAlloc).1) (h.used hAlloc).2 (by simp) rfl

/-- A ready task keeps its flag and moves its item. -/
theorem withPriority (h : v.ReadyAt max) (hAlloc : v.alloc = true) {prio : Nat} (hPrio : prio < max) :
    (v.withPriority prio).ReadyAt max := by
  cases hReady : Flag.test v.status .ready with
  | true =>
      refine of_ready (by simpa using hAlloc) (by simpa using (h.used hAlloc).1) (by simpa using hPrio)
        (by simpa using hReady) ?_
      simp [TaskView.withPriority, hReady]
  | false =>
      refine of_unready (by simpa using hAlloc) (by simpa using (h.used hAlloc).1)
        (by simpa using hPrio) (by simpa using hReady) ?_
      intro p hp
      have hOld : v.statusOwner = some (.priority p) := by
        simpa [TaskView.withPriority, hReady] using hp
      rw [h.list p hOld] at hOld
      rw [(h.ready hAlloc).mpr hOld] at hReady
      cases hReady

theorem flagsReset (h : v.ReadyAt max) (hAlloc : v.alloc = true)
    (hReady : Flag.test v.status .ready = true) : v.flagsReset.ReadyAt max :=
  of_ready hAlloc (by simpa [TaskView.flagsReset] using (h.used hAlloc).1) (h.used hAlloc).2
    (by simp [TaskView.flagsReset]) ((h.ready hAlloc).mp hReady)

theorem unpended (h : v.ReadyAt max) : v.unpended.ReadyAt max := ⟨h.used, h.ready, h.list, h.linked⟩

end TaskView.ReadyAt

namespace Kernel

/-- What the processor is doing, and what the scheduler has asked of it. -/
structure Processor where
  dosCurrentTask : Option TaskId
  systemIsRun : Bool
  schedulerLock : Nat
  interruptCount : Nat
  yieldPending : Bool
  dosCurPriority : Nat

def processor (k : Kernel) : Processor where
  dosCurrentTask := k.dosCurrentTask
  systemIsRun := k.systemIsRun
  schedulerLock := k.schedulerLock
  interruptCount := k.interruptCount
  yieldPending := k.yieldPending
  dosCurPriority := k.dosCurPriority

/-- What scheduling needs of the lists, in a configuration that keeps the
bitmap in one word. -/
structure ReadyOk (k : Kernel) : Prop where
  word : k.config.dosMaxPriorityNum ≤ 32
  sound : k.Sound
  bitmap : k.BitmapOk
  task : ∀ t, (k.view t).ReadyAt k.config.dosMaxPriorityNum

/-- An operation that leaves the processor alone. -/
structure Prepares (k k' : Kernel) : Prop where
  ready : k'.ReadyOk
  config : k'.config = k.config
  processor : k'.processor = k.processor

variable {k k' k'' : Kernel} {t : TaskId}

theorem Prepares.trans (first : Prepares k k') (second : Prepares k' k'') : Prepares k k'' where
  ready := second.ready
  config := second.config.trans first.config
  processor := second.processor.trans first.processor

section ReadyOk

/-- A control block in use is a live task. -/
theorem ReadyOk.live_iff (h : k.ReadyOk) : k.Live t ↔ (k.view t).alloc = true :=
  ⟨fun hLive => hLive.1, fun hAlloc => ⟨hAlloc, ((h.task t).used hAlloc).1⟩⟩

theorem ReadyOk.owner (h : k.ReadyOk) (p : Nat)
    (hOwner : k.lists.owner .status t = some (.priority p)) : p = k.priority t :=
  (h.task t).list p hOwner

theorem ReadyOk.priority_lt (h : k.ReadyOk) (hAlloc : (k.view t).alloc = true) : k.priority t < 32 :=
  Nat.lt_of_lt_of_le ((h.task t).used hAlloc).2 h.word

/-- The correspondence that the scheduler rests on. -/
theorem ReadyOk.readyLists (h : k.ReadyOk) : ReadyLists k where
  linked := h.sound.linked
  bitmap := h.bitmap
  ready t hLive := by
    rw [h.sound.linked.mem_iff]
    exact (h.task t).ready hLive.1
  member p t hMem := by
    have hOwner := (h.sound.linked.mem_iff _ t).mp hMem
    exact ⟨h.live_iff.mpr ((h.task t).linked _ hOwner), ((h.task t).list p hOwner).symm⟩

/-- Nothing that the lists depend on has changed. -/
theorem ReadyOk.congr (h : k.ReadyOk) (hConfig : k'.config = k.config) (hSound : k'.Sound)
    (hView : ∀ x, k'.view x = k.view x) (hBitmap : k'.BitmapOk) : k'.ReadyOk where
  word := by
    rw [hConfig]
    exact h.word
  sound := hSound
  bitmap := hBitmap
  task x := by
    rw [hConfig, hView]
    exact h.task x

/-- A change of one task has to be checked on that task only. -/
theorem ReadyOk.of_onlyTask (h : k.ReadyOk) (hOnly : OnlyTask t k k') (hLinked : k'.lists.Linked)
    (hBitmap : k'.BitmapOk) (hTask : (k'.view t).ReadyAt k.config.dosMaxPriorityNum) :
    k'.ReadyOk where
  word := by
    rw [show k'.config = k.config from congrArg Statics.config hOnly.statics]
    exact h.word
  sound := ⟨hLinked, h.sound.pair.congr hOnly.statics⟩
  bitmap := hBitmap
  task x := by
    rw [show k'.config = k.config from congrArg Statics.config hOnly.statics]
    by_cases hx : x = t
    · rw [hx]
      exact hTask
    · rw [hOnly.view hx]
      exact h.task x

theorem ReadyOk.sameTasks (h : k.ReadyOk) (hSame : SameTasks k k') : k'.ReadyOk := by
  refine h.congr (congrArg Statics.config hSame.statics) (still_sameTasks h.sound hSame).sound
    hSame.view ?_
  intro p
  rw [hSame.dosTaskPriority, hSame.lists]
  exact h.bitmap p

end ReadyOk

section Prepares

theorem prepares_refl (h : k.ReadyOk) : Prepares k k := ⟨h, rfl, rfl⟩

theorem processor_statusItemDel (k : Kernel) (t : TaskId) :
    (k.dosStatusItemDel t).processor = k.processor := by
  unfold dosStatusItemDel
  dsimp only
  split
  · rfl
  · rfl

theorem processor_linkSleepItem (k : Kernel) (t : TaskId) :
    (k.dosLinkSleepItem t).processor = k.processor := by
  unfold dosLinkSleepItem
  dsimp only
  split
  · rfl
  · split
    · rfl
    · rfl

theorem processor_insertSleepList (k : Kernel) (t : TaskId) (n : Nat) :
    (k.dosInsertTaskSleepList t n).processor = k.processor := by
  unfold dosInsertTaskSleepList
  split
  · rfl
  · exact (processor_linkSleepItem _ t).trans (processor_statusItemDel _ t)

theorem processor_wait (k : Kernel) (t : TaskId) (id : PendId) (timeout : Nat) :
    (k.dosTaskWait t id timeout).processor = k.processor := by
  unfold dosTaskWait
  dsimp only
  split
  · exact processor_insertSleepList _ t timeout
  · exact processor_statusItemDel _ t

theorem processor_setPriority (k : Kernel) (t : TaskId) (prio : Nat) :
    (k.dosSetTaskPriority t prio).processor = k.processor := by
  unfold dosSetTaskPriority
  split
  · exact processor_statusItemDel k t
  · rfl

theorem prepares_wake (h : k.ReadyOk) (hAlloc : (k.view t).alloc = true) :
    Prepares k (k.dosTaskWake t) where
  ready := by
    refine h.of_onlyTask (onlyTask_wake k t) (linked_wake h.sound.linked)
      (bitmap_wake h.word h.bitmap h.sound.linked (h.priority_lt hAlloc) h.owner) ?_
    rw [view_wake_eq]
    exact (h.task t).woken hAlloc
  config := rfl
  processor := rfl

theorem prepares_setPriority (h : k.ReadyOk) (hAlloc : (k.view t).alloc = true) {prio : Nat}
    (hPrio : prio < k.config.dosMaxPriorityNum) : Prepares k (k.dosSetTaskPriority t prio) where
  ready := by
    refine h.of_onlyTask (onlyTask_setPriority k t prio) (linked_setPriority h.sound.linked prio)
      (bitmap_setPriority h.word h.bitmap h.sound.linked (Nat.lt_of_lt_of_le hPrio h.word) h.owner) ?_
    rw [view_setPriority_eq]
    exact (h.task t).withPriority hAlloc hPrio
  config := congrArg Statics.config (onlyTask_setPriority k t prio).statics
  processor := processor_setPriority k t prio

theorem prepares_sleep (h : k.ReadyOk) (hAlloc : (k.view t).alloc = true)
    (hIdle : k.dosIdleTask ≠ some t) (n : Nat) : Prepares k (k.dosInsertTaskSleepList t n) where
  ready := by
    have hUsed := (h.task t).used hAlloc
    have hView := view_insertSleepItem k t n h.sound.pair
    rw [dosInsertTaskSleepList, if_neg hIdle]
    refine h.of_onlyTask (onlyTask_insertSleepItem k t n)
      (linked_insertSleepItem h.sound.linked h.sound.pair n)
      (bitmap_insertSleepItem h.word h.bitmap h.sound.linked h.sound.pair n h.owner) ?_
    rw [hView]
    refine TaskView.ReadyAt.of_unready hAlloc (by simpa using hUsed.1) hUsed.2 (by simp) ?_
    intro p hp
    rcases h.sound.pair.target n with hs | hs
    · simp [hs] at hp
    · simp [hs] at hp
  config := congrArg Statics.config (onlyTask_insertSleepList k t n).statics
  processor := processor_insertSleepList k t n

/-- A blocking call before its scheduling: the task is no longer ready. -/
theorem prepares_wait (h : k.ReadyOk) (hAlloc : (k.view t).alloc = true)
    (hFree : (k.view t).pendOwner = none) (hIdle : k.dosIdleTask ≠ some t) (id : PendId)
    (timeout : Nat) : Prepares k (k.dosTaskWait t id timeout) where
  ready := by
    have hUsed := (h.task t).used hAlloc
    have hView := view_wait k t id timeout h.sound.pair hIdle
    refine h.of_onlyTask (onlyTask_wait k t id timeout)
      (linked_wait h.sound.linked h.sound.pair id timeout hFree)
      (bitmap_wait h.word h.bitmap h.sound.linked h.sound.pair id timeout hFree h.owner) ?_
    rw [hView]
    split
    · refine TaskView.ReadyAt.of_unready hAlloc (by simpa using hUsed.1) hUsed.2 (by simp) ?_
      intro p hp
      rcases h.sound.pair.target timeout with hs | hs
      · simp [hs] at hp
      · simp [hs] at hp
    · exact TaskView.ReadyAt.of_unready hAlloc (by simpa using hUsed.1) hUsed.2 (by simp) (by simp)
  config := congrArg Statics.config (onlyTask_wait k t id timeout).statics
  processor := processor_wait k t id timeout

theorem prepares_timeoutCleanUp (h : k.ReadyOk) (hAlloc : (k.view t).alloc = true)
    (hReady : k.is t .ready = true) : Prepares k (k.dosTimeoutCleanUp t) where
  ready := by
    refine h.of_onlyTask (onlyTask_timeoutCleanUp k t) (linked_timeoutCleanUp h.sound.linked)
      (bitmap_itemDel_pend h.bitmap h.sound.linked) ?_
    rw [view_timeoutCleanUp_eq]
    exact ((h.task t).flagsReset hAlloc hReady).unpended
  config := rfl
  processor := rfl

theorem prepares_flagsReset (h : k.ReadyOk) (hAlloc : (k.view t).alloc = true)
    (hReady : k.is t .ready = true) : Prepares k
      ((k.dosResetTaskStatus t (Flag.timeout.mask ||| Flag.suspend.mask)).dosSetTaskStatus t
        Flag.ready.mask) where
  ready := by
    refine h.of_onlyTask ((onlyTask_resetStatus k t _).trans (onlyTask_setStatus _ t _))
      h.sound.linked h.bitmap ?_
    rw [view_flagsReset]
    exact (h.task t).flagsReset hAlloc hReady
  config := rfl
  processor := rfl

theorem prepares_pendDel (h : k.ReadyOk) (t : TaskId) : Prepares k (k.dosTaskItemDel .pend t) where
  ready := by
    refine h.of_onlyTask (onlyTask_itemDel k t .pend) (h.sound.linked.del .pend t)
      (bitmap_itemDel_pend h.bitmap h.sound.linked) ?_
    rw [view_itemDel_pend]
    exact (h.task t).unpended
  config := rfl
  processor := rfl

theorem prepares_first (h : k.ReadyOk) (l : ListId) : Prepares k (k.dosGetFirstTask l).1 where
  ready := by
    refine h.congr rfl (still_first h.sound l).sound (fun _ => rfl) ?_
    intro p
    show (k.dosTaskPriority 0).getLsbD p = true ↔ (k.lists.dosGetFirstTask l).1.items _ ≠ []
    rw [TaskLists.first_items]
    exact h.bitmap p
  config := rfl
  processor := rfl

theorem prepares_next (h : k.ReadyOk) (l : ListId) :
    Prepares k { k with lists := (k.lists.dosGetNextTask l).1 } where
  ready := by
    refine h.congr rfl (still_next h.sound l).sound (fun _ => rfl) ?_
    intro p
    show (k.dosTaskPriority 0).getLsbD p = true ↔ (k.lists.dosGetNextTask l).1.items _ ≠ []
    rw [TaskLists.next_items]
    exact h.bitmap p
  config := rfl
  processor := rfl

theorem prepares_mapTcb (h : k.ReadyOk) {f : Tcb → Tcb} (hf : ∀ tcb : Tcb,
    (f tcb).taskStatus = tcb.taskStatus ∧ (f tcb).priority = tcb.priority) :
    Prepares k (k.mapTcb t f) where
  ready := h.congr rfl (still_mapTcb h.sound hf).sound (still_mapTcb h.sound hf).view h.bitmap
  config := rfl
  processor := rfl

theorem prepares_setNextWakeTick (h : k.ReadyOk) (n : Nat) : Prepares k (k.setNextWakeTick n) where
  ready := h.congr rfl (still_setNextWakeTick h.sound n).sound (fun _ => rfl) h.bitmap
  config := rfl
  processor := rfl

theorem prepares_tickAdvance (h : k.ReadyOk) : Prepares k k.dosTickAdvance :=
  tickAdvance_rule (fun _ hk => hk.trans (prepares_setNextWakeTick hk.ready _))
    (fun hk => hk.trans (prepares_first hk.ready _))
    (fun hk => hk.trans ⟨hk.ready.congr rfl ⟨hk.ready.sound.linked, hk.ready.sound.pair⟩
      (fun _ => rfl) hk.ready.bitmap, rfl, rfl⟩)
    (fun hk => hk.trans ⟨hk.ready.congr rfl ⟨hk.ready.sound.linked,
      hk.ready.sound.pair.symm.imp And.symm And.symm⟩ (fun _ => rfl) hk.ready.bitmap, rfl, rfl⟩)
    (prepares_refl h)

theorem prepares_expire (h : k.ReadyOk) (hAlloc : (k.view t).alloc = true) :
    Prepares k (k.dosExpireTask t) where
  ready := by
    refine h.of_onlyTask (onlyTask_expire k t) (linked_expire h.sound.linked)
      (bitmap_expire h.word h.bitmap (h.priority_lt hAlloc) h.owner) ?_
    rw [view_expire_eq]
    exact (h.task t).expired hAlloc
  config := congrArg Statics.config (onlyTask_expire k t).statics
  processor := by
    unfold dosExpireTask
    dsimp only
    split
    · rfl
    · rfl

/-- The expiries of a tick before its scheduling. -/
theorem prepares_tickTimeouts (h : k.ReadyOk) : Prepares k k.dosTickTimeouts := by
  refine tickTimeouts_rule (fun _ hk => hk.trans (prepares_setNextWakeTick hk.ready _))
    (fun hk => hk.trans (prepares_first hk.ready _)) ?_ (prepares_refl h)
  intro k' t hk hHead
  have hOwner := (hk.ready.sound.linked.mem_iff _ t).mp (List.mem_of_head? hHead)
  rw [hk.ready.sound.pair.kind.1] at hOwner
  exact hk.trans (prepares_expire hk.ready ((hk.ready.task t).linked _ hOwner))

end Prepares

section Creation

/-- `dos_task_create` in a zero-filled free control block. -/
theorem ReadyOk.newTask (h : k.ReadyOk) {prio : Nat} (tick : Nat)
    (hZero : (k.tcb t).taskStatus = 0) (hStatus : (k.view t).statusOwner = none)
    (hPend : (k.view t).pendOwner = none) (hPrio : prio < k.config.dosMaxPriorityNum) :
    ((k.dosInitTcb t prio tick).dosInsertTaskPriorityList t).ReadyOk := by
  have hSmall : prio < 32 := Nat.lt_of_lt_of_le hPrio h.word
  have hNew : (k.dosInitTcb t prio tick).priority t = prio := by
    simp [dosInitTcb, priority]
  have hOwner : (k.dosInitTcb t prio tick).lists.owner .status t = none := by
    simp [dosInitTcb, TaskLists.dosTaskItemInit]
  have hInit : (k.dosInitTcb t prio tick).view t =
      { alloc := true, status := 0, priority := prio, statusOwner := none, pendOwner := none } := by
    simp [view, dosInitTcb, priority, TaskLists.dosTaskItemInit, hZero]
  have hView := view_insertPriorityList (k.dosInitTcb t prio tick) t
  rw [hInit] at hView
  have hLinked := linked_insertPriorityList
    (linked_initTcb h.sound.linked hStatus hPend tick (by omega)) hOwner
  refine ⟨h.word, ⟨hLinked, h.sound.pair⟩, ?_, ?_⟩
  · have hBits : (k.dosInitTcb t prio tick).BitmapOk := by
      intro p
      simpa [dosInitTcb, TaskLists.dosTaskItemInit] using h.bitmap p
    refine bitmap_insertPriorityList h.word (hBits.except _) ?_
    rw [hNew]
    exact hSmall
  · intro x
    by_cases hx : x = t
    · rw [hx, hView]
      exact TaskView.ReadyAt.of_ready rfl (by simp) hPrio (by simp) rfl
    · rw [(onlyTask_insertPriorityList _ t).view hx]
      have hOld : (k.dosInitTcb t prio tick).view x = k.view x := by
        simp [view, dosInitTcb, priority, TaskLists.dosTaskItemInit, hx]
      rw [hOld]
      exact h.task x

/-- A creation adds a ready task and leaves the processor alone. -/
theorem ReadyOk.create (h : k.ReadyOk) {prio tick : Nat} (hStatus : (k.view t).statusOwner = none)
    (hPend : (k.view t).pendOwner = none) (hStep : kernelStep k (.create t prio tick) = some k') :
    k'.ReadyOk ∧ k'.processor = k.processor := by
  simp only [kernelStep, Option.ite_none_right_eq_some] at hStep
  obtain ⟨⟨hFree, hMax, _⟩, hCreate⟩ := hStep
  have hRange : ¬prio > (k.zeroTcb t).config.dosMaxPriorityNum := Nat.not_lt.mpr hMax.le
  rw [dosTaskCreate, if_neg hRange] at hCreate
  have hZero : (k.zeroTcb t).ReadyOk := by
    refine h.of_onlyTask (onlyTask_mapTcb k t _) h.sound.linked h.bitmap ?_
    exact TaskView.ReadyAt.of_free hFree hStatus
  rw [← Option.some.inj hCreate]
  exact ⟨hZero.newTask tick (by simp [zeroTcb, mapTcb]) hStatus hPend hMax, rfl⟩

/-- The state in which the kernel is started. -/
theorem readyOk_init {cfg : Config} {idle : TaskId} (hMax : cfg.dosMaxPriorityNum ≤ 32)
    (hInit : dosTaskInit cfg idle = some k) : k.ReadyOk := by
  have hBoot : (boot cfg).ReadyOk := by
    have hMember : Membership cfg (boot cfg) := membership_boot
    exact ⟨hMax, ⟨hMember.linked, hMember.pair⟩, hMember.bitmap hMax,
      fun _ => TaskView.ReadyAt.of_free rfl rfl⟩
  simp only [dosTaskInit, dosTaskCreate, Option.map_eq_some_iff] at hInit
  obtain ⟨k₁, hCreate, rfl⟩ := hInit
  split at hCreate
  · cases hCreate
  · rename_i hRange
    have hLast : (cfg.dosMaxPriorityNum + (2 ^ 32 - 1)) % 2 ^ 32 % 2 ^ 16 <
        cfg.dosMaxPriorityNum := by
      simp only [boot] at hRange
      omega
    have hIdle := hBoot.newTask (t := idle) 20 rfl rfl rfl hLast
    rw [Option.some.inj hCreate] at hIdle
    exact hIdle.congr rfl ⟨hIdle.sound.linked, hIdle.sound.pair⟩ (fun _ => rfl) hIdle.bitmap

end Creation

def Urgent (k : Kernel) (p : Nat) : Prop :=
  ∀ t, k.Live t → k.is t .ready = true → p ≤ k.priority t

/-- No task became ready, left the ready tasks or changed its priority. -/
structure SameReady (k k' : Kernel) : Prop where
  live : ∀ t, k'.Live t ↔ k.Live t
  ready : ∀ t, k'.is t .ready = k.is t .ready
  priority : ∀ t, k'.priority t = k.priority t

section Urgency

theorem SameReady.of_view (h : ∀ t, k'.view t = k.view t) : SameReady k k' where
  live t := live_congr (h t)
  ready t := congrArg (fun v : TaskView => Flag.test v.status .ready) (h t)
  priority t := congrArg TaskView.priority (h t)

/-- A change of one task that its urgency has no part in. -/
theorem SameReady.of_onlyTask (hOnly : OnlyTask t k k')
    (hUnused : k'.is t .unused = k.is t .unused) (hReady : k'.is t .ready = k.is t .ready)
    (hPriority : k'.priority t = k.priority t) : SameReady k k' where
  live x := by
    by_cases hx : x = t
    · rw [hx, Live, Live, hOnly.alloc, hUnused]
    · exact live_congr (hOnly.view hx)
  ready x := by
    by_cases hx : x = t
    · rw [hx, hReady]
    · exact hOnly.is hx .ready
  priority x := by
    by_cases hx : x = t
    · rw [hx, hPriority]
    · exact hOnly.priority hx

/-- What was most urgent still is. -/
theorem SameReady.urgent (h : SameReady k k') {p : Nat} (hUrgent : k.Urgent p) : k'.Urgent p := by
  intro t hLive hReady
  rw [h.priority]
  exact hUrgent t ((h.live t).mp hLive) ((h.ready t).symm.trans hReady)

/-- The scheduler knows the most urgent priority, and without a yield the
current task has it. -/
theorem scheduler_settles (h : k.ReadyOk) (hRun : k.systemIsRun = true) (hLock : k.schedulerLock = 0)
    (hInterrupt : k.interruptCount = 0) :
    k.dosScheduler.Urgent k.dosScheduler.dosCurPriority ∧
      (k.dosScheduler.yieldPending = false → ∀ c, k.dosCurrentTask = some c →
        k.dosScheduler.Urgent (k.dosScheduler.priority c)) := by
  have hSame := sameTasks_scheduler k
  have hReady : SameReady k k.dosScheduler := SameReady.of_view hSame.view
  have hFound : k.Urgent k.dosFindPriority.dosCurPriority := fun t hLive hSet =>
    (h.readyLists.findPriority_le h.word hLive hSet).1
  refine ⟨?_, ?_⟩
  · rw [scheduler_curPriority hRun hLock hInterrupt]
    exact hReady.urgent hFound
  · intro hStay c hCurrent
    have hNoYield := check_of_not_pending hRun hLock hInterrupt hStay
    rw [hReady.priority c]
    refine hReady.urgent ?_
    intro t hLive hSet
    exact (check_keeps hCurrent hNoYield).2.trans (hFound t hLive hSet)

/-- A locked scheduler does nothing. -/
theorem scheduler_locked (hLock : k.schedulerLock ≠ 0) : k.dosScheduler = k := by
  unfold dosScheduler
  split
  · rfl
  · rw [if_neg (fun h => hLock h.1)]

theorem check_yield (k : Kernel) : k.dosCheckTaskPriority.1.yieldPending = k.yieldPending := by
  unfold dosCheckTaskPriority
  dsimp only
  split
  · rfl
  · split
    · rfl
    · split
      · split
        · rfl
        · rfl
      · rfl

/-- The scheduler never takes back a request. -/
theorem scheduler_yield (hYield : k.yieldPending = true) : k.dosScheduler.yieldPending = true := by
  unfold dosScheduler
  split
  · exact hYield
  · split
    · dsimp only
      split
      · rfl
      · rw [check_yield]
        exact hYield
    · exact hYield

end Urgency

end Kernel

end DoraOS
