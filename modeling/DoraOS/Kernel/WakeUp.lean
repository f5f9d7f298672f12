import DoraOS.Kernel.Sleep

/-! Wake-up times over whole runs. Every kernel operation keeps the clock
invariant, and an operation that does not concern a sleeping task leaves its
remaining time alone, so that a task that goes to sleep for `n` ticks gets
ready in the `n`-th tick after it. -/
namespace DoraOS

namespace KernelEvent

/-- Sleeping times are 32-bit words, and callers of `dos_task_wait` have dealt
with a timeout of 0 themselves. -/
def Timed : KernelEvent → Prop
  | .sleep sleepTick => sleepTick < 2 ^ 32
  | .wait _ timeout => 1 ≤ timeout ∧ timeout ≤ uint32Max
  | _ => True

/-- The operations that end the sleep of a task before its time. -/
def Disturbs (t : TaskId) : KernelEvent → Prop
  | .wake x => x = t
  | .delete x => x = t
  | .tick notify => notify = some t
  | _ => False

def isTick : KernelEvent → Bool
  | .tick _ => true
  | _ => false

end KernelEvent

def ticks (events : List KernelEvent) : Nat := events.countP KernelEvent.isTick

namespace Kernel

variable {cfg : Config} {k k' : Kernel} {t x : TaskId} {n : Nat}

/-- A sleeping task is live and not ready. -/
theorem Asleep.not_ready (h : Asleep k x n) (hMem : Membership cfg k) :
    k.Live x ∧ k.is x .ready = false := by
  have hOwner : k.lists.owner .status x = some .sleep1 ∨
      k.lists.owner .status x = some .sleep2 := by
    rcases hMem.pair with ⟨hs, ho⟩ | ⟨hs, ho⟩
    · rcases h with ⟨hx, _⟩ | ⟨hx, _⟩
      · exact Or.inl (hx.trans (by rw [hs]))
      · exact Or.inr (hx.trans (by rw [ho]))
    · rcases h with ⟨hx, _⟩ | ⟨hx, _⟩
      · exact Or.inr (hx.trans (by rw [hs]))
      · exact Or.inl (hx.trans (by rw [ho]))
  have hLive : k.Live x := by
    rcases hOwner with hx | hx
    · exact hMem.live_of_owner hx (by simp)
    · exact hMem.live_of_owner hx (by simp)
  refine ⟨hLive, ?_⟩
  cases hReady : k.is x .ready with
  | false => rfl
  | true =>
      have hPlace : k.lists.owner .status x = some (.priority (k.priority x)) :=
        (hMem.live x hLive).ready_iff.mp hReady
      rcases hOwner with hx | hx <;> rw [hPlace] at hx <;> cases hx

/-- What one operation other than a tick does to the sleeping tasks. -/
structure SleepStep (k k' : Kernel) (event : KernelEvent) : Prop where
  ok : SleepOk k'
  tick : k.systemIsRun = true → k'.dosTickCount = k.dosTickCount
  keep : ∀ x n, Asleep k x n → ¬event.Disturbs x → Asleep k' x n

/-- An operation under which nobody goes to sleep. -/
theorem SleepStep.of_items {event : KernelEvent} (h : SleepOk k) (hClock : SameClock k k')
    (hItems : NoneEnters k k')
    (hKeep : ∀ x n, Asleep k x n → ¬event.Disturbs x → SameItem x k k') :
    SleepStep k k' event where
  ok := h.frame hClock hItems
  tick _ := hClock.tick
  keep x n hSleep hEvent :=
    hSleep.keep hClock.tick hClock.list hClock.overflowList (hKeep x n hSleep hEvent)

/-- An operation that touches no status item. -/
theorem SleepStep.of_same {event : KernelEvent} (h : SleepOk k) (hClock : SameClock k k')
    (hItems : ∀ x, SameItem x k k') : SleepStep k k' event :=
  SleepStep.of_items h hClock (fun x => Or.inl (hItems x)) fun x _ _ _ => hItems x

/-- An operation on one task that does not put it on a sleep list. -/
theorem SleepStep.of_onlyTask {event : KernelEvent} (h : SleepOk k) (hOnly : OnlyTask t k k')
    (hNext : k'.dosNextWakeTick = k.dosNextWakeTick)
    (hOff : ∀ l, l = k.dosTaskSleepList ∨ l = k.dosTaskSleepOverflowList →
      k'.lists.owner .status t ≠ some l)
    (hOther : ∀ n, Asleep k t n → event.Disturbs t) : SleepStep k k' event := by
  refine SleepStep.of_items h (SameClock.of_statics hOnly.statics hNext)
    (hOnly.noneEnters (Or.inr hOff)) ?_
  intro x n hSleep hEvent
  refine hOnly.sameItem ?_
  rintro rfl
  exact hEvent (hOther n hSleep)

/-- Work after an operation that touches no status item any more. -/
theorem SleepStep.then_clock {event : KernelEvent} {k₁ : Kernel} (h : SleepStep k k₁ event)
    (hClock : SameClock k₁ k') (hItems : ∀ x, SameItem x k₁ k') : SleepStep k k' event where
  ok := h.ok.frame hClock fun x => Or.inl (hItems x)
  tick hRun := hClock.tick.trans (h.tick hRun)
  keep x n hSleep hEvent :=
    (h.keep x n hSleep hEvent).keep hClock.tick hClock.list hClock.overflowList (hItems x)

/-- The scheduler behind an operation wakes nobody. -/
theorem SleepStep.then_same {event : KernelEvent} {k₁ : Kernel} (h : SleepStep k k₁ event)
    (hSame : SameTasks k₁ k') : SleepStep k k' event :=
  h.then_clock (SameClock.of_statics hSame.statics hSame.dosNextWakeTick) hSame.sameItem

/-- Going to sleep concerns only the caller, who was ready. -/
theorem SleepStep.of_insertSleepItem {event : KernelEvent} (hMem : Membership cfg k)
    (h : SleepOk k) (hRun : k.systemIsRun = true) (hReady : k.is t .ready = true) (hPos : 1 ≤ n)
    (hn : n < 2 ^ 32) : SleepStep k (k.dosInsertSleepItem t n) event where
  ok := h.insertSleepItem hMem.pair hRun hPos hn
  tick _ := congrArg Statics.dosTickCount (onlyTask_insertSleepItem k t n).statics
  keep x m hSleep _ := by
    have hNe : x ≠ t := by
      rintro rfl
      have hNot := (hSleep.not_ready hMem).2
      rw [hReady] at hNot
      cases hNot
    have hOnly := onlyTask_insertSleepItem k t n
    exact hSleep.of_statics hOnly.statics (hOnly.sameItem hNe)

/-- A place off the sleep lists. -/
theorem off_sleep (hPair : k.SleepPair) {o : Option ListId}
    (ho : o ≠ some .sleep1 ∧ o ≠ some .sleep2) (l : ListId)
    (hl : l = k.dosTaskSleepList ∨ l = k.dosTaskSleepOverflowList) : o ≠ some l := by
  rcases hPair with ⟨hs, hv⟩ | ⟨hs, hv⟩ <;> rw [hs, hv] at hl <;> rcases hl with rfl | rfl
  · exact ho.1
  · exact ho.2
  · exact ho.2
  · exact ho.1

theorem sameItem_create (prio tick : Nat) (hx : x ≠ t) :
    SameItem x k ((k.dosInitTcb t prio tick).dosInsertTaskPriorityList t) := by
  have hInit : SameItem x k (k.dosInitTcb t prio tick) := by
    constructor <;> simp [dosInitTcb, TaskLists.dosTaskItemInit, hx]
  have hLast := (onlyTask_insertPriorityList (k.dosInitTcb t prio tick) t).sameItem hx
  exact ⟨hLast.owner.trans hInit.owner, hLast.value.trans hInit.value⟩

theorem noneEnters_create (t : TaskId) (prio tick : Nat) (hPair : k.SleepPair) :
    NoneEnters k ((k.dosInitTcb t prio tick).dosInsertTaskPriorityList t) := by
  intro x
  by_cases hx : x = t
  · subst hx
    have hOwner : ((k.dosInitTcb x prio tick).dosInsertTaskPriorityList x).lists.owner .status x =
        some (.priority ((k.dosInitTcb x prio tick).priority x)) :=
      congrArg TaskView.statusOwner (view_insertPriorityList (k.dosInitTcb x prio tick) x)
    refine Or.inr (off_sleep hPair ?_)
    rw [hOwner]
    simp
  · exact Or.inl (sameItem_create prio tick hx)

section Steps

variable (hMem : Membership cfg k) (h : SleepOk k)

include hMem h

theorem sleepStep_create {prio tick : Nat} (hFree : k.alloc t = false) :
    SleepStep k (((k.zeroTcb t).dosInitTcb t prio tick).dosInsertTaskPriorityList t)
      (.create t prio tick) := by
  have hItem {x : TaskId} (hx : x ≠ t) := sameItem_create (k := k.zeroTcb t) prio tick hx
  refine SleepStep.of_items h ⟨rfl, rfl, rfl, rfl, rfl⟩ ?_ ?_
  · intro x
    rcases noneEnters_create (k := k.zeroTcb t) t prio tick hMem.pair x with hSame | hOff
    · exact Or.inl ⟨hSame.owner, hSame.value⟩
    · exact Or.inr hOff
  · intro x n hSleep _
    have hNe : x ≠ t := by
      rintro rfl
      have hAlloc := (hSleep.not_ready hMem).1.1
      rw [hFree] at hAlloc
      cases hAlloc
    exact ⟨(hItem hNe).owner, (hItem hNe).value⟩

omit hMem in
theorem sleepStep_start (hStop : k.systemIsRun = false) :
    SleepStep k k.dosSystemStartRun .start := by
  have hSame := sameTasks_check k
  obtain ⟨hNext, hNone⟩ := h.stopped hStop
  have hList : k.dosSystemStartRun.dosTaskSleepList = k.dosTaskSleepList :=
    congrArg Statics.dosTaskSleepList hSame.statics
  have hOver : k.dosSystemStartRun.dosTaskSleepOverflowList = k.dosTaskSleepOverflowList :=
    congrArg Statics.dosTaskSleepOverflowList hSame.statics
  have hNext' : k.dosSystemStartRun.dosNextWakeTick = uint32Max :=
    hSame.dosNextWakeTick.trans hNext
  have hOwner (x : TaskId) : k.dosSystemStartRun.lists.owner .status x =
      k.lists.owner .status x := by
    show k.dosCheckTaskPriority.1.lists.owner .status x = _
    rw [hSame.lists]
  have hNone' : ∀ x l, l = k.dosTaskSleepList ∨ l = k.dosTaskSleepOverflowList →
      k.dosSystemStartRun.lists.owner .status x ≠ some l := by
    intro x l hl
    rw [hOwner]
    exact hNone x l hl
  refine ⟨⟨⟨?_, ?_, ?_, ?_, ?_⟩, ?_, ?_, ?_⟩, ?_, ?_⟩
  · show 0 < 2 ^ 32
    decide
  · rw [hNext']
    decide
  · exact Nat.zero_le _
  · intro x hx
    exact absurd hx (hNone' x _ (Or.inl hList))
  · intro x hx
    exact absurd hx (hNone' x _ (Or.inr hOver))
  · intro x hx
    exact absurd hx (hNone' x _ (Or.inl hList))
  · rw [hNext']
    exact fun hEdge => hEdge
  · intro hBad
    cases hBad
  · intro hRun
    rw [hStop] at hRun
    cases hRun
  · intro x n hSleep _
    rcases hSleep with ⟨hx, _⟩ | ⟨hx, _⟩
    · exact absurd hx (hNone x _ (Or.inl rfl))
    · exact absurd hx (hNone x _ (Or.inr rfl))

/-- A deletion ends the sleep of its task only. -/
theorem sleepStep_delete (hAlloc : k.alloc t = true) :
    SleepStep k (k.dosTaskDelete t).1 (.delete t) := by
  have hSame : SleepStep k k (.delete t) :=
    SleepStep.of_same h ⟨rfl, rfl, rfl, rfl, rfl⟩ fun _ => ⟨rfl, rfl⟩
  unfold dosTaskDelete
  split
  · exact hSame
  · rename_i hUsed
    have hLive := hMem.live_of_used hAlloc hUsed
    have hOnly := onlyTask_unlink k t
    have hOwner : (k.dosTaskUnlink t).lists.owner .status t = none :=
      congrArg TaskView.statusOwner (hMem.unlink_view hLive)
    have hUnlink : SleepStep k (k.dosTaskUnlink t) (.delete t) :=
      SleepStep.of_onlyTask h hOnly (next_unlink k t)
        (off_sleep hMem.pair (by rw [hOwner]; simp)) fun _ _ => rfl
    split
    · exact hSame
    · split
      · exact hUnlink.then_clock ⟨rfl, rfl, rfl, rfl, rfl⟩ fun _ => ⟨rfl, rfl⟩
      · refine SleepStep.of_onlyTask h (hOnly.trans (onlyTask_itemInsert _ t .recycle))
          (next_unlink k t) (off_sleep hMem.pair ?_) fun _ _ => rfl
        simp [dosTaskItemInsert, ListId.kind]

omit hMem in
/-- An operation without effect on the sleeping tasks. -/
theorem sleepStep_refl (event : KernelEvent) : SleepStep k k event :=
  SleepStep.of_same h ⟨rfl, rfl, rfl, rfl, rfl⟩ fun _ => ⟨rfl, rfl⟩

theorem sleepStep_recycle : SleepStep k k.dosIdleRecycle .recycle := by
  unfold dosIdleRecycle
  split
  · exact sleepStep_refl h _
  · split
    · rename_i k₁ t hHead
      have hk : k₁ = (k.dosGetFirstTask .recycle).1 := by rw [hHead]
      have ht : (k.lists.items .recycle).head? = some t := congrArg Prod.snd hHead
      have hOwner : k.lists.owner .status t = some .recycle :=
        (hMem.linked.mem_iff .recycle t).mp (List.mem_of_head? ht)
      subst hk
      have hFirst : SleepStep k (k.dosGetFirstTask .recycle).1 .recycle :=
        SleepStep.of_same h ⟨rfl, rfl, rfl, rfl, rfl⟩ fun _ => ⟨rfl, rfl⟩
      have hOnly := onlyTask_itemDel (k.dosGetFirstTask .recycle).1 t .status
      have hDel : SleepStep k ((k.dosGetFirstTask .recycle).1.dosTaskItemDel .status t)
          .recycle := by
        refine SleepStep.of_items h ⟨rfl, rfl, rfl, rfl, rfl⟩ ?_ ?_
        · intro x
          by_cases hx : x = t
          · subst hx
            exact Or.inr (off_sleep hMem.pair (by simp [dosTaskItemDel]))
          · have hItem := hOnly.sameItem hx
            exact Or.inl ⟨hItem.owner, hItem.value⟩
        · intro x n hSleep _
          have hNe : x ≠ t := by
            rintro rfl
            rcases hSleep with ⟨hx, _⟩ | ⟨hx, _⟩
            · exact off_sleep hMem.pair (by rw [hOwner]; simp) _ (Or.inl rfl) hx
            · exact off_sleep hMem.pair (by rw [hOwner]; simp) _ (Or.inr rfl) hx
          have hItem := hOnly.sameItem hNe
          exact ⟨hItem.owner, hItem.value⟩
      exact hDel.then_clock ⟨rfl, rfl, rfl, rfl, rfl⟩ fun _ => ⟨rfl, rfl⟩
    · rename_i k₁ hHead
      have hk : k₁ = (k.dosGetFirstTask .recycle).1 := by rw [hHead]
      subst hk
      exact SleepStep.of_same h ⟨rfl, rfl, rfl, rfl, rfl⟩ fun _ => ⟨rfl, rfl⟩

/-- A call of `dos_task_sleep`. -/
theorem sleepStep_sleep (hBlock : k.MayBlock t) (hn : n < 2 ^ 32) :
    SleepStep k (k.dosTaskSleep t n) (.sleep n) := by
  obtain ⟨hRun, _, hReady, _, hIdle⟩ := hBlock
  unfold dosTaskSleep
  split
  · exact (sleepStep_refl h _).then_same (sameTasks_scheduler k)
  · rename_i hPos
    rw [dosInsertTaskSleepList, if_neg hIdle]
    exact (SleepStep.of_insertSleepItem hMem h hRun hReady (by omega) hn).then_same
      (sameTasks_scheduler _)

/-- The state in which `dos_task_wait` puts the caller to sleep. -/
theorem sleepStep_wait (hBlock : k.MayBlock t) (id : PendId) (hPos : 1 ≤ n) (hn : n ≤ uint32Max) :
    SleepStep k (k.dosTaskWait t id n) (.wait id n) := by
  obtain ⟨hRun, hLive, hReady, hSuspend, hIdle⟩ := hBlock
  let k₁ := (k.dosSetTaskStatus t Flag.suspend.mask).dosTaskItemInsert (.pend id) t
  have hItems (x : TaskId) : SameItem x k k₁ := by
    constructor <;> simp [k₁, dosTaskItemInsert, dosSetTaskStatus, mapTcb, ListId.kind]
  have hOk : SleepOk k₁ := h.frame ⟨rfl, rfl, rfl, rfl, rfl⟩ fun x => Or.inl (hItems x)
  have hOnly := onlyTask_wait k t id n
  have hOther : ∀ x m, Asleep k x m → x ≠ t := by
    rintro x m hSleep rfl
    have hNot := (hSleep.not_ready hMem).2
    rw [hReady] at hNot
    cases hNot
  refine ⟨?_, fun _ => congrArg Statics.dosTickCount hOnly.statics, fun x m hSleep _ =>
    hSleep.of_statics hOnly.statics (hOnly.sameItem (hOther x m hSleep))⟩
  unfold dosTaskWait
  dsimp only
  split
  · rename_i hFinite
    have hIdle₁ : k₁.dosIdleTask ≠ some t := hIdle
    show SleepOk (k₁.dosInsertTaskSleepList t n)
    rw [dosInsertTaskSleepList, if_neg hIdle₁]
    exact hOk.insertSleepItem hMem.pair hRun hPos (by have hEnd := uint32Max_eq; omega)
  · let k₂ := k₁.dosResetTaskStatus t Flag.ready.mask
    have hOk₂ : SleepOk k₂ := hOk.frame ⟨rfl, rfl, rfl, rfl, rfl⟩ fun _ => Or.inl ⟨rfl, rfl⟩
    have hDel := onlyTask_statusItemDel k₂ t
    refine hOk₂.frame (SameClock.of_statics hDel.statics (next_statusItemDel k₂ t))
      (hDel.noneEnters (Or.inr ?_))
    refine off_sleep (k := k₂) hMem.pair ?_
    simp [owner_statusItemDel]

theorem sleepStep_setPriority (t : TaskId) (prio : Nat) :
    SleepStep k (k.dosSetTaskPriority t prio) (.setPriority t prio) := by
  have hView := view_setPriority k t prio
  by_cases hReady : k.is t .ready = true
  · refine SleepStep.of_onlyTask h (onlyTask_setPriority k t prio) (next_setPriority k t prio)
      (off_sleep hMem.pair ?_) ?_
    · have hOwner : (k.dosSetTaskPriority t prio).lists.owner .status t = _ :=
        congrArg TaskView.statusOwner hView
      rw [hOwner, if_pos hReady]
      simp
    · intro n hSleep
      have hNot := (hSleep.not_ready hMem).2
      rw [hReady] at hNot
      cases hNot
  · rw [dosSetTaskPriority, if_neg hReady]
    exact SleepStep.of_same h ⟨rfl, rfl, rfl, rfl, rfl⟩ fun _ => ⟨rfl, rfl⟩

/-- Every operation but a tick leaves the other sleepers alone. -/
theorem sleepStep_step {event : KernelEvent} (hTimed : event.Timed)
    (hTick : event.isTick = false) (hStep : kernelStep k event = some k') :
    SleepStep k k' event := by
  cases event with
  | create t prio tick =>
      simp only [kernelStep, Option.ite_none_right_eq_some] at hStep
      obtain ⟨⟨hFree, hPrio, _⟩, hCreate⟩ := hStep
      have hRange : ¬prio > (k.zeroTcb t).config.dosMaxPriorityNum := Nat.not_lt.mpr hPrio.le
      rw [dosTaskCreate, if_neg hRange] at hCreate
      rw [← Option.some.inj hCreate]
      exact sleepStep_create hMem h hFree
  | start =>
      replace hStep := Transition.guard_some hStep
      rw [← hStep.2]
      exact sleepStep_start h hStep.1
  | switch t =>
      replace hStep := Transition.guard_some hStep
      rw [← hStep.2]
      exact SleepStep.of_same h ⟨rfl, rfl, rfl, rfl, rfl⟩ fun _ => ⟨rfl, rfl⟩
  | schedule =>
      simp only [kernelStep, Option.some.injEq] at hStep
      rw [← hStep]
      exact (sleepStep_refl h _).then_same (sameTasks_scheduler k)
  | delete t =>
      replace hStep := Transition.guard_some hStep
      rw [← hStep.2]
      exact sleepStep_delete hMem h hStep.1
  | recycle =>
      replace hStep := Transition.guard_some hStep
      rw [← hStep.2]
      exact sleepStep_recycle hMem h
  | sleep sleepTick =>
      obtain ⟨t, _, hBlock, rfl⟩ := blockCurrent_some hStep
      exact sleepStep_sleep hMem h hBlock hTimed
  | wait id timeout =>
      obtain ⟨t, _, hBlock, rfl⟩ := blockCurrent_some hStep
      exact sleepStep_wait hMem h hBlock id hTimed.1 hTimed.2
  | cleanUp =>
      simp only [kernelStep] at hStep
      split at hStep
      · replace hStep := Transition.guard_some hStep
        rw [← hStep.2]
        refine SleepStep.of_same h ⟨rfl, rfl, rfl, rfl, rfl⟩ fun x => ?_
        constructor <;> simp [dosTimeoutCleanUp, dosTaskItemDel, dosSetTaskStatus,
          dosResetTaskStatus, mapTcb]
      · cases hStep
  | wake t =>
      replace hStep := Transition.guard_some hStep
      rw [← hStep.2]
      exact SleepStep.of_onlyTask h (onlyTask_wake k t) rfl (wake_off_sleep k hMem.pair)
        fun _ _ => rfl
  | setPriority t prio =>
      replace hStep := Transition.guard_some hStep
      rw [← hStep.2]
      exact sleepStep_setPriority hMem h t prio
  | tick notify => cases hTick
  | lock =>
      simp only [kernelStep, Option.some.injEq] at hStep
      rw [← hStep]
      exact SleepStep.of_same h ⟨rfl, rfl, rfl, rfl, rfl⟩ fun _ => ⟨rfl, rfl⟩
  | unlock =>
      simp only [kernelStep, Option.some.injEq] at hStep
      rw [← hStep]
      have hDown : SleepStep k { k with schedulerLock := k.schedulerLock - 1 } .unlock :=
        SleepStep.of_same h ⟨rfl, rfl, rfl, rfl, rfl⟩ fun _ => ⟨rfl, rfl⟩
      unfold dosSchedulerUnlock
      dsimp only
      split
      · split
        · exact hDown.then_same (sameTasks_scheduler _)
        · exact hDown
      · exact sleepStep_refl h _

/-- One operation keeps the clock in order. -/
theorem sleepOk_step {event : KernelEvent} (hTimed : event.Timed)
    (hStep : kernelStep k event = some k') : SleepOk k' := by
  cases hTick : event.isTick with
  | false => exact (sleepStep_step hMem h hTimed hTick hStep).ok
  | true =>
      cases event with
      | tick notify =>
          obtain ⟨⟨hRun, hNotify⟩, rfl⟩ := Transition.guard_some hStep
          exact (tickUpdate_spec hMem h hRun notify hNotify).1
      | _ => cases hTick

end Steps

theorem sleepOk_init {idle : TaskId} (hInit : dosTaskInit cfg idle = some k) : SleepOk k := by
  have hBoot : SleepOk (boot cfg) := by
    refine ⟨⟨?_, ?_, ?_, ?_, ?_⟩, ?_, ?_, ?_⟩
    · show 0 < 2 ^ 32
      decide
    · show uint32Max < 2 ^ 32
      decide
    · exact Nat.zero_le _
    · exact fun x hx => by cases hx
    · exact fun x hx => by cases hx
    · exact fun x hx => by cases hx
    · exact fun hEdge => hEdge
    · exact fun _ => ⟨rfl, fun x l _ hx => by cases hx⟩
  simp only [dosTaskInit, dosTaskCreate, Option.map_eq_some_iff] at hInit
  obtain ⟨k₁, hCreate, hk⟩ := hInit
  split at hCreate
  · cases hCreate
  · rw [← hk, ← Option.some.inj hCreate]
    refine hBoot.frame ⟨rfl, rfl, rfl, rfl, rfl⟩ ?_
    intro x
    rcases noneEnters_create (k := boot cfg) idle _ 20 (Or.inl ⟨rfl, rfl⟩) x with hSame | hOff
    · exact Or.inl ⟨hSame.owner, hSame.value⟩
    · exact Or.inr hOff

/-- Both invariants in every state reached with timed calls. -/
theorem sleep_run {idle : TaskId} {k₀ : Kernel} (hInit : dosTaskInit cfg idle = some k₀)
    {events : List KernelEvent}
    (run : Transition.RunsIf kernelStep (fun _ event => event.Timed) k₀ events k) :
    Membership cfg k ∧ SleepOk k :=
  run.invariant (fun k => Membership cfg k ∧ SleepOk k)
    ⟨membership_init hInit, sleepOk_init hInit⟩
    fun _ _ _ h hTimed hStep =>
      ⟨membership_step h.1 hStep, sleepOk_step h.1 h.2 hTimed hStep⟩

/-- The calls that put the current task to sleep for `n` ticks. -/
def SleepsFor (n : Nat) (event : KernelEvent) : Prop :=
  1 ≤ n ∧ ((event = .sleep n ∧ n < 2 ^ 32) ∨ ∃ id, event = .wait id n ∧ n < uint32Max)

/-- Such a call leaves its caller asleep with `n` ticks to go. -/
theorem asleep_call {event : KernelEvent} (hMem : Membership cfg k) (h : SleepOk k)
    (hCurrent : k.dosCurrentTask = some t) (hCall : SleepsFor n event)
    (hStep : kernelStep k event = some k') :
    Asleep k' t n ∧ k'.dosTickCount = k.dosTickCount := by
  obtain ⟨hPos, ⟨rfl, hn⟩ | ⟨id, rfl, hn⟩⟩ := hCall
  · obtain ⟨c, hc, ⟨_, _, _, _, hIdle⟩, rfl⟩ := blockCurrent_some hStep
    have hEq : c = t := Option.some.inj (hc.symm.trans hCurrent)
    subst hEq
    have hOnly := onlyTask_insertSleepItem k c n
    have hSame := sameTasks_scheduler (k.dosInsertSleepItem c n)
    rw [dosTaskSleep, if_neg (by omega), dosInsertTaskSleepList, if_neg hIdle]
    refine ⟨?_, congrArg Statics.dosTickCount (hSame.statics.trans hOnly.statics)⟩
    exact (asleep_insertSleepItem h hMem.pair hn).of_statics hSame.statics (hSame.sameItem c)
  · obtain ⟨c, hc, ⟨_, _, _, _, hIdle⟩, rfl⟩ := blockCurrent_some hStep
    have hEq : c = t := Option.some.inj (hc.symm.trans hCurrent)
    subst hEq
    refine ⟨?_, congrArg Statics.dosTickCount (onlyTask_wait k c id n).statics⟩
    let k₁ := (k.dosSetTaskStatus c Flag.suspend.mask).dosTaskItemInsert (.pend id) c
    have hItems (x : TaskId) : SameItem x k k₁ := by
      constructor <;> simp [k₁, dosTaskItemInsert, dosSetTaskStatus, mapTcb, ListId.kind]
    have hOk : SleepOk k₁ := h.frame ⟨rfl, rfl, rfl, rfl, rfl⟩ fun x => Or.inl (hItems x)
    have hWait : k.dosTaskWait c id n = k₁.dosInsertSleepItem c n := by
      have hIdle₁ : ¬k₁.dosIdleTask = some c := hIdle
      unfold dosTaskWait
      dsimp only
      rw [if_pos (Nat.ne_of_lt hn)]
      show k₁.dosInsertTaskSleepList c n = _
      rw [dosInsertTaskSleepList, if_neg hIdle₁]
    rw [hWait]
    exact asleep_insertSleepItem hOk hMem.pair (by have hEnd := uint32Max_eq; omega)

/-- One step of an undisturbed sleep. -/
theorem asleep_step {event : KernelEvent} {m : Nat} (hMem : Membership cfg k) (h : SleepOk k)
    (hTimed : event.Timed) (hQuiet : ¬event.Disturbs t) (hSleep : Asleep k t m)
    (hMore : ticks [event] < m) (hStep : kernelStep k event = some k') :
    Asleep k' t (m - ticks [event]) ∧
      k'.dosTickCount = (k.dosTickCount + ticks [event]) % 2 ^ 32 := by
  have hLt := h.tick_lt
  have hRun : k.systemIsRun = true := by
    cases hStop : k.systemIsRun with
    | true => rfl
    | false =>
        rcases hSleep with ⟨hOwner, _⟩ | ⟨hOwner, _⟩
        · exact absurd hOwner ((h.stopped hStop).2 t _ (Or.inl rfl))
        · exact absurd hOwner ((h.stopped hStop).2 t _ (Or.inr rfl))
  cases hTick : event.isTick with
  | false =>
      have hZero : ticks [event] = 0 := by simp [ticks, hTick]
      have hOne := sleepStep_step hMem h hTimed hTick hStep
      rw [hZero, Nat.sub_zero, Nat.add_zero, Nat.mod_eq_of_lt hLt]
      exact ⟨hOne.keep t m hSleep hQuiet, hOne.tick hRun⟩
  | true =>
      have hOne : ticks [event] = 1 := by simp [ticks, hTick]
      cases event with
      | tick notify =>
          obtain ⟨⟨_, hNotify⟩, rfl⟩ := Transition.guard_some hStep
          obtain ⟨_, hCount, hAll⟩ := tickUpdate_spec hMem h hRun notify hNotify
          obtain ⟨r, rfl⟩ : ∃ r, m = r + 2 := ⟨m - 2, by omega⟩
          rw [hOne]
          exact ⟨(hAll t (r + 1) hQuiet hSleep).2 (Nat.succ_ne_zero r), hCount⟩
      | _ => cases hTick

/-- An undisturbed sleep of `n` ticks, seen before its last tick. -/
theorem asleep_run {later : List KernelEvent} {k₂ : Kernel} (hMem : Membership cfg k₂)
    (h : SleepOk k₂) (hSleep : Asleep k₂ t n)
    (run : Transition.RunsIf kernelStep (fun _ event => event.Timed) k₂ later k)
    (hQuiet : ∀ event ∈ later, ¬event.Disturbs t) (hMore : ticks later < n) :
    Membership cfg k ∧ SleepOk k ∧ Asleep k t (n - ticks later) ∧
      k.dosTickCount = (k₂.dosTickCount + ticks later) % 2 ^ 32 := by
  have hInv := run.trace_invariant
    (fun past s => (∀ event ∈ past, ¬event.Disturbs t) → ticks past < n →
      Membership cfg s ∧ SleepOk s ∧ Asleep s t (n - ticks past) ∧
        s.dosTickCount = (k₂.dosTickCount + ticks past) % 2 ^ 32)
    (fun _ _ => ⟨hMem, h, hSleep, (Nat.mod_eq_of_lt h.tick_lt).symm⟩)
    (by
      intro past s event s' ih hTimed hStep hQuiet hMore
      have hSplit : ticks (past ++ [event]) = ticks past + ticks [event] := by
        simp [ticks, List.countP_append]
      rw [hSplit] at hMore
      obtain ⟨hMem, h, hSleep, hCount⟩ := ih (fun e he => hQuiet e (by simp [he])) (by omega)
      obtain ⟨hNext, hCount'⟩ := asleep_step hMem h hTimed (hQuiet event (by simp)) hSleep
        (by omega) hStep
      refine ⟨membership_step hMem hStep, sleepOk_step hMem h hTimed hStep, ?_, ?_⟩
      · rw [hSplit, Nat.sub_add_eq]
        exact hNext
      · rw [hCount', hCount, hSplit]
        omega)
  exact hInv hQuiet hMore

/-- A task that goes to sleep for `n` ticks, undisturbed, stays on a sleep list
for fewer than `n` ticks and is on its ready list after exactly the `n`-th one;
and when the counter is about to overflow the current sleep list is empty, so
that the lists do change places. -/
theorem wakes_in_the_nth_tick (cfg : Config) (idle : TaskId) (k₀ k₁ : Kernel)
    (hInit : dosTaskInit cfg idle = some k₀) (past : List KernelEvent)
    (run : Transition.RunsIf kernelStep (fun _ event => event.Timed) k₀ past k₁) :
    (∀ t n call k₂ later k₃, k₁.dosCurrentTask = some t → SleepsFor n call →
      kernelStep k₁ call = some k₂ →
      Transition.RunsIf kernelStep (fun _ event => event.Timed) k₂ later k₃ →
      (∀ event ∈ later, ¬event.Disturbs t) →
      (ticks later < n →
        (t ∈ k₃.lists.items .sleep1 ∨ t ∈ k₃.lists.items .sleep2) ∧ k₃.is t .ready = false) ∧
      (∀ notify k₄, ticks later + 1 = n → notify ≠ some t →
        kernelStep k₃ (.tick notify) = some k₄ →
        t ∈ k₄.lists.items (.priority (k₄.priority t)) ∧ k₄.is t .ready = true ∧
          k₄.dosTickCount = (k₁.dosTickCount + n) % 2 ^ 32)) ∧
    (k₁.dosTickCount = uint32Max →
      k₁.lists.items k₁.dosTaskSleepList = [] ∧
      k₁.dosTickAdvance.dosTickCount = 0 ∧
      k₁.dosTickAdvance.dosTaskSleepList = k₁.dosTaskSleepOverflowList ∧
      k₁.dosTickAdvance.dosTaskSleepOverflowList = k₁.dosTaskSleepList) := by
  obtain ⟨hMem, h⟩ := sleep_run hInit run
  constructor
  · intro t n call k₂ later k₃ hCurrent hCall hStep hLater hQuiet
    have hTimed : call.Timed := by
      obtain ⟨hPos, ⟨rfl, hn⟩ | ⟨id, rfl, hn⟩⟩ := hCall
      · exact hn
      · exact ⟨hPos, hn.le⟩
    obtain ⟨hSleep, hStart⟩ := asleep_call hMem h hCurrent hCall hStep
    have hMem₂ := membership_step hMem hStep
    have hOk₂ := sleepOk_step hMem h hTimed hStep
    constructor
    · intro hMore
      obtain ⟨hMem₃, _, hSleep₃, _⟩ := asleep_run hMem₂ hOk₂ hSleep hLater hQuiet hMore
      obtain ⟨hLive, hNot⟩ := hSleep₃.not_ready hMem₃
      refine ⟨?_, hNot⟩
      rw [hMem₃.linked.mem_iff, hMem₃.linked.mem_iff]
      rcases hMem₃.pair with ⟨hs, ho⟩ | ⟨hs, ho⟩ <;> rcases hSleep₃ with ⟨hx, _⟩ | ⟨hx, _⟩
      · exact Or.inl (by rw [hs] at hx; exact hx)
      · exact Or.inr (by rw [ho] at hx; exact hx)
      · exact Or.inr (by rw [hs] at hx; exact hx)
      · exact Or.inl (by rw [ho] at hx; exact hx)
    · intro notify k₄ hLast hNotify hTick
      obtain ⟨hMem₃, hOk₃, hSleep₃, hCount₃⟩ :=
        asleep_run hMem₂ hOk₂ hSleep hLater hQuiet (by omega)
      have hOne : n - ticks later = 0 + 1 := by omega
      rw [hOne] at hSleep₃
      have hMem₄ := membership_step hMem₃ hTick
      obtain ⟨⟨hRun, hLive⟩, rfl⟩ := Transition.guard_some hTick
      obtain ⟨_, hCount, hAll⟩ := tickUpdate_spec hMem₃ hOk₃ hRun notify hLive
      obtain ⟨hReady, hPlace⟩ := (hAll t 0 hNotify hSleep₃).1 rfl
      refine ⟨(hMem₄.linked.mem_iff _ t).mpr hPlace, hReady, ?_⟩
      rw [hCount, hCount₃, hStart]
      omega
  · intro hMax
    have hEmpty := h.empty_of_max hMem.linked hMem.pair hMax
    have hCases := tickAdvance_cases h hMem.linked hMem.pair
    obtain ⟨hList, hOver, hTick, _⟩ := switchSleepList_empty (k := k₁.dosTickCountInc) hEmpty
    rcases hCases with ⟨hLess, _⟩ | ⟨_, hEq, hZero, _⟩
    · omega
    · rw [hEq]
      exact ⟨hEmpty, hTick.trans hZero, hList, hOver⟩

/-- A task that sleeps for two ticks sleeps on in the first and is ready after
the second. -/
theorem wakes_in_the_nth_tick_two :
    ∃ k₀ k₁ k₂ k₃ k₄, dosTaskInit shippedConfig 0 = some k₀ ∧
      Transition.RunsIf kernelStep (fun _ event => event.Timed) k₀
        [.create 1 3 5, .start, .switch 1] k₁ ∧
      kernelStep k₁ (.sleep 2) = some k₂ ∧
      Transition.RunsIf kernelStep (fun _ event => event.Timed) k₂ [.tick none] k₃ ∧
      kernelStep k₃ (.tick none) = some k₄ ∧
      k₃.is 1 .ready = false ∧ k₄.is 1 .ready = true := by
  let k₀ := (dosTaskInit shippedConfig 0).get (by decide)
  have hInit : dosTaskInit shippedConfig 0 = some k₀ := (Option.some_get _).symm
  have hPast : Transition.Runs kernelStep k₀ [.create 1 3 5, .start, .switch 1] _ :=
    Transition.runs_of_isSome (by decide)
  have hTimed : ∀ event ∈ [.create 1 3 5, .start, .switch 1], KernelEvent.Timed event := by
    simp [KernelEvent.Timed]
  have hRun := Transition.RunsIf.of_events hPast hTimed
  let k₁ := (Transition.exec kernelStep k₀ [.create 1 3 5, .start, .switch 1]).get (by decide)
  let k₂ := (kernelStep k₁ (.sleep 2)).get (by decide +kernel)
  have hCall : kernelStep k₁ (.sleep 2) = some k₂ := (Option.some_get _).symm
  have hFirst : Transition.Runs kernelStep k₂ [.tick none] _ :=
    Transition.runs_of_isSome (by decide +kernel)
  have hTick : ∀ event ∈ [.tick none], KernelEvent.Timed event := by
    simp [KernelEvent.Timed]
  have hLater := Transition.RunsIf.of_events hFirst hTick
  let k₃ := (Transition.exec kernelStep k₂ [.tick none]).get (by decide +kernel)
  let k₄ := (kernelStep k₃ (.tick none)).get (by decide +kernel)
  have hLast : kernelStep k₃ (.tick none) = some k₄ := (Option.some_get _).symm
  have hWakes := (wakes_in_the_nth_tick shippedConfig 0 k₀ k₁ hInit _ hRun).1 1 2 (.sleep 2) k₂
    [.tick none] k₃ (by decide +kernel) ⟨by decide, Or.inl ⟨rfl, by decide⟩⟩ hCall hLater
    (by simp [KernelEvent.Disturbs])
  refine ⟨k₀, k₁, k₂, k₃, k₄, hInit, hRun, hCall, hLater, hLast, ?_, ?_⟩
  · exact (hWakes.1 (by decide)).2
  · exact (hWakes.2 none k₄ (by decide) (by simp) hLast).2.1

end Kernel

end DoraOS
