import DoraOS.Kernel.Membership

/-! Runs of the kernel. Each event is one kernel operation, taken as atomic,
by the current task or by an interrupt. The membership invariant holds along
every run that starts from an initialised kernel. -/
namespace DoraOS

/-- The kernel operations. `switch` stands for a context switch and lets any
ready task become the current one; `tick` carries the timer task that an
overflow of the tick counter wakes. -/
inductive KernelEvent where
  | create (t : TaskId) (prio tick : Nat)
  | start
  | switch (t : TaskId)
  | schedule
  | delete (t : TaskId)
  | recycle
  | sleep (sleepTick : Nat)
  | wait (id : PendId) (timeout : Nat)
  | cleanUp
  | wake (t : TaskId)
  | setPriority (t : TaskId) (prio : Nat)
  | tick (notify : Option TaskId)
  | lock
  | unlock

namespace Kernel

def switchTo (k : Kernel) (t : TaskId) : Kernel :=
  { k with dosCurrentTask := some t, yieldPending := false }

def zeroTcb (k : Kernel) (t : TaskId) : Kernel := k.mapTcb t fun _ => {}

/-- A task may call a blocking function when it runs, is no idle task and is
not already waiting. -/
def MayBlock (k : Kernel) (t : TaskId) : Prop :=
  k.systemIsRun = true ∧ k.Live t ∧ k.is t .ready = true ∧ k.is t .suspend = false ∧
    k.dosIdleTask ≠ some t

instance (k : Kernel) (t : TaskId) : Decidable (k.MayBlock t) :=
  inferInstanceAs (Decidable (_ ∧ _))

def blockCurrent (k : Kernel) (f : TaskId → Kernel) : Option Kernel :=
  match k.dosCurrentTask with
  | some t => if k.MayBlock t then some (f t) else none
  | none => none

end Kernel

open Kernel in
/-- One kernel operation. The guards are the conditions under which the kernel
or its callers perform it. -/
def kernelStep (k : Kernel) : KernelEvent → Option Kernel
  | .create t prio tick =>
      if k.alloc t = false ∧ prio < k.config.dosMaxPriorityNum ∧ prio < 2 ^ 16 then
        (k.zeroTcb t).dosTaskCreate t prio tick
      else none
  | .start => if k.systemIsRun = false then some k.dosSystemStartRun else none
  | .switch t =>
      if k.systemIsRun = true ∧ k.Live t ∧ k.is t .ready = true then some (k.switchTo t) else none
  | .schedule => some k.dosScheduler
  | .delete t => if k.alloc t = true then some (k.dosTaskDelete t).1 else none
  | .recycle =>
      if k.dosCurrentTask = k.dosIdleTask then some k.dosIdleRecycle else none
  | .sleep sleepTick => k.blockCurrent fun t => k.dosTaskSleep t sleepTick
  | .wait id timeout => k.blockCurrent fun t => k.dosTaskWait t id timeout
  | .cleanUp =>
      match k.dosCurrentTask with
      | some t =>
          if k.Live t ∧ k.is t .ready = true ∧ k.is t .timeout = true then
            some (k.dosTimeoutCleanUp t)
          else none
      | none => none
  | .wake t => if k.Live t then some (k.dosTaskWake t) else none
  | .setPriority t prio =>
      if k.Live t ∧ prio < k.config.dosMaxPriorityNum then some (k.dosSetTaskPriority t prio) else none
  | .tick notify =>
      if k.systemIsRun = true ∧ ∀ t ∈ notify, k.Live t then some (k.dosTickUpdate notify)
      else none
  | .lock => some k.dosSchedulerLock
  | .unlock => some k.dosSchedulerUnlock

namespace Kernel

variable {cfg : Config} {k k' : Kernel}

/-- Without tasks there is nothing to agree on. -/
theorem membership_boot : Membership cfg (boot cfg) where
  config := rfl
  linked := by
    refine ⟨?_, ?_, ?_, ?_, ?_, ?_⟩
    · exact fun _ => List.nodup_nil
    · intro l t
      simp [boot, TaskLists.empty, TaskLists.items, TaskLists.owner]
    · intro c t l hOwner
      cases hOwner
    · intro c t
      simp [boot, TaskLists.empty, TaskLists.value]
    · exact fun _ => List.Pairwise.nil
    · intro l t hCursor
      cases hCursor
  pair := Or.inl ⟨rfl, rfl⟩
  bitmap := by
    intro _ p
    simp [boot, TaskLists.empty, TaskLists.items]
  live t hLive := by cases hLive.1
  dead t _ := ⟨Or.inl ⟨rfl, rfl⟩, rfl⟩

/-- `dos_task_init` establishes the invariant. -/
theorem membership_init {idle : TaskId}
    (hInit : dosTaskInit cfg idle = some k) : Membership cfg k := by
  simp only [dosTaskInit, dosTaskCreate, Option.map_eq_some_iff] at hInit
  obtain ⟨k₁, hCreate, hk⟩ := hInit
  split at hCreate
  · cases hCreate
  · rename_i hPrio
    have hLast : (cfg.dosMaxPriorityNum + (2 ^ 32 - 1)) % 2 ^ 32 % 2 ^ 16 <
        cfg.dosMaxPriorityNum := by
      simp only [boot] at hPrio
      omega
    have hBoot : Membership cfg (boot cfg) := membership_boot
    have hTask := hBoot.create (t := idle) 20 rfl rfl hLast
      (Nat.mod_lt _ (by decide))
    rw [Option.some.inj hCreate] at hTask
    subst hk
    exact hTask.congr rfl (fun _ => rfl) hTask.linked hTask.pair id

theorem blockCurrent_some {f : TaskId → Kernel} (h : k.blockCurrent f = some k') :
    ∃ t, k.dosCurrentTask = some t ∧ k.MayBlock t ∧ k' = f t := by
  unfold blockCurrent at h
  split at h
  · rename_i t hCurrent
    split at h
    · rename_i hBlock
      exact ⟨t, hCurrent, hBlock, (Option.some.inj h).symm⟩
    · cases h
  · cases h

theorem membership_zeroTcb (h : Membership cfg k) {t : TaskId} (hFree : k.alloc t = false) :
    Membership cfg (k.zeroTcb t) := by
  have hDead : ∀ k' : Kernel, k'.alloc t = false → ¬k'.Live t := by
    intro k' hk hLive
    rw [Live, hk] at hLive
    cases hLive.1
  refine h.update (t := t) rfl ?_ h.pair h.linked h.bitmap ?_ ?_
  · intro x hx
    exact (onlyTask_mapTcb k t _).view hx
  · intro hLive
    exact absurd hLive (hDead _ hFree)
  · intro _
    have hOk := h.dead t (hDead k hFree)
    rcases hOk.owner with hn | ⟨hAlloc, _⟩
    · exact ⟨Or.inl hn, hOk.pend⟩
    · have hSet : k.alloc t = true := hAlloc
      rw [hFree] at hSet
      cases hSet

theorem membership_start (h : Membership cfg k) : Membership cfg k.dosSystemStartRun := by
  have hCheck := h.sameTasks (sameTasks_check k)
  have hFirst := hCheck.getFirstTask (.priority k.dosCheckTaskPriority.1.dosCurPriority)
  exact hFirst.congr rfl (fun _ => rfl) hFirst.linked hFirst.pair id

theorem live_tickAdvance {t : TaskId} (h : k.Live t) : k.dosTickAdvance.Live t := by
  have hView : k.dosTickAdvance.view t = k.view t :=
    tickAdvance_rule (P := fun k' => k'.view t = k.view t) (fun _ hk => hk) (fun hk => hk)
      (fun hk => hk) (fun hk => hk) rfl
  exact (live_congr hView).mpr h

/-- Every kernel operation preserves the invariant. -/
theorem membership_step {event : KernelEvent} (h : Membership cfg k)
    (hStep : kernelStep k event = some k') : Membership cfg k' := by
  cases event with
  | create t prio tick =>
      simp only [kernelStep, Option.ite_none_right_eq_some] at hStep
      obtain ⟨⟨hFree, hPrio, hWord⟩, hCreate⟩ := hStep
      have hZero : ((k.zeroTcb t).tcb t).taskStatus = 0 := by simp [zeroTcb, mapTcb]
      have hRange : ¬prio > (k.zeroTcb t).config.dosMaxPriorityNum := Nat.not_lt.mpr hPrio.le
      rw [dosTaskCreate, if_neg hRange] at hCreate
      rw [h.config] at hPrio
      rw [← Option.some.inj hCreate]
      exact (membership_zeroTcb h hFree).create tick hFree hZero hPrio hWord
  | start =>
      replace hStep := Transition.guard_some hStep
      rw [← hStep.2]
      exact membership_start h
  | switch t =>
      replace hStep := Transition.guard_some hStep
      rw [← hStep.2]
      exact h.congr rfl (fun _ => rfl) h.linked h.pair id
  | schedule =>
      simp only [kernelStep, Option.some.injEq] at hStep
      rw [← hStep]
      exact h.sameTasks (sameTasks_scheduler k)
  | delete t =>
      replace hStep := Transition.guard_some hStep
      rw [← hStep.2]
      exact h.delete hStep.1
  | recycle =>
      replace hStep := Transition.guard_some hStep
      rw [← hStep.2]
      exact h.idleRecycle
  | sleep sleepTick =>
      obtain ⟨t, _, ⟨_, hLive, _, _, hIdle⟩, rfl⟩ := blockCurrent_some hStep
      unfold dosTaskSleep
      split
      · exact h.sameTasks (sameTasks_scheduler k)
      · exact (h.insertSleepList hLive hIdle sleepTick).sameTasks (sameTasks_scheduler _)
  | wait id timeout =>
      obtain ⟨t, _, ⟨_, hLive, hReady, hSuspend, hIdle⟩, rfl⟩ := blockCurrent_some hStep
      exact h.wait hLive hIdle hSuspend hReady id timeout
  | cleanUp =>
      simp only [kernelStep] at hStep
      split at hStep
      · replace hStep := Transition.guard_some hStep
        rw [← hStep.2]
        exact h.timeoutCleanUp hStep.1.1 hStep.1.2.1
      · cases hStep
  | wake t =>
      replace hStep := Transition.guard_some hStep
      rw [← hStep.2]
      exact h.wake hStep.1
  | setPriority t prio =>
      obtain ⟨⟨hLive, hPrio⟩, rfl⟩ := Transition.guard_some hStep
      rw [h.config] at hPrio
      exact h.setPriority hLive hPrio
  | tick notify =>
      obtain ⟨⟨_, hNotify⟩, rfl⟩ := Transition.guard_some hStep
      exact h.tickUpdate notify fun t ht => live_tickAdvance (hNotify t ht)
  | lock =>
      simp only [kernelStep, Option.some.injEq] at hStep
      rw [← hStep]
      exact h.congr rfl (fun _ => rfl) h.linked h.pair id
  | unlock =>
      simp only [kernelStep, Option.some.injEq] at hStep
      rw [← hStep]
      have hDown : Membership cfg { k with schedulerLock := k.schedulerLock - 1 } :=
        h.congr rfl (fun _ => rfl) h.linked h.pair id
      unfold dosSchedulerUnlock
      dsimp only
      split
      · split
        · exact hDown.sameTasks (sameTasks_scheduler _)
        · exact hDown
      · exact h

/-- The invariant holds in every reachable state. -/
theorem membership_run {idle : TaskId} {k₀ : Kernel}
    (hInit : dosTaskInit cfg idle = some k₀) {events : List KernelEvent}
    (run : Transition.Runs (kernelStep) k₀ events k) : Membership cfg k :=
  Transition.RunsIf.invariant run (Membership cfg) (membership_init hInit)
    fun _ _ _ h _ hStep => membership_step h hStep

/-- A pend item is never on two lists, so being on one list means exactly one. -/
theorem Membership.suspend_unique (h : Membership cfg k) {t : TaskId} (hLive : k.Live t) :
    k.is t .suspend = true ↔ ∃! id, t ∈ k.lists.items (.pend id) := by
  have hMem (id : PendId) : t ∈ k.lists.items (.pend id) ↔
      (k.view t).pendOwner = some (.pend id) :=
    h.linked.mem_iff (.pend id) t
  constructor
  · intro hSuspend
    obtain ⟨id, hOwner⟩ := (h.live t hLive).suspend_iff.mp hSuspend
    refine ⟨id, (hMem id).mpr hOwner, ?_⟩
    intro other hOther
    have hSame := (hMem other).mp hOther
    rw [hOwner] at hSame
    simpa using hSame.symm
  · rintro ⟨id, hIn, _⟩
    exact (h.live t hLive).suspend_iff.mpr ⟨id, (hMem id).mp hIn⟩

/-- In every reachable state the flags of every live task, the lists its two
items are on and the priority bitmap agree. -/
theorem flags_lists_and_bitmap_agree (cfg : Config) (hMax : cfg.dosMaxPriorityNum ≤ 32)
    (idle : TaskId) (k₀ k : Kernel) (hInit : dosTaskInit cfg idle = some k₀)
    (events : List KernelEvent) (run : Transition.Runs (kernelStep) k₀ events k) :
    (∀ t, k.Live t →
      ¬(k.is t .ready = true ∧ k.is t .delay = true) ∧
      (k.is t .ready = true ↔ t ∈ k.lists.items (.priority (k.priority t))) ∧
      (k.is t .delay = true ↔ t ∈ k.lists.items .sleep1 ∨ t ∈ k.lists.items .sleep2) ∧
      (k.is t .suspend = true ↔ ∃! id, t ∈ k.lists.items (.pend id))) ∧
    ∀ p, (k.dosTaskPriority 0).getLsbD p = true ↔ k.lists.items (.priority p) ≠ [] := by
  have h := membership_run hInit run
  refine ⟨?_, h.bitmap hMax⟩
  intro t hLive
  have hOk := h.live t hLive
  refine ⟨?_, ?_, ?_, h.suspend_unique hLive⟩
  · rintro ⟨hReady, hDelay⟩
    have hNot : k.is t .delay = false := hOk.not_delay hReady
    rw [hDelay] at hNot
    cases hNot
  · rw [h.linked.mem_iff]
    exact hOk.ready_iff
  · rw [h.linked.mem_iff, h.linked.mem_iff]
    exact hOk.delay_iff

/-- A task in a timed wait for a semaphore is on one pend list. -/
theorem flags_lists_and_bitmap_agree_waiting :
    ∃ k₀ k, dosTaskInit shippedConfig 0 = some k₀ ∧
      Transition.Runs (kernelStep) k₀
        [.create 1 3 5, .start, .switch 1, .wait (.sem 0) 10] k ∧
      (k.Live 1 ∧ k.is 1 .suspend = true) ∧ ∃! id, 1 ∈ k.lists.items (.pend id) := by
  let k₀ := (dosTaskInit shippedConfig 0).get (by decide)
  have hInit : dosTaskInit shippedConfig 0 = some k₀ := (Option.some_get _).symm
  have hRun : Transition.Runs (kernelStep) k₀
      [.create 1 3 5, .start, .switch 1, .wait (.sem 0) 10] _ :=
    Transition.runs_of_isSome (by decide)
  have hAgree := flags_lists_and_bitmap_agree shippedConfig (by decide) 0 k₀ _ hInit _ hRun
  refine ⟨k₀, _, hInit, hRun, ⟨by decide +kernel, by decide +kernel⟩, ?_⟩
  exact (hAgree.1 1 (by decide +kernel)).2.2.2.mp (by decide +kernel)

end Kernel

end DoraOS
