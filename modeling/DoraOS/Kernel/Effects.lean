import DoraOS.Kernel.Run

/-! What the kernel operations used by the IPC calls do to single tasks. Here
nothing is assumed about the flags of a task, only that the lists are linked
and that the sleep list pointers name the sleep lists, so that the results
also hold while a queue call is half-way through its clean-up. -/
namespace DoraOS

namespace TaskView

def Sleeping (v : TaskView) : Prop := v.statusOwner = some .sleep1 ∨ v.statusOwner = some .sleep2

def woken (v : TaskView) : TaskView :=
  { v with
    status := (v.status &&& ~~~(Flag.suspend.mask ||| Flag.delay.mask)) ||| Flag.ready.mask
    statusOwner := some (.priority v.priority)
    pendOwner := none }

/-- The effect of an expiry in `dos_tick_update`. -/
def expired (v : TaskView) : TaskView :=
  { v with
    status := (if Flag.test v.status .suspend then
        (v.status &&& ~~~Flag.delay.mask) ||| Flag.timeout.mask
      else v.status &&& ~~~Flag.delay.mask) ||| Flag.ready.mask
    statusOwner := some (.priority v.priority) }

def withPriority (v : TaskView) (prio : Nat) : TaskView :=
  if Flag.test v.status .ready then
    { v with
      status := (v.status &&& ~~~Flag.ready.mask) ||| Flag.ready.mask
      priority := prio
      statusOwner := some (.priority prio) }
  else { v with priority := prio }

/-- The flags of a waiter that has given up. -/
def flagsReset (v : TaskView) : TaskView :=
  { v with
    status := (v.status &&& ~~~(Flag.timeout.mask ||| Flag.suspend.mask)) ||| Flag.ready.mask }

def unpended (v : TaskView) : TaskView := { v with pendOwner := none }

theorem not_sleeping_of_priority {v : TaskView} {p : Nat} (h : v.statusOwner = some (.priority p)) :
    ¬v.Sleeping := by
  rintro (hs | hs)
  · rw [h] at hs
    cases hs
  · rw [h] at hs
    cases hs

theorem not_sleeping_woken (v : TaskView) : ¬v.woken.Sleeping := not_sleeping_of_priority rfl

theorem not_sleeping_expired (v : TaskView) : ¬v.expired.Sleeping := not_sleeping_of_priority rfl

/-- A change of priority never puts a task to sleep. -/
theorem sleeping_withPriority {v : TaskView} {prio : Nat} (h : (v.withPriority prio).Sleeping) :
    v.Sleeping := by
  unfold withPriority at h
  split at h
  · exact absurd h (not_sleeping_of_priority rfl)
  · exact h

section Flags

variable (v : TaskView)

/-- A wake clears two flags and sets the one for ready. -/
@[simp] theorem test_woken (f : Flag) : Flag.test v.woken.status f =
    ((Flag.test v.status f && !(decide (f = .suspend) || decide (f = .delay))) ||
      decide (f = .ready)) := by
  cases f <;> simp [woken]

/-- An expiry sets the timeout flag of a suspended task. -/
@[simp] theorem test_expired (f : Flag) : Flag.test v.expired.status f =
    ((Flag.test v.status f && !decide (f = .delay)) || decide (f = .ready) ||
      (Flag.test v.status .suspend && decide (f = .timeout))) := by
  unfold expired
  dsimp only
  split <;> rename_i hSuspend <;> cases f <;> simp [hSuspend]

@[simp] theorem test_withPriority (prio : Nat) (f : Flag) :
    Flag.test (v.withPriority prio).status f = Flag.test v.status f := by
  unfold withPriority
  split
  · rename_i hReady
    cases f <;> simp [hReady]
  · rfl

@[simp] theorem pendOwner_withPriority (prio : Nat) :
    (v.withPriority prio).pendOwner = v.pendOwner := by
  unfold withPriority
  split <;> rfl

@[simp] theorem alloc_withPriority (prio : Nat) : (v.withPriority prio).alloc = v.alloc := by
  unfold withPriority
  split <;> rfl

@[simp] theorem priority_withPriority (prio : Nat) : (v.withPriority prio).priority = prio := by
  unfold withPriority
  split <;> rfl

end Flags

end TaskView

namespace Kernel

/-- The lists are linked and the sleep list pointers name the sleep lists. -/
structure Sound (k : Kernel) : Prop where
  linked : k.lists.Linked
  pair : k.SleepPair

/-- No task's flags, priority, list membership or pend key changed. -/
structure Still (k k' : Kernel) : Prop where
  sound : k'.Sound
  view : ∀ x, k'.view x = k.view x
  key : ∀ x, k'.lists.value .pend x = k.lists.value .pend x

/-- The same for every task but `t`, whose pend key did not change either. -/
structure Touches (t : TaskId) (k k' : Kernel) : Prop where
  sound : k'.Sound
  view : ∀ x, x ≠ t → k'.view x = k.view x
  key : ∀ x, k'.lists.value .pend x = k.lists.value .pend x

variable {k k' k'' : Kernel} {t : TaskId}

theorem Still.trans (first : Still k k') (second : Still k' k'') : Still k k'' where
  sound := second.sound
  view x := (second.view x).trans (first.view x)
  key x := (second.key x).trans (first.key x)

theorem Touches.trans_still (first : Touches t k k') (second : Still k' k'') : Touches t k k'' where
  sound := second.sound
  view x hx := (second.view x).trans (first.view x hx)
  key x := (second.key x).trans (first.key x)

/-- An operation on one task keeps the views of the others. -/
theorem OnlyTask.touches (h : OnlyTask t k k') (hSound : k.Sound) (hLinked : k'.lists.Linked) :
    Touches t k k' where
  sound := ⟨hLinked, hSound.pair.congr h.statics⟩
  view _ hx := h.view hx
  key x := h.pendKey x

section Still

variable (h : k.Sound)

include h

theorem still_refl : Still k k := ⟨h, fun _ => rfl, fun _ => rfl⟩

theorem still_sameTasks (hSame : SameTasks k k') : Still k k' where
  sound := by
    refine ⟨?_, h.pair.congr hSame.statics⟩
    rw [hSame.lists]
    exact h.linked
  view := hSame.view
  key x := by rw [hSame.lists]

theorem still_scheduler : Still k k.dosScheduler := still_sameTasks h (sameTasks_scheduler k)

theorem still_first (l : ListId) : Still k (k.dosGetFirstTask l).1 :=
  ⟨⟨h.linked.first l, h.pair⟩, fun _ => rfl, fun _ => rfl⟩

theorem still_next (l : ListId) : Still k { k with lists := (k.lists.dosGetNextTask l).1 } :=
  ⟨⟨h.linked.next l, h.pair⟩, fun _ => rfl, fun _ => rfl⟩

theorem still_setNextWakeTick (n : Nat) : Still k (k.setNextWakeTick n) :=
  ⟨⟨h.linked, h.pair⟩, fun _ => rfl, fun _ => rfl⟩

theorem still_switchTo (x : TaskId) : Still k (k.switchTo x) :=
  ⟨⟨h.linked, h.pair⟩, fun _ => rfl, fun _ => rfl⟩

theorem still_lock : Still k k.dosSchedulerLock :=
  ⟨⟨h.linked, h.pair⟩, fun _ => rfl, fun _ => rfl⟩

theorem still_unlock : Still k k.dosSchedulerUnlock := by
  have hDown : Still k { k with schedulerLock := k.schedulerLock - 1 } :=
    ⟨⟨h.linked, h.pair⟩, fun _ => rfl, fun _ => rfl⟩
  unfold dosSchedulerUnlock
  dsimp only
  split
  · split
    · exact hDown.trans (still_scheduler hDown.sound)
    · exact hDown
  · exact still_refl h

theorem still_start : Still k k.dosSystemStartRun := by
  have hCheck := still_sameTasks h (sameTasks_check k)
  have hFirst := hCheck.trans
    (still_first hCheck.sound (.priority k.dosCheckTaskPriority.1.dosCurPriority))
  exact ⟨⟨hFirst.sound.linked, hFirst.sound.pair⟩, hFirst.view, hFirst.key⟩

/-- The fields of a control block that list membership does not depend on. -/
theorem still_mapTcb {f : Tcb → Tcb} (hf : ∀ tcb : Tcb,
    (f tcb).taskStatus = tcb.taskStatus ∧ (f tcb).priority = tcb.priority) :
    Still k (k.mapTcb t f) where
  sound := ⟨h.linked, h.pair⟩
  view x := by
    simp only [view, mapTcb, priority]
    split
    · rw [(hf _).1, (hf _).2]
    · rfl
  key _ := rfl

/-- The exchange of the sleep lists moves no task. -/
theorem still_tickAdvance : Still k k.dosTickAdvance :=
  tickAdvance_rule (fun _ hk => hk.trans (still_setNextWakeTick hk.sound _))
    (fun hk => hk.trans (still_first hk.sound _))
    (fun hk => hk.trans ⟨⟨hk.sound.linked, hk.sound.pair⟩, fun _ => rfl, fun _ => rfl⟩)
    (fun hk => hk.trans ⟨⟨hk.sound.linked, hk.sound.pair.symm.imp And.symm And.symm⟩,
      fun _ => rfl, fun _ => rfl⟩) (still_refl h)

end Still

section Touches

variable (h : k.Sound)

include h

theorem touches_wake (t : TaskId) : Touches t k (k.dosTaskWake t) :=
  (onlyTask_wake k t).touches h (linked_wake h.linked)

theorem touches_setPriority (t : TaskId) (prio : Nat) : Touches t k (k.dosSetTaskPriority t prio) :=
  (onlyTask_setPriority k t prio).touches h (linked_setPriority h.linked prio)

theorem touches_timeoutCleanUp (t : TaskId) : Touches t k (k.dosTimeoutCleanUp t) :=
  (onlyTask_timeoutCleanUp k t).touches h (linked_timeoutCleanUp h.linked)

theorem touches_pendDel (t : TaskId) : Touches t k (k.dosTaskItemDel .pend t) :=
  (onlyTask_itemDel k t .pend).touches h (h.linked.del .pend t)

theorem touches_flagsReset (t : TaskId) : Touches t k
    ((k.dosResetTaskStatus t (Flag.timeout.mask ||| Flag.suspend.mask)).dosSetTaskStatus t
      Flag.ready.mask) :=
  ((onlyTask_resetStatus k t _).trans (onlyTask_setStatus _ t _)).touches h h.linked

theorem touches_wait (t : TaskId) (id : PendId) (timeout : Nat)
    (hFree : (k.view t).pendOwner = none) : Touches t k (k.dosTaskWait t id timeout) :=
  (onlyTask_wait k t id timeout).touches h (linked_wait h.linked h.pair id timeout hFree)

theorem touches_expire (t : TaskId) : Touches t k (k.dosExpireTask t) :=
  (onlyTask_expire k t).touches h (linked_expire h.linked)

theorem touches_insertSleepList (t : TaskId) (n : Nat) :
    Touches t k (k.dosInsertTaskSleepList t n) := by
  refine (onlyTask_insertSleepList k t n).touches h ?_
  unfold dosInsertTaskSleepList
  split
  · exact h.linked
  · exact linked_insertSleepItem h.linked h.pair n

end Touches

theorem view_wake_eq (k : Kernel) (t : TaskId) : (k.dosTaskWake t).view t = (k.view t).woken :=
  view_wake k t

theorem view_expire_eq (k : Kernel) (t : TaskId) :
    (k.dosExpireTask t).view t = (k.view t).expired := view_expire k t

theorem view_setPriority_eq (k : Kernel) (t : TaskId) (prio : Nat) :
    (k.dosSetTaskPriority t prio).view t = (k.view t).withPriority prio := view_setPriority k t prio

theorem view_timeoutCleanUp_eq (k : Kernel) (t : TaskId) :
    (k.dosTimeoutCleanUp t).view t = (k.view t).flagsReset.unpended := view_timeoutCleanUp k t

theorem view_flagsReset (k : Kernel) (t : TaskId) :
    ((k.dosResetTaskStatus t (Flag.timeout.mask ||| Flag.suspend.mask)).dosSetTaskStatus t
      Flag.ready.mask).view t = (k.view t).flagsReset := by
  simp [TaskView.flagsReset]

/-- A task that blocks is on its pend list, suspended and no longer ready. -/
structure Blocked (v v' : TaskView) (id : PendId) : Prop where
  alloc : v'.alloc = v.alloc
  priority : v'.priority = v.priority
  pend : v'.pendOwner = some (.pend id)
  suspend : Flag.test v'.status .suspend = true
  ready : Flag.test v'.status .ready = false

/-- `dos_task_wait` blocks its task, with a timeout or without. -/
theorem blocked_wait (h : k.Sound) (hIdle : k.dosIdleTask ≠ some t) (id : PendId) (timeout : Nat) :
    Blocked (k.view t) ((k.dosTaskWait t id timeout).view t) id := by
  rw [view_wait k t id timeout h.pair hIdle]
  split
  · exact ⟨rfl, rfl, rfl, by simp, by simp⟩
  · exact ⟨rfl, rfl, rfl, by simp, by simp⟩

/-- A task that goes to sleep keeps its place on a pend list. -/
structure Dozes (v v' : TaskView) : Prop where
  alloc : v'.alloc = v.alloc
  priority : v'.priority = v.priority
  pend : v'.pendOwner = v.pendOwner

/-- A task that goes to sleep stays where it waits. -/
theorem dozes_insertSleepList (h : k.Sound) (t : TaskId) (n : Nat) :
    Dozes (k.view t) ((k.dosInsertTaskSleepList t n).view t) := by
  unfold dosInsertTaskSleepList
  split
  · exact ⟨rfl, rfl, rfl⟩
  · rw [view_insertSleepItem k t n h.pair]
    exact ⟨rfl, rfl, rfl⟩

/-- `dos_task_create` in a free control block. -/
structure Creates (t : TaskId) (prio : Nat) (k k' : Kernel) : Prop where
  sound : k'.Sound
  free : k.alloc t = false
  view : ∀ x, x ≠ t → k'.view x = k.view x
  alloc : (k'.view t).alloc = true
  priority : (k'.view t).priority = prio
  pend : (k'.view t).pendOwner = none
  key : k'.lists.value .pend t = prio
  key_other : ∀ x, x ≠ t → k'.lists.value .pend x = k.lists.value .pend x

/-- The control block is initialised and made ready, whatever its words held. -/
theorem creates_initTcb (h : k.Sound) (hFree : k.alloc t = false)
    (hStatus : (k.view t).statusOwner = none) (hPend : (k.view t).pendOwner = none)
    (f : Tcb → Tcb) {prio : Nat} (tick : Nat) (hPrio : prio < 2 ^ 32) :
    Creates t prio k (((k.mapTcb t f).dosInitTcb t prio tick).dosInsertTaskPriorityList t) := by
  let k₁ := k.mapTcb t f
  let k₂ := k₁.dosInitTcb t prio tick
  have hLinked : k₂.lists.Linked := linked_initTcb (k := k₁) h.linked hStatus hPend tick hPrio
  have hOwner : k₂.lists.owner .status t = none := by
    simp [k₂, dosInitTcb, TaskLists.dosTaskItemInit]
  have hOnly := onlyTask_insertPriorityList k₂ t
  have hView := view_insertPriorityList k₂ t
  refine ⟨⟨linked_insertPriorityList hLinked hOwner, h.pair⟩, hFree, ?_, ?_, ?_, ?_, ?_, ?_⟩
  · intro x hx
    rw [hOnly.view hx]
    simp [k₂, k₁, Kernel.view, dosInitTcb, mapTcb, Kernel.priority, TaskLists.dosTaskItemInit, hx]
  · rw [hView]
    simp [k₂, Kernel.view, dosInitTcb]
  · rw [hView]
    simp [k₂, Kernel.view, dosInitTcb, Kernel.priority]
  · rw [hView]
    simp [k₂, Kernel.view, dosInitTcb]
  · rw [hOnly.pendKey]
    simp [k₂, dosInitTcb]
  · intro x hx
    rw [hOnly.pendKey]
    simp [k₂, k₁, dosInitTcb, mapTcb, TaskLists.dosTaskItemInit, hx]

/-- A creation that succeeds makes a new ready task. -/
theorem creates_create (h : k.Sound) {prio tick : Nat} (hStatus : (k.view t).statusOwner = none)
    (hPend : (k.view t).pendOwner = none) (hStep : kernelStep k (.create t prio tick) = some k') :
    Creates t prio k k' := by
  simp only [kernelStep, Option.ite_none_right_eq_some] at hStep
  obtain ⟨⟨hFree, hMax, hWord⟩, hCreate⟩ := hStep
  have hRange : ¬prio > (k.zeroTcb t).config.dosMaxPriorityNum := Nat.not_lt.mpr hMax.le
  rw [dosTaskCreate, if_neg hRange] at hCreate
  rw [← Option.some.inj hCreate]
  exact creates_initTcb h hFree hStatus hPend _ tick (by omega)

section Expiry

/-- The timeout handling of a tick: each task is left alone, or was asleep and
has expired. -/
structure Expires (k k' : Kernel) : Prop where
  sound : k'.Sound
  task : ∀ x, k'.view x = k.view x ∨ (k.view x).Sleeping ∧ k'.view x = (k.view x).expired
  key : ∀ x, k'.lists.value .pend x = k.lists.value .pend x

theorem Still.expires (h : Still k k') : Expires k k' := ⟨h.sound, fun x => Or.inl (h.view x), h.key⟩

theorem Expires.trans (first : Expires k k') (second : Expires k' k'') : Expires k k'' where
  sound := second.sound
  task x := by
    rcases first.task x with hSame | ⟨hSleep, hExp⟩
    · have hSecond := second.task x
      rw [hSame] at hSecond
      exact hSecond
    · rcases second.task x with hSame | ⟨hAgain, _⟩
      · exact Or.inr ⟨hSleep, hSame.trans hExp⟩
      · rw [hExp] at hAgain
        exact absurd hAgain (TaskView.not_sleeping_expired _)
  key x := (second.key x).trans (first.key x)

theorem expires_expire (h : k.Sound) (hSleep : (k.view t).Sleeping) :
    Expires k (k.dosExpireTask t) where
  sound := (touches_expire h t).sound
  task x := by
    by_cases hx : x = t
    · subst hx
      exact Or.inr ⟨hSleep, view_expire_eq k x⟩
    · exact Or.inl ((touches_expire h t).view x hx)
  key := (touches_expire h t).key

/-- The list of the sleep list pointer is one of the two sleep lists. -/
theorem Sound.sleeping (h : k.Sound) (hOwner : k.lists.owner .status t = some k.dosTaskSleepList) :
    (k.view t).Sleeping := by
  rcases h.pair with ⟨hs, _⟩ | ⟨hs, _⟩
  · exact Or.inl (hOwner.trans (congrArg some hs))
  · exact Or.inr (hOwner.trans (congrArg some hs))

theorem Sound.owner_first (h : k.Sound)
    (hHead : (k.lists.items k.dosTaskSleepList).head? = some t) :
    k.lists.owner .status t = some k.dosTaskSleepList := by
  have hOwner := (h.linked.mem_iff _ t).mp (List.mem_of_head? hHead)
  rwa [h.pair.kind.1] at hOwner

/-- The expiry loop as a whole, by its invariant rule. -/
theorem expires_tickTimeouts (h : k.Sound) : Expires k k.dosTickTimeouts :=
  tickTimeouts_rule (fun _ hk => hk.trans (still_setNextWakeTick hk.sound _).expires)
    (fun hk => hk.trans (still_first hk.sound _).expires)
    (fun hk hHead => hk.trans
      (expires_expire hk.sound (hk.sound.sleeping (hk.sound.owner_first hHead))))
    (still_refl h).expires

/-- The timeout handling of a tick takes the task off the sleep list. -/
def Due (k : Kernel) (t : TaskId) : Prop :=
  k.dosNextWakeTick ≤ k.dosTickCount ∧ k.lists.owner .status t = some k.dosTaskSleepList ∧
    k.lists.value .status t ≤ k.dosNextWakeTick

/-- The expiry loop stops in front of a task that sleeps on. -/
theorem view_tickExpire (fuel : Nat) (h : k.Sound)
    (hLate : k.lists.owner .status t = some k.dosTaskSleepList →
      k.dosNextWakeTick < k.lists.value .status t) :
    (dosTickExpire fuel k).view t = k.view t := by
  induction fuel generalizing k with
  | zero => rfl
  | succ fuel ih =>
      have hFirst := still_first h k.dosTaskSleepList
      unfold dosTickExpire
      split
      · rfl
      · split
        · rename_i k₁ hHead
          obtain rfl : (k.dosGetFirstTask k.dosTaskSleepList).1 = k₁ := congrArg Prod.fst hHead
          exact hFirst.view t
        · rename_i k₁ x hHead
          obtain rfl : (k.dosGetFirstTask k.dosTaskSleepList).1 = k₁ := congrArg Prod.fst hHead
          have hx : (k.lists.items k.dosTaskSleepList).head? = some x := congrArg Prod.snd hHead
          dsimp only
          split
          · exact hFirst.view t
          · rename_i hDue
            have hOther : t ≠ x := by
              rintro rfl
              exact hDue (hLate (h.owner_first hx))
            have hOnly := onlyTask_expire (k.dosGetFirstTask k.dosTaskSleepList).1 x
            refine (ih (touches_expire hFirst.sound x).sound ?_).trans
              ((hOnly.view hOther).trans (hFirst.view t))
            have hList := congrArg Statics.dosTaskSleepList hOnly.statics
            rw [hOnly.owner .status t hOther, hOnly.value .status t hOther, next_expire]
            intro hOn
            exact hLate (hOn.trans (congrArg some hList))

/-- A tick leaves a task alone whose time is not up. -/
theorem view_tickTimeouts (h : k.Sound) (hNot : ¬k.Due t) : k.dosTickTimeouts.view t = k.view t := by
  unfold dosTickTimeouts
  split
  · rename_i hTime
    refine view_tickExpire _ h fun hOn => ?_
    by_contra hValue
    exact hNot ⟨hTime, hOn, Nat.le_of_not_lt hValue⟩
  · rfl

end Expiry

end Kernel

end DoraOS
