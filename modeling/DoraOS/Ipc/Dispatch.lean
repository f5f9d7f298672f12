import DoraOS.Ipc.MutexEffect
import DoraOS.Kernel.ReadyState

/-! The processor goes to the task that the scheduler chose. A requested
context switch is taken before the current task goes on, and nothing else
changes the current task. So an operation leaves the most urgent task running
if it calls the scheduler after everything that changes ready lists and
priorities. The last release of a mutex without waiters does not. -/
namespace DoraOS

/-- The current task is outside the kernel's calls. -/
def System.AtUser (s : System) : Prop := ∀ c ∈ s.k.dosCurrentTask, s.pc c = .user

instance (s : System) : Decidable s.AtUser := by
  unfold System.AtUser
  infer_instance

/-- One step of the system on its processor. `switch` is the PendSV interrupt,
which runs `dos_choose_task`; while it is pending only interrupts may come
first. Tasks are created before the start or by the current task. -/
def System.dispatch (s : System) : SysEvent → Option (System × List Label)
  | .switch t =>
      if s.k.yieldPending = true ∧ s.k.dosChooseTask.dosCurrentTask = some t then
        some (s.setKernel s.k.dosChooseTask, [])
      else none
  | .create t prio tick =>
      if s.k.systemIsRun = true → s.k.yieldPending = false ∧ s.AtUser then
        s.exec (.create t prio tick)
      else none
  | .call a => if s.k.yieldPending = true then none else s.exec (.call a)
  | .next => if s.k.yieldPending = true then none else s.exec .next
  | event => s.exec event

def dispatchStep (s : System) (event : SysEvent) : Option System := (s.dispatch event).map Prod.fst

/-- What a task does outside the kernel's calls. -/
def SysEvent.begins : SysEvent → Bool
  | .create _ _ _ => true
  | .call _ => true
  | _ => false

/-- The interrupts apart from the context switch. -/
def SysEvent.interrupts : SysEvent → Bool
  | .tick => true
  | .isrSemPost _ => true
  | .isrQueue _ _ _ _ => true
  | _ => false

/-- If the call frees a mutex for which nobody waits, the priority it returns
to is at least as urgent as the present one. -/
def ReleasesPlainly (s : System) (c : TaskId) : Call → Prop
  | .mutexPost m => (s.mutex m).mutexOwner = some c → (s.mutex m).mutexCount = 1 →
      s.pending (.mutex m) = [] → (s.mutex m).mutexPriority ≤ s.k.priority c
  | _ => True

instance (s : System) (c : TaskId) (a : Call) : Decidable (ReleasesPlainly s c a) := by
  unfold ReleasesPlainly
  split <;> infer_instance

/-- The loop of `dos_event_set`, inside its scheduler lock. -/
def Pc.inLoop : Pc → Bool
  | .setLoop _ _ => true
  | .setWake _ _ _ => true
  | _ => false

namespace Kernel

variable {k k' : Kernel} {c : TaskId}

/-- A pending context switch will go to a most urgent task. -/
def Yields (k : Kernel) : Prop :=
  k.yieldPending = true → k.schedulerLock = 0 ∧ k.Urgent k.dosCurPriority

/-- An operation that changes nothing about the ready tasks, or that calls the
scheduler behind every change of them. -/
inductive Reacts : Kernel → Kernel → Prop where
  | rests {k k' : Kernel} (hPrepares : Prepares k k') (hSame : SameReady k k') : Reacts k k'
  | settles {k k' : Kernel} (hPrepares : Prepares k k') : Reacts k k'.dosScheduler
  | trans {k k' k'' : Kernel} (first : Reacts k k') (second : Reacts k' k'') : Reacts k k''

/-- What every operation of a call keeps. -/
structure Keeps (k k' : Kernel) : Prop where
  ready : k'.ReadyOk
  config : k'.config = k.config
  current : k'.dosCurrentTask = k.dosCurrentTask
  run : k'.systemIsRun = k.systemIsRun
  interrupt : k'.interruptCount = k.interruptCount

theorem Prepares.keeps (h : Prepares k k') : Keeps k k' where
  ready := h.ready
  config := h.config
  current := congrArg Processor.dosCurrentTask h.processor
  run := congrArg Processor.systemIsRun h.processor
  interrupt := congrArg Processor.interruptCount h.processor

theorem keeps_scheduler (h : k.ReadyOk) : Keeps k k.dosScheduler := by
  have hSame := sameTasks_scheduler k
  exact ⟨h.sameTasks hSame, congrArg Statics.config hSame.statics,
    congrArg Statics.dosCurrentTask hSame.statics, congrArg Statics.systemIsRun hSame.statics,
    congrArg Statics.interruptCount hSame.statics⟩

theorem Keeps.trans {k'' : Kernel} (first : Keeps k k') (second : Keeps k' k'') : Keeps k k'' where
  ready := second.ready
  config := second.config.trans first.config
  current := second.current.trans first.current
  run := second.run.trans first.run
  interrupt := second.interrupt.trans first.interrupt

theorem keeps_lock (h : k.ReadyOk) : Keeps k k.dosSchedulerLock :=
  ⟨h.congr rfl (still_lock h.sound).sound (fun _ => rfl) h.bitmap, rfl, rfl, rfl, rfl⟩

theorem keeps_unlock (h : k.ReadyOk) : Keeps k k.dosSchedulerUnlock := by
  have hDown : Keeps k { k with schedulerLock := k.schedulerLock - 1 } :=
    ⟨h.congr rfl ⟨h.sound.linked, h.sound.pair⟩ (fun _ => rfl) h.bitmap, rfl, rfl, rfl, rfl⟩
  unfold dosSchedulerUnlock
  dsimp only
  split
  · split
    · exact hDown.trans (keeps_scheduler hDown.ready)
    · exact hDown
  · exact (prepares_refl h).keeps

namespace Reacts

theorem keeps (h : Reacts k k') : Keeps k k' := by
  induction h with
  | rests hPrepares => exact hPrepares.keeps
  | settles hPrepares => exact hPrepares.keeps.trans (keeps_scheduler hPrepares.ready)
  | trans _ _ first second => exact first.trans second

theorem lock (h : Reacts k k') : k'.schedulerLock = k.schedulerLock := by
  induction h with
  | rests hPrepares => exact congrArg Processor.schedulerLock hPrepares.processor
  | @settles k k' hPrepares =>
      exact (congrArg Statics.schedulerLock (sameTasks_scheduler k').statics).trans
        (congrArg Processor.schedulerLock hPrepares.processor)
  | trans _ _ first second => exact second.trans first

/-- While the scheduler is locked nothing is asked of the processor. -/
theorem locked (h : Reacts k k') (hLock : k.schedulerLock ≠ 0) : k'.processor = k.processor := by
  induction h with
  | rests hPrepares => exact hPrepares.processor
  | @settles k k' hPrepares =>
      have hSame := congrArg Processor.schedulerLock hPrepares.processor
      have hLocked : k'.schedulerLock ≠ 0 := fun hOpen => hLock (hSame.symm.trans hOpen)
      rw [scheduler_locked hLocked]
      exact hPrepares.processor
  | trans hFirst _ first second =>
      have hMiddle := second (by rw [hFirst.lock]; exact hLock)
      exact hMiddle.trans (first hLock)

/-- A request stays until it is served. -/
theorem yield (h : Reacts k k') (hStay : k'.yieldPending = false) : k.yieldPending = false := by
  induction h with
  | rests hPrepares =>
      exact (congrArg Processor.yieldPending hPrepares.processor).symm.trans hStay
  | @settles k k' hPrepares =>
      rw [← show k'.yieldPending = k.yieldPending from
        congrArg Processor.yieldPending hPrepares.processor]
      cases hYield : k'.yieldPending with
      | false => rfl
      | true =>
          rw [scheduler_yield hYield] at hStay
          cases hStay
  | trans _ _ first second => exact first (second hStay)

/-- What a call of the scheduler at the end of an operation achieves. -/
theorem settled (h : Prepares k k') (hRun : k.systemIsRun = true) (hInterrupt : k.interruptCount = 0)
    (hLock : k.schedulerLock = 0) :
    k'.dosScheduler.Urgent k'.dosScheduler.dosCurPriority ∧
      (k'.dosScheduler.yieldPending = false → ∀ c, k.dosCurrentTask = some c →
        k'.dosScheduler.Urgent (k'.dosScheduler.priority c)) := by
  have hKeeps := h.keeps
  have hSettles := scheduler_settles h.ready (hKeeps.run.trans hRun)
    ((congrArg Processor.schedulerLock h.processor).trans hLock)
    (hKeeps.interrupt.trans hInterrupt)
  rw [hKeeps.current] at hSettles
  exact hSettles

theorem yields (h : Reacts k k') (hRun : k.systemIsRun = true) (hInterrupt : k.interruptCount = 0)
    (hYields : k.Yields) : k'.Yields := by
  induction h with
  | @rests k k' hPrepares hSame =>
      intro hYield
      have hProcessor := hPrepares.processor
      have hOld := hYields ((congrArg Processor.yieldPending hProcessor).symm.trans hYield)
      refine ⟨(congrArg Processor.schedulerLock hProcessor).trans hOld.1, ?_⟩
      rw [show k'.dosCurPriority = k.dosCurPriority from congrArg Processor.dosCurPriority hProcessor]
      exact hSame.urgent hOld.2
  | @settles k k' hPrepares =>
      intro hYield
      have hReacts : Reacts k k'.dosScheduler := Reacts.settles hPrepares
      by_cases hLock : k.schedulerLock = 0
      · exact ⟨hReacts.lock.trans hLock, (settled hPrepares hRun hInterrupt hLock).1⟩
      · have hSame := congrArg Processor.yieldPending (hReacts.locked hLock)
        exact absurd (hYields (hSame.symm.trans hYield)).1 hLock
  | trans hFirst _ first second =>
      have hKeeps := hFirst.keeps
      exact second (hKeeps.run.trans hRun) (hKeeps.interrupt.trans hInterrupt)
        (first hRun hInterrupt hYields)

/-- The current task stays the most urgent one, or is asked to leave. -/
theorem urgent (h : Reacts k k') (hRun : k.systemIsRun = true) (hInterrupt : k.interruptCount = 0)
    (hLock : k.schedulerLock = 0) (hCurrent : k.dosCurrentTask = some c)
    (hUrgent : k.Urgent (k.priority c)) (hStay : k'.yieldPending = false) :
    k'.Urgent (k'.priority c) := by
  induction h with
  | rests _ hSame =>
      rw [hSame.priority c]
      exact hSame.urgent hUrgent
  | settles hPrepares => exact (settled hPrepares hRun hInterrupt hLock).2 hStay c hCurrent
  | trans hFirst hSecond first second =>
      have hKeeps := hFirst.keeps
      have hMiddle := first hRun hInterrupt hLock hCurrent hUrgent (hSecond.yield hStay)
      exact second (hKeeps.run.trans hRun) (hKeeps.interrupt.trans hInterrupt)
        (hFirst.lock.trans hLock) (hKeeps.current.trans hCurrent) hMiddle hStay

end Reacts

theorem reacts_mapTcb (h : k.ReadyOk) {f : Tcb → Tcb} (hf : ∀ tcb : Tcb,
    (f tcb).taskStatus = tcb.taskStatus ∧ (f tcb).priority = tcb.priority) :
    Reacts k (k.mapTcb c f) :=
  Reacts.rests (prepares_mapTcb h hf) (SameReady.of_view (still_mapTcb h.sound hf).view)

/-- Opening the scheduler ends with the right choice. -/
theorem unlock_settled (h : k.ReadyOk) (hRun : k.systemIsRun = true) (hInterrupt : k.interruptCount = 0)
    (hLock : k.schedulerLock = 1) :
    k.dosSchedulerUnlock.schedulerLock = 0 ∧
      k.dosSchedulerUnlock.Urgent k.dosSchedulerUnlock.dosCurPriority ∧
      (k.dosSchedulerUnlock.yieldPending = false → ∀ c, k.dosCurrentTask = some c →
        k.dosSchedulerUnlock.Urgent (k.dosSchedulerUnlock.priority c)) := by
  let k₁ : Kernel := { k with schedulerLock := k.schedulerLock - 1 }
  have hZero : k₁.schedulerLock = 0 := by
    show k.schedulerLock - 1 = 0
    omega
  have hReady : k₁.ReadyOk := h.congr rfl ⟨h.sound.linked, h.sound.pair⟩ (fun _ => rfl) h.bitmap
  have hEq : k.dosSchedulerUnlock = k₁.dosScheduler := by
    unfold dosSchedulerUnlock
    dsimp only
    rw [if_pos (by omega), if_pos hZero]
  rw [hEq]
  exact ⟨(congrArg Statics.schedulerLock (sameTasks_scheduler k₁).statics).trans hZero,
    scheduler_settles hReady hRun hZero hInterrupt⟩

end Kernel

namespace System

open Kernel

variable {s : System} {c : TaskId} {event : SysEvent} {r : System × List Label}

/-- The invariant of a system on its processor. -/
structure Dispatched (s : System) : Prop extends Consistent s where
  ready : s.k.ReadyOk
  owners : ∀ m o, (s.mutex m).mutexOwner = some o → (s.k.view o).alloc = true ∧
    (s.mutex m).mutexPriority < s.k.config.dosMaxPriorityNum
  thread : s.k.interruptCount = 0
  started : s.k.systemIsRun = false → s.k.yieldPending = false
  yields : s.k.Yields

section Reactions

theorem reacts_same (h : s.k.ReadyOk) {s' : System} (hKernel : s'.k = s.k) : Reacts s.k s'.k := by
  rw [hKernel]
  exact Reacts.rests (prepares_refl h) (SameReady.of_view fun _ => rfl)

theorem reacts_wakeFirst (h : s.k.ReadyOk) (l : ListId) {t : TaskId}
    (hAlloc : (s.k.view t).alloc = true) : Reacts s.k (s.k.wakeFirst l t) := by
  have hFirst := prepares_first h l
  exact Reacts.settles (hFirst.trans (prepares_wake hFirst.ready hAlloc))

theorem alloc_pending (h : Coherent s) {id : PendId} {t : TaskId} {rest : List TaskId}
    (hHead : s.pending id = t :: rest) : (s.k.view t).alloc = true :=
  (h.ok t).alloc ((mem_pending h.sound).mp (hHead ▸ List.mem_cons_self : t ∈ s.pending id))

theorem reacts_block {s₁ : System} (hPrepares : Prepares s.k s₁.k) (hCoherent : Coherent s₁)
    (hAlloc : (s₁.k.view c).alloc = true) (hIdle : s₁.k.dosIdleTask ≠ some c)
    (hUser : s₁.pc c = .user) (w : Wait) (timeout : Nat) :
    Reacts s.k (s₁.block c w timeout).1.k := by
  have hFree : (s₁.k.view c).pendOwner = none :=
    (hCoherent.ok c).unpended (by simp [task, hUser, Pc.waitsOn])
  exact Reacts.settles
    (hPrepares.trans (prepares_wait hPrepares.ready hAlloc hFree hIdle w.pendId timeout))

theorem reacts_semPost (h : Coherent s) (hReady : s.k.ReadyOk) {caller : Option TaskId} {i : Nat}
    (hPost : s.SemPosts caller i r) : Reacts s.k r.1.k := by
  cases hPost with
  | wake t rest _ hHead => exact reacts_wakeFirst hReady _ (alloc_pending h hHead)
  | _ => exact reacts_same hReady rfl

theorem reacts_queueNow (h : Coherent s) (hReady : s.k.ReadyOk) {caller : Option TaskId} {q : Nat}
    {op : QueueOp} {buff size : Nat} (hSend : s.QueueNow caller q op buff size r) :
    Reacts s.k r.1.k := by
  cases hSend with
  | wake t rest _ hHead => exact reacts_wakeFirst hReady _ (alloc_pending h hHead)
  | _ => exact reacts_same hReady rfl

theorem reacts_advanced (h : s.k.ReadyOk) : Reacts s.k s.advanced.k :=
  Reacts.rests (prepares_tickAdvance h) (SameReady.of_view (still_tickAdvance h.sound).view)

theorem Reacts.expired (h : Reacts s.k r.1.k) : Reacts s.k r.1.expired.k :=
  h.trans (Reacts.settles (prepares_tickTimeouts h.keeps.ready))

theorem prepares_inherit (h : Dispatched s) (hAlloc : (s.k.view c).alloc = true) (m : Nat) :
    Prepares s.k (s.inherit c m).k := by
  unfold inherit
  split
  · split
    · rename_i o hOwner
      exact prepares_setPriority h.ready (h.owners m o hOwner).1 ((h.ready.task c).used hAlloc).2
    · exact prepares_refl h.ready
  · exact prepares_refl h.ready

theorem prepares_restorePriority {k : Kernel} (h : k.ReadyOk) (hAlloc : (k.view c).alloc = true)
    {prio : Nat} (hPrio : prio < k.config.dosMaxPriorityNum) :
    Prepares k (k.restorePriority c prio) := by
  unfold restorePriority
  split
  · exact prepares_setPriority h hAlloc hPrio
  · exact prepares_refl h

/-- The last release of a mutex without waiters by `c`. It changes the priority
of `c` without a call of the scheduler. -/
structure FreesUnwanted (s : System) (c : TaskId) (a : Call) (k' : Kernel) (m : Nat) : Prop where
  call : a = .mutexPost m
  owner : (s.mutex m).mutexOwner = some c
  last : (s.mutex m).mutexCount = 1
  empty : s.pending (.mutex m) = []
  prepares : Prepares s.k k'
  kernel : k' = s.k.restorePriority c (s.mutex m).mutexPriority

/-- What a call does to the processor. -/
theorem reacts_call (h : Dispatched s) (hRun : s.Running c) (hUser : s.pc c = .user) {a : Call}
    (hCall : s.Calls c a r) (hLock : a ≠ .lock) (hUnlock : a ≠ .unlock) :
    Reacts s.k r.1.k ∨ ∃ m, s.FreesUnwanted c a r.1.k m := by
  have hBlock := reacts_block (prepares_refl h.ready) h.toCoherent hRun.alloc hRun.idle hUser
  have hBack {m : Nat} (hOwner : (s.mutex m).mutexOwner = some c) :
      Prepares s.k (s.released c m).k :=
    prepares_restorePriority h.ready (h.owners m c hOwner).1 (h.owners m c hOwner).2
  cases hCall with
  | mutexFree m hOwner hLast hEmpty =>
      have hPend := pending_restore h.sound c (s.mutex m).mutexPriority (.mutex m)
      exact Or.inr ⟨m, rfl, hOwner, hLast, hPend.symm.trans hEmpty, hBack hOwner, rfl⟩
  | mutexHand m t rest hOwner hLast hHead =>
      have hSpec := spec_restorePriority (s.cause .next) h.sound c (s.mutex m).mutexPriority
      have hAlloc := alloc_pending (hSpec.coherent h.toCoherent) hHead
      have hFirst := (hBack hOwner).trans (prepares_first (hBack hOwner).ready (.pend (.mutex m)))
      exact Or.inl (Reacts.settles (hFirst.trans (prepares_wake hFirst.ready hAlloc)))
  | semBlock | queueBlock => exact Or.inl (hBlock _ _)
  | semPost i hPost => exact Or.inl (reacts_semPost h.toCoherent h.ready hPost)
  | mutexBlock m timeout hHeld hOwner hWait =>
      have hSpec := spec_inherit (s.cause .next) h.sound c m
      have hAlloc : ((s.inherit c m).k.view c).alloc = true := (inherit_alloc c m c).trans hRun.alloc
      exact Or.inl (reacts_block (prepares_inherit h hRun.alloc m) (hSpec.coherent h.toCoherent) hAlloc
        (inherit_idle hRun.idle m) (by rw [inherit_pc, hUser]) _ _)
  | eventBlock e waitEvent op timeout =>
      have hStill := still_waitEvent h.sound c waitEvent op
      have hPrepares : Prepares s.k (s.setWaitEvent c waitEvent op).k :=
        ⟨h.ready.congr rfl hStill.sound hStill.view h.ready.bitmap, rfl, rfl⟩
      exact Or.inl
        (reacts_block hPrepares (h.toCoherent.still hStill) hRun.alloc hRun.idle hUser _ _)
  | sleep sleepTick =>
      refine Or.inl ?_
      show Reacts s.k (s.k.dosTaskSleep c sleepTick)
      unfold dosTaskSleep
      split
      · exact Reacts.settles (prepares_refl h.ready)
      · exact Reacts.settles (prepares_sleep h.ready hRun.alloc hRun.idle sleepTick)
  | lock => exact absurd rfl hLock
  | unlock => exact absurd rfl hUnlock
  | _ => exact Or.inl (reacts_same h.ready rfl)

/-- What the later steps of a call do to the processor, apart from the lock of
`dos_event_set`. -/
theorem reacts_resume (h : Dispatched s) (hRun : s.Running c) {pc : Pc} (hPc : s.pc c = pc)
    (hResumes : s.Resumes c pc r) (hLock : ∀ e, pc ≠ .setLock e)
    (hUnlock : ∀ e, pc ≠ .setLoop e 0) : Reacts s.k r.1.k := by
  have hFlags (f : Flag) (hf : f ≠ .timeout) (hf' : f ≠ .suspend) :
      Flag.test (s.k.view c).flagsReset.status f = Flag.test (s.k.view c).status f := by
    have hReady := hRun.ready
    cases f <;> simp_all [TaskView.flagsReset]
  -- both clean-ups leave what the ready table depends on
  have hSame {k' : Kernel} (hOnly : OnlyTask c s.k k')
      (hStatus : (k'.view c).status = (s.k.view c).flagsReset.status)
      (hPriority : (k'.view c).priority = (s.k.view c).priority) : SameReady s.k k' :=
    SameReady.of_onlyTask hOnly
      ((congrArg (Flag.test · .unused) hStatus).trans (hFlags .unused (by simp) (by simp)))
      ((congrArg (Flag.test · .ready) hStatus).trans (hFlags .ready (by simp) (by simp))) hPriority
  have hCleaned : Reacts s.k (s.k.dosTimeoutCleanUp c) := by
    have hView := view_timeoutCleanUp_eq s.k c
    exact Reacts.rests (prepares_timeoutCleanUp h.ready hRun.alloc hRun.ready)
      (hSame (onlyTask_timeoutCleanUp s.k c) (by rw [hView]; rfl) (by rw [hView]; rfl))
  have hNext (e : Nat) : Reacts s.k { s.k with
      lists := (s.k.lists.dosGetNextTask (.pend (.event e))).1 } :=
    Reacts.rests (prepares_next h.ready _) (SameReady.of_view fun _ => rfl)
  cases hResumes with
  | reset w =>
      have hView := view_flagsReset s.k c
      exact Reacts.rests (prepares_flagsReset h.ready hRun.alloc hRun.ready)
        (hSame ((onlyTask_resetStatus s.k c _).trans (onlyTask_setStatus _ c _))
          (congrArg TaskView.status hView :) (congrArg TaskView.priority hView :))
  | cleanUpEvent w waitEvent =>
      have hFields (k : Kernel) (hReady : k.ReadyOk) : Reacts k
          (k.mapTcb c fun tcb => { tcb with waitEvent := waitEvent, waitEventOpt := 0 }) :=
        reacts_mapTcb hReady fun _ => ⟨rfl, rfl⟩
      exact hCleaned.trans (hFields _ hCleaned.keeps.ready)
  | cleanUp w => exact hCleaned
  | unlink w =>
      exact Reacts.rests (prepares_pendDel h.ready c)
        (SameReady.of_onlyTask (onlyTask_itemDel s.k c .pend) rfl rfl rfl)
  | woken q op t rest hHead => exact reacts_wakeFirst h.ready _ (alloc_pending h.toCoherent hHead)
  | setLock e => exact absurd rfl (hLock e)
  | setDone e => exact absurd rfl (hUnlock e)
  | setSelect e value t event hSome =>
      have hGet (k : Kernel) (hReady : k.ReadyOk) : Reacts k
          (k.mapTcb t fun tcb => { tcb with eventGet := tcb.waitEvent }) :=
        reacts_mapTcb hReady fun _ => ⟨rfl, rfl⟩
      exact (hNext e).trans (hGet _ (hNext e).keeps.ready)
  | setTurn e value => exact hNext e
  | setWake e value t => exact Reacts.settles (prepares_wake h.ready (h.chosen c e value t hPc))
  | _ => exact reacts_same h.ready rfl

end Reactions

section Invariant

theorem owners_step (h : Dispatched s) (hStep : s.exec event = some r)
    (hConfig : r.1.k.config = s.k.config) :
    ∀ m o, (r.1.mutex m).mutexOwner = some o → (r.1.k.view o).alloc = true ∧
      (r.1.mutex m).mutexPriority < r.1.k.config.dosMaxPriorityNum := by
  have hSpec := spec_exec h.toCoherent h.chosen hStep
  have hAlive {t : TaskId} : (s.k.view t).alloc = true → (r.1.k.view t).alloc = true :=
    (hSpec.task t).alloc
  rw [hConfig]
  have hOld (m : Nat) (o : TaskId) (hOwner : (s.mutex m).mutexOwner = some o) :
      (r.1.k.view o).alloc = true ∧ (s.mutex m).mutexPriority < s.k.config.dosMaxPriorityNum :=
    ⟨hAlive (h.owners m o hOwner).1, (h.owners m o hOwner).2⟩
  have hNew {t : TaskId} (hAlloc : (s.k.view t).alloc = true) (o : TaskId) (ho : some t = some o) :
      (r.1.k.view o).alloc = true ∧ s.k.priority t < s.k.config.dosMaxPriorityNum := by
    cases ho
    exact ⟨hAlive hAlloc, ((h.ready.task t).used hAlloc).2⟩
  -- a step assigns to one mutex at most
  have hSet {m' : Nat} {x : Mutex} (hMutex : r.1.mutex = (s.setMutex m' x).mutex)
      (hx : ∀ o, x.mutexOwner = some o →
        (r.1.k.view o).alloc = true ∧ x.mutexPriority < s.k.config.dosMaxPriorityNum)
      (m : Nat) (o : TaskId) (hOwner : (r.1.mutex m).mutexOwner = some o) :
      (r.1.k.view o).alloc = true ∧ (r.1.mutex m).mutexPriority < s.k.config.dosMaxPriorityNum := by
    have hHere : r.1.mutex m = if m = m' then x else s.mutex m := congrFun hMutex m
    by_cases hm : m = m'
    · rw [if_pos hm] at hHere
      rw [hHere] at hOwner ⊢
      exact hx o hOwner
    · rw [if_neg hm] at hHere
      rw [hHere] at hOwner ⊢
      exact hOld m o hOwner
  cases effect_exec h.toCoherent hStep with
  | quiet hMutex =>
      rw [hMutex]
      exact hOld
  | create t prio tick _ _ hMutex =>
      rw [hMutex]
      exact hOld
  | take m timeout c hRun _ _ hSystem =>
      exact hSet (congrArg System.mutex hSystem) (hNew hRun.alloc)
  | nest m timeout c _ _ _ _ hSystem => exact hSet (congrArg System.mutex hSystem) (hOld m)
  | block m timeout c _ _ _ _ _ _ hMutex =>
      rw [hMutex]
      exact hOld
  | leave m c _ _ _ _ hSystem => exact hSet (congrArg System.mutex hSystem) (hOld m)
  | free m c _ _ _ _ _ _ hMutex => exact hSet hMutex (fun _ hNone => by cases hNone)
  | hand m c t rest _ _ _ _ _ hHead _ hMutex =>
      exact hSet hMutex (hNew (alloc_pending h.toCoherent hHead))

theorem yields_of_quiet {k : Kernel} (hQuiet : k.yieldPending = false) : k.Yields :=
  fun hYield => absurd (hQuiet.symm.trans hYield) (by simp)

theorem yields_unlock {k : Kernel} (h : k.ReadyOk) (hRun : k.systemIsRun = true)
    (hInterrupt : k.interruptCount = 0) (hQuiet : k.yieldPending = false) :
    k.dosSchedulerUnlock.Yields := by
  by_cases hLock : k.schedulerLock = 1
  · obtain ⟨hOpen, hUrgent, _⟩ := unlock_settled h hRun hInterrupt hLock
    exact fun _ => ⟨hOpen, hUrgent⟩
  · refine yields_of_quiet ?_
    unfold dosSchedulerUnlock
    dsimp only
    split
    · rw [if_neg (by omega)]
      exact hQuiet
    · exact hQuiet

/-- What a call keeps. -/
theorem keeps_call (h : Dispatched s) (hRun : s.Running c) (hUser : s.pc c = .user)
    (hQuiet : s.k.yieldPending = false) (a : Call) :
    Keeps s.k (s.call c a).1.k ∧ (s.call c a).1.k.Yields := by
  have hReacts (hr : Reacts s.k (s.call c a).1.k) :
      Keeps s.k (s.call c a).1.k ∧ (s.call c a).1.k.Yields :=
    ⟨hr.keeps, hr.yields hRun.1 h.thread h.yields⟩
  have hCall := reacts_call h hRun hUser (calls_call a)
  cases a with
  | lock => exact ⟨keeps_lock h.ready, yields_of_quiet hQuiet⟩
  | unlock => exact ⟨keeps_unlock h.ready, yields_unlock h.ready hRun.1 h.thread hQuiet⟩
  | _ =>
      rcases hCall (by simp) (by simp) with hr | ⟨_, hFrees⟩
      · exact hReacts hr
      · exact ⟨hFrees.prepares.keeps, yields_of_quiet
          ((congrArg Processor.yieldPending hFrees.prepares.processor).trans hQuiet)⟩

/-- What a later step of a call keeps. -/
theorem keeps_resume (h : Dispatched s) (hRun : s.Running c) (hQuiet : s.k.yieldPending = false)
    {pc : Pc} (hPc : s.pc c = pc) (hNext : s.Resumes c pc r) : Keeps s.k r.1.k ∧ r.1.k.Yields := by
  have hReacts := reacts_resume h hRun hPc hNext
  cases hNext with
  | setLock e => exact ⟨keeps_lock h.ready, yields_of_quiet hQuiet⟩
  | setDone e => exact ⟨keeps_unlock h.ready, yields_unlock h.ready hRun.1 h.thread hQuiet⟩
  | _ =>
      replace hReacts := hReacts (by simp) (by simp)
      exact ⟨hReacts.keeps, hReacts.yields hRun.1 h.thread h.yields⟩

theorem reacts_interrupt (h : Dispatched s) (hEvent : event.interrupts = true)
    (hStep : s.dispatch event = some r) :
    s.exec event = some r ∧ s.k.systemIsRun = true ∧ Reacts s.k r.1.k ∧ r.1.pc = s.pc := by
  have hExec : s.exec event = some r ∧ s.k.systemIsRun = true := by
    cases event with
    | tick | isrSemPost | isrQueue => exact ⟨hStep, (Transition.guard_some hStep).1⟩
    | _ => cases hEvent
  refine ⟨hExec.1, hExec.2, ?_⟩
  have hAdvanced := reacts_advanced h.ready
  cases steps_of_exec hExec.1 with
  | tick => exact ⟨Reacts.expired (r := (s.advanced, [])) hAdvanced, rfl⟩
  | overflow q sent hQueue hSend =>
      have hCoherent := (spec_advanced (s.cause .next) h.sound).coherent h.toCoherent
      have hPost := hAdvanced.trans (reacts_queueNow hCoherent hAdvanced.keeps.ready hSend)
      have hPc := pc_queueNow hSend
      exact ⟨Reacts.expired hPost, hPc⟩
  | isrSemPost i hPost => exact ⟨reacts_semPost h.toCoherent h.ready hPost, pc_semPosts hPost⟩
  | isrQueue q op buff size hSend =>
      exact ⟨reacts_queueNow h.toCoherent h.ready hSend, pc_queueNow hSend⟩
  | _ => cases hEvent

/-- The task that a pending context switch goes to. -/
theorem chooseTask_urgent (h : Dispatched s) (hYield : s.k.yieldPending = true) {t : TaskId}
    (hNext : s.k.dosChooseTask.dosCurrentTask = some t) :
    s.k.schedulerLock = 0 ∧ s.k.dosChooseTask.Urgent (s.k.dosChooseTask.priority t) := by
  obtain ⟨hLock, hUrgent⟩ := h.yields hYield
  have hMem := TaskLists.next_result_mem hNext
  have hPrio : s.k.priority t = s.k.dosCurPriority := (h.ready.readyLists.member _ t hMem).2
  have hSame : SameReady s.k s.k.dosChooseTask := SameReady.of_view fun _ => rfl
  refine ⟨hLock, ?_⟩
  rw [hSame.priority t, hPrio]
  exact hSame.urgent hUrgent

theorem dispatched_of_exec (h : Dispatched s) (hStep : s.exec event = some r)
    (hKeeps : Keeps s.k r.1.k) (hRun : s.k.systemIsRun = true) (hYields : r.1.k.Yields) :
    Dispatched r.1 where
  toConsistent := consistent_step h.toConsistent hStep
  ready := hKeeps.ready
  owners := owners_step h hStep hKeeps.config
  thread := hKeeps.interrupt.trans h.thread
  started hNot := absurd (hNot.symm.trans (hKeeps.run.trans hRun)) (by simp)
  yields := hYields

theorem dispatched_create (h : Dispatched s) {t : TaskId} {prio tick : Nat}
    (hOpen : s.k.systemIsRun = true → s.k.yieldPending = false ∧ s.AtUser)
    (hStep : s.exec (.create t prio tick) = some r) :
    Dispatched r.1 ∧ r.1.k.dosCurrentTask = s.k.dosCurrentTask ∧ r.1.pc = s.pc ∧
      r.1.k.systemIsRun = s.k.systemIsRun := by
  have hExec := hStep
  simp only [exec, Option.map_eq_some_iff] at hExec
  obtain ⟨k', hCreate, rfl⟩ := hExec
  have hFree : (s.k.view t).alloc = false := by
    simp only [kernelStep, Option.ite_none_right_eq_some] at hCreate
    exact hCreate.1.1
  have hOff := (h.ok t).free hFree
  obtain ⟨hReady, hProcessor⟩ := h.ready.create hOff.1 hOff.2.1 hCreate
  have hConfig : k'.config = s.k.config := by
    simp only [kernelStep, Option.ite_none_right_eq_some, dosTaskCreate,
      Option.ite_none_left_eq_some, Option.some.injEq] at hCreate
    rw [← hCreate.2.2]
    rfl
  have hYield : k'.yieldPending = s.k.yieldPending := congrArg Processor.yieldPending hProcessor
  have hRun : k'.systemIsRun = s.k.systemIsRun := congrArg Processor.systemIsRun hProcessor
  have hQuiet : k'.yieldPending = false := by
    rw [hYield]
    cases hs : s.k.systemIsRun with
    | true => exact (hOpen hs).1
    | false => exact h.started hs
  refine ⟨?_, congrArg Processor.dosCurrentTask hProcessor, rfl, hRun⟩
  exact { toConsistent := consistent_step h.toConsistent hStep
          ready := hReady
          owners := owners_step h hStep hConfig
          thread := (congrArg Processor.interruptCount hProcessor).trans h.thread
          started := fun _ => hQuiet
          yields := yields_of_quiet hQuiet }

theorem dispatched_start (h : Dispatched s) (hStep : s.exec .start = some r) : Dispatched r.1 := by
  have hExec := hStep
  simp only [exec, kernelStep, Option.map_eq_some_iff, Option.ite_none_right_eq_some,
    Option.some.injEq] at hExec
  obtain ⟨k', ⟨hStopped, rfl⟩, rfl⟩ := hExec
  have hSame := sameTasks_check s.k
  have hCheck := h.ready.sameTasks hSame
  have hFirst := prepares_first hCheck (.priority s.k.dosCheckTaskPriority.1.dosCurPriority)
  have hQuiet : s.k.dosSystemStartRun.yieldPending = false := by
    show s.k.dosCheckTaskPriority.1.yieldPending = false
    rw [check_yield]
    exact h.started hStopped
  exact { toConsistent := consistent_step h.toConsistent hStep
          ready := hFirst.ready.congr rfl ⟨hFirst.ready.sound.linked, hFirst.ready.sound.pair⟩
            (fun _ => rfl) hFirst.ready.bitmap
          owners := owners_step h hStep (congrArg Statics.config hSame.statics)
          thread := (congrArg Statics.interruptCount hSame.statics).trans h.thread
          started := fun _ => hQuiet
          yields := yields_of_quiet hQuiet }

theorem dispatched_switch (h : Dispatched s) : Dispatched (s.setKernel s.k.dosChooseTask) := by
  have hNext := prepares_next h.ready (.priority s.k.dosCurPriority)
  have hStill : Still s.k s.k.dosChooseTask :=
    ⟨⟨hNext.ready.sound.linked, hNext.ready.sound.pair⟩, fun _ => rfl, fun _ => rfl⟩
  exact { toCoherent := h.toCoherent.still hStill
          chosen := h.chosen
          ready := hNext.ready.congr rfl hStill.sound (fun _ => rfl) hNext.ready.bitmap
          owners := h.owners
          thread := h.thread
          started := fun _ => rfl
          yields := yields_of_quiet rfl }

theorem dispatched_step (h : Dispatched s) (hStep : s.dispatch event = some r) : Dispatched r.1 := by
  have hInterrupt (hEvent : event.interrupts = true) : Dispatched r.1 := by
    obtain ⟨hExec, hRun, hReacts, _⟩ := reacts_interrupt h hEvent hStep
    exact dispatched_of_exec h hExec hReacts.keeps hRun (hReacts.yields hRun h.thread h.yields)
  cases event with
  | create t prio tick =>
      simp only [dispatch, Option.ite_none_right_eq_some] at hStep
      exact (dispatched_create h hStep.1 hStep.2).1
  | start => exact dispatched_start h hStep
  | switch t =>
      simp only [dispatch, Option.ite_none_right_eq_some, Option.some.injEq] at hStep
      rw [← hStep.2]
      exact dispatched_switch h
  | call a =>
      simp only [dispatch, Option.ite_none_left_eq_some, Bool.not_eq_true] at hStep
      obtain ⟨c, hRun, hUser, rfl⟩ := call_some hStep.2
      obtain ⟨hKeeps, hYields⟩ := keeps_call h hRun hUser hStep.1 a
      exact dispatched_of_exec h hStep.2 hKeeps hRun.1 hYields
  | next =>
      simp only [dispatch, Option.ite_none_left_eq_some, Bool.not_eq_true] at hStep
      obtain ⟨c, hRun, hResume⟩ := next_some hStep.2
      obtain ⟨hKeeps, hYields⟩ := keeps_resume h hRun hStep.1 rfl (resumes_of_resume hResume)
      exact dispatched_of_exec h hStep.2 hKeeps hRun.1 hYields
  | _ => exact hInterrupt rfl

theorem dispatched_init {cfg : Config} {idle : TaskId} (hMax : cfg.dosMaxPriorityNum ≤ 32)
    (hInit : s.Initial cfg idle) : Dispatched s := by
  have hKernel := hInit.kernel
  simp only [dosTaskInit, dosTaskCreate, Option.map_eq_some_iff] at hKernel
  obtain ⟨k₁, hCreate, hk⟩ := hKernel
  split at hCreate
  · cases hCreate
  · have hQuiet : s.k.yieldPending = false ∧ s.k.interruptCount = 0 := by
      rw [← hk, ← Option.some.inj hCreate]
      exact ⟨rfl, rfl⟩
    exact { toConsistent := consistent_init hInit
            ready := readyOk_init hMax hInit.kernel
            owners := by
              intro m o hOwner
              rw [hInit.mutex m] at hOwner
              cases hOwner
            thread := hQuiet.2
            started := fun _ => hQuiet.1
            yields := yields_of_quiet hQuiet.1 }

end Invariant

section Return

/-- While `c` is in a call: in the loop of `dos_event_set` it holds the
scheduler lock, and otherwise it is the most urgent task whenever it has the
processor. -/
structure Returning (s : System) (c : TaskId) : Prop where
  run : s.k.systemIsRun = true
  loop : (s.pc c).inLoop = true →
    s.k.dosCurrentTask = some c ∧ s.k.schedulerLock = 1 ∧ s.k.yieldPending = false
  urgent : s.k.dosCurrentTask = some c → s.k.yieldPending = false → (s.pc c).inLoop = false →
    s.pc c ≠ .fault → s.k.schedulerLock = 0 ∧ s.k.Urgent (s.k.priority c)

/-- Nothing has to be shown while another task has the processor. -/
theorem Returning.away {s' : System} (h : Returning s c) (hRun : s'.k.systemIsRun = true)
    (hOther : s.k.dosCurrentTask ≠ some c) (hCurrent : s'.k.dosCurrentTask = s.k.dosCurrentTask)
    (hPc : s'.pc c = s.pc c) : Returning s' c where
  run := hRun
  loop hLoop := by
    rw [hPc] at hLoop
    exact absurd (h.loop hLoop).1 hOther
  urgent hBack := absurd (hCurrent.symm.trans hBack) hOther

/-- An operation that reacts, outside the loop. -/
theorem Returning.reacts {s' : System} (h : Returning s c) (hThread : s.k.interruptCount = 0)
    (hReacts : Reacts s.k s'.k) (hOut : (s.pc c).inLoop = false) (hFault : s.pc c ≠ .fault)
    (hOut' : (s'.pc c).inLoop = false) : Returning s' c where
  run := hReacts.keeps.run.trans h.run
  loop hLoop := absurd (hOut'.symm.trans hLoop) (by simp)
  urgent hBack hStay _ _ := by
    have hCurrent : s.k.dosCurrentTask = some c := hReacts.keeps.current.symm.trans hBack
    obtain ⟨hLock, hUrgent⟩ := h.urgent hCurrent (hReacts.yield hStay) hOut hFault
    exact ⟨hReacts.lock.trans hLock,
      hReacts.urgent h.run hThread hLock hCurrent hUrgent hStay⟩

/-- An operation that reacts, inside the loop. -/
theorem Returning.locked {s' : System} (h : Returning s c) (hReacts : Reacts s.k s'.k)
    (hIn : (s.pc c).inLoop = true) (hPc : (s'.pc c).inLoop = true ∨ s'.pc c = .fault) :
    Returning s' c := by
  obtain ⟨hCurrent, hLock, hQuiet⟩ := h.loop hIn
  have hProcessor := hReacts.locked (by omega)
  have hSame : s'.k.dosCurrentTask = some c ∧ s'.k.schedulerLock = 1 ∧ s'.k.yieldPending = false :=
    ⟨hReacts.keeps.current.trans hCurrent, hReacts.lock.trans hLock,
      (congrArg Processor.yieldPending hProcessor).trans hQuiet⟩
  refine ⟨hReacts.keeps.run.trans h.run, fun _ => hSame, ?_⟩
  intro _ _ hOut hFault
  rcases hPc with hIn' | hFault'
  · exact absurd (hOut.symm.trans hIn') (by simp)
  · exact absurd hFault' hFault

theorem Returning.switched (h : Returning s c) (hDispatched : Dispatched s)
    (hYield : s.k.yieldPending = true) :
    Returning (s.setKernel s.k.dosChooseTask) c where
  run := h.run
  loop hLoop := absurd ((h.loop hLoop).2.2.symm.trans hYield) (by simp)
  urgent hBack _ _ _ := chooseTask_urgent hDispatched hYield hBack

/-- The later steps of the call itself. -/
theorem Returning.next (h : Returning s c) (hDispatched : Dispatched s) (hRun : s.Running c)
    (hQuiet : s.k.yieldPending = false) {pc : Pc} (hPc : s.pc c = pc) (hNext : s.Resumes c pc r) :
    Returning r.1 c := by
  have hReacts := reacts_resume hDispatched hRun hPc hNext
  cases hNext with
  | setLock e =>
      have hOpen := (h.urgent hRun.2.1 hQuiet (by simp [hPc, Pc.inLoop]) (by simp [hPc])).1
      refine ⟨h.run, fun _ => ⟨hRun.2.1, ?_, hQuiet⟩, ?_⟩
      · show (s.k.schedulerLock + 1) % 2 ^ 8 = 1
        omega
      · intro _ _ hOut
        simp [setPc, Pc.inLoop] at hOut
  | setDone e =>
      have hLock := (h.loop (by simp [hPc, Pc.inLoop])).2.1
      obtain ⟨hOpen, _, hUrgent⟩ :=
        unlock_settled hDispatched.ready hRun.1 hDispatched.thread hLock
      refine ⟨(keeps_unlock hDispatched.ready).run.trans h.run, ?_, ?_⟩
      · intro hLoop
        simp [setPc, Pc.inLoop] at hLoop
      · intro _ hStay _ _
        exact ⟨hOpen, hUrgent hStay c hRun.2.1⟩
  | setLost | setSelect | setTurn | setWake =>
      refine h.locked (hReacts (by simp) (by simp)) (by simp [hPc, Pc.inLoop]) ?_
      simp [setPc, Pc.inLoop]
  | _ =>
      refine h.reacts hDispatched.thread (hReacts (by simp) (by simp)) (by simp [hPc, Pc.inLoop])
        (by simp [hPc]) ?_
      simp [setPc, Pc.inLoop]

/-- Every step until the call has returned and `c` goes on. -/
theorem Returning.step (h : Returning s c) (hDispatched : Dispatched s)
    (hElse : s.k.dosCurrentTask = some c → event.begins = false)
    (hStep : s.dispatch event = some r) : Returning r.1 c := by
  have hInterrupt (hEvent : event.interrupts = true) : Returning r.1 c := by
    obtain ⟨_, _, hReacts, hPc⟩ := reacts_interrupt hDispatched hEvent hStep
    by_cases hIn : (s.pc c).inLoop = true
    · exact h.locked hReacts hIn (Or.inl (by rw [hPc]; exact hIn))
    · by_cases hFault : s.pc c = .fault
      · refine ⟨hReacts.keeps.run.trans h.run, ?_, ?_⟩
        · intro hLoop
          rw [hPc] at hLoop
          exact absurd hLoop hIn
        · intro _ _ _ hNot
          rw [hPc] at hNot
          exact absurd hFault hNot
      · have hOut : (s.pc c).inLoop = false := by simpa using hIn
        exact h.reacts hDispatched.thread hReacts hOut hFault (by rw [hPc]; exact hOut)
  cases event with
  | create t prio tick =>
      have hOther : s.k.dosCurrentTask ≠ some c := fun hc => absurd (hElse hc)
        (by simp [SysEvent.begins])
      simp only [dispatch, Option.ite_none_right_eq_some] at hStep
      obtain ⟨_, hCurrent, hPc, hRun⟩ := dispatched_create hDispatched hStep.1 hStep.2
      exact h.away (hRun.trans h.run) hOther hCurrent (by rw [hPc])
  | start =>
      have hExec : s.exec .start = some r := hStep
      simp only [exec, kernelStep, Option.map_eq_some_iff, Option.ite_none_right_eq_some] at hExec
      obtain ⟨_, ⟨hStopped, _⟩, _⟩ := hExec
      exact absurd (hStopped.symm.trans h.run) (by simp)
  | switch t =>
      simp only [dispatch, Option.ite_none_right_eq_some, Option.some.injEq] at hStep
      rw [← hStep.2]
      exact h.switched hDispatched hStep.1.1
  | call a =>
      have hOther : s.k.dosCurrentTask ≠ some c := fun hc => absurd (hElse hc)
        (by simp [SysEvent.begins])
      simp only [dispatch, Option.ite_none_left_eq_some, Bool.not_eq_true] at hStep
      obtain ⟨d, hRun, hUser, rfl⟩ := call_some hStep.2
      obtain ⟨hKeeps, _⟩ := keeps_call hDispatched hRun hUser hStep.1 a
      refine h.away (hKeeps.run.trans h.run) hOther hKeeps.current ?_
      refine (pc_calls (calls_call a) c).resolve_right ?_
      rintro ⟨rfl, -⟩
      exact hOther hRun.2.1
  | next =>
      simp only [dispatch, Option.ite_none_left_eq_some, Bool.not_eq_true] at hStep
      obtain ⟨d, hRun, hResume⟩ := next_some hStep.2
      by_cases hd : d = c
      · subst hd
        exact h.next hDispatched hRun hStep.1 rfl (resumes_of_resume hResume)
      · obtain ⟨hKeeps, _⟩ := keeps_resume hDispatched hRun hStep.1 rfl (resumes_of_resume hResume)
        have hOther : s.k.dosCurrentTask ≠ some c := by
          rw [hRun.2.1]
          exact fun he => hd (Option.some.inj he)
        exact h.away (hKeeps.run.trans h.run) hOther hKeeps.current
          (pc_resumes (resumes_of_resume hResume) (Ne.symm hd))
  | _ => exact hInterrupt rfl

/-- The release of a mutex without waiters, to a priority that is as urgent. -/
theorem urgent_restorePriority {k : Kernel} {prio : Nat} (hUrgent : k.Urgent (k.priority c))
    (hPrio : prio ≤ k.priority c) :
    (k.restorePriority c prio).Urgent ((k.restorePriority c prio).priority c) := by
  have hOnly : OnlyTask c k (k.restorePriority c prio) := by
    unfold restorePriority
    split
    · exact onlyTask_setPriority k c prio
    · exact OnlyTask.refl
  intro t hLive hReady
  by_cases ht : t = c
  · rw [ht]
  · rw [hOnly.priority ht, priority_restore, if_pos rfl]
    have hOld := hUrgent t ((live_congr (hOnly.view ht)).mp hLive)
      ((hOnly.is ht .ready).symm.trans hReady)
    exact hPrio.trans hOld

/-- The first step of a call. -/
theorem returning_call (h : Dispatched s) (hRun : s.Running c) (hUser : s.pc c = .user)
    (hOpen : s.k.schedulerLock = 0) (hUrgent : s.k.Urgent (s.k.priority c)) {a : Call} (ha : a ≠ .lock)
    (hPlain : ReleasesPlainly s c a) : Returning (s.call c a).1 c := by
  have hBefore : Returning s c := by
    refine ⟨hRun.1, ?_, fun _ _ _ _ => ⟨hOpen, hUrgent⟩⟩
    intro hLoop
    simp [hUser, Pc.inLoop] at hLoop
  have hOut : ((s.call c a).1.pc c).inLoop = false := by
    rcases pc_calls (calls_call a) c with hSame | ⟨-, hEntry⟩
    · rw [hSame, hUser]
      rfl
    · generalize (s.call c a).1.pc c = pc at hEntry
      cases pc with
      | setLoop | setWake => cases hEntry
      | _ => rfl
  have hReacts (hr : Reacts s.k (s.call c a).1.k) : Returning (s.call c a).1 c :=
    hBefore.reacts h.thread hr (by rw [hUser]; rfl) (by simp [hUser]) hOut
  have hCall := reacts_call h hRun hUser (calls_call a)
  cases a with
  | lock => exact absurd rfl ha
  | unlock =>
      have hSame : s.k.dosSchedulerUnlock = s.k := by
        rw [dosSchedulerUnlock, if_neg (by omega)]
      exact hReacts (reacts_same h.ready hSame)
  | mutexPost m =>
      rcases hCall (by simp) (by simp) with hr | ⟨m', hFrees⟩
      · exact hReacts hr
      · obtain rfl : m = m' := Call.mutexPost.inj hFrees.call
        have hProcessor := hFrees.prepares.processor
        refine ⟨hFrees.prepares.keeps.run.trans hRun.1, ?_, ?_⟩
        · intro hLoop
          exact absurd (hOut.symm.trans hLoop) (by simp)
        · intro _ _ _ _
          refine ⟨(congrArg Processor.schedulerLock hProcessor).trans hOpen, ?_⟩
          rw [hFrees.kernel]
          exact urgent_restorePriority hUrgent (hPlain hFrees.owner hFrees.last hFrees.empty)
  | _ =>
      refine hReacts ((hCall (by simp) (by simp)).resolve_right ?_)
      rintro ⟨m, hFrees⟩
      cases hFrees.call

end Return

theorem dispatchStep_some {s' : System} (h : dispatchStep s event = some s') :
    ∃ r, s.dispatch event = some r ∧ r.1 = s' := by
  simpa only [dispatchStep, Option.map_eq_some_iff] using h

/-- A task is the most urgent one if the scheduler would find nothing better. -/
theorem Dispatched.urgent (h : Dispatched s)
    (hFound : s.k.priority c ≤ s.k.dosFindPriority.dosCurPriority) :
    s.k.Urgent (s.k.priority c) := fun _ hLive hReady =>
  hFound.trans (h.ready.readyLists.findPriority_le h.ready.word hLive hReady).1

theorem dispatched_run {cfg : Config} {idle : TaskId} {s₀ : System} {events : List SysEvent}
    (hMax : cfg.dosMaxPriorityNum ≤ 32) (hInit : s₀.Initial cfg idle)
    (run : Transition.Runs dispatchStep s₀ events s) : Dispatched s := by
  refine Transition.RunsIf.invariant run Dispatched (dispatched_init hMax hInit) ?_
  intro s event s' h _ hStep
  obtain ⟨r, hDispatch, rfl⟩ := dispatchStep_some hStep
  exact dispatched_step h hDispatch

end System

/-- Let the running task, with the scheduler open and no more urgent task
ready, make a call other than the lock. When it goes on behind the call,
whatever happened until then, again no ready task is more urgent, provided
that the call does not free an unwanted mutex while its owner is boosted. -/
theorem calls_leave_most_urgent_running (cfg : Config) (hMax : cfg.dosMaxPriorityNum ≤ 32)
    (idle : TaskId) (s₀ : System) (hInit : s₀.Initial cfg idle) (events : List SysEvent) (s : System)
    (run : Transition.Runs dispatchStep s₀ events s) (c : TaskId)
    (hCurrent : s.k.dosCurrentTask = some c) (hOpen : s.k.schedulerLock = 0)
    (hUrgent : s.k.Urgent (s.k.priority c)) (a : Call) (ha : a ≠ .lock)
    (hPlain : ReleasesPlainly s c a) (s₁ : System) (hCall : dispatchStep s (.call a) = some s₁)
    (later : List SysEvent) (s₂ : System)
    (run₂ : Transition.RunsIf dispatchStep
      (fun s event => s.k.dosCurrentTask = some c → event.begins = false) s₁ later s₂)
    (hBack : s₂.k.dosCurrentTask = some c) (hUser : s₂.pc c = .user)
    (hQuiet : s₂.k.yieldPending = false) :
    s₂.k.schedulerLock = 0 ∧ s₂.k.Urgent (s₂.k.priority c) := by
  have hDispatched := System.dispatched_run hMax hInit run
  obtain ⟨r, hStep, rfl⟩ := System.dispatchStep_some hCall
  have hDispatched₁ := System.dispatched_step hDispatched hStep
  simp only [System.dispatch, Option.ite_none_left_eq_some, Bool.not_eq_true] at hStep
  obtain ⟨d, hRun, hAt, rfl⟩ := System.call_some hStep.2
  obtain rfl : d = c := Option.some.inj (hRun.2.1.symm.trans hCurrent)
  have hInv : s₂.Dispatched ∧ s₂.Returning d := by
    refine run₂.invariant (fun s => s.Dispatched ∧ s.Returning d)
      ⟨hDispatched₁, System.returning_call hDispatched hRun hAt hOpen hUrgent ha hPlain⟩ ?_
    intro s event s' h hElse hNext
    obtain ⟨r, hDispatch, rfl⟩ := System.dispatchStep_some hNext
    exact ⟨System.dispatched_step h.1 hDispatch, h.2.step h.1 hElse hDispatch⟩
  exact hInv.2.urgent hBack hQuiet (by rw [hUser]; rfl) (by simp [hUser])

/-- A post wakes a more urgent task, and the poster goes on when that task
sleeps again. -/
theorem calls_leave_most_urgent_running_semPost : ∃ s s₁ s₂,
    Transition.Runs dispatchStep System.small
      [.create 1 10 5, .create 2 2 5, .start, .call (.semPend 0 100), .switch 1] s ∧
    dispatchStep s (.call (.semPost 0)) = some s₁ ∧ s₁.k.yieldPending = true ∧
    Transition.RunsIf dispatchStep
      (fun s event => s.k.dosCurrentTask = some 1 → event.begins = false) s₁
      [.switch 2, .next, .call (.sleep 5), .switch 1] s₂ ∧
    s₂.k.dosCurrentTask = some 1 ∧ s₂.k.Urgent (s₂.k.priority 1) := by
  let s := (Transition.exec dispatchStep System.small
    [.create 1 10 5, .create 2 2 5, .start, .call (.semPend 0 100), .switch 1]).get (by decide +kernel)
  let s₁ := (dispatchStep s (.call (.semPost 0))).get (by decide +kernel)
  have hRun : Transition.Runs dispatchStep System.small
      [.create 1 10 5, .create 2 2 5, .start, .call (.semPend 0 100), .switch 1] s :=
    Transition.runs_of_isSome (by decide +kernel)
  have hCall : dispatchStep s (.call (.semPost 0)) = some s₁ := (Option.some_get _).symm
  have hLater : Transition.RunsIf dispatchStep
      (fun s event => s.k.dosCurrentTask = some 1 → event.begins = false) s₁
      [.switch 2, .next, .call (.sleep 5), .switch 1] _ :=
    Transition.runsIf_of_isSome (by decide +kernel)
  have hUrgent := (System.dispatched_run (by decide) System.initial_small hRun).urgent (c := 1)
    (by decide +kernel)
  refine ⟨s, s₁, _, hRun, hCall, by decide +kernel, hLater, by decide +kernel, ?_⟩
  exact (calls_leave_most_urgent_running shippedConfig (by decide) 0 System.small
    System.initial_small _ s hRun 1 (by decide +kernel) (by decide +kernel) hUrgent (.semPost 0)
    (by decide) trivial s₁ hCall _ _ hLater (by decide +kernel) (by decide +kernel)
    (by decide +kernel)).2

/-- The waiter that boosted the owner of a mutex has given up, so the release
finds nobody to wake, and the owner goes on at its own priority although a
task between the two priorities is ready. -/
theorem release_keeps_processor : ∃ s s₁,
    Transition.Runs dispatchStep System.small
      [.create 1 10 1, .create 2 2 5, .create 3 5 5, .start, .call (.sleep 1), .switch 3,
        .call (.sleep 2), .switch 1, .call (.mutexPend 0 0), .tick, .switch 2,
        .call (.mutexPend 0 1), .switch 1, .tick, .switch 2, .next, .next, .call (.sleep 100),
        .switch 1] s ∧
    s.k.dosCurrentTask = some 1 ∧ s.k.schedulerLock = 0 ∧ s.k.Urgent (s.k.priority 1) ∧
    dispatchStep s (.call (.mutexPost 0)) = some s₁ ∧ s₁.k.dosCurrentTask = some 1 ∧
    s₁.pc 1 = .user ∧ s₁.k.yieldPending = false ∧
    s₁.k.Live 3 ∧ s₁.k.is 3 .ready = true ∧ s₁.k.priority 3 < s₁.k.priority 1 := by
  have hRun : Transition.Runs dispatchStep System.small
      [.create 1 10 1, .create 2 2 5, .create 3 5 5, .start, .call (.sleep 1), .switch 3,
        .call (.sleep 2), .switch 1, .call (.mutexPend 0 0), .tick, .switch 2,
        .call (.mutexPend 0 1), .switch 1, .tick, .switch 2, .next, .next, .call (.sleep 100),
        .switch 1] _ :=
    Transition.runs_of_isSome (by decide +kernel)
  have hUrgent := (System.dispatched_run (by decide) System.initial_small hRun).urgent (c := 1)
    (by decide +kernel)
  exact ⟨_, _, hRun, by decide +kernel, by decide +kernel, hUrgent,
    (Option.some_get (by decide +kernel)).symm, by decide +kernel, by decide +kernel,
    by decide +kernel, by decide +kernel, by decide +kernel, by decide +kernel⟩

end DoraOS
