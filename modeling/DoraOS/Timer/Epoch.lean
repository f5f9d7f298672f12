import DoraOS.Timer.TimerRun

/-! Wraps of the tick counter. A timer that is due behind the next wrap waits in
the overflow list, and the message of the wrap makes the timer task exchange the
lists. Until the task has handled that message the lists are those of the period
before. -/
namespace DoraOS

def SwtmrPc.isBlocked : SwtmrPc → Bool
  | .blocked _ _ => true
  | _ => false

/-- When the counter wraps, the task sleeps with nothing in its queue and has no
timer left in the first list, the queue has a place for the message, and the
test of the status through the null pointer lets it pass. -/
def WrapsSettled (s : Timers) : TimerEvent → Prop
  | .tick => (s.now + 1) % 2 ^ 32 ≠ 0 ∨
      s.pc.isBlocked = true ∧ s.msgs = [] ∧ s.writeCount ≠ 0 ∧ s.swtmrPtr = [] ∧
        s.nullUnused = false
  | _ => True

instance (s : Timers) (event : TimerEvent) : Decidable (WrapsSettled s event) := by
  cases event <;> unfold WrapsSettled <;> infer_instance

namespace Timers

variable {s s' s₁ : Timers} {t : SwtmrId} {event : TimerEvent}

/-- No exchange of the lists is due. -/
structure Settled (s : Timers) : Prop where
  epoch : InEpoch s
  commands : ∀ msg ∈ s.line, msg.swtmrOpt ≠ .overflow

/-- The counter has wrapped, and the message of that is the next one. -/
structure Switching (s : Timers) : Prop where
  next : ∃ rest, s.line = ⟨.overflow, none⟩ :: rest ∧ ∀ msg ∈ rest, msg.swtmrOpt ≠ .overflow
  atMessage : s.pc = .fetch ∨ s.pc.message.isSome = true
  empty : s.swtmrPtr = []
  overflow : ∀ t ∈ s.swtmrOverflowPtr, (s.swtmr t).due / 2 ^ 32 = s.now / 2 ^ 32
  null : s.nullUnused = false

/-- The invariant of runs that meet the condition at every wrap. -/
structure EpochOk (s : Timers) : Prop extends TimersOk s where
  copied : ∀ msg ∈ s.copying, msg.swtmrOpt ≠ .overflow
  phase : Settled s ∨ Switching s
  fired : ∀ t, s.pc = .callback t → (s.swtmr t).due ≤ s.now

/-- At any other point of its loop the task has no exchange before it. -/
theorem EpochOk.settled (h : EpochOk s) (hPc : s.pc ≠ .fetch) (hMessage : s.pc.message = none) :
    Settled s := by
  rcases h.phase with hSettled | hSwitching
  · exact hSettled
  · rcases hSwitching.atMessage with hFetch | hSome
    · exact absurd hFetch hPc
    · simp [hMessage] at hSome

/-- The line may grow at its end; the timers and the period stay. -/
structure Extends (s s' : Timers) : Prop extends SameTimers s s' where
  line : ∃ more, s'.line = s.line ++ more ∧ ∀ msg ∈ more, msg.swtmrOpt ≠ .overflow
  epoch : s'.now / 2 ^ 32 = s.now / 2 ^ 32

theorem Settled.extend (h : Settled s) (hExtends : Extends s s') : Settled s' := by
  obtain ⟨⟨hSwtmr, -, hPtr, hOverflow, -⟩, ⟨more, hLine, hMore⟩, hEpoch⟩ := hExtends
  refine ⟨⟨?_, ?_⟩, ?_⟩
  · rw [hSwtmr, hPtr, hEpoch]
    exact h.epoch.ptr
  · rw [hSwtmr, hOverflow, hEpoch]
    exact h.epoch.overflow
  · intro msg hMsg
    rw [hLine] at hMsg
    exact (List.mem_append.mp hMsg).elim (h.commands msg) (hMore msg)

theorem Switching.extend (h : Switching s) (hExtends : Extends s s')
    (hAt : s'.pc = .fetch ∨ s'.pc.message.isSome = true) : Switching s' := by
  obtain ⟨⟨hSwtmr, -, hPtr, hOverflow, hNull⟩, ⟨more, hLine, hMore⟩, hEpoch⟩ := hExtends
  obtain ⟨rest, hOld, hRest⟩ := h.next
  refine ⟨⟨rest ++ more, by rw [hLine, hOld]; rfl, ?_⟩, hAt, ?_, ?_, ?_⟩
  · intro msg hMsg
    exact (List.mem_append.mp hMsg).elim (hRest msg) (hMore msg)
  · rw [hPtr]
    exact h.empty
  · rw [hSwtmr, hOverflow, hEpoch]
    exact h.overflow
  · rw [hNull]
    exact h.null

/-- The exchange puts the timers of the new period into the first list. -/
theorem Switching.handle (h : Switching s) {msg : SwtmrMsg} (hPc : s.pc = .handle msg) :
    Settled { s.dosSwtmrCmdHandle msg with pc := .top } := by
  obtain ⟨rest, hLine, hRest⟩ := h.next
  rw [line, hPc] at hLine
  obtain ⟨hMsg, hMsgs⟩ := List.cons_eq_cons.mp hLine
  have hSwitch : s.dosSwtmrCmdHandle msg = s.dosSwtmrSwitchPtr := by
    rw [hMsg]
    simp [dosSwtmrCmdHandle, h.null]
  rw [hSwitch]
  refine ⟨⟨h.overflow, ?_⟩, ?_⟩
  · simp [dosSwtmrSwitchPtr, h.empty]
  · intro m hMem
    exact hRest m (hMsgs ▸ hMem)

namespace EpochOk

/-- Steps of others in the same period. -/
theorem outside (h : EpochOk s) (hOutside : Outside s s') (hExtends : Extends s s')
    (hNow : s.now ≤ s'.now) (hCopied : ∀ msg ∈ s'.copying, msg.swtmrOpt ≠ .overflow) :
    EpochOk s' where
  toTimersOk := h.toTimersOk.outside hOutside hNow
  copied := hCopied
  phase := by
    refine h.phase.imp (fun hSettled => hSettled.extend hExtends) fun hSwitching => ?_
    refine hSwitching.extend hExtends (hSwitching.atMessage.imp hOutside.pc.eq_fetch ?_)
    rw [hOutside.pc.message]
    exact id
  fired t hPc := by
    rw [hOutside.swtmr]
    exact (h.fired t (hOutside.pc.of_callback hPc)).trans hNow

theorem create (h : EpochOk s) {timeout mode : Nat} (hFree : s.alloc t = false)
    (hTimeout : 0 < timeout ∧ timeout < 2 ^ 32) : EpochOk (s.dosSwtmrCreate t timeout mode) := by
  have hOld : ∀ x, (s.swtmr x).swtmrStatus = .running →
      (s.dosSwtmrCreate t timeout mode).swtmr x = s.swtmr x :=
    fun x => h.create_running timeout mode hFree
  refine ⟨h.toTimersOk.create hFree hTimeout, h.copied, ?_, ?_⟩
  · refine h.phase.imp (fun hSettled => ?_) fun hSwitching => ?_
    · refine ⟨⟨?_, ?_⟩, hSettled.commands⟩
      · intro x hx
        rw [hOld x (h.running_ptr hx)]
        exact hSettled.epoch.ptr x hx
      · intro x hx
        rw [hOld x (h.running_overflow hx)]
        exact hSettled.epoch.overflow x hx
    · refine ⟨hSwitching.next, hSwitching.atMessage, hSwitching.empty, ?_, hSwitching.null⟩
      intro x hx
      rw [hOld x (h.running_overflow hx)]
      exact hSwitching.overflow x hx
  · intro x hPc
    rw [hOld x (h.callback_first hPc).2.2]
    exact h.fired x hPc

theorem api (h : EpochOk s) (t : SwtmrId) {op : SwtmrOption} (hOp : op ≠ .overflow) :
    EpochOk (s.dosSwtmrMakeMsg ⟨op, some t⟩) := by
  obtain ⟨hOutside, hNow, hMsgs, hCopying⟩ := dosSwtmrMakeMsg_sends s ⟨op, some t⟩
  refine h.outside hOutside ⟨hOutside.toSameTimers, ⟨[], ?_, by simp⟩, by rw [hNow]⟩ hNow.ge ?_
  · rw [line, hOutside.pc.message, hMsgs, List.append_nil, line]
  · intro msg hMem
    rcases hCopying with hSame | hNew
    · rw [hSame] at hMem
      exact h.copied msg hMem
    · rw [hNew, List.mem_append, List.mem_singleton] at hMem
      rcases hMem with hOld | rfl
      · exact h.copied msg hOld
      · exact hOp

theorem writer (h : EpochOk s) {i : Nat} (hStep : s.writerStep i = some s') : EpochOk s' := by
  obtain ⟨hOutside, hNow, hSends⟩ := writerStep_sends hStep
  rcases hSends with ⟨hMsgs, hCopying⟩ | ⟨before, after, msg, hMsgs, hOld, hCopying⟩
  · refine h.outside hOutside ⟨hOutside.toSameTimers, ⟨[], ?_, by simp⟩, by rw [hNow]⟩ hNow.ge ?_
    · rw [line, hOutside.pc.message, hMsgs, List.append_nil, line]
    · rw [hCopying]
      exact h.copied
  · have hCopied := h.copied
    rw [hOld] at hCopied
    refine h.outside hOutside ⟨hOutside.toSameTimers, ⟨[msg], ?_, ?_⟩, by rw [hNow]⟩ hNow.ge ?_
    · rw [line, hOutside.pc.message, hMsgs, line, List.append_assoc]
    · intro m hMem
      rw [List.mem_singleton.mp hMem]
      exact hCopied msg (by simp)
    · rw [hCopying]
      intro m hMem
      refine hCopied m ?_
      simp only [List.mem_append, List.mem_cons] at hMem ⊢
      tauto

/-- At a wrap the timers of the overflow list become those of the new period. -/
theorem wrap (h : EpochOk s) (hWrap : (s.now + 1) % 2 ^ 32 = 0) (hBlocked : s.pc.isBlocked = true)
    (hMsgs : s.msgs = []) (hPlace : s.writeCount ≠ 0) (hPtr : s.swtmrPtr = [])
    (hNull : s.nullUnused = false) : EpochOk s.dosTickUpdate := by
  obtain ⟨wake, deadline, hPc⟩ : ∃ wake deadline, s.pc = .blocked wake deadline := by
    cases hPc : s.pc with
    | blocked wake deadline => exact ⟨wake, deadline, rfl⟩
    | _ => simp [hPc, SwtmrPc.isBlocked] at hBlocked
  have hSettled := h.settled (by simp [hPc]) (by rw [hPc]; rfl)
  have hOutside := dosTickUpdate_outside s
  have hNow := dosTickUpdate_now s
  obtain ⟨readCount, hEq⟩ := dosTickUpdate_notice hWrap hPlace
  have hPc' : s.dosTickUpdate.pc = .fetch := by
    rw [hEq, hPc]
    rfl
  refine ⟨h.toTimersOk.outside hOutside (by omega), ?_, Or.inr
    ⟨⟨[], ?_, by simp⟩, Or.inl hPc', ?_, ?_, ?_⟩, ?_⟩
  · rw [hEq]
    exact h.copied
  · rw [line, hPc', hEq, hMsgs]
    rfl
  · rw [hOutside.swtmrPtr]
    exact hPtr
  · intro t ht
    rw [hOutside.swtmrOverflowPtr] at ht
    rw [hOutside.swtmr, hNow, hSettled.epoch.overflow t ht]
    omega
  · rw [hOutside.nullUnused]
    exact hNull
  · intro t hCallback
    rw [hPc'] at hCallback
    cases hCallback

theorem tick (h : EpochOk s) (hOk : WrapsSettled s .tick) : EpochOk s.dosTickUpdate := by
  by_cases hWrap : (s.now + 1) % 2 ^ 32 = 0
  · obtain ⟨hBlocked, hMsgs, hPlace, hPtr, hNull⟩ := hOk.resolve_left (not_not_intro hWrap)
    exact h.wrap hWrap hBlocked hMsgs hPlace hPtr hNull
  · obtain ⟨p, hEq, hPc⟩ := dosTickUpdate_quiet (s := s) (Or.inl hWrap)
    have hOutside := dosTickUpdate_outside s
    have hNow := dosTickUpdate_now s
    refine h.outside hOutside ⟨hOutside.toSameTimers, ⟨[], ?_, by simp⟩, ?_⟩ (by omega) ?_
    · rw [line, hOutside.pc.message, hEq, List.append_nil, line]
    · rw [hNow]
      omega
    · rw [hEq]
      exact h.copied

/-- A timer of the first list whose wake time has come is due. -/
theorem due_of_wakeTime (h : EpochOk s) (hSettled : Settled s) (ht : t ∈ s.swtmrPtr)
    (hWake : s.wakeTime t ≤ s.dosGetTick) : (s.swtmr t).due ≤ s.now := by
  have hEpoch := hSettled.epoch.ptr t ht
  rw [h.wake t (h.running_ptr ht), dosGetTick] at hWake
  omega

/-- A step of the task that leaves the timers and the line alone. -/
theorem move (h : EpochOk s) (hStep : TaskStep s s') (hExtends : Extends s s')
    (hNow : s'.now = s.now) (hCopying : s'.copying = s.copying)
    (hAt : s.pc.message.isSome = true ∨ s.pc = .fetch → s'.pc.message.isSome = true) :
    EpochOk s' where
  toTimersOk := h.toTimersOk.task hStep
  copied := hCopying ▸ h.copied
  phase := by
    refine h.phase.imp (fun hSettled => hSettled.extend hExtends) fun hSwitching => ?_
    exact hSwitching.extend hExtends (Or.inr (hAt hSwitching.atMessage.symm))
  fired t hPc := by
    obtain ⟨hOld, hWake⟩ := hStep.to_callback hPc
    have hSettled := h.settled (by simp [hOld]) (by rw [hOld]; rfl)
    have hMem : t ∈ s.swtmrPtr := List.mem_of_mem_head? (h.focus (some t) (by rw [hOld]; rfl)).symm
    rw [hExtends.swtmr, hNow]
    exact h.due_of_wakeTime hSettled hMem hWake

/-- A step of the task that edits the lists of a settled state. -/
theorem edit (h : EpochOk s) (hSettled : Settled s) (hStep : TaskStep s s') (hEdited : Edited s s₁)
    (hSame : SameTimers s₁ s') (hNow : s'.now = s₁.now) (hMsgs : s'.msgs = s₁.msgs)
    (hWriters : s'.writers = s₁.writers) (hMessage : s'.pc.message = none)
    (hFired : ∀ t, s'.pc ≠ .callback t) : EpochOk s' := by
  have hQueue := hEdited.sameQueue
  have hEpoch := hSettled.epoch.edited hEdited h.toListsOk
  refine ⟨h.toTimersOk.task hStep, ?_, Or.inl ⟨⟨?_, ?_⟩, ?_⟩, fun t hPc => absurd hPc (hFired t)⟩
  · rw [copying, hWriters, hQueue.writers]
    exact h.copied
  · rw [hSame.swtmr, hSame.swtmrPtr, hNow]
    exact hEpoch.ptr
  · rw [hSame.swtmr, hSame.swtmrOverflowPtr, hNow]
    exact hEpoch.overflow
  · intro msg hMem
    rw [line, hMessage, hMsgs, hQueue.msgs] at hMem
    exact hSettled.commands msg (List.mem_append_right _ hMem)

theorem task (h : EpochOk s) (hStep : TaskStep s s') : EpochOk s' := by
  rcases hStep.kind with hWalks | ⟨msg, rest, hPc, hMsgs, rfl⟩ | ⟨msg, hPc, rfl⟩ | ⟨msg, hPc, rfl⟩ |
    ⟨t, hPc, rfl⟩
  · refine h.move hStep ⟨hWalks.toSameTimers, ⟨[], ?_, by simp⟩, by rw [hWalks.now]⟩ hWalks.now ?_ ?_
    · rw [line, hWalks.message, hWalks.msgs, List.append_nil, line, hWalks.idle]
    · rw [copying, hWalks.writers, copying]
    · simp [hWalks.idle, hWalks.away]
  · refine h.move hStep ⟨⟨rfl, rfl, rfl, rfl, rfl⟩, ⟨[], ?_, by simp⟩, rfl⟩ rfl rfl fun _ => rfl
    simp [line, hPc, hMsgs, SwtmrPc.message]
  · refine h.move hStep ⟨⟨rfl, rfl, rfl, rfl, rfl⟩, ⟨[], ?_, by simp⟩, rfl⟩ rfl rfl fun _ => rfl
    simp [line, hPc, SwtmrPc.message]
  · rcases h.phase with hSettled | hSwitching
    · have hCommand : msg.swtmrOpt ≠ .overflow := by
        refine hSettled.commands msg (List.mem_append_left _ ?_)
        simp [hPc, SwtmrPc.message]
      rcases dosSwtmrCmdHandle_cases s msg with hEdited | ⟨hOverflow, -⟩
      · exact h.edit hSettled hStep hEdited ⟨rfl, rfl, rfl, rfl, rfl⟩ rfl rfl rfl rfl
          (fun t => by simp)
      · exact absurd hOverflow hCommand
    · refine ⟨h.toTimersOk.task hStep, ?_, Or.inl (hSwitching.handle hPc),
        fun t hCall => by cases hCall⟩
      simp only [copying, (sameQueue_dosSwtmrCmdHandle s msg).writers]
      exact h.copied
  · have hSettled := h.settled (by simp [hPc]) (by rw [hPc]; rfl)
    have hEdited := edited_dosSwtmrTimeoutHandle (h.callback_first hPc).2.2
    exact h.edit hSettled hStep hEdited ⟨rfl, rfl, rfl, rfl, rfl⟩ rfl rfl rfl rfl
      (fun t => by simp)

theorem step (h : EpochOk s) (hOk : WrapsSettled s event) (hStep : timerStep s event = some s') :
    EpochOk s' := by
  cases event with
  | create t timeout mode =>
      obtain ⟨⟨hFree, hPos, hLt, -⟩, hEq⟩ := Option.ite_none_right_eq_some.mp hStep
      rw [← Option.some.inj hEq]
      exact h.create hFree ⟨hPos, hLt⟩
  | api op t =>
      obtain ⟨⟨-, hOp⟩, hEq⟩ := Option.ite_none_right_eq_some.mp hStep
      rw [← Option.some.inj hEq]
      exact h.api t hOp
  | writer i => exact h.writer hStep
  | tick =>
      rw [← Option.some.inj hStep]
      exact h.tick hOk
  | task => exact h.task (taskStep_of_some hStep)

theorem init (len : Nat) (nullUnused : Bool) : EpochOk (dosSwtmrInit len nullUnused) where
  toTimersOk := TimersOk.init len nullUnused
  copied := by simp [copying, dosSwtmrInit]
  phase := by
    refine Or.inl ⟨⟨?_, ?_⟩, ?_⟩ <;> simp [line, dosSwtmrInit, SwtmrPc.message]
  fired := by simp [dosSwtmrInit]

end EpochOk

end Timers

/-- When the timer task is about to compute its waiting time, the running timers
that are due before the next wrap of the counter are in the first list and those
that are due behind it in the overflow list. A callback runs when its timer is
due, and less than a whole period late. -/
theorem timers_in_their_epoch {len : Nat} {nullUnused : Bool} {events : List TimerEvent}
    {s : Timers}
    (run : Transition.RunsIf timerStep WrapsSettled (Timers.dosSwtmrInit len nullUnused) events s) :
    (s.pc = .top → ∀ t, (s.swtmr t).swtmrStatus = .running →
      ((s.swtmr t).due < (s.now / 2 ^ 32 + 1) * 2 ^ 32 → t ∈ s.swtmrPtr) ∧
        ((s.now / 2 ^ 32 + 1) * 2 ^ 32 ≤ (s.swtmr t).due → t ∈ s.swtmrOverflowPtr)) ∧
      ∀ t, s.pc = .callback t → (s.swtmr t).due ≤ s.now ∧ s.now < (s.swtmr t).due + 2 ^ 32 := by
  have hOk : s.EpochOk := by
    refine run.invariant Timers.EpochOk (Timers.EpochOk.init len nullUnused) ?_
    intro s event s' h hWraps hStep
    exact h.step hWraps hStep
  refine ⟨?_, ?_⟩
  · intro hPc t hRunning
    have hSettled := hOk.settled (by simp [hPc]) (by rw [hPc]; rfl)
    rcases List.mem_append.mp ((hOk.listed t).mp hRunning) with hPtr | hOverflow
    · have hEpoch := hSettled.epoch.ptr t hPtr
      exact ⟨fun _ => hPtr, fun hDue => by omega⟩
    · have hEpoch := hSettled.epoch.overflow t hOverflow
      exact ⟨fun hDue => by omega, fun _ => hOverflow⟩
  · intro t hPc
    have hSettled := hOk.settled (by simp [hPc]) (by rw [hPc]; rfl)
    have hEpoch := hSettled.epoch.ptr t (hOk.callback_first hPc).2.1
    have hFired := hOk.fired t hPc
    omega

section Asleep

variable {s : Timers} {wake : Option SwtmrId} {ok : Timers → TimerEvent → Prop}

/-- A task that waits forever sleeps through a tick without a wrap. -/
theorem dosTickUpdate_asleep (hPc : s.pc = .blocked wake none) (hWrap : (s.now + 1) % 2 ^ 32 ≠ 0) :
    s.dosTickUpdate = { s with now := s.now + 1 } := by
  have hTick : ({ s with now := s.now + 1 } : Timers).dosGetTick ≠ 0 := hWrap
  unfold Timers.dosTickUpdate
  simp only [if_neg hTick]
  simp only [hPc]

/-- It sleeps up to any tick before the first wrap. -/
theorem runs_asleep (hOk : ∀ s : Timers, (s.now + 1) % 2 ^ 32 ≠ 0 → ok s .tick)
    (hPc : s.pc = .blocked wake none) (n : Nat) (hLt : s.now + n < 2 ^ 32) :
    Transition.RunsIf timerStep ok s (List.replicate n .tick) { s with now := s.now + n } := by
  induction n with
  | zero => exact Transition.RunsIf.nil
  | succ n ih =>
      have hWrap : (s.now + n + 1) % 2 ^ 32 ≠ 0 := by omega
      rw [List.replicate_succ']
      refine Transition.RunsIf.snoc (ih (by omega)) (hOk _ hWrap) ?_
      exact congrArg some (dosTickUpdate_asleep hPc hWrap)

end Asleep

/-- A timer of 10 ticks that is started three ticks before the wrap is in the
first list when the task has exchanged the lists. -/
theorem timers_in_their_epoch_wrap : ∃ s : Timers, s.pc = .top ∧ s.now = 2 ^ 32 ∧
    (s.swtmr 1).due = 2 ^ 32 + 7 ∧ 1 ∈ s.swtmrPtr := by
  let start := Timers.dosSwtmrInit 4 false
  let s := (Transition.execIf timerStep WrapsSettled start [.create 1 10 1, .task, .task]).get
    (by decide +kernel)
  let later : Timers := { s with now := s.now + 4294967293 }
  let events : List TimerEvent := [.api .start 1, .writer 0, .writer 0, .writer 0, .task, .task,
    .task, .task, .task, .tick, .tick, .tick, .task, .task, .task]
  let s' := (Transition.execIf timerStep WrapsSettled later events).get (by decide +kernel)
  have hFirst : Transition.RunsIf timerStep WrapsSettled start _ s :=
    Transition.runsIf_of_isSome _
  have hAsleep : Transition.RunsIf timerStep WrapsSettled s (List.replicate 4294967293 .tick) later :=
    runs_asleep (fun _ hWrap => Or.inl hWrap) (by decide +kernel : s.pc = .blocked none none) _
      (by decide +kernel)
  have hLast : Transition.RunsIf timerStep WrapsSettled later events s' :=
    Transition.runsIf_of_isSome _
  have hPc : s'.pc = .top := by decide +kernel
  have hEpoch := (timers_in_their_epoch ((hFirst.trans hAsleep).trans hLast)).1 hPc 1
    (by decide +kernel)
  exact ⟨s', hPc, by decide +kernel, by decide +kernel, hEpoch.1 (by decide +kernel)⟩

/-- The command to start a timer of 5 ticks is in the queue when the counter
wraps. The task handles it before the message of the wrap, whose exchange then
moves the timer to the overflow list, a whole period too late. -/
theorem timer_in_wrong_epoch : ∃ events s,
    Transition.Runs timerStep (Timers.dosSwtmrInit 4 false) events s ∧ s.pc = .top ∧
      s.now = 2 ^ 32 ∧ (s.swtmr 1).swtmrStatus = .running ∧ (s.swtmr 1).due = 2 ^ 32 + 5 ∧
      s.swtmrPtr = [] ∧ s.swtmrOverflowPtr = [1] := by
  let start := Timers.dosSwtmrInit 4 false
  let s := (Transition.exec timerStep start [.create 1 5 1, .task, .task]).get (by decide +kernel)
  let later : Timers := { s with now := s.now + 4294967295 }
  let events : List TimerEvent := [.api .start 1, .writer 0, .writer 0, .writer 0, .tick, .task,
    .task, .task, .task, .task, .task, .task, .task]
  let s' := (Transition.exec timerStep later events).get (by decide +kernel)
  have hFirst : Transition.Runs timerStep start _ s := Transition.runs_of_isSome _
  have hAsleep : Transition.Runs timerStep s (List.replicate 4294967295 .tick) later :=
    runs_asleep (fun _ _ => trivial) (by decide +kernel : s.pc = .blocked none none) _
      (by decide +kernel)
  have hLast : Transition.Runs timerStep later events s' := Transition.runs_of_isSome _
  have hRun := (hFirst.trans hAsleep).trans hLast
  exact ⟨_, s', hRun, by decide +kernel, by decide +kernel, by decide +kernel, by decide +kernel,
    by decide +kernel, by decide +kernel⟩

end DoraOS
