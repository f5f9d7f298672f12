import DoraOS.Timer.TimerRun

/-! How long the timer task sleeps. The waiting time is an unsigned difference,
so it is right only if the first timer is not overdue when the task computes
it. -/
namespace DoraOS

/-- The task is on its way through the expiry loop. -/
def SwtmrPc.expiring : SwtmrPc → Bool
  | .timedOut _ _ => true
  | .expire _ => true
  | .callback _ => true
  | _ => false

theorem SwtmrPc.Disturbed.expiring {p p' : SwtmrPc} (h : p.Disturbed p')
    (hNot : p'.expiring = false) : p.expiring = false := by
  cases h with
  | same => exact hNot
  | woken wake deadline => rfl
  | unlinked wake linked => cases hNot
  | elapsed wake deadline => rfl

/-- No tick passes over the wake time of the first timer while the task is not
in the expiry loop, and the counter does not wrap. No timer has the timeout
that stands for waiting forever. -/
def NoticedInTime (s : Timers) : TimerEvent → Prop
  | .create _ timeout _ => timeout ≠ dosWaitForever
  | .tick => s.now + 1 < 2 ^ 32 ∧
      (s.pc.expiring = true ∨ s.dosGetTick < s.wakeTimeOf s.dosGetSwtmr)
  | _ => True

instance (s : Timers) : (event : TimerEvent) → Decidable (NoticedInTime s event)
  | .create _ timeout _ => inferInstanceAs (Decidable (timeout ≠ dosWaitForever))
  | .tick => inferInstanceAs (Decidable (_ ∧ _))
  | .api _ _ | .writer _ | .task => inferInstanceAs (Decidable True)

namespace Timers

variable {s s' : Timers} {t : SwtmrId} {event : TimerEvent}

/-- The waiting time that the task has computed fits the first timer. -/
def WaitFits (s : Timers) : SwtmrPc → Prop
  | .read none _ wait => wait = dosWaitForever
  | .read (some t) cur wait => cur ≤ s.wakeTime t ∧ wait = s.wakeTime t - cur ∧ wait < dosWaitForever
  | _ => True

/-- Before the first wrap: the lists are those of the first period, and outside
the expiry loop no timer is overdue. -/
structure Punctual (s : Timers) : Prop extends TimersOk s where
  early : s.now < 2 ^ 32
  epoch : InEpoch s
  timeouts : ∀ t, (s.swtmr t).swtmrStatus ≠ .unused → (s.swtmr t).swtmrTimeout < dosWaitForever
  onTime : s.pc.expiring = false → ∀ t ∈ s.swtmrPtr, s.now ≤ (s.swtmr t).due
  waits : s.WaitFits s.pc
  commands : ∀ msg ∈ s.inFlight, msg.swtmrOpt ≠ .overflow

theorem WaitFits.congr {p : SwtmrPc} (h : s.WaitFits p) (hFocus : ∀ t, p.focus = some (some t) →
    s'.wakeTime t = s.wakeTime t) : s'.WaitFits p := by
  cases p with
  | read wake cur wait =>
      cases wake with
      | none => exact h
      | some t =>
          simp only [WaitFits] at h ⊢
          rw [hFocus t rfl]
          exact h
  | _ => trivial

theorem WaitFits.disturbed {p p' : SwtmrPc} (h : s.WaitFits p) (hPc : p.Disturbed p') :
    s.WaitFits p' := by
  cases hPc with
  | same => exact h
  | _ => trivial

namespace Punctual

/-- In the first period wake times and due times are the same. -/
theorem wakeTime_eq (h : Punctual s) (ht : t ∈ s.swtmrPtr) : s.wakeTime t = (s.swtmr t).due := by
  have hWake := h.wake t (h.running_ptr ht)
  have hEpoch := h.epoch.ptr t ht
  have hEarly := h.early
  omega

theorem tick_eq (h : Punctual s) : s.dosGetTick = s.now := Nat.mod_eq_of_lt h.early

/-- If the first timer is not due yet, none of its list is. -/
theorem later (h : Punctual s) (hHead : s.dosGetTick < s.wakeTimeOf s.dosGetSwtmr)
    (ht : t ∈ s.swtmrPtr) : s.now < (s.swtmr t).due := by
  rw [h.tick_eq] at hHead
  cases hFirst : s.swtmrPtr.head? with
  | none =>
      rw [List.head?_eq_none_iff.mp hFirst] at ht
      cases ht
  | some x =>
      rw [dosGetSwtmr, hFirst] at hHead
      have hLe := h.head_le hFirst ht
      rw [h.wakeTime_eq ht] at hLe
      exact Nat.lt_of_lt_of_le hHead hLe

/-- The waiting time is computed when no timer is overdue. -/
theorem sample (h : Punctual s) (hPc : s.pc = .top) :
    s.WaitFits (.read s.dosGetSwtmr s.dosGetTick (s.waitTime s.dosGetSwtmr s.dosGetTick)) := by
  have hEarly := h.early
  rw [h.tick_eq]
  cases hFirst : s.swtmrPtr.head? with
  | none =>
      rw [dosGetSwtmr, hFirst]
      exact rfl
  | some t =>
      have hMem : t ∈ s.swtmrPtr := List.mem_of_mem_head? hFirst
      have hRunning := h.running_ptr hMem
      have hNow := h.onTime (by rw [hPc]; rfl) t hMem
      have hDue := h.due t hRunning
      have hTimeout := h.timeouts t (by simp [hRunning])
      have hMax := h.wakeTime_le hRunning
      rw [← h.wakeTime_eq hMem] at hNow hDue
      rw [dosGetSwtmr, hFirst]
      have hWait : s.waitTime (some t) s.now = s.wakeTime t - s.now := by
        change (s.wakeTime t + (2 ^ 32 - s.now)) % 2 ^ 32 = s.wakeTime t - s.now
        omega
      refine ⟨hNow, hWait, ?_⟩
      rw [hWait]
      omega

/-- Steps of others at the same tick. -/
theorem outside (h : Punctual s) (hOutside : Outside s s') (hNow : s'.now = s.now)
    (hFlight : ∀ msg ∈ s'.inFlight, msg.swtmrOpt ≠ .overflow) : Punctual s' where
  toTimersOk := h.toTimersOk.outside hOutside hNow.ge
  early := hNow ▸ h.early
  epoch := by
    refine ⟨?_, ?_⟩
    · rw [hOutside.swtmr, hOutside.swtmrPtr, hNow]
      exact h.epoch.ptr
    · rw [hOutside.swtmr, hOutside.swtmrOverflowPtr, hNow]
      exact h.epoch.overflow
  timeouts := by
    rw [hOutside.swtmr]
    exact h.timeouts
  onTime hNot := by
    rw [hOutside.swtmr, hOutside.swtmrPtr, hNow]
    exact h.onTime (hOutside.pc.expiring hNot)
  waits := by
    refine (h.waits.disturbed hOutside.pc).congr fun t _ => ?_
    rw [wakeTime, hOutside.swtmr, wakeTime]
  commands := hFlight

theorem tick (h : Punctual s) (hOk : NoticedInTime s .tick) : Punctual s.dosTickUpdate := by
  obtain ⟨hEarly, hTime⟩ := hOk
  have hOutside := dosTickUpdate_outside s
  have hNow := dosTickUpdate_now s
  have hEpoch : (s.now + 1) / 2 ^ 32 = s.now / 2 ^ 32 := by omega
  refine ⟨h.toTimersOk.outside hOutside (by omega), by omega, ⟨?_, ?_⟩, ?_, ?_, ?_, ?_⟩
  · rw [hOutside.swtmr, hOutside.swtmrPtr, hNow, hEpoch]
    exact h.epoch.ptr
  · rw [hOutside.swtmr, hOutside.swtmrOverflowPtr, hNow, hEpoch]
    exact h.epoch.overflow
  · rw [hOutside.swtmr]
    exact h.timeouts
  · intro hNot t ht
    have hPc := hOutside.pc.expiring hNot
    rw [hOutside.swtmrPtr] at ht
    rw [hOutside.swtmr, hNow]
    exact h.later (hTime.resolve_left (by simp [hPc])) ht
  · refine (h.waits.disturbed hOutside.pc).congr fun t _ => ?_
    rw [wakeTime, hOutside.swtmr, wakeTime]
  · rw [inFlight_tick (Or.inl (by omega))]
    exact h.commands

theorem create (h : Punctual s) {timeout mode : Nat} (hFree : s.alloc t = false)
    (hTimeout : 0 < timeout ∧ timeout < 2 ^ 32) (hWait : timeout ≠ dosWaitForever) :
    Punctual (s.dosSwtmrCreate t timeout mode) := by
  have hOld : ∀ x, (s.swtmr x).swtmrStatus = .running →
      (s.dosSwtmrCreate t timeout mode).swtmr x = s.swtmr x :=
    fun x => h.create_running timeout mode hFree
  refine ⟨h.toTimersOk.create hFree hTimeout, h.early, ⟨?_, ?_⟩, ?_, ?_, ?_, h.commands⟩
  · intro x hx
    rw [hOld x (h.running_ptr hx)]
    exact h.epoch.ptr x hx
  · intro x hx
    rw [hOld x (h.running_overflow hx)]
    exact h.epoch.overflow x hx
  · intro x hx
    by_cases hEq : x = t
    · subst hEq
      have hForever : timeout < dosWaitForever := by
        unfold dosWaitForever at hWait ⊢
        omega
      simpa [dosSwtmrCreate] using hForever
    · have hSame : (s.dosSwtmrCreate t timeout mode).swtmr x = s.swtmr x := setSwtmr_ne _ hEq
      rw [hSame] at hx ⊢
      exact h.timeouts x hx
  · intro hNot x hx
    rw [hOld x (h.running_ptr hx)]
    exact h.onTime hNot x hx
  · refine h.waits.congr fun x hx => ?_
    have hMem : x ∈ s.swtmrPtr := List.mem_of_mem_head? (h.focus _ hx).symm
    rw [wakeTime, hOld x (h.running_ptr hMem), wakeTime]

/-- A step of the task that leaves the timers alone. -/
theorem move (h : Punctual s) (hStep : TaskStep s s') (hSame : SameTimers s s')
    (hNow : s'.now = s.now)
    (hTime : s'.pc.expiring = false → ∀ t ∈ s.swtmrPtr, s.now ≤ (s.swtmr t).due)
    (hWaits : s.WaitFits s'.pc) : Punctual s' where
  toTimersOk := h.toTimersOk.task hStep
  early := hNow ▸ h.early
  epoch := by
    refine ⟨?_, ?_⟩
    · rw [hSame.swtmr, hSame.swtmrPtr, hNow]
      exact h.epoch.ptr
    · rw [hSame.swtmr, hSame.swtmrOverflowPtr, hNow]
      exact h.epoch.overflow
  timeouts := by
    rw [hSame.swtmr]
    exact h.timeouts
  onTime := by
    rw [hSame.swtmr, hSame.swtmrPtr, hNow]
    exact hTime
  waits := by
    refine hWaits.congr fun t _ => ?_
    rw [wakeTime, hSame.swtmr, wakeTime]
  commands msg hMem := h.commands msg (inFlight_task hStep hMem)

/-- A step of the task that edits the lists. -/
theorem edit (h : Punctual s) {s₁ : Timers} (hStep : TaskStep s s') (hEdited : Edited s s₁)
    (hSame : SameTimers s₁ s') (hNow : s'.now = s₁.now)
    (hTime : s'.pc.expiring = false → s.pc.expiring = false)
    (hWaits : s'.WaitFits s'.pc) : Punctual s' := by
  have hOrigin := hEdited.origin h.toListsOk
  have hEpoch := h.epoch.edited hEdited h.toListsOk
  have hNow₁ : s'.now = s.now := hNow.trans hEdited.sameQueue.now
  refine ⟨h.toTimersOk.task hStep, hNow₁ ▸ h.early, ⟨?_, ?_⟩, ?_, ?_, hWaits, ?_⟩
  · rw [hSame.swtmr, hSame.swtmrPtr, hNow]
    exact hEpoch.ptr
  · rw [hSame.swtmr, hSame.swtmrOverflowPtr, hNow]
    exact hEpoch.overflow
  · intro t ht
    rw [hSame.swtmr] at ht ⊢
    obtain ⟨hUsed, hTimeout⟩ := hEdited.timeout ht
    rw [hTimeout]
    exact h.timeouts t hUsed
  · intro hNot t ht
    rw [hSame.swtmrPtr] at ht
    rw [hSame.swtmr, hNow₁]
    rcases hOrigin.ptr t ht with ⟨hOld, hEq⟩ | hNew
    · rw [hEq]
      exact h.onTime (hTime hNot) t hOld
    · exact hNew.1.le
  · exact fun msg hMem => h.commands msg (inFlight_task hStep hMem)

theorem task (h : Punctual s) (hStep : TaskStep s s') : Punctual s' := by
  have hWhole := hStep
  cases hStep with
  | sample hPc =>
      exact h.move hWhole ⟨rfl, rfl, rfl, rfl, rfl⟩ rfl
        (fun _ => h.onTime (by rw [hPc]; rfl)) (h.sample hPc)
  | poll wake cur hPc =>
      exact h.move hWhole ⟨rfl, rfl, rfl, rfl, rfl⟩ rfl (fun hNot => nomatch hNot) trivial
  | block wake cur wait deadline hPc =>
      exact h.move hWhole ⟨rfl, rfl, rfl, rfl, rfl⟩ rfl
        (fun _ => h.onTime (by rw [hPc]; rfl)) trivial
  | take wake cur wait hPc hCount =>
      exact h.move hWhole ⟨rfl, rfl, rfl, rfl, rfl⟩ rfl
        (fun _ => h.onTime (by rw [hPc]; rfl)) trivial
  | giveUp wake linked hPc =>
      exact h.move hWhole ⟨rfl, rfl, rfl, rfl, rfl⟩ rfl (fun hNot => nomatch hNot) trivial
  | fetch msg rest hPc hMsgs =>
      exact h.move hWhole ⟨rfl, rfl, rfl, rfl, rfl⟩ rfl
        (fun _ => h.onTime (by rw [hPc]; rfl)) trivial
  | credit msg hPc =>
      exact h.move hWhole ⟨rfl, rfl, rfl, rfl, rfl⟩ rfl
        (fun _ => h.onTime (by rw [hPc]; rfl)) trivial
  | handle msg hPc =>
      have hCommand : msg.swtmrOpt ≠ .overflow :=
        h.commands msg (mem_inFlight.mpr (Or.inl (by rw [hPc]; rfl)))
      rcases dosSwtmrCmdHandle_cases s msg with hEdited | ⟨hOverflow, -⟩
      · exact h.edit hWhole hEdited ⟨rfl, rfl, rfl, rfl, rfl⟩ rfl
          (fun _ => by rw [hPc]; rfl) trivial
      · exact absurd hOverflow hCommand
  | expired t hPc hDue =>
      exact h.move hWhole ⟨rfl, rfl, rfl, rfl, rfl⟩ rfl (fun hNot => nomatch hNot) trivial
  | again hPc =>
      exact h.move hWhole ⟨rfl, rfl, rfl, rfl, rfl⟩ rfl (fun hNot => nomatch hNot) trivial
  | leave wake hPc hLater =>
      -- The loop ends in front of the first timer, which is the one it has tested.
      have hFirst : wake = s.swtmrPtr.head? := h.focus wake (by rw [hPc]; rfl)
      refine h.move hWhole ⟨rfl, rfl, rfl, rfl, rfl⟩ rfl (fun _ t ht => ?_) trivial
      rw [hFirst] at hLater
      exact (h.later hLater ht).le
  | callback t hPc =>
      have hEdited := edited_dosSwtmrTimeoutHandle (h.callback_first hPc).2.2
      exact h.edit hWhole hEdited ⟨rfl, rfl, rfl, rfl, rfl⟩ rfl (fun hNot => nomatch hNot) trivial

theorem step (h : Punctual s) (hOk : NoticedInTime s event) (hStep : timerStep s event = some s') :
    Punctual s' := by
  cases event with
  | create t timeout mode =>
      obtain ⟨⟨hFree, hPos, hLt, -⟩, hEq⟩ := Option.ite_none_right_eq_some.mp hStep
      rw [← Option.some.inj hEq]
      exact h.create hFree ⟨hPos, hLt⟩ hOk
  | api op t =>
      obtain ⟨⟨-, hOp⟩, hEq⟩ := Option.ite_none_right_eq_some.mp hStep
      rw [← Option.some.inj hEq]
      obtain ⟨hOutside, hNow, -⟩ := dosSwtmrMakeMsg_sends s ⟨op, some t⟩
      refine h.outside hOutside hNow fun msg hMem => ?_
      rcases inFlight_api s ⟨op, some t⟩ hMem with hOld | rfl
      · exact h.commands msg hOld
      · exact hOp
  | writer i =>
      obtain ⟨hOutside, hNow, -⟩ := writerStep_sends hStep
      exact h.outside hOutside hNow fun msg hMem => h.commands msg (inFlight_writer hStep hMem)
  | tick =>
      rw [← Option.some.inj hStep]
      exact h.tick hOk
  | task => exact h.task (taskStep_of_some hStep)

theorem init (len : Nat) (nullUnused : Bool) : Punctual (dosSwtmrInit len nullUnused) where
  toTimersOk := TimersOk.init len nullUnused
  early := by simp [dosSwtmrInit]
  epoch := by constructor <;> simp [dosSwtmrInit]
  timeouts := by simp [dosSwtmrInit]
  onTime := by simp [dosSwtmrInit]
  waits := trivial
  commands := by simp [inFlight, line, copying, dosSwtmrInit, SwtmrPc.message]

end Punctual

end Timers

end DoraOS
