import DoraOS.Timer.TimerRun

/-! Which timers the messages in the queue name. A message is handled long after
the call that sent it, and the timer of it may be freed meanwhile: by a delete
that is handled first, or by the expiry of a one-shot timer. -/
namespace DoraOS

/-- After a delete no message names its timer. -/
def SwtmrMsg.Spares (a b : SwtmrMsg) : Prop := a.swtmrOpt = .delete → b.swtmr ≠ a.swtmr

def SwtmrPc.calling : SwtmrPc → Option SwtmrId
  | .callback t => some t
  | _ => none

/-- Calls are made on timers that exist and are not going to be deleted, and a
delete when no call on the timer has yet to copy its message. A wrap of the
counter finds the queue full. At the end of the callback of a one-shot timer no
message names it. -/
def CallsLive (s : Timers) : TimerEvent → Prop
  | .api op t => s.alloc t = true ∧ ⟨.delete, some t⟩ ∉ s.inFlight ∧
      (op = .delete → ∀ msg ∈ s.copying, msg.swtmr ≠ some t)
  | .tick => (s.now + 1) % 2 ^ 32 ≠ 0 ∨ s.writeCount = 0
  | .task => ∀ t ∈ s.pc.calling,
      (s.swtmr t).swtmrMode = 2 ∨ ∀ msg ∈ s.inFlight, msg.swtmr ≠ some t
  | _ => True

instance (s : Timers) : (event : TimerEvent) → Decidable (CallsLive s event)
  | .api _ _ => inferInstanceAs (Decidable (_ ∧ _ ∧ _))
  | .tick => inferInstanceAs (Decidable (_ ∨ _))
  | .task => inferInstanceAs (Decidable (∀ t ∈ s.pc.calling, _))
  | .create _ _ _ | .writer _ => inferInstanceAs (Decidable True)

namespace Timers

variable {s s' : Timers} {t x : SwtmrId} {event : TimerEvent} {msg : SwtmrMsg}

/-- Every message names a timer that exists, and a delete is the last message of
its timer, wherever the messages that are not copied yet come to stand. -/
structure LiveOk (s : Timers) : Prop extends TimersOk s where
  live : ∀ msg ∈ s.inFlight, ∃ t, msg.swtmr = some t ∧ s.alloc t = true
  order : s.inFlight.Pairwise SwtmrMsg.Spares
  apart : s.copying.Pairwise fun a b => b.Spares a

/-- Only a delete frees, and only its own timer. -/
theorem dosSwtmrDelete_alloc (s : Timers) (t : SwtmrId) (h : x ≠ t) :
    (s.dosSwtmrDelete t).alloc x = s.alloc x := by
  unfold dosSwtmrDelete
  split
  · rfl
  · exact if_neg h
  · exact if_neg h
  · exact if_neg h

theorem dosSwtmrCmdHandle_alloc (s : Timers) (msg : SwtmrMsg)
    (h : msg.swtmrOpt = .delete → msg.swtmr ≠ some x) :
    (s.dosSwtmrCmdHandle msg).alloc x = s.alloc x := by
  obtain ⟨op, target⟩ := msg
  unfold dosSwtmrCmdHandle
  cases target with
  | none => cases op <;> cases hNull : s.nullUnused <;> rfl
  | some t =>
      by_cases hUsed : (s.swtmr t).swtmrStatus = .unused
      · simp only [if_pos hUsed]
      · simp only [if_neg hUsed]
        cases op with
        | start =>
            by_cases hRunning : (s.swtmr t).swtmrStatus = .running
            · simp only [if_pos hRunning, dosSwtmrStart_alloc]
              rfl
            · simp only [if_neg hRunning, dosSwtmrStart_alloc]
        | stop =>
            by_cases hRunning : (s.swtmr t).swtmrStatus = .running
            · simp only [if_pos hRunning]
              rfl
            · simp only [if_neg hRunning]
        | overflow => rfl
        | delete => exact dosSwtmrDelete_alloc s t fun hEq => h rfl (congrArg some hEq.symm)

theorem dosSwtmrTimeoutHandle_alloc (s : Timers) (t : SwtmrId)
    (h : (s.swtmr t).swtmrMode = 2 ∨ x ≠ t) :
    (s.dosSwtmrTimeoutHandle t).alloc x = s.alloc x := by
  unfold dosSwtmrTimeoutHandle
  split
  next => exact congrFun (dosSwtmrStart_alloc _ t) x
  next hMode => exact dosSwtmrDelete_alloc _ t (h.resolve_left hMode)

namespace LiveOk

/-- A step that adds no message and frees no timer of a message that is left. -/
theorem shrink (h : LiveOk s) (hOk : TimersOk s') (hFlight : s'.inFlight.Sublist s.inFlight)
    (hCopying : s'.copying = s.copying)
    (hAlloc : ∀ msg ∈ s'.inFlight, ∀ t, msg.swtmr = some t → s.alloc t = true → s'.alloc t = true) :
    LiveOk s' where
  toTimersOk := hOk
  live msg hMem := by
    obtain ⟨t, hTarget, hLive⟩ := h.live msg (hFlight.subset hMem)
    exact ⟨t, hTarget, hAlloc msg hMem t hTarget hLive⟩
  order := h.order.sublist hFlight
  apart := hCopying ▸ h.apart

/-- A step that leaves messages and timers alone. -/
theorem same (h : LiveOk s) (hOk : TimersOk s') (hAlloc : s'.alloc = s.alloc)
    (hLine : s'.line = s.line) (hCopying : s'.copying = s.copying) : LiveOk s' := by
  have hFlight : s'.inFlight = s.inFlight := by rw [inFlight, hLine, hCopying, inFlight]
  refine h.shrink hOk (by rw [hFlight]) hCopying fun msg _ t _ hLive => ?_
  rw [hAlloc]
  exact hLive

theorem create (h : LiveOk s) {timeout mode : Nat} (hFree : s.alloc t = false)
    (hTimeout : 0 < timeout ∧ timeout < 2 ^ 32) : LiveOk (s.dosSwtmrCreate t timeout mode) := by
  refine h.shrink (h.toTimersOk.create hFree hTimeout) (List.Sublist.refl _) rfl ?_
  intro msg _ x _ hLive
  by_cases hEq : x = t
  · exact if_pos hEq
  · exact (if_neg hEq).trans hLive

theorem api (h : LiveOk s) {op : SwtmrOption} (hOk : CallsLive s (.api op t)) :
    LiveOk (s.dosSwtmrMakeMsg ⟨op, some t⟩) := by
  obtain ⟨hLive, hDelete, hApart⟩ := hOk
  obtain ⟨hOutside, hNow, hMsgs, hCopying⟩ := dosSwtmrMakeMsg_sends s ⟨op, some t⟩
  have hTimers := h.toTimersOk.outside hOutside hNow.ge
  have hLine : (s.dosSwtmrMakeMsg ⟨op, some t⟩).line = s.line := by
    rw [line, hOutside.pc.message, hMsgs, line]
  rcases hCopying with hSame | hNew
  · exact h.same hTimers hOutside.alloc hLine hSame
  · have hFlight : (s.dosSwtmrMakeMsg ⟨op, some t⟩).inFlight = s.inFlight ++ [⟨op, some t⟩] := by
      rw [inFlight, hLine, hNew, inFlight, List.append_assoc]
    refine ⟨hTimers, ?_, ?_, ?_⟩
    · rw [hFlight, hOutside.alloc]
      intro msg hMem
      rcases List.mem_append.mp hMem with hOld | hMsg
      · exact h.live msg hOld
      · rw [List.mem_singleton.mp hMsg]
        exact ⟨t, rfl, hLive⟩
    · rw [hFlight]
      refine List.pairwise_append.mpr ⟨h.order, List.pairwise_singleton _ _, ?_⟩
      intro a ha b hb hOp hEq
      rw [List.mem_singleton.mp hb] at hEq
      have hMsg : a = ⟨.delete, some t⟩ := by
        cases a
        simp_all
      exact hDelete (hMsg ▸ ha)
    · rw [hNew]
      refine List.pairwise_append.mpr ⟨h.apart, List.pairwise_singleton _ _, ?_⟩
      intro a ha b hb hOp
      rw [List.mem_singleton.mp hb] at hOp ⊢
      exact hApart hOp a ha

/-- A message that is copied overtakes those that are not. -/
theorem writer (h : LiveOk s) {i : Nat} (hStep : s.writerStep i = some s') : LiveOk s' := by
  obtain ⟨hOutside, hNow, hSends⟩ := writerStep_sends hStep
  have hTimers := h.toTimersOk.outside hOutside hNow.ge
  rcases hSends with ⟨hMsgs, hCopying⟩ | ⟨before, after, msg, hMsgs, hOld, hCopying⟩
  · refine h.same hTimers hOutside.alloc ?_ hCopying
    rw [line, hOutside.pc.message, hMsgs, line]
  · have hFlight : s'.inFlight = s.line ++ msg :: (before ++ after) := by
      rw [inFlight, line, hOutside.pc.message, hMsgs, hCopying, line]
      simp
    have hLive := h.live
    have hOrder := h.order
    have hApart := h.apart
    rw [inFlight, hOld] at hLive hOrder
    rw [hOld] at hApart
    obtain ⟨hLine, hCopy, hCross⟩ := List.pairwise_append.mp hOrder
    obtain ⟨-, hAfter, hBefore⟩ := List.pairwise_append.mp hApart
    have hRest : (before ++ after).Sublist (before ++ msg :: after) :=
      List.Sublist.append_left (List.sublist_cons_self msg after) before
    refine ⟨hTimers, ?_, ?_, ?_⟩
    · rw [hFlight, hOutside.alloc]
      intro m hMem
      refine hLive m ?_
      simp only [List.mem_append, List.mem_cons] at hMem ⊢
      tauto
    · rw [hFlight]
      refine List.pairwise_append.mpr ⟨hLine, List.pairwise_cons.mpr ⟨?_, hCopy.sublist hRest⟩, ?_⟩
      · intro b hb
        rcases List.mem_append.mp hb with hb | hb
        · exact hBefore b hb msg List.mem_cons_self
        · exact (List.pairwise_cons.mp (List.pairwise_append.mp hCopy).2.1).1 b hb
      · intro a ha b hb
        refine hCross a ha b ?_
        simp only [List.mem_append, List.mem_cons] at hb ⊢
        tauto
    · rw [hCopying]
      exact hApart.sublist hRest

theorem task (h : LiveOk s) (hOk : CallsLive s .task) (hStep : TaskStep s s') : LiveOk s' := by
  have hTimers := h.toTimersOk.task hStep
  rcases hStep.kind with hWalks | ⟨msg, rest, hPc, hMsgs, rfl⟩ | ⟨msg, hPc, rfl⟩ | ⟨msg, hPc, rfl⟩ |
    ⟨t, hPc, rfl⟩
  · refine h.same hTimers hWalks.alloc ?_ ?_
    · rw [line, hWalks.message, hWalks.msgs, line, hWalks.idle]
    · rw [copying, hWalks.writers, copying]
  · refine h.same hTimers rfl ?_ rfl
    simp [line, hPc, hMsgs, SwtmrPc.message]
  · refine h.same hTimers rfl ?_ rfl
    simp [line, hPc, SwtmrPc.message]
  · -- The message leaves the line, and only a delete frees, which spares the rest.
    obtain ⟨-, -, hMsgs, -, -, hWriters, -, -⟩ := sameQueue_dosSwtmrCmdHandle s msg
    have hCopying : ({ s.dosSwtmrCmdHandle msg with pc := .top } : Timers).copying = s.copying := by
      simp only [copying, hWriters]
    have hFlight : s.inFlight =
        msg :: ({ s.dosSwtmrCmdHandle msg with pc := .top } : Timers).inFlight := by
      simp only [inFlight, line, copying, hMsgs, hWriters, hPc, SwtmrPc.message]
      rfl
    have hOrder := h.order
    rw [hFlight] at hOrder
    refine h.shrink hTimers ?_ hCopying ?_
    · rw [hFlight]
      exact List.sublist_cons_self _ _
    · intro m hMem x hTarget hLive
      have hSpares := (List.pairwise_cons.mp hOrder).1 m hMem
      refine (dosSwtmrCmdHandle_alloc s msg fun hOp hEq => ?_).trans hLive
      exact hSpares hOp (hTarget.trans hEq.symm)
  · obtain ⟨-, -, hMsgs, -, -, hWriters, -, -⟩ := sameQueue_dosSwtmrTimeoutHandle s t
    have hFlight : ({ s.dosSwtmrTimeoutHandle t with
        pc := .expire (s.dosSwtmrTimeoutHandle t).dosGetSwtmr } : Timers).inFlight = s.inFlight := by
      simp only [inFlight, line, copying, hMsgs, hWriters, hPc, SwtmrPc.message]
    refine h.shrink hTimers (by rw [hFlight]) (by simp only [copying, hWriters]) ?_
    intro m hMem x hTarget hLive
    rw [hFlight] at hMem
    refine (dosSwtmrTimeoutHandle_alloc s t ?_).trans hLive
    refine (hOk t (by rw [hPc]; rfl)).imp_right fun hUnnamed hEq => ?_
    exact hUnnamed m hMem (hEq ▸ hTarget)

theorem step (h : LiveOk s) (hOk : CallsLive s event) (hStep : timerStep s event = some s') :
    LiveOk s' := by
  cases event with
  | create t timeout mode =>
      obtain ⟨⟨hFree, hPos, hLt, -⟩, hEq⟩ := Option.ite_none_right_eq_some.mp hStep
      rw [← Option.some.inj hEq]
      exact h.create hFree ⟨hPos, hLt⟩
  | api op t =>
      obtain ⟨-, hEq⟩ := Option.ite_none_right_eq_some.mp hStep
      rw [← Option.some.inj hEq]
      exact h.api hOk
  | writer i => exact h.writer hStep
  | tick =>
      rw [← Option.some.inj hStep]
      have hOutside := dosTickUpdate_outside s
      have hTimers := h.toTimersOk.outside hOutside (by rw [dosTickUpdate_now]; omega)
      obtain ⟨p, hEq, hPc⟩ := dosTickUpdate_quiet hOk
      refine h.same hTimers hOutside.alloc ?_ (by rw [hEq]; rfl)
      rw [line, hOutside.pc.message, hEq, line]
  | task => exact h.task hOk (taskStep_of_some hStep)

theorem init (len : Nat) (nullUnused : Bool) : LiveOk (dosSwtmrInit len nullUnused) where
  toTimersOk := TimersOk.init len nullUnused
  live := by simp [inFlight, line, copying, dosSwtmrInit, SwtmrPc.message]
  order := by simp [inFlight, line, copying, dosSwtmrInit, SwtmrPc.message]
  apart := by simp [copying, dosSwtmrInit]

end LiveOk

end Timers

end DoraOS
