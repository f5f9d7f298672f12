import DoraOS.Creation.EventGet
import DoraOS.Ipc.SemTokens

/-! A field `event_get` that no `dos_event_set` has written since the task was
created is not read: a task that waits for an event stays on the pend list
until its wait expires or `dos_event_set` selects it, and only a task that left
the list without having expired returns the field. A task that was deleted does
not return at all. -/
namespace DoraOS

namespace System

open Kernel

variable {s u : System} {c t : TaskId} {event : SysEvent} {r : System × List Label}

section Live

theorem live_block (hPair : s.k.SleepPair) (w : Wait) (timeout : Nat)
    (hLive : (s.block c w timeout).1.k.Live t) : s.k.Live t := by
  have hMoves := (moves_wait_linked s.k c hPair w.pendId timeout).trans (moves_scheduler _)
  exact (moves_setStatus s.k c Flag.suspend.mask).live (hMoves.live hLive)

theorem live_call (hPair : s.k.SleepPair) {a : Call} (hCall : s.Calls c a r)
    (hLive : r.1.k.Live t) : s.k.Live t := by
  cases hCall with
  | semBlock | queueBlock => exact live_block hPair _ _ hLive
  | semPost i hPost =>
      cases hPost with
      | wake x => exact (moves_wakeFirst _ _ x).live hLive
      | _ => exact hLive
  | mutexBlock m timeout =>
      have hBoost := moves_inherit (s := s) c m
      exact hBoost.live (live_block (hBoost.pair hPair) _ _ hLive)
  | mutexFree m => exact (moves_restorePriority s.k c _).live hLive
  | mutexHand m x =>
      exact ((moves_restorePriority s.k c _).trans (moves_wakeFirst _ _ x)).live hLive
  | eventBlock e waitEvent op timeout => exact live_setWaitEvent (live_block hPair _ _ hLive)
  | sleep n => exact (moves_sleep s.k c hPair n).live hLive
  | unlock => exact (moves_unlock s.k).live hLive
  | _ => exact hLive

/-- Only its creation brings a task to life. -/
theorem live_exec (hPair : s.k.SleepPair) (hStep : s.exec event = some r) (hLive : r.1.k.Live t) :
    s.k.Live t ∨ s.writes r event = some t := by
  by_cases hCall : ∃ a, event = .call a
  · obtain ⟨a, rfl⟩ := hCall
    obtain ⟨c, -, -, rfl⟩ := call_some hStep
    exact Or.inl (live_call hPair (calls_call a) hLive)
  · have hLoses := loses_exec hStep fun a hEq => hCall ⟨a, hEq⟩
    refine (hLoses.live t hLive).imp_right ?_
    rintro ⟨prio, hNew⟩
    exact created_exec hStep hNew

end Live

/-- The field `event_get` of `t` will be written before `t` reads it: the task
was not selected, and if it waits for an event it is on the pend list. -/
structure Unread (t : TaskId) (s : System) : Prop extends Consistent s where
  notSelected : ¬s.Selected t
  pends : (s.task t).Pends

/-- The task was deleted, and is inside no call. -/
structure Gone (t : TaskId) (s : System) : Prop where
  pair : s.k.SleepPair
  dead : ¬s.k.Live t
  user : s.pc t = .user

/-- A condition under which `t` does not read its `event_get`, until the field is
written. -/
structure Veil (t : TaskId) (I : System → Prop) : Prop where
  hidden : ∀ s, I s → ¬s.Reads t
  step : ∀ s event r, I s → s.exec event = some r → s.writes r event ≠ some t → I r.1
  disguise : ∀ s g mem, I s → I (s.disguise g mem)

/-- A task on a pend list does not return from its wait without its timeout
flag. -/
theorem veil_unread (t : TaskId) : Veil t (Unread t) where
  hidden s h := by
    rintro ⟨hReady, hTimeout, e, waitEvent, hPc⟩
    have hSet := ((h.ok t).blocked _ hPc (h.pends e waitEvent hPc)).2 hReady
    exact absurd (hTimeout.symm.trans hSet) (by simp)
  step s event r h hStep hNot := by
    have hPath := (spec_exec h.toCoherent h.chosen hStep).task t
    refine ⟨consistent_step h.toConsistent hStep, ?_, ?_⟩
    · intro hSelected
      exact (selected_exec hStep hSelected).elim h.notSelected hNot
    · exact hPath.pends (fun hWoken => h.notSelected (selected_of_wakes hWoken)) (h.ok t) h.pends
  disguise _ _ _ h :=
    ⟨⟨⟨⟨h.sound.linked, h.sound.pair⟩, h.ok⟩, h.chosen⟩, h.notSelected, h.pends⟩

theorem veil_gone (t : TaskId) : Veil t (Gone t) where
  hidden s h := by
    rintro ⟨-, -, e, waitEvent, hPc⟩
    rw [h.user] at hPc
    cases hPc
  step s event r h hStep hNot := by
    refine ⟨(semEffect_exec (i := 0) h.pair hStep).1, ?_, ?_⟩
    · intro hLive
      exact (live_exec h.pair hStep hLive).elim h.dead hNot
    · rcases exec_pc hStep t with hSame | ⟨hRun, -⟩
      · exact hSame.trans h.user
      · exact absurd hRun.2.2.1 h.dead
  disguise _ _ _ h := ⟨h.pair, h.dead, h.user⟩

/-- `u` is `s` with other bytes in memory, and with another value in the field
`event_get` of `t` if the condition holds. -/
def Twin (t : TaskId) (I : System → Prop) (s u : System) : Prop :=
  ∃ g mem, u = s.disguise g mem ∧ (∀ x, x ≠ t → g x = (s.k.tcb x).eventGet) ∧
    (g t = (s.k.tcb t).eventGet ∨ I s)

section Twins

variable {I I' : System → Prop}

/-- What a step does not assign it leaves alone. -/
theorem eventGet_exec (hStep : s.exec event = some r) (x : TaskId) : (r.1.k.tcb x).eventGet =
    renew (s.writes r event) r.1 (fun t => (s.k.tcb t).eventGet) x := by
  obtain ⟨mem', hSelf⟩ := exec_disguise hStep _ s.mem fun _ _ => rfl
  rw [disguise_self, hStep, Option.some.injEq] at hSelf
  conv_lhs => rw [hSelf]
  rfl

theorem renew_congr {written : Option TaskId} {g g' : TaskId → BitVec 32} {x : TaskId}
    (h : g x = g' x) : renew written s g x = renew written s g' x := by
  cases written with
  | none => exact h
  | some y => simp only [renew, Function.update_apply, h]

/-- A step of a system is a step of its twin with the same labels. -/
theorem Twin.forward (hVeil : Veil t I) (hTwin : s.Twin t I u) (hStep : s.exec event = some r) :
    ∃ u', u.exec event = some (u', r.2) ∧ r.1.Twin t I u' := by
  obtain ⟨g, mem, rfl, hOther, hCases⟩ := hTwin
  have hRead (x : TaskId) (hReads : s.Reads x) : g x = (s.k.tcb x).eventGet := by
    by_cases hx : x = t
    · subst hx
      exact hCases.resolve_right fun hI => hVeil.hidden s hI hReads
    · exact hOther x hx
  obtain ⟨mem', hResult⟩ := exec_disguise hStep g mem hRead
  refine ⟨_, hResult, _, mem', rfl, ?_, ?_⟩
  · intro x hx
    rw [eventGet_exec hStep]
    exact renew_congr (hOther x hx)
  · by_cases hWritten : s.writes r event = some t
    · left
      simp [renew, hWritten]
    · rw [eventGet_exec hStep]
      exact hCases.imp renew_congr fun hI => hVeil.step s event r hI hStep hWritten

theorem Twin.symm (hVeil : Veil t I) (hTwin : s.Twin t I u) : u.Twin t I s := by
  obtain ⟨g, mem, rfl, hOther, hCases⟩ := hTwin
  exact ⟨fun x => (s.k.tcb x).eventGet, s.mem, rfl, fun x hx => (hOther x hx).symm,
    hCases.imp Eq.symm (hVeil.disguise s g mem)⟩

/-- Twins agree on every event. -/
theorem Twin.agree (hVeil : Veil t I) (hTwin : s.Twin t I u) (event : SysEvent) :
    Lockstep.Agree (Twin t I) (s.exec event) (u.exec event) := by
  cases hStep : s.exec event with
  | some r =>
      obtain ⟨u', hTwinStep, hTwin'⟩ := hTwin.forward hVeil hStep
      rw [hTwinStep]
      exact .go r.2 hTwin'
  | none =>
      cases hOther : u.exec event with
      | none => exact .stop
      | some r =>
          obtain ⟨s', hBack, -⟩ := (hTwin.symm hVeil).forward hVeil hOther
          rw [hStep] at hBack
          cases hBack

/-- An operation that is blind to what is disguised. -/
theorem Twin.map {f : System → System}
    (hf : ∀ s g mem, ∃ mem', f (s.disguise g mem) = (f s).disguise g mem')
    (hTwin : s.Twin t I u) (hI : I s → I' (f s)) : (f s).Twin t I' (f u) := by
  obtain ⟨g, mem, rfl, hOther, hCases⟩ := hTwin
  have hOwn (x : TaskId) : ((f s).k.tcb x).eventGet = (s.k.tcb x).eventGet := by
    obtain ⟨mem', hSelf⟩ := hf s (fun x => (s.k.tcb x).eventGet) s.mem
    rw [disguise_self] at hSelf
    conv_lhs => rw [hSelf]
    rfl
  obtain ⟨mem', hMap⟩ := hf s g mem
  exact ⟨g, mem', hMap, fun x hx => (hOther x hx).trans (hOwn x).symm,
    hCases.imp (fun hGet => hGet.trans (hOwn t).symm) hI⟩

theorem dosTaskDelete_refused (hRefused : (s.k.dosTaskDelete t).2 = false) :
    s.dosTaskDelete t = s := by
  have hKernel : (s.k.dosTaskDelete t).1 = s.k := by
    unfold Kernel.dosTaskDelete at hRefused ⊢
    split at hRefused
    · rename_i hUnused
      rw [if_pos hUnused]
    · split at hRefused
      · rename_i hUsed hLocked
        rw [if_neg hUsed, if_pos hLocked]
      · split at hRefused <;> cases hRefused
  simp only [dosTaskDelete, hRefused, hKernel]
  rfl

/-- A deleted task is not alive. -/
theorem gone_delete (hPair : s.k.SleepPair) (hDone : (s.k.dosTaskDelete t).2 = true) :
    Gone t (s.dosTaskDelete t) := by
  have hUnused : (s.k.dosTaskUnlink t).is t .unused = true := by
    have hView := congrArg TaskView.status (view_unlink s.k t)
    show Flag.test ((s.k.dosTaskUnlink t).view t).status .unused = true
    rw [hView]
    simp
  have hDead : ¬(s.k.dosTaskDelete t).1.Live t := by
    rintro ⟨-, hUsed⟩
    refine absurd (hUsed.symm.trans ?_) Bool.false_ne_true
    unfold Kernel.dosTaskDelete at hDone ⊢
    split at hDone
    · cases hDone
    · split at hDone
      · cases hDone
      · rename_i hFirst hSecond
        rw [if_neg hFirst, if_neg hSecond]
        split <;> exact hUnused
  have hEq : s.dosTaskDelete t = (s.setKernel (s.k.dosTaskDelete t).1).setPc t .user := if_pos hDone
  rw [hEq]
  exact ⟨(moves_delete s.k t).pair hPair, hDead, if_pos rfl⟩

theorem gone_recycle (h : Gone t s) : Gone t (s.setKernel s.k.dosIdleRecycle) :=
  ⟨(moves_recycle s.k).pair h.pair, fun hLive => h.dead ((moves_recycle s.k).live hLive), h.user⟩

end Twins

end System

end DoraOS
