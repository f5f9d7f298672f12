import DoraOS.Timer.TimerLists

/-! What one step of the timer module does: to the timers, to the messages on
their way to the timer task, and to the point where that task is. -/
namespace DoraOS

namespace SwtmrPc

/-- What steps of others do to the timer task: it is woken, also without effect
on one that has timed out, or it times out. -/
inductive Disturbed : SwtmrPc → SwtmrPc → Prop where
  | same (p : SwtmrPc) : Disturbed p p
  | woken (wake : Option SwtmrId) (deadline : Option Nat) : Disturbed (.blocked wake deadline) .fetch
  | unlinked (wake : Option SwtmrId) (linked : Bool) :
      Disturbed (.timedOut wake linked) (.timedOut wake false)
  | elapsed (wake : Option SwtmrId) (deadline : Option Nat) :
      Disturbed (.blocked wake deadline) (.timedOut wake true)

theorem disturbed_woken (p : SwtmrPc) : Disturbed p p.woken := by
  cases p with
  | blocked wake deadline => exact Disturbed.woken wake deadline
  | timedOut wake linked => exact Disturbed.unlinked wake linked
  | _ => exact Disturbed.same _

/-- No step of others moves a task that is not on the pend list. -/
theorem Disturbed.eq_fetch {p p' : SwtmrPc} (h : Disturbed p p') (hp : p = .fetch) :
    p' = .fetch := by
  cases h with
  | same => exact hp
  | woken wake deadline => rfl
  | unlinked wake linked => cases hp
  | elapsed wake deadline => cases hp

theorem Disturbed.of_callback {p p' : SwtmrPc} (h : Disturbed p p') {t : SwtmrId}
    (hp : p' = .callback t) : p = .callback t := by
  cases h with
  | same => exact hp
  | _ => cases hp

end SwtmrPc

/-- The message that a writer has not copied yet. -/
def SwtmrWriter.pending : SwtmrWriter → Option SwtmrMsg
  | .copy msg => some msg
  | _ => none

namespace Timers

variable {s s' s₁ : Timers} {t x : SwtmrId}

def copying (s : Timers) : List SwtmrMsg := s.writers.filterMap SwtmrWriter.pending

/-- What a step of a writer does to the messages. -/
inductive Sends (s s' : Timers) : Prop where
  | keep (hMsgs : s'.msgs = s.msgs) (hCopying : s'.copying = s.copying)
  | copy (before after : List SwtmrMsg) (msg : SwtmrMsg) (hMsgs : s'.msgs = s.msgs ++ [msg])
      (hOld : s.copying = before ++ msg :: after) (hCopying : s'.copying = before ++ after)

/-- A step of others than the timer task, apart from a creation. -/
structure Outside (s s' : Timers) : Prop extends SameTimers s s' where
  pc : s.pc.Disturbed s'.pc

section Writer

variable {i : Nat} {w w' : SwtmrWriter}

theorem split_writers (h : s.writers[i]? = some w) : ∃ before after,
    s.writers = before ++ w :: after ∧ (∀ w', s.writers.set i w' = before ++ w' :: after) ∧
      s.writers.eraseIdx i = before ++ after := by
  obtain ⟨hLt, hGet⟩ := List.getElem?_eq_some_iff.mp h
  refine ⟨s.writers.take i, s.writers.drop (i + 1), ?_, ?_, ?_⟩
  · rw [← hGet, List.getElem_cons_drop, List.take_append_drop]
  · intro w'
    rw [List.set_eq_take_append_cons_drop, if_pos hLt]
  · exact List.eraseIdx_eq_take_drop_succ _ _

/-- A writer that has copied its message leaves the messages alone. -/
theorem copying_set (h : s.writers[i]? = some w) (hOld : w.pending = none)
    (hNew : w'.pending = none) :
    (s.writers.set i w').filterMap SwtmrWriter.pending = s.copying := by
  obtain ⟨before, after, hEq, hSet, -⟩ := split_writers h
  rw [hSet, copying, hEq]
  simp [hOld, hNew]

theorem copying_erase (h : s.writers[i]? = some w) (hOld : w.pending = none) :
    (s.writers.eraseIdx i).filterMap SwtmrWriter.pending = s.copying := by
  obtain ⟨before, after, hEq, -, hErase⟩ := split_writers h
  rw [hErase, copying, hEq]
  simp [hOld]

theorem writerStep_sends (h : s.writerStep i = some s') :
    Outside s s' ∧ s'.now = s.now ∧ Sends s s' := by
  unfold writerStep at h
  cases hWriter : s.writers[i]? with
  | none => simp [hWriter] at h
  | some w =>
      cases w with
      | copy msg =>
          simp only [hWriter, Option.some.injEq] at h
          subst h
          obtain ⟨before, after, hEq, hSet, -⟩ := split_writers hWriter
          refine ⟨⟨⟨rfl, rfl, rfl, rfl, rfl⟩, .same _⟩, rfl, ?_⟩
          refine .copy (before.filterMap SwtmrWriter.pending)
            (after.filterMap SwtmrWriter.pending) msg rfl ?_ ?_
          · simp [copying, hEq, SwtmrWriter.pending]
          · rw [copying, hSet, List.filterMap_append, List.filterMap_cons_none rfl]
      | test =>
          simp only [hWriter] at h
          split at h
          · rw [← Option.some.inj h]
            exact ⟨⟨⟨rfl, rfl, rfl, rfl, rfl⟩, .same _⟩, rfl, .keep rfl (copying_set hWriter rfl rfl)⟩
          · rw [← Option.some.inj h]
            exact ⟨⟨⟨rfl, rfl, rfl, rfl, rfl⟩, .same _⟩, rfl, .keep rfl (copying_set hWriter rfl rfl)⟩
      | wake =>
          simp only [hWriter] at h
          split at h
          · rw [← Option.some.inj h]
            exact ⟨⟨⟨rfl, rfl, rfl, rfl, rfl⟩, SwtmrPc.disturbed_woken _⟩, rfl,
              .keep rfl (copying_erase hWriter rfl)⟩
          · rw [← Option.some.inj h]
            exact ⟨⟨⟨rfl, rfl, rfl, rfl, rfl⟩, .same _⟩, rfl, .keep rfl (copying_set hWriter rfl rfl)⟩
      | credit =>
          simp only [hWriter] at h
          rw [← Option.some.inj h]
          exact ⟨⟨⟨rfl, rfl, rfl, rfl, rfl⟩, .same _⟩, rfl, .keep rfl (copying_erase hWriter rfl)⟩
      | fault => simp [hWriter] at h

end Writer

theorem outside_self (s : Timers) : Outside s s := ⟨⟨rfl, rfl, rfl, rfl, rfl⟩, .same _⟩

theorem dosSwtmrMakeMsg_sends (s : Timers) (msg : SwtmrMsg) :
    Outside s (s.dosSwtmrMakeMsg msg) ∧ (s.dosSwtmrMakeMsg msg).now = s.now ∧
      ((s.dosSwtmrMakeMsg msg).msgs = s.msgs ∧ ((s.dosSwtmrMakeMsg msg).copying = s.copying ∨
        (s.dosSwtmrMakeMsg msg).copying = s.copying ++ [msg])) := by
  unfold dosSwtmrMakeMsg
  by_cases hFull : s.writeCount = 0
  · rw [if_pos hFull]
    exact ⟨outside_self s, rfl, rfl, Or.inl rfl⟩
  · rw [if_neg hFull]
    refine ⟨⟨⟨rfl, rfl, rfl, rfl, rfl⟩, .same _⟩, rfl, rfl, Or.inr ?_⟩
    rw [copying, copying, List.filterMap_append]
    rfl

theorem woken_of_not_linked {p : SwtmrPc} (h : ¬p.linked = true) : p.woken = p := by
  cases p with
  | blocked wake deadline => simp [SwtmrPc.linked] at h
  | timedOut wake linked =>
      have hFalse : linked = false := by simpa [SwtmrPc.linked] using h
      rw [hFalse]
      rfl
  | _ => rfl

/-- The message of an interrupt when the queue has a place. -/
theorem dosSwtmrMakeMsgNow_eq (msg : SwtmrMsg) (hPlace : s.writeCount ≠ 0) : ∃ readCount,
    s.dosSwtmrMakeMsgNow msg =
      { s with
        writeCount := s.writeCount - 1
        readCount := readCount
        msgs := s.msgs ++ [msg]
        pc := s.pc.woken } := by
  unfold dosSwtmrMakeMsgNow
  rw [if_neg hPlace]
  by_cases hLinked : s.pc.linked = true
  · refine ⟨s.readCount, ?_⟩
    simp only [if_pos hLinked]
    rfl
  · refine ⟨s.readCount + 1, ?_⟩
    simp only [if_neg hLinked, woken_of_not_linked hLinked]

/-- A tick without a message: the counter does not wrap, or the queue is full. -/
theorem dosTickUpdate_quiet (h : (s.now + 1) % 2 ^ 32 ≠ 0 ∨ s.writeCount = 0) : ∃ p,
    s.dosTickUpdate = { s with now := s.now + 1, pc := p } ∧ s.pc.Disturbed p := by
  have hSame : (if ({ s with now := s.now + 1 } : Timers).dosGetTick = 0 then
      ({ s with now := s.now + 1 } : Timers).dosSwtmrMakeMsgNow ⟨.overflow, none⟩
    else { s with now := s.now + 1 }) = { s with now := s.now + 1 } := by
    split
    next hWrap =>
      have hFull : s.writeCount = 0 := h.resolve_left fun hNe => hNe hWrap
      exact if_pos hFull
    next => rfl
  unfold dosTickUpdate
  simp only [hSame]
  split
  next wake deadline hPc =>
    split
    · exact ⟨_, rfl, hPc ▸ .elapsed wake (some deadline)⟩
    · exact ⟨_, rfl, .same _⟩
  next => exact ⟨_, rfl, .same _⟩

/-- A tick that wraps the counter and sends the message of it. -/
theorem dosTickUpdate_notice (hWrap : (s.now + 1) % 2 ^ 32 = 0) (hPlace : s.writeCount ≠ 0) :
    ∃ readCount, s.dosTickUpdate =
      { s with
        now := s.now + 1
        writeCount := s.writeCount - 1
        readCount := readCount
        msgs := s.msgs ++ [⟨.overflow, none⟩]
        pc := s.pc.woken } := by
  obtain ⟨readCount, hEq⟩ :=
    dosSwtmrMakeMsgNow_eq (s := { s with now := s.now + 1 }) ⟨.overflow, none⟩ hPlace
  have hTick : ({ s with now := s.now + 1 } : Timers).dosGetTick = 0 := hWrap
  refine ⟨readCount, ?_⟩
  unfold dosTickUpdate
  simp only [if_pos hTick, hEq]
  cases s.pc <;> rfl

theorem dosTickUpdate_outside (s : Timers) : Outside s s.dosTickUpdate := by
  by_cases h : (s.now + 1) % 2 ^ 32 = 0 ∧ s.writeCount ≠ 0
  · obtain ⟨readCount, hEq⟩ := dosTickUpdate_notice h.1 h.2
    rw [hEq]
    exact ⟨⟨rfl, rfl, rfl, rfl, rfl⟩, SwtmrPc.disturbed_woken _⟩
  · obtain ⟨p, hEq, hPc⟩ := dosTickUpdate_quiet (s := s) (by tauto)
    rw [hEq]
    exact ⟨⟨rfl, rfl, rfl, rfl, rfl⟩, hPc⟩

theorem dosTickUpdate_now (s : Timers) : s.dosTickUpdate.now = s.now + 1 := by
  by_cases h : (s.now + 1) % 2 ^ 32 = 0 ∧ s.writeCount ≠ 0
  · obtain ⟨readCount, hEq⟩ := dosTickUpdate_notice h.1 h.2
    rw [hEq]
  · obtain ⟨p, hEq, -⟩ := dosTickUpdate_quiet (s := s) (by tauto)
    rw [hEq]

/-- The steps of the timer task. -/
inductive TaskStep (s : Timers) : Timers → Prop where
  | sample (hPc : s.pc = .top) :
      TaskStep s { s with
        pc := .read s.dosGetSwtmr s.dosGetTick (s.waitTime s.dosGetSwtmr s.dosGetTick) }
  | poll (wake : Option SwtmrId) (cur : Nat) (hPc : s.pc = .read wake cur 0) :
      TaskStep s { s with pc := .expire wake }
  | block (wake : Option SwtmrId) (cur wait : Nat) (deadline : Option Nat)
      (hPc : s.pc = .read wake cur wait) : TaskStep s { s with pc := .blocked wake deadline }
  | take (wake : Option SwtmrId) (cur wait : Nat) (hPc : s.pc = .read wake cur wait)
      (hCount : s.readCount ≠ 0) : TaskStep s { s with readCount := s.readCount - 1, pc := .fetch }
  | giveUp (wake : Option SwtmrId) (linked : Bool) (hPc : s.pc = .timedOut wake linked) :
      TaskStep s { s with pc := .expire wake }
  | fetch (msg : SwtmrMsg) (rest : List SwtmrMsg) (hPc : s.pc = .fetch)
      (hMsgs : s.msgs = msg :: rest) : TaskStep s { s with msgs := rest, pc := .credit msg }
  | credit (msg : SwtmrMsg) (hPc : s.pc = .credit msg) :
      TaskStep s { s with writeCount := s.writeCount + 1, pc := .handle msg }
  | handle (msg : SwtmrMsg) (hPc : s.pc = .handle msg) :
      TaskStep s { s.dosSwtmrCmdHandle msg with pc := .top }
  | expired (t : SwtmrId) (hPc : s.pc = .expire (some t)) (hDue : s.wakeTime t ≤ s.dosGetTick) :
      TaskStep s { s with pc := .callback t }
  | again (hPc : s.pc = .expire none) : TaskStep s { s with pc := .expire s.dosGetSwtmr }
  | leave (wake : Option SwtmrId) (hPc : s.pc = .expire wake)
      (hLater : s.dosGetTick < s.wakeTimeOf wake) : TaskStep s { s with pc := .top }
  | callback (t : SwtmrId) (hPc : s.pc = .callback t) :
      TaskStep s { s.dosSwtmrTimeoutHandle t with
        pc := .expire (s.dosSwtmrTimeoutHandle t).dosGetSwtmr }

theorem taskStep_of_some (h : s.dosSwtmrTask = some s') : TaskStep s s' := by
  unfold dosSwtmrTask at h
  cases hPc : s.pc with
  | top =>
      simp only [hPc] at h
      rw [← Option.some.inj h]
      exact .sample hPc
  | read wake cur wait =>
      simp only [hPc] at h
      split at h
      · split at h
        next hWait =>
          rw [← Option.some.inj h]
          exact .poll wake cur (hWait ▸ hPc)
        next =>
          split at h
          · rw [← Option.some.inj h]
            exact .block wake cur wait none hPc
          · rw [← Option.some.inj h]
            exact .block wake cur wait _ hPc
      next hCount =>
        rw [← Option.some.inj h]
        exact .take wake cur wait hPc hCount
  | blocked wake deadline => simp [hPc] at h
  | timedOut wake linked =>
      simp only [hPc] at h
      rw [← Option.some.inj h]
      exact .giveUp wake linked hPc
  | fetch =>
      simp only [hPc] at h
      split at h
      · simp at h
      next msg rest hMsgs =>
        rw [← Option.some.inj h]
        exact .fetch msg rest hPc hMsgs
  | credit msg =>
      simp only [hPc] at h
      rw [← Option.some.inj h]
      exact .credit msg hPc
  | handle msg =>
      simp only [hPc] at h
      rw [← Option.some.inj h]
      exact .handle msg hPc
  | expire wake =>
      simp only [hPc] at h
      split at h
      next hDue =>
        cases wake with
        | none =>
            rw [← Option.some.inj h]
            exact .again hPc
        | some t =>
            rw [← Option.some.inj h]
            exact .expired t hPc hDue
      next hDue =>
        rw [← Option.some.inj h]
        exact .leave wake hPc (Nat.lt_of_not_le hDue)
  | callback t =>
      simp only [hPc] at h
      rw [← Option.some.inj h]
      exact .callback t hPc

end Timers

namespace SwtmrPc

/-- The timer that the task at this point has found at the front of the list. -/
def focus : SwtmrPc → Option (Option SwtmrId)
  | .read wake _ _ => some wake
  | .blocked wake _ => some wake
  | .timedOut wake _ => some wake
  | .expire wake => some wake
  | .callback t => some (some t)
  | _ => none

theorem Disturbed.focus {p p' : SwtmrPc} (h : Disturbed p p') :
    p'.focus = none ∨ p'.focus = p.focus := by
  cases h with
  | same => exact Or.inr rfl
  | woken wake deadline => exact Or.inl rfl
  | unlinked wake linked => exact Or.inr rfl
  | elapsed wake deadline => exact Or.inr rfl

def message : SwtmrPc → Option SwtmrMsg
  | .credit msg => some msg
  | .handle msg => some msg
  | _ => none

theorem Disturbed.message {p p' : SwtmrPc} (h : Disturbed p p') : p'.message = p.message := by
  cases h <;> rfl

end SwtmrPc

namespace Timers

variable {s s' : Timers} {t : SwtmrId} {event : TimerEvent}

/-- A step of the task away from its messages and from the end of a callback. -/
structure Walks (s s' : Timers) : Prop extends SameTimers s s' where
  now : s'.now = s.now
  msgs : s'.msgs = s.msgs
  writers : s'.writers = s.writers
  idle : s.pc.message = none
  away : s.pc ≠ .fetch
  message : s'.pc.message = none

theorem walks_to {p q : SwtmrPc} {readCount : Nat} (hPc : s.pc = p) (hIdle : p.message = none)
    (hAway : p ≠ .fetch) (hMessage : q.message = none) :
    Walks s { s with readCount := readCount, pc := q } where
  toSameTimers := ⟨rfl, rfl, rfl, rfl, rfl⟩
  now := rfl
  msgs := rfl
  writers := rfl
  idle := hPc ▸ hIdle
  away := hPc ▸ hAway
  message := hMessage

/-- A callback begins when the wake time of its timer has come. -/
theorem TaskStep.to_callback (h : TaskStep s s') (hPc : s'.pc = .callback t) :
    s.pc = .expire (some t) ∧ s.wakeTime t ≤ s.dosGetTick := by
  cases h with
  | expired x hOld hDue =>
      obtain rfl : x = t := SwtmrPc.callback.inj hPc
      exact ⟨hOld, hDue⟩
  | _ => cases hPc

/-- The steps of the task by what they do to its messages. -/
theorem TaskStep.kind (h : TaskStep s s') : Walks s s' ∨
    (∃ msg rest, s.pc = .fetch ∧ s.msgs = msg :: rest ∧
      s' = { s with msgs := rest, pc := .credit msg }) ∨
    (∃ msg, s.pc = .credit msg ∧ s' = { s with writeCount := s.writeCount + 1, pc := .handle msg }) ∨
    (∃ msg, s.pc = .handle msg ∧ s' = { s.dosSwtmrCmdHandle msg with pc := .top }) ∨
    ∃ t, s.pc = .callback t ∧ s' = { s.dosSwtmrTimeoutHandle t with
      pc := .expire (s.dosSwtmrTimeoutHandle t).dosGetSwtmr } := by
  cases h with
  | fetch msg rest hPc hMsgs => exact Or.inr (Or.inl ⟨msg, rest, hPc, hMsgs, rfl⟩)
  | credit msg hPc => exact Or.inr (Or.inr (Or.inl ⟨msg, hPc, rfl⟩))
  | handle msg hPc => exact Or.inr (Or.inr (Or.inr (Or.inl ⟨msg, hPc, rfl⟩)))
  | callback t hPc => exact Or.inr (Or.inr (Or.inr (Or.inr ⟨t, hPc, rfl⟩)))
  | sample hPc => exact Or.inl (walks_to hPc rfl (by simp) rfl)
  | poll wake cur hPc => exact Or.inl (walks_to hPc rfl (by simp) rfl)
  | block wake cur wait deadline hPc => exact Or.inl (walks_to hPc rfl (by simp) rfl)
  | take wake cur wait hPc hCount => exact Or.inl (walks_to hPc rfl (by simp) rfl)
  | giveUp wake linked hPc => exact Or.inl (walks_to hPc rfl (by simp) rfl)
  | expired t hPc hDue => exact Or.inl (walks_to hPc rfl (by simp) rfl)
  | again hPc => exact Or.inl (walks_to hPc rfl (by simp) rfl)
  | leave wake hPc hLater => exact Or.inl (walks_to hPc rfl (by simp) rfl)

section InFlight

variable {msg : SwtmrMsg}

/-- The messages in the order in which the task handles them, from the one that
it has in hand. -/
def line (s : Timers) : List SwtmrMsg := s.pc.message.toList ++ s.msgs

/-- The messages that are not handled yet. -/
def inFlight (s : Timers) : List SwtmrMsg := s.line ++ s.copying

theorem mem_inFlight : msg ∈ s.inFlight ↔
    s.pc.message = some msg ∨ msg ∈ s.msgs ∨ msg ∈ s.copying := by
  simp [inFlight, line]

theorem inFlight_api (s : Timers) (new : SwtmrMsg) (h : msg ∈ (s.dosSwtmrMakeMsg new).inFlight) :
    msg ∈ s.inFlight ∨ msg = new := by
  obtain ⟨hOutside, -, hMsgs, hCopying⟩ := dosSwtmrMakeMsg_sends s new
  rw [mem_inFlight, hOutside.pc.message, hMsgs] at h
  rw [mem_inFlight]
  rcases hCopying with hSame | hNew
  · rw [hSame] at h
    exact Or.inl h
  · rw [hNew, List.mem_append, List.mem_singleton] at h
    tauto

theorem inFlight_writer {i : Nat} (hStep : s.writerStep i = some s') (h : msg ∈ s'.inFlight) :
    msg ∈ s.inFlight := by
  obtain ⟨hOutside, -, hSends⟩ := writerStep_sends hStep
  rw [mem_inFlight, hOutside.pc.message] at h
  rw [mem_inFlight]
  rcases hSends with ⟨hMsgs, hCopying⟩ | ⟨before, after, new, hMsgs, hOld, hCopying⟩
  · rwa [hMsgs, hCopying] at h
  · rw [hMsgs, hCopying] at h
    rw [hOld]
    simp only [List.mem_append, List.mem_cons] at h ⊢
    tauto

theorem inFlight_tick (hQuiet : (s.now + 1) % 2 ^ 32 ≠ 0 ∨ s.writeCount = 0) :
    s.dosTickUpdate.inFlight = s.inFlight := by
  obtain ⟨p, hEq, hPc⟩ := dosTickUpdate_quiet hQuiet
  rw [hEq, inFlight, line, inFlight, line, hPc.message]
  rfl

/-- The timer task handles messages and adds none. -/
theorem inFlight_task (hStep : TaskStep s s') (h : msg ∈ s'.inFlight) : msg ∈ s.inFlight := by
  rw [mem_inFlight] at h ⊢
  rcases hStep.kind with hWalks | ⟨new, rest, hPc, hMsgs, rfl⟩ | ⟨new, hPc, rfl⟩ | ⟨new, hPc, rfl⟩ |
    ⟨t, hPc, rfl⟩
  · rw [hWalks.message, hWalks.msgs, copying, hWalks.writers] at h
    exact h.imp_left (fun hNone => nomatch hNone)
  · rw [hMsgs, List.mem_cons]
    rcases h with hHand | hRest | hCopying
    · exact Or.inr (Or.inl (Or.inl (Option.some.inj hHand).symm))
    · exact Or.inr (Or.inl (Or.inr hRest))
    · exact Or.inr (Or.inr hCopying)
  · rw [hPc]
    exact h
  · obtain ⟨-, -, hMsgs, -, -, hWriters, -, -⟩ := sameQueue_dosSwtmrCmdHandle s new
    simp only [hMsgs, copying, hWriters] at h
    exact h.imp_left (fun hNone => nomatch hNone)
  · obtain ⟨-, -, hMsgs, -, -, hWriters, -, -⟩ := sameQueue_dosSwtmrTimeoutHandle s t
    simp only [hMsgs, copying, hWriters] at h
    exact h.imp_left (fun hNone => nomatch hNone)

end InFlight

/-- The lists are in order, and the timer that the task has found is still the
first one. -/
structure TimersOk (s : Timers) : Prop extends ListsOk s where
  focus : ∀ wake, s.pc.focus = some wake → wake = s.swtmrPtr.head?

namespace TimersOk

theorem outside (h : TimersOk s) (hOutside : Outside s s') (hNow : s.now ≤ s'.now) :
    TimersOk s' := by
  refine ⟨h.toListsOk.congr hOutside.toSameTimers hNow, ?_⟩
  intro wake hWake
  rw [hOutside.swtmrPtr]
  rcases hOutside.pc.focus with hNone | hSame
  · rw [hNone] at hWake
    cases hWake
  · exact h.focus wake (hSame ▸ hWake)

/-- A step that leaves the timers alone and keeps or drops its finding. -/
theorem move (h : TimersOk s) {p : SwtmrPc} {msgs : List SwtmrMsg} {readCount writeCount : Nat}
    (hFocus : ∀ wake, p.focus = some wake → s.pc.focus = some wake ∨ wake = s.swtmrPtr.head?) :
    TimersOk { s with msgs := msgs, readCount := readCount, writeCount := writeCount, pc := p } := by
  refine ⟨h.toListsOk.congr ⟨rfl, rfl, rfl, rfl, rfl⟩ (Nat.le_refl _), ?_⟩
  intro wake hWake
  exact (hFocus wake hWake).elim (h.focus wake) id

/-- The timer whose callback runs is the first one, and it is running. -/
theorem callback_first (h : TimersOk s) (hPc : s.pc = .callback t) :
    s.swtmrPtr.head? = some t ∧ t ∈ s.swtmrPtr ∧ (s.swtmr t).swtmrStatus = .running := by
  have hHead : s.swtmrPtr.head? = some t := (h.focus (some t) (by rw [hPc]; rfl)).symm
  have hMem : t ∈ s.swtmrPtr := List.mem_of_mem_head? hHead
  exact ⟨hHead, hMem, h.running_ptr hMem⟩

theorem task (h : TimersOk s) (hStep : TaskStep s s') : TimersOk s' := by
  cases hStep with
  | sample hPc => exact h.move fun wake hWake => Or.inr (Option.some.inj hWake).symm
  | poll wake cur hPc => exact h.move fun w hWake => Or.inl (by rw [hPc]; exact hWake)
  | block wake cur wait deadline hPc => exact h.move fun w hWake => Or.inl (by rw [hPc]; exact hWake)
  | take wake cur wait hPc hCount => exact h.move (by simp [SwtmrPc.focus])
  | giveUp wake linked hPc => exact h.move fun w hWake => Or.inl (by rw [hPc]; exact hWake)
  | fetch msg rest hPc hMsgs => exact h.move (by simp [SwtmrPc.focus])
  | credit msg hPc => exact h.move (by simp [SwtmrPc.focus])
  | handle msg hPc =>
      have hLists : ListsOk (s.dosSwtmrCmdHandle msg) := by
        rcases dosSwtmrCmdHandle_cases s msg with hEdited | ⟨-, hSwitch⟩
        · exact h.edited hEdited
        · rw [hSwitch]
          exact h.switch
      refine ⟨hLists.congr ⟨rfl, rfl, rfl, rfl, rfl⟩ (Nat.le_refl _), ?_⟩
      simp [SwtmrPc.focus]
  | expired t hPc hDue => exact h.move fun w hWake => Or.inl (by rw [hPc]; exact hWake)
  | again hPc => exact h.move fun wake hWake => Or.inr (Option.some.inj hWake).symm
  | leave wake hPc hLater => exact h.move (by simp [SwtmrPc.focus])
  | callback t hPc =>
      have hEdited := edited_dosSwtmrTimeoutHandle (h.callback_first hPc).2.2
      refine ⟨(h.edited hEdited).congr ⟨rfl, rfl, rfl, rfl, rfl⟩ (Nat.le_refl _), ?_⟩
      intro wake hWake
      exact (Option.some.inj hWake).symm

theorem create (h : TimersOk s) {timeout mode : Nat} (hFree : s.alloc t = false)
    (hTimeout : 0 < timeout ∧ timeout < 2 ^ 32) : TimersOk (s.dosSwtmrCreate t timeout mode) :=
  ⟨h.toListsOk.create hFree hTimeout, h.focus⟩

theorem step (h : TimersOk s) (hStep : timerStep s event = some s') : TimersOk s' := by
  cases event with
  | create t timeout mode =>
      obtain ⟨⟨hFree, hPos, hLt, -⟩, hEq⟩ := Option.ite_none_right_eq_some.mp hStep
      rw [← Option.some.inj hEq]
      exact h.create hFree ⟨hPos, hLt⟩
  | api op t =>
      obtain ⟨-, hEq⟩ := Option.ite_none_right_eq_some.mp hStep
      rw [← Option.some.inj hEq]
      obtain ⟨hOutside, hNow, -⟩ := dosSwtmrMakeMsg_sends s ⟨op, some t⟩
      exact h.outside hOutside hNow.ge
  | writer i =>
      obtain ⟨hOutside, hNow, -⟩ := writerStep_sends hStep
      exact h.outside hOutside hNow.ge
  | tick =>
      rw [← Option.some.inj hStep]
      exact h.outside (dosTickUpdate_outside s) (by rw [dosTickUpdate_now]; omega)
  | task => exact h.task (taskStep_of_some hStep)

theorem init (len : Nat) (nullUnused : Bool) : TimersOk (dosSwtmrInit len nullUnused) := by
  refine ⟨⟨?_, ?_, ?_, ?_, ?_, ?_, ?_, ?_⟩, ?_⟩ <;>
    simp [dosSwtmrInit, KeyOrder.Sorted, SwtmrPc.focus]

end TimersOk

end Timers

end DoraOS
