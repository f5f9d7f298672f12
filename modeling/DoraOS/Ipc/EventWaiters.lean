import DoraOS.Ipc.Coherent
import DoraOS.Kernel.ListWalk
import DoraOS.Kernel.Moves

/-! The event calls of `src/event.c` taken as atomic, together with the kernel
operations. No task is left waiting for flags that are set: a new waiter has
just been checked, `dos_event_set` checks every waiter once, and all other
operations only clear flags or take tasks off the pend lists. -/
namespace DoraOS

open Kernel

namespace Event

def Got (event : Event) (wantEvent op : BitVec 32) : Prop :=
  if op &&& waitEventOp = waitAnyEvent then event.eventFlag &&& wantEvent ≠ 0
  else if op &&& waitEventOp = waitAllEvent then event.eventFlag &&& wantEvent = wantEvent
  else False

theorem check_of_got {event : Event} {wantEvent op : BitVec 32} (h : event.Got wantEvent op) :
    event.dosCheckEvent wantEvent op =
      if op &&& noClrEvent = 0 then
        ({ event with eventFlag := event.eventFlag &&& ~~~wantEvent }, true)
      else (event, true) := if_pos h

theorem check_of_not_got {event : Event} {wantEvent op : BitVec 32}
    (h : ¬event.Got wantEvent op) : event.dosCheckEvent wantEvent op = (event, false) := if_neg h

theorem check_got (event : Event) (wantEvent op : BitVec 32) :
    (event.dosCheckEvent wantEvent op).2 = true ↔ event.Got wantEvent op := by
  by_cases hGot : event.Got wantEvent op
  · rw [check_of_got hGot]
    split
    · exact iff_of_true rfl hGot
    · exact iff_of_true rfl hGot
  · rw [check_of_not_got hGot]
    exact iff_of_false (by simp) hGot

def Sub (event' event : Event) : Prop :=
  event'.eventFlag &&& event.eventFlag = event'.eventFlag

theorem check_sub (event : Event) (wantEvent op : BitVec 32) :
    (event.dosCheckEvent wantEvent op).1.Sub event := by
  have hSame : event.Sub event := BitVec.and_self
  by_cases hGot : event.Got wantEvent op
  · rw [check_of_got hGot]
    split
    · show event.eventFlag &&& ~~~wantEvent &&& event.eventFlag = event.eventFlag &&& ~~~wantEvent
      rw [BitVec.and_assoc, BitVec.and_comm (~~~wantEvent), ← BitVec.and_assoc, BitVec.and_self]
    · exact hSame
  · rw [check_of_not_got hGot]
    exact hSame

/-- Clearing flags satisfies no waiter. -/
theorem Sub.check {event' event : Event} (h : event'.Sub event) {wantEvent op : BitVec 32}
    (hNot : (event.dosCheckEvent wantEvent op).2 = false) :
    (event'.dosCheckEvent wantEvent op).2 = false := by
  rw [Bool.eq_false_iff] at hNot ⊢
  intro hGot
  apply hNot
  rw [check_got] at hGot ⊢
  have hPart : event'.eventFlag &&& (event.eventFlag &&& wantEvent) =
      event'.eventFlag &&& wantEvent := by
    rw [← BitVec.and_assoc, h]
  unfold Got at hGot ⊢
  split
  · rename_i hAny
    rw [if_pos hAny] at hGot
    intro hNone
    rw [hNone] at hPart
    exact hGot (hPart.symm.trans BitVec.and_zero)
  · rename_i hAny
    rw [if_neg hAny] at hGot
    split
    · rename_i hAll
      rw [if_pos hAll] at hGot
      calc event.eventFlag &&& wantEvent
          = event.eventFlag &&& (event'.eventFlag &&& wantEvent) := by rw [hGot]
        _ = event'.eventFlag &&& (event.eventFlag &&& wantEvent) := by
            rw [← BitVec.and_assoc, BitVec.and_comm event.eventFlag, BitVec.and_assoc]
        _ = wantEvent := hPart.trans hGot
    · rename_i hAll
      rw [if_neg hAll] at hGot
      exact hGot

end Event

namespace System

variable (s : System)

/-- What a turn of the loop of `dos_event_set` does with the task it has
come to. -/
def dosEventVisit (e : Nat) (t : TaskId) : System :=
  let check := (s.event e).dosCheckEvent (s.k.tcb t).waitEvent (s.k.tcb t).waitEventOpt
  if check.2 then
    (s.setEvent e check.1).setKernel
      ((s.k.mapTcb t fun tcb => { tcb with eventGet := tcb.waitEvent }).dosTaskWake t).dosScheduler
  else s

/-- The loop of `dos_event_set` with the tasks it comes to, one after another.
There is no result when it takes the owner of an end item for a task. -/
def dosEventWalk (e : Nat) : Nat → System → Option (System × List TaskId)
  | 0, s => some (s, [])
  | value + 1, s =>
      let r := s.k.lists.dosGetNextTask (.pend (.event e))
      match r.2 with
      | none => none
      | some t =>
          (dosEventWalk e value ((s.setKernel { s.k with lists := r.1 }).dosEventVisit e t)).map
            fun w => (w.1, t :: w.2)

/-- `dos_event_set` from its call to its return, without the window in front of
`dos_scheduler_lock` in which another task may run. -/
def dosEventSetNow (e : Nat) (setEvent : BitVec 32) : Option (System × List TaskId) :=
  if setEvent = 0 then some (s, [])
  else
    let s := s.setEvent e { eventFlag := (s.event e).eventFlag ||| setEvent }
    if s.pending (.event e) = [] then some (s, [])
    else
      (dosEventWalk e (s.pending (.event e)).length (s.setKernel s.k.dosSchedulerLock)).map
        fun w => (w.1.setKernel w.1.k.dosSchedulerUnlock, w.2)

/-- `dos_event_wait` of the current task, up to its return or its wait. -/
def dosEventWaitNow (e : Nat) (waitEvent op : BitVec 32) (timeout : Nat) : Option System :=
  match s.k.dosCurrentTask with
  | some c => if s.k.MayBlock c then some (s.dosEventWait c e waitEvent op timeout).1 else none
  | none => none

/-- The rest of `dos_event_wait` when the task runs again. -/
def dosEventResume (e : Nat) (waitEvent : BitVec 32) : Option System :=
  match s.k.dosCurrentTask with
  | some c =>
      if s.k.Live c ∧ s.k.is c .ready = true then
        if s.k.is c .timeout then some (s.cleanUpWait c (.event e waitEvent)).1 else some s
      else none
  | none => none

end System

/-- The event calls and the other kernel operations. -/
inductive EventOp where
  | wait (e : Nat) (waitEvent op : BitVec 32) (timeout : Nat)
  | resume (e : Nat) (waitEvent : BitVec 32)
  | set (e : Nat) (setEvent : BitVec 32)
  | kernel (event : KernelEvent)

/-- A task comes to wait for an event through `dos_event_wait` only. -/
def KernelEvent.waitsForEvent : KernelEvent → Bool
  | .wait (.event _) _ => true
  | _ => false

def eventStep (s : System) : EventOp → Option System
  | .wait e waitEvent op timeout => s.dosEventWaitNow e waitEvent op timeout
  | .resume e waitEvent => s.dosEventResume e waitEvent
  | .set e setEvent => (s.dosEventSetNow e setEvent).map Prod.fst
  | .kernel event =>
      if event.waitsForEvent then none else (kernelStep s.k event).map s.setKernel

/-- The flags that a task waits for are not set. -/
def System.Unsatisfied (s : System) (e : Nat) (t : TaskId) : Prop :=
  ((s.event e).dosCheckEvent (s.k.tcb t).waitEvent (s.k.tcb t).waitEventOpt).2 = false

/-- No task on the pend list of an event is satisfied. -/
structure EventsOk (cfg : Config) (s : System) : Prop where
  member : Membership cfg s.k
  waiting : ∀ e t, t ∈ s.pending (.event e) → s.Unsatisfied e t

variable {cfg : Config} {s s' : System} {k : Kernel} {e : Nat} {t : TaskId}

section Frame

theorem Kernel.Membership.mem_pending (h : Membership cfg s.k) (id : PendId) :
    t ∈ s.pending id ↔ s.k.lists.owner .pend t = some (.pend id) :=
  h.linked.mem_iff (.pend id) t

theorem Kernel.Membership.live_of_pending (h : Membership cfg s.k) {id : PendId}
    (hMem : t ∈ s.pending id) : s.k.Live t := by
  by_contra hDead
  have hOwner := (h.mem_pending id).mp hMem
  have hNone : s.k.lists.owner .pend t = none := (h.dead t hDead).pend
  rw [hNone] at hOwner
  cases hOwner

/-- A task that was unsatisfied stays so when flags are cleared and nothing
disturbs it. -/
theorem unsatisfied_of_calm (hMember : Membership cfg s.k) (hMember' : Membership cfg s'.k)
    (hCalm : Calm s.k s'.k) (hSub : (s'.event e).Sub (s.event e))
    (hMem : t ∈ s'.pending (.event e)) (h : t ∈ s.pending (.event e) → s.Unsatisfied e t) :
    s'.Unsatisfied e t := by
  obtain ⟨hOwner, hWant, hOpt⟩ := hCalm t e ((hMember'.mem_pending _).mp hMem)
  have hBefore := h ((hMember.mem_pending _).mpr hOwner)
  unfold System.Unsatisfied at hBefore ⊢
  rw [hWant, hOpt]
  exact hSub.check hBefore

/-- An operation that touches no flags and sends no task waiting for an event. -/
theorem EventsOk.of_calm (h : EventsOk cfg s) (hMember : Membership cfg s'.k)
    (hCalm : Calm s.k s'.k) (hEvent : s'.event = s.event) : EventsOk cfg s' where
  member := hMember
  waiting e t hMem := by
    refine unsatisfied_of_calm h.member hMember hCalm ?_ hMem (h.waiting e t)
    rw [hEvent]
    exact BitVec.and_self

theorem membership_mapTcb (h : Membership cfg k) {f : Tcb → Tcb} (hf : ∀ tcb : Tcb,
    (f tcb).taskStatus = tcb.taskStatus ∧ (f tcb).priority = tcb.priority) :
    Membership cfg (k.mapTcb t f) := by
  refine h.congr rfl ?_ h.linked h.pair id
  intro x
  simp only [view, mapTcb, priority]
  split
  · rw [(hf _).1, (hf _).2]
  · rfl

theorem membership_setWaitEvent (h : Membership cfg s.k) (c : TaskId) (waitEvent op : BitVec 32) :
    Membership cfg (s.setWaitEvent c waitEvent op).k :=
  membership_mapTcb (t := c) (f := fun tcb => { tcb with waitEvent := waitEvent, waitEventOpt := op })
    h fun _ => ⟨rfl, rfl⟩

theorem membership_next (h : Membership cfg k) (l : ListId) :
    Membership cfg { k with lists := (k.lists.dosGetNextTask l).1 } := by
  refine h.congr rfl (fun _ => rfl) (h.linked.next l) h.pair ?_
  intro hBitmap p
  rw [show ({ k with lists := (k.lists.dosGetNextTask l).1 } : Kernel).dosTaskPriority =
    k.dosTaskPriority from rfl, TaskLists.next_items]
  exact hBitmap p

/-- `dos_task_wake` changes a pend list by unlinking the task only. -/
theorem visits_wake (h : k.lists.Linked) (id : PendId) :
    (k.dosTaskWake t).lists.visits (.pend id) =
      (k.lists.dosTaskItemDel .pend t).1.visits (.pend id) := by
  have hStatus : ∀ l, (k.lists.dosTaskItemDel .pend t).1.owner .status t = some l →
      l ≠ .pend id := by
    rintro l hOwner rfl
    cases (h.del .pend t).kind .status t _ hOwner
  have hItems : (k.dosTaskWake t).lists.items (.pend id) =
      (k.lists.dosTaskItemDel .pend t).1.items (.pend id) := by
    show (TaskLists.dosTaskItemInsert _ (.priority _) t).items (.pend id) = _
    rw [TaskLists.insert_items, if_neg (by simp)]
    show ((k.lists.dosTaskItemDel .pend t).1.dosTaskItemDel .status t).1.items (.pend id) = _
    rw [TaskLists.del_items, if_neg fun hOwner => hStatus _ hOwner rfl]
  have hCursor : (k.dosTaskWake t).lists.cursor (.pend id) =
      (k.lists.dosTaskItemDel .pend t).1.cursor (.pend id) := by
    show (TaskLists.dosTaskItemInsert _ (.priority _) t).cursor (.pend id) = _
    rw [TaskLists.insert_cursor]
    show ((k.lists.dosTaskItemDel .pend t).1.dosTaskItemDel .status t).1.cursor (.pend id) = _
    rw [TaskLists.del_cursor, if_neg fun hBoth => hStatus _ hBoth.1 rfl]
  rw [TaskLists.visits, hItems, hCursor, TaskLists.visits]

end Frame

section Walk

/-- Half-way through the loop of `dos_event_set`: the tasks of `todo` come
next, and those of `done` were examined and stay. -/
structure Walking (cfg : Config) (s : System) (e : Nat) (todo done : List TaskId) : Prop where
  member : Membership cfg s.k
  order : s.k.lists.visits (.pend (.event e)) = todo ++ done
  seen : ∀ t ∈ done, s.Unsatisfied e t
  other : ∀ e' t, e' ≠ e → t ∈ s.pending (.event e') → s.Unsatisfied e' t

variable {todo done : List TaskId}

theorem Kernel.Membership.mem_visits (h : Membership cfg s.k) {id : PendId} {order : List TaskId}
    (hOrder : s.k.lists.visits (.pend id) = order) : t ∈ order ↔ t ∈ s.pending id := by
  rw [← hOrder]
  exact (h.linked.visits_perm (.pend id)).mem_iff

/-- The kernel part of waking a satisfied task. -/
def wakeVisited (k : Kernel) (t : TaskId) : Kernel :=
  ((k.mapTcb t fun tcb => { tcb with eventGet := tcb.waitEvent }).dosTaskWake t).dosScheduler

theorem calm_wakeVisited (k : Kernel) (t : TaskId) : Calm k (wakeVisited k t) := by
  have hMap : Moves k (k.mapTcb t fun tcb => { tcb with eventGet := tcb.waitEvent }) :=
    moves_mapTcb k t fun _ => ⟨⟨rfl, rfl⟩, id⟩
  exact ((hMap.trans (moves_wake _ t)).trans (moves_scheduler _)).calm

theorem membership_wakeVisited (h : Membership cfg k) (hLive : k.Live t) :
    Membership cfg (wakeVisited k t) := by
  let k₁ := k.mapTcb t fun tcb => { tcb with eventGet := tcb.waitEvent }
  have hMap : Membership cfg k₁ := membership_mapTcb h fun _ => ⟨rfl, rfl⟩
  have hView : k₁.view t = k.view t := by simp [k₁, view, mapTcb, priority]
  exact (hMap.wake ((live_congr hView).mpr hLive)).sameTasks (sameTasks_scheduler _)

theorem visits_wakeVisited (h : k.lists.Linked) {id : PendId} {rest : List TaskId}
    (hCursor : k.lists.cursor (.pend id) = some t)
    (hVisits : k.lists.visits (.pend id) = rest ++ [t]) :
    (wakeVisited k t).lists.visits (.pend id) = rest := by
  rw [wakeVisited, (sameTasks_scheduler _).lists, visits_wake (k := k.mapTcb t _) h]
  exact h.del_visits hCursor hVisits

/-- The examined task is under the cursor. If it is woken it leaves the list,
and its flags may be cleared. -/
theorem walking_woken (hMember : Membership cfg s.k)
    (hCursor : s.k.lists.cursor (.pend (.event e)) = some t)
    (hOrder : s.k.lists.visits (.pend (.event e)) = todo ++ done ++ [t])
    (hSeen : ∀ x ∈ done, s.Unsatisfied e x)
    (hOther : ∀ e' x, e' ≠ e → x ∈ s.pending (.event e') → s.Unsatisfied e' x) {event' : Event}
    (hSub : event'.Sub (s.event e))
    (hs : s' = (s.setEvent e event').setKernel (wakeVisited s.k t)) :
    Walking cfg s' e todo done := by
  have hMem : t ∈ s.pending (.event e) := by
    rw [← hMember.mem_visits hOrder]
    simp
  have hKernel : s'.k = wakeVisited s.k t := by rw [hs]; rfl
  have hMember' : Membership cfg s'.k := by
    rw [hKernel]
    exact membership_wakeVisited hMember (hMember.live_of_pending hMem)
  have hCalm : Calm s.k s'.k := by
    rw [hKernel]
    exact calm_wakeVisited s.k t
  have hFlags : ∀ e', (s'.event e').Sub (s.event e') := by
    intro e'
    rw [hs]
    show Event.Sub (if e' = e then event' else s.event e') _
    split
    · rename_i hSame
      rw [hSame]
      exact hSub
    · exact BitVec.and_self
  have hOrder' : s'.k.lists.visits (.pend (.event e)) = todo ++ done := by
    rw [hKernel]
    exact visits_wakeVisited hMember.linked hCursor hOrder
  refine ⟨hMember', hOrder', ?_, ?_⟩
  · intro x hx
    have hMem' := (hMember'.mem_visits hOrder').mp (List.mem_append_right todo hx)
    exact unsatisfied_of_calm hMember hMember' hCalm (hFlags e) hMem' fun _ => hSeen x hx
  · intro e' x hNe hx
    exact unsatisfied_of_calm hMember hMember' hCalm (hFlags e') hx (hOther e' x hNe)

/-- One turn of the loop. The task that is first in the order of visits is
examined; it leaves the list or goes to the end of the order. -/
theorem Walking.visit (h : Walking cfg s e (t :: todo) done) :
    (s.k.lists.dosGetNextTask (.pend (.event e))).2 = some t ∧
      ∃ done', Walking cfg ((s.setKernel { s.k with
        lists := (s.k.lists.dosGetNextTask (.pend (.event e))).1 }).dosEventVisit e t) e
        todo done' := by
  obtain ⟨hNext, hOrder, hCursor⟩ := h.member.linked.next_visits h.order
  refine ⟨hNext, ?_⟩
  let s₁ := s.setKernel { s.k with lists := (s.k.lists.dosGetNextTask (.pend (.event e))).1 }
  have hMember : Membership cfg s₁.k := membership_next h.member _
  have hOther : ∀ e' x, e' ≠ e → x ∈ s₁.pending (.event e') → s₁.Unsatisfied e' x := by
    intro e' x hNe hx
    rw [show s₁.pending (.event e') = s.pending (.event e') from TaskLists.next_items _ _] at hx
    exact h.other e' x hNe hx
  let check := (s₁.event e).dosCheckEvent (s₁.k.tcb t).waitEvent (s₁.k.tcb t).waitEventOpt
  cases hCheck : check.2 with
  | true =>
      exact ⟨done, walking_woken (s := s₁) hMember hCursor hOrder h.seen hOther
        (Event.check_sub _ _ _) (if_pos hCheck)⟩
  | false =>
      have hSame : s₁.dosEventVisit e t = s₁ := if_neg (Bool.eq_false_iff.mp hCheck)
      refine ⟨done ++ [t], ?_⟩
      show Walking cfg (s₁.dosEventVisit e t) e todo (done ++ [t])
      rw [hSame]
      refine ⟨hMember, (List.append_assoc todo done [t]) ▸ hOrder, ?_, hOther⟩
      intro x hx
      rcases List.mem_append.mp hx with hx | hx
      · exact h.seen x hx
      · rw [List.mem_singleton.mp hx]
        exact hCheck

/-- The loop comes to every task of the list once, and leaves none that is
satisfied. -/
theorem Walking.walk (h : Walking cfg s e todo done) :
    ∃ s', System.dosEventWalk e todo.length s = some (s', todo) ∧ EventsOk cfg s' := by
  induction todo generalizing s done with
  | nil =>
      refine ⟨s, rfl, h.member, ?_⟩
      intro e' t hMem
      by_cases hSame : e' = e
      · subst hSame
        exact h.seen t ((h.member.mem_visits h.order).mpr hMem)
      · exact h.other e' t hSame hMem
  | cons t todo ih =>
      obtain ⟨hNext, done', hVisit⟩ := h.visit
      obtain ⟨s', hWalk, hOk⟩ := ih hVisit
      refine ⟨s', ?_, hOk⟩
      rw [List.length_cons, System.dosEventWalk]
      dsimp only
      rw [hNext]
      dsimp only
      rw [hWalk]
      rfl

end Walk

section Calls

/-- `dos_event_set` succeeds on every list and cursor, comes to each waiter
once and leaves none that is satisfied. -/
theorem EventsOk.set (h : EventsOk cfg s) (e : Nat) (setEvent : BitVec 32) :
    ∃ s' visited, s.dosEventSetNow e setEvent = some (s', visited) ∧ EventsOk cfg s' ∧
      (setEvent ≠ 0 → visited.Perm (s.pending (.event e))) := by
  unfold System.dosEventSetNow
  split
  · rename_i hZero
    exact ⟨s, [], rfl, h, fun hSome => absurd hZero hSome⟩
  · let s₁ := s.setEvent e { eventFlag := (s.event e).eventFlag ||| setEvent }
    have hOther : ∀ e' x, e' ≠ e → x ∈ s₁.pending (.event e') → s₁.Unsatisfied e' x := by
      intro e' x hNe hx
      have hBefore := h.waiting e' x hx
      unfold System.Unsatisfied at hBefore ⊢
      rw [show s₁.event e' = s.event e' from if_neg hNe]
      exact hBefore
    dsimp only
    split
    · rename_i hEmpty
      refine ⟨s₁, [], rfl, ⟨h.member, ?_⟩, fun _ => hEmpty ▸ List.Perm.refl _⟩
      intro e' x hx
      by_cases hSame : e' = e
      · subst hSame
        rw [hEmpty] at hx
        cases hx
      · exact hOther e' x hSame hx
    · have hPerm := h.member.linked.visits_perm (.pend (.event e))
      have hStart : Walking cfg (s₁.setKernel s₁.k.dosSchedulerLock) e
          (s.k.lists.visits (.pend (.event e))) [] :=
        ⟨h.member.congr rfl (fun _ => rfl) h.member.linked h.member.pair id,
          (List.append_nil _).symm, fun _ hx => absurd hx List.not_mem_nil, hOther⟩
      obtain ⟨s₂, hWalk, hOk⟩ := hStart.walk
      rw [hPerm.length_eq] at hWalk
      refine ⟨s₂.setKernel s₂.k.dosSchedulerUnlock, _, ?_, ?_, fun _ => hPerm⟩
      · show (System.dosEventWalk e (s.k.lists.items (.pend (.event e))).length _).map _ = _
        rw [hWalk]
        rfl
      · have hUnlock : kernelStep s₂.k .unlock = some s₂.k.dosSchedulerUnlock := rfl
        exact hOk.of_calm (membership_step hOk.member hUnlock) (moves_unlock _).calm rfl

/-- Clearing flags alone. -/
theorem EventsOk.clear (h : EventsOk cfg s) {event' : Event} (hSub : event'.Sub (s.event e)) :
    EventsOk cfg (s.setEvent e event') where
  member := h.member
  waiting e' x hx := by
    refine unsatisfied_of_calm h.member h.member (moves_of_eq rfl rfl rfl id).calm ?_ hx
      (h.waiting e' x)
    show Event.Sub (if e' = e then event' else s.event e') _
    split
    · rename_i hSame
      rw [hSame]
      exact hSub
    · exact BitVec.and_self

/-- A task that was checked and is not satisfied goes to wait. -/
theorem EventsOk.block (h : EventsOk cfg s) {c : TaskId} (hBlock : s.k.MayBlock c)
    {waitEvent op : BitVec 32} (hNot : ((s.event e).dosCheckEvent waitEvent op).2 = false)
    (timeout : Nat) :
    EventsOk cfg ((s.setWaitEvent c waitEvent op).block c (.event e waitEvent) timeout).1 := by
  obtain ⟨_, hLive, hReady, hSuspend, hIdle⟩ := hBlock
  let k₁ := (s.setWaitEvent c waitEvent op).k
  let k₂ := (k₁.dosSetTaskStatus c Flag.suspend.mask).dosTaskItemInsert (.pend (.event e)) c
  let k₃ := (k₁.dosTaskWait c (.event e) timeout).dosScheduler
  have hMember₁ : Membership cfg k₁ := membership_setWaitEvent h.member c waitEvent op
  have hView : k₁.view c = s.k.view c := by
    simp [k₁, System.setWaitEvent, System.setKernel, view, mapTcb, priority]
  have hIs : ∀ f, k₁.is c f = s.k.is c f := by
    intro f
    show Flag.test (k₁.view c).status f = _
    rw [hView]
    rfl
  have hWait : Membership cfg (k₁.dosTaskWait c (.event e) timeout) :=
    hMember₁.wait ((live_congr hView).mpr hLive) hIdle ((hIs _).trans hSuspend)
      ((hIs _).trans hReady) (.event e) timeout
  have hMember : Membership cfg k₃ := hWait.sameTasks (sameTasks_scheduler _)
  have hCalm : Calm k₂ k₃ :=
    ((moves_wait_linked k₁ c hMember₁.pair (.event e) timeout).trans (moves_scheduler _)).calm
  refine ⟨hMember, ?_⟩
  intro e' x hx
  obtain ⟨hOwner, hWant, hOpt⟩ := hCalm x e' ((hMember.linked.mem_iff _ x).mp hx)
  show ((s.event e').dosCheckEvent (k₃.tcb x).waitEvent (k₃.tcb x).waitEventOpt).2 = false
  rw [hWant, hOpt]
  by_cases hEq : x = c
  · subst hEq
    have hSame : e = e' := by
      simpa [k₂, dosTaskItemInsert, ListId.kind] using hOwner
    rw [← hSame]
    simpa [k₂, k₁, dosTaskItemInsert, dosSetTaskStatus, mapTcb, System.setWaitEvent,
      System.setKernel] using hNot
  · have hBefore : s.k.lists.owner .pend x = some (.pend (.event e')) := by
      simpa [k₂, k₁, dosTaskItemInsert, dosSetTaskStatus, mapTcb, System.setWaitEvent,
        System.setKernel, hEq] using hOwner
    have hTcb : k₂.tcb x = s.k.tcb x := by
      simp [k₂, k₁, dosTaskItemInsert, dosSetTaskStatus, mapTcb, System.setWaitEvent,
        System.setKernel, hEq]
    rw [hTcb]
    exact h.waiting e' x ((h.member.mem_pending _).mpr hBefore)

theorem EventsOk.wait (h : EventsOk cfg s) {waitEvent op : BitVec 32} {timeout : Nat}
    (hStep : s.dosEventWaitNow e waitEvent op timeout = some s') : EventsOk cfg s' := by
  unfold System.dosEventWaitNow at hStep
  split at hStep
  · rename_i c hCurrent
    split at hStep
    · rename_i hBlock
      rw [← Option.some.inj hStep]
      unfold System.dosEventWait
      split
      · exact h
      · dsimp only
        split
        · exact h.clear (Event.check_sub _ _ _)
        · rename_i hNot
          split
          · exact h
          · exact h.block hBlock (Bool.eq_false_iff.mpr hNot) timeout
    · cases hStep
  · cases hStep

/-- A task that leaves its wait is on no pend list. -/
theorem calm_leave (k : Kernel) (c : TaskId) (f : Tcb → Tcb) :
    Calm k ((k.dosTimeoutCleanUp c).mapTcb c f) := by
  intro x e hx
  by_cases hEq : x = c
  · simp [mapTcb, dosTimeoutCleanUp, dosTaskItemDel, hEq] at hx
  · have hTcb : ((k.dosTimeoutCleanUp c).mapTcb c f).tcb x = (k.dosTimeoutCleanUp c).tcb x :=
      if_neg hEq
    rw [hTcb]
    exact (moves_timeoutCleanUp k c).calm x e hx

theorem EventsOk.resume (h : EventsOk cfg s) {waitEvent : BitVec 32}
    (hStep : s.dosEventResume e waitEvent = some s') : EventsOk cfg s' := by
  unfold System.dosEventResume at hStep
  split at hStep
  · rename_i c hCurrent
    simp only [Option.ite_none_right_eq_some] at hStep
    obtain ⟨⟨hLive, hReady⟩, hStep⟩ := hStep
    split at hStep
    · rw [← Option.some.inj hStep]
      have hLeft : Membership cfg (s.setKernel (s.k.dosTimeoutCleanUp c)).k :=
        h.member.timeoutCleanUp hLive hReady
      exact h.of_calm (membership_setWaitEvent hLeft c _ 0) (calm_leave s.k c _) rfl
    · rw [← Option.some.inj hStep]
      exact h
  · cases hStep

end Calls

theorem EventsOk.step (h : EventsOk cfg s) {op : EventOp} (hStep : eventStep s op = some s') :
    EventsOk cfg s' := by
  cases op with
  | wait e waitEvent op timeout => exact h.wait hStep
  | resume e waitEvent => exact h.resume hStep
  | set e setEvent =>
      obtain ⟨s₁, visited, hSet, hOk, _⟩ := h.set e setEvent
      rw [eventStep, hSet] at hStep
      rw [← Option.some.inj hStep]
      exact hOk
  | kernel event =>
      simp only [eventStep, Option.ite_none_left_eq_some, Option.map_eq_some_iff] at hStep
      obtain ⟨hOther, k', hKernel, rfl⟩ := hStep
      refine h.of_calm (membership_step h.member hKernel)
        (calm_step h.member.pair ?_ hKernel) rfl
      rintro e timeout rfl
      exact hOther rfl

theorem eventsOk_init {idle : TaskId} (hInit : s.Initial cfg idle) : EventsOk cfg s where
  member := membership_init hInit.kernel
  waiting e t hMem := by
    rw [System.pending_init hInit] at hMem
    cases hMem

/-- The cursor of the pend list of an event put somewhere else. -/
def System.withCursor (s : System) (e : Nat) (cursor : Option TaskId) : System :=
  s.setKernel { s.k with
    lists := s.k.lists.setList (.pend (.event e))
      { items := s.pending (.event e), taskItem := cursor } }

theorem EventsOk.withCursor (h : EventsOk cfg s) {cursor : Option TaskId}
    (hCursor : ∀ t, cursor = some t → t ∈ s.pending (.event e)) :
    EventsOk cfg (s.withCursor e cursor) := by
  have hItems : ∀ l, (s.withCursor e cursor).k.lists.items l = s.k.lists.items l :=
    fun l => TaskLists.setCursor_items _ l cursor
  have hMember : Membership cfg (s.withCursor e cursor).k := by
    refine h.member.congr rfl (fun _ => rfl)
      (h.member.linked.setCursor (.pend (.event e)) cursor hCursor) h.member.pair ?_
    intro hBitmap p
    rw [hItems]
    exact hBitmap p
  exact h.of_calm hMember (moves_of_eq rfl rfl rfl id).calm rfl

/-- In every run of event calls and other kernel operations, no task on the
pend list of an event is satisfied, and wherever the cursor of the list is,
`dos_event_set` comes to every waiter exactly once. -/
theorem no_satisfied_waiter_stays {idle : TaskId} {s₀ : System} (hInit : s₀.Initial cfg idle)
    {ops : List EventOp} (hRun : Transition.Runs eventStep s₀ ops s) :
    (∀ e t, t ∈ s.pending (.event e) →
      ((s.event e).dosCheckEvent (s.k.tcb t).waitEvent (s.k.tcb t).waitEventOpt).2 = false) ∧
    ∀ e cursor, (∀ t, cursor = some t → t ∈ s.pending (.event e)) → ∀ setEvent, setEvent ≠ 0 →
      ∃ s' visited, (s.withCursor e cursor).dosEventSetNow e setEvent = some (s', visited) ∧
        visited.Nodup ∧ visited.Perm (s.pending (.event e)) := by
  have h : EventsOk cfg s := Transition.RunsIf.invariant hRun (EventsOk cfg) (eventsOk_init hInit)
    fun _ _ _ hOk _ hStep => hOk.step hStep
  refine ⟨h.waiting, ?_⟩
  intro e cursor hCursor setEvent hSome
  obtain ⟨s', visited, hSet, _, hVisited⟩ := (h.withCursor hCursor).set e setEvent
  have hPerm := hVisited hSome
  rw [show (s.withCursor e cursor).pending (.event e) = s.pending (.event e) from
    TaskLists.setCursor_items _ _ _] at hPerm
  exact ⟨s', visited, hSet, hPerm.nodup_iff.mpr (h.member.linked.nodup _), hPerm⟩

/-- Two tasks wait for the flags 1 and 3, and flag 1 is set: the first one is
woken and clears it, the second one still waits. -/
theorem no_satisfied_waiter_stays_one_left :
    ∃ s, Transition.Runs eventStep System.small
        [.kernel (.create 1 3 5), .kernel (.create 2 4 5), .kernel .start, .kernel (.switch 1),
          .wait 0 1 1 100, .kernel (.switch 2), .wait 0 3 2 100, .kernel (.switch 0), .set 0 1] s ∧
      s.pending (.event 0) = [2] ∧
      ∀ t, t ∈ s.pending (.event 0) →
        ((s.event 0).dosCheckEvent (s.k.tcb t).waitEvent (s.k.tcb t).waitEventOpt).2 = false := by
  have hRun : Transition.Runs eventStep System.small
      [.kernel (.create 1 3 5), .kernel (.create 2 4 5), .kernel .start, .kernel (.switch 1),
        .wait 0 1 1 100, .kernel (.switch 2), .wait 0 3 2 100, .kernel (.switch 0), .set 0 1] _ :=
    Transition.runs_of_isSome (by decide +kernel)
  exact ⟨_, hRun, by decide +kernel, fun t hMem =>
    (no_satisfied_waiter_stays System.initial_small hRun).1 0 t hMem⟩

end DoraOS
