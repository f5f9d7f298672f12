import DoraOS.Ipc.EventWaiters
import DoraOS.Ipc.WaitOrder

/-! The order in which the loop of `dos_event_set` examines the waiters. The pend
list is in the order of urgency, but the loop goes on from where an earlier call has
left the cursor of the list. A waiter that clears flags may so get ahead of a more
urgent one that waits for the same flags. The loop is the one of the interleaved
system, with interrupts between any two of its steps. -/
namespace DoraOS

open Kernel

section Spares

namespace Kernel

/-- The items and the cursor of a pend list are left alone, and the running task stays. -/
structure Spares (id : PendId) (k k' : Kernel) : Prop where
  sound : k'.Sound
  items : k'.lists.items (.pend id) = k.lists.items (.pend id)
  cursor : k'.lists.cursor (.pend id) = k.lists.cursor (.pend id)
  current : k'.dosCurrentTask = k.dosCurrentTask

variable {id : PendId} {k k' k'' : Kernel} {t : TaskId}

theorem Spares.trans (first : Spares id k k') (second : Spares id k' k'') : Spares id k k'' :=
  ⟨second.sound, second.items.trans first.items, second.cursor.trans first.cursor,
    second.current.trans first.current⟩

theorem Spares.visits (h : Spares id k k') :
    k'.lists.visits (.pend id) = k.lists.visits (.pend id) := by
  rw [TaskLists.visits, h.items, h.cursor]
  rfl

theorem SleepPair.ne_pend (h : k.SleepPair) : k.dosTaskSleepList ≠ .pend id := by
  intro hPend
  have hKind := h.kind.1
  rw [hPend] at hKind
  cases hKind

section Operations

variable (h : k.Sound)

include h

theorem spares_refl : Spares id k k := ⟨h, rfl, rfl, rfl⟩

theorem spares_scheduler : Spares id k k.dosScheduler := by
  have hSame := sameTasks_scheduler k
  refine ⟨(still_scheduler h).sound, by rw [hSame.lists], by rw [hSame.lists], ?_⟩
  exact congrArg Statics.dosCurrentTask hSame.statics

theorem spares_first {l : ListId} (hl : l ≠ .pend id) : Spares id k (k.dosGetFirstTask l).1 where
  sound := (still_first h l).sound
  items := TaskLists.first_items _ _
  cursor := by
    show (k.lists.dosGetFirstTask l).1.cursor (.pend id) = _
    simp [TaskLists.dosGetFirstTask, hl.symm]
  current := rfl

/-- Unlinking an item of another list. -/
theorem spares_itemDel {c : ItemKind} (hOwner : k.lists.owner c t ≠ some (.pend id)) :
    Spares id k (k.dosTaskItemDel c t) where
  sound := ⟨h.linked.del c t, h.pair⟩
  items := by
    show (k.lists.dosTaskItemDel c t).1.items _ = _
    rw [TaskLists.del_items, if_neg hOwner]
  cursor := by
    show (k.lists.dosTaskItemDel c t).1.cursor _ = _
    rw [TaskLists.del_cursor, if_neg fun hBoth => hOwner hBoth.1]
  current := rfl

theorem spares_statusDel : Spares id k (k.dosTaskItemDel .status t) := by
  refine spares_itemDel h ?_
  intro hOwner
  cases h.linked.kind _ _ _ hOwner

theorem spares_insertPriorityList (hFree : k.lists.owner .status t = none) :
    Spares id k (k.dosInsertTaskPriorityList t) where
  sound := ⟨linked_insertPriorityList h.linked hFree, h.pair⟩
  items := by
    show (k.lists.dosTaskItemInsert (.priority (k.priority t)) t).items _ = _
    rw [TaskLists.insert_items, if_neg (by simp)]
  cursor := TaskLists.insert_cursor ..
  current := rfl

theorem spares_wake (hOwner : k.lists.owner .pend t ≠ some (.pend id)) :
    Spares id k (k.dosTaskWake t) := by
  have hPend := spares_itemDel h hOwner
  have hOff := hPend.trans (spares_statusDel (t := t) hPend.sound)
  have hReset : Spares id k
      (((k.dosTaskItemDel .pend t).dosTaskItemDel .status t).dosResetTaskStatus t
        (Flag.suspend.mask ||| Flag.delay.mask)) :=
    ⟨⟨hOff.sound.linked, hOff.sound.pair⟩, hOff.items, hOff.cursor, rfl⟩
  refine hReset.trans (spares_insertPriorityList hReset.sound ?_)
  show ((k.lists.dosTaskItemDel .pend t).1.dosTaskItemDel .status t).1.owner .status t = none
  simp

theorem spares_expire : Spares id k (k.dosExpireTask t) := by
  have hOff : Spares id k (k.dosTaskItemDel .status t) := spares_statusDel h
  have hFree : (k.dosTaskItemDel .status t).lists.owner .status t = none := by
    simp [dosTaskItemDel]
  have hStatus (k₁ : Kernel) (hLists : k₁.lists = (k.dosTaskItemDel .status t).lists)
      (hStatics : k₁.statics = k.statics) : Spares id k (k₁.dosInsertTaskPriorityList t) := by
    have hSame : Spares id k k₁ := by
      refine ⟨⟨hLists ▸ hOff.sound.linked, h.pair.congr hStatics⟩, ?_, ?_, ?_⟩
      · rw [hLists]
        exact hOff.items
      · rw [hLists]
        exact hOff.cursor
      · exact congrArg Statics.dosCurrentTask hStatics
    exact hSame.trans (spares_insertPriorityList hSame.sound (hLists ▸ hFree))
  unfold dosExpireTask
  dsimp only
  split
  · exact hStatus _ rfl rfl
  · exact hStatus _ rfl rfl

/-- The first waiter of another pend list is woken. -/
theorem spares_wakeFirst {id' : PendId} {rest : List TaskId}
    (hHead : k.lists.items (.pend id') = t :: rest) (hOther : id' ≠ id) :
    Spares id k (k.wakeFirst (.pend id') t) := by
  have hOwner : k.lists.owner .pend t = some (.pend id') :=
    (h.linked.mem_iff (.pend id') t).mp (hHead ▸ List.mem_cons_self)
  have hFirst : Spares id k (k.dosGetFirstTask (.pend id')).1 :=
    spares_first h (by simpa using hOther)
  have hWake := hFirst.trans (spares_wake (t := t) hFirst.sound (by
    show k.lists.owner .pend t ≠ _
    rw [hOwner]
    simpa using hOther))
  exact hWake.trans (spares_scheduler hWake.sound)

theorem spares_tickAdvance : Spares id k k.dosTickAdvance :=
  tickAdvance_rule (fun _ hk => ⟨⟨hk.sound.linked, hk.sound.pair⟩, hk.items, hk.cursor, hk.current⟩)
    (fun hk => hk.trans (spares_first hk.sound hk.sound.pair.ne_pend))
    (fun hk => ⟨⟨hk.sound.linked, hk.sound.pair⟩, hk.items, hk.cursor, hk.current⟩)
    (fun hk => ⟨⟨hk.sound.linked, hk.sound.pair.symm.imp And.symm And.symm⟩, hk.items, hk.cursor,
      hk.current⟩) (spares_refl h)

theorem spares_tickTimeouts : Spares id k k.dosTickTimeouts :=
  tickTimeouts_rule
    (fun _ hk => ⟨⟨hk.sound.linked, hk.sound.pair⟩, hk.items, hk.cursor, hk.current⟩)
    (fun hk => hk.trans (spares_first hk.sound hk.sound.pair.ne_pend))
    (fun hk _ => hk.trans (spares_expire hk.sound)) (spares_refl h)

end Operations

end Kernel

end Spares

/-- The events that are possible while the scheduler is locked: steps of the running
task and interrupts. -/
def SysEvent.underLock : SysEvent → Bool
  | .next => true
  | .tick => true
  | .isrSemPost _ => true
  | .isrQueue _ _ _ _ => true
  | _ => false

namespace System

variable {s s' : System} {e i : Nat} {c t : TaskId} {r : System × List Label}

section Interrupts

/-- Nothing that the loop of `dos_event_set` works on has changed. -/
structure Aside (e : Nat) (s s' : System) : Prop where
  kernel : Spares (.event e) s.k s'.k
  event : s'.event = s.event
  pc : s'.pc = s.pc

theorem aside_queueNow (h : s.k.Sound) {caller : Option TaskId} {q : Nat} {op : QueueOp}
    {buff size : Nat} (hSend : s.QueueNow caller q op buff size r) : Aside e s r.1 := by
  cases hSend with
  | wake t rest _ hHead => exact ⟨spares_wakeFirst h hHead (by simp), rfl, rfl⟩
  | _ => exact ⟨spares_refl h, rfl, rfl⟩

/-- The second half of a tick. -/
theorem Aside.expired (h : Aside e s s') : Aside e s s'.expired := by
  have hTimeouts := h.kernel.trans (spares_tickTimeouts h.kernel.sound)
  exact ⟨hTimeouts.trans (spares_scheduler hTimeouts.sound), h.event, h.pc⟩

/-- An interrupt during the loop. -/
theorem aside_interrupt (h : s.k.Sound) {event : SysEvent} (hLock : event.underLock = true)
    (hNext : event ≠ .next) (hExec : s.exec event = some r) : Aside e s r.1 := by
  have hAdvanced : Aside e s s.advanced := ⟨spares_tickAdvance h, rfl, rfl⟩
  cases steps_of_exec hExec with
  | tick => exact hAdvanced.expired
  | overflow q sent hQueue hSend =>
      have hPost := aside_queueNow (e := e) hAdvanced.kernel.sound hSend
      have hSent : Aside e s sent.1 :=
        ⟨hAdvanced.kernel.trans hPost.kernel, hPost.event, hPost.pc⟩
      exact hSent.expired
  | isrSemPost i hPost =>
      cases hPost with
      | wake t rest _ hHead => exact ⟨spares_wakeFirst h hHead (by simp), rfl, rfl⟩
      | _ => exact ⟨spares_refl h, rfl, rfl⟩
  | isrQueue q op buff size hSend => exact aside_queueNow h hSend
  | next => exact absurd rfl hNext
  | _ => cases hLock

end Interrupts

end System

/-- The examination of a waiter by the loop: the flags in front of and behind the
check, and whether the waiter is satisfied. -/
structure Exam where
  task : TaskId
  flags : BitVec 32
  left : BitVec 32
  got : Bool
  deriving DecidableEq

namespace Exam

variable {start finish : BitVec 32} {x : Exam} {exams before after : List Exam} {i : Nat}

/-- Each examination finds the flags that the one before has left, and only for a
satisfied waiter flags are cleared. -/
def Chained : BitVec 32 → List Exam → BitVec 32 → Prop
  | start, [], finish => start = finish
  | start, x :: rest, finish =>
      x.flags = start ∧ (x.got = false → x.left = x.flags) ∧ Chained x.left rest finish

theorem Chained.snoc (h : Chained start exams x.flags)
    (hDenied : x.got = false → x.left = x.flags) :
    Chained start (exams ++ [x]) x.left := by
  induction exams generalizing start with
  | nil => exact ⟨Eq.symm h, hDenied, rfl⟩
  | cons y rest ih => exact ⟨h.1, h.2.1, ih h.2.2⟩

end Exam

/-- A run together with the examinations of its event loops. -/
structure Examining where
  tr : Trace
  exams : List Exam

def System.exam (s : System) (e : Nat) (t : TaskId) : Exam :=
  let check := (s.event e).dosCheckEvent (s.k.tcb t).waitEvent (s.k.tcb t).waitEventOpt
  { task := t, flags := (s.event e).eventFlag, left := check.1.eventFlag, got := check.2 }

/-- The examination that a step makes, if it begins a turn of a loop. -/
def System.examined (s : System) : SysEvent → Option Exam
  | .next =>
      match s.k.dosCurrentTask with
      | some c =>
          match s.pc c with
          | .setLoop e (_ + 1) => (s.k.lists.dosGetNextTask (.pend (.event e))).2.map (s.exam e)
          | _ => none
      | none => none
  | _ => none

def examStep (x : Examining) (event : SysEvent) : Option Examining :=
  (traceStep x.tr event).map fun tr => ⟨tr, x.exams ++ (x.tr.sys.examined event).toList⟩

section Loop

variable {e value : Nat} {c t : TaskId} {order todo done : List TaskId} {flags : BitVec 32}
  {exams : List Exam} {x x' : Examining} {s : System} {r : System × List Label}

/-- The waiters are examined in the order `order`. What the cursor will visit begins
with those that are still to be examined. -/
inductive Looping (e : Nat) (order : List TaskId) (lists : TaskLists) (exams : List Exam) :
    Pc → Prop where
  | lock (hNone : exams = []) (hVisits : lists.visits (.pend (.event e)) = order) :
      Looping e order lists exams (.setLock e)
  | loop {todo done : List TaskId} (hSplit : order = exams.map Exam.task ++ todo)
      (hVisits : lists.visits (.pend (.event e)) = todo ++ done) :
      Looping e order lists exams (.setLoop e todo.length)
  | wake {todo done : List TaskId} {t : TaskId} (hSplit : order = exams.map Exam.task ++ todo)
      (hVisits : lists.visits (.pend (.event e)) = todo ++ done ++ [t])
      (hCursor : lists.cursor (.pend (.event e)) = some t) :
      Looping e order lists exams (.setWake e todo.length t)
  | left : Looping e order lists exams .user

/-- The task `c` is in the loop of `dos_event_set` for the event `e`. -/
structure InLoop (c : TaskId) (e : Nat) (order : List TaskId) (flags : BitVec 32) (s : System)
    (exams : List Exam) : Prop where
  consistent : s.Consistent
  current : s.k.dosCurrentTask = some c
  place : Looping e order s.k.lists exams (s.pc c)
  chain : Exam.Chained flags exams (s.event e).eventFlag

theorem Looping.congr {lists lists' : TaskLists} {pc : Pc} (h : Looping e order lists exams pc)
    (hVisits : lists'.visits (.pend (.event e)) = lists.visits (.pend (.event e)))
    (hCursor : lists'.cursor (.pend (.event e)) = lists.cursor (.pend (.event e))) :
    Looping e order lists' exams pc := by
  cases h with
  | lock hNone hOrder => exact .lock hNone (hVisits.trans hOrder)
  | loop hSplit hOrder => exact .loop hSplit (hVisits.trans hOrder)
  | wake hSplit hOrder hOn => exact .wake hSplit (hVisits.trans hOrder) (hCursor.trans hOn)
  | left => exact .left

theorem InLoop.interrupt (h : InLoop c e order flags s exams) {event : SysEvent}
    (hLock : event.underLock = true) (hNext : event ≠ .next) (hExec : s.exec event = some r) :
    InLoop c e order flags r.1 exams := by
  have hAside := System.aside_interrupt (e := e) h.consistent.sound hLock hNext hExec
  refine ⟨System.consistent_step h.consistent hExec, hAside.kernel.current.trans h.current, ?_, ?_⟩
  · rw [hAside.pc]
    exact h.place.congr hAside.kernel.visits hAside.kernel.cursor
  · rw [hAside.event]
    exact h.chain

theorem current_unlock (k : Kernel) : k.dosSchedulerUnlock.dosCurrentTask = k.dosCurrentTask := by
  unfold dosSchedulerUnlock
  dsimp only
  split
  · split
    · exact congrArg Statics.dosCurrentTask (sameTasks_scheduler _).statics
    · rfl
  · rfl

theorem System.exec_next (hCurrent : s.k.dosCurrentTask = some c) :
    s.exec .next = if s.Running c then s.resume c (s.pc c) else none := by
  simp only [System.exec, System.byCurrent, hCurrent]

/-- One turn of the loop, up to the wake. -/
theorem System.eventSetTurn_eq
    (hNext : (s.k.lists.dosGetNextTask (.pend (.event e))).2 = some t) :
    s.eventSetTurn c e value =
      if (s.exam e t).got then
        (((s.setEvent e ⟨(s.exam e t).left⟩).setKernel (Kernel.mapTcb { s.k with
            lists := (s.k.lists.dosGetNextTask (.pend (.event e))).1 } t
          fun tcb => { tcb with eventGet := tcb.waitEvent })).setPc c (.setWake e value t),
          [.granted t])
      else
        ((s.setKernel { s.k with
            lists := (s.k.lists.dosGetNextTask (.pend (.event e))).1 }).setPc c
          (.setLoop e value), []) := by
  unfold System.eventSetTurn
  dsimp only
  rw [hNext]
  rfl

theorem System.left_denied (s : System) (hNot : (s.exam e t).got = false) :
    (s.exam e t).left = (s.event e).eventFlag := by
  have hCheck := Event.check_of_not_got (mt (Event.check_got _ _ _).mpr (Bool.eq_false_iff.mp hNot))
  exact congrArg (fun check : Event × Bool => check.1.eventFlag) hCheck

/-- A step of the task in the loop. -/
theorem InLoop.next (h : InLoop c e order flags s exams) (hExec : s.exec .next = some r) :
    InLoop c e order flags r.1 (exams ++ (s.examined .next).toList) := by
  obtain ⟨hConsistent, hCurrent, hPlace, hChain⟩ := h
  have hConsistent' := System.consistent_step hConsistent hExec
  have hLinked := hConsistent.sound.linked
  rw [System.exec_next hCurrent, Option.ite_none_right_eq_some] at hExec
  obtain ⟨hRun, hExec⟩ := hExec
  simp only [System.examined, hCurrent]
  generalize hPc : s.pc c = pc at hPlace hExec
  cases hPlace with
  | lock hNone hVisits =>
      cases hExec
      rw [Option.toList_none, List.append_nil]
      refine ⟨hConsistent', hCurrent, ?_, hChain⟩
      have hLength : (s.pending (.event e)).length = order.length := by
        rw [← hVisits]
        exact (hLinked.visits_perm _).length_eq.symm
      simp only [System.setPc, if_true, hLength]
      exact .loop (by rw [hNone]; rfl) (hVisits.trans (List.append_nil _).symm)
  | @loop todo done hSplit hVisits =>
      cases todo with
      | nil =>
          cases hExec
          rw [List.length_nil, Option.toList_none, List.append_nil]
          refine ⟨hConsistent', (current_unlock _).trans hCurrent, ?_, hChain⟩
          simp only [System.setPc, if_true]
          exact .left
      | cons t todo =>
          obtain ⟨hNext, hOrder, hCursor⟩ := hLinked.next_visits hVisits
          have hResult : r = s.eventSetTurn c e todo.length := (Option.some.inj hExec).symm
          have hSplit' : order = (exams ++ [s.exam e t]).map Exam.task ++ todo := by
            rw [hSplit]
            simp [System.exam]
          show InLoop c e order flags r.1 (exams ++
            ((s.k.lists.dosGetNextTask (.pend (.event e))).2.map (s.exam e)).toList)
          rw [hNext]
          show InLoop c e order flags r.1 (exams ++ [s.exam e t])
          rw [System.eventSetTurn_eq hNext] at hResult
          split at hResult
          · rename_i hGot
            subst hResult
            refine ⟨hConsistent', hCurrent, ?_, ?_⟩
            · simp only [System.setPc, if_true]
              exact .wake hSplit' hOrder hCursor
            · have hSet := hChain.snoc (x := s.exam e t) fun hNot => by
                rw [hGot] at hNot
                cases hNot
              simpa [System.setPc, System.setKernel, System.setEvent] using hSet
          · rename_i hNot
            have hSame := s.left_denied (Bool.eq_false_iff.mpr hNot)
            subst hResult
            refine ⟨hConsistent', hCurrent, ?_, ?_⟩
            · simp only [System.setPc, if_true]
              exact .loop hSplit' (hOrder.trans (List.append_assoc ..))
            · have hSet := hChain.snoc (x := s.exam e t) (fun _ => hSame)
              rw [hSame] at hSet
              exact hSet
  | @wake todo done t hSplit hVisits hCursor =>
      cases hExec
      rw [Option.toList_none, List.append_nil]
      refine ⟨hConsistent', ?_, ?_, hChain⟩
      · have hStatics := (sameTasks_scheduler (s.k.dosTaskWake t)).statics.trans
          (onlyTask_wake s.k t).statics
        exact (congrArg Statics.dosCurrentTask hStatics).trans hCurrent
      · simp only [System.setPc, if_true]
        have hRest : (s.k.dosTaskWake t).dosScheduler.lists.visits (.pend (.event e)) =
            todo ++ done := by
          rw [(sameTasks_scheduler _).lists, visits_wake hLinked]
          exact hLinked.del_visits hCursor hVisits
        exact .loop hSplit hRest
  | left => cases hExec

/-- A step during the loop, of the task or of an interrupt. -/
theorem InLoop.step (h : InLoop c e order flags x.tr.sys x.exams) {event : SysEvent}
    (hLock : event.underLock = true) (hStep : examStep x event = some x') :
    InLoop c e order flags x'.tr.sys x'.exams := by
  obtain ⟨tr, hTrace, rfl⟩ := Option.map_eq_some_iff.mp hStep
  obtain ⟨r, hExec, rfl⟩ := traceStep_some hTrace
  by_cases hNext : event = .next
  · subst hNext
    exact h.next hExec
  · have hNone : x.tr.sys.examined event = none := by
      cases event with
      | next => exact absurd rfl hNext
      | _ => rfl
    rw [hNone]
    exact (List.append_nil x.exams).symm ▸ h.interrupt hLock hNext hExec

theorem System.Running.congr {s' : System} (h : s.Running c) (hStatics : s'.k.statics = s.k.statics)
    (hView : s'.k.view c = s.k.view c) : s'.Running c := by
  obtain ⟨hOn, hCurrent, hLive, hReady, hIdle⟩ := h
  refine ⟨(congrArg Statics.systemIsRun hStatics).trans hOn,
    (congrArg Statics.dosCurrentTask hStatics).trans hCurrent, (live_congr hView).mpr hLive, ?_, ?_⟩
  · have hStatus : (s'.k.tcb c).taskStatus = (s.k.tcb c).taskStatus :=
      congrArg TaskView.status hView
    rw [Kernel.is, hStatus]
    exact hReady
  · rw [show s'.k.dosIdleTask = s.k.dosIdleTask from congrArg Statics.dosIdleTask hStatics]
    exact hIdle

/-- A step of the task in the loop leaves it the running one. -/
theorem InLoop.running (h : InLoop c e order flags s exams) (hRun : s.Running c)
    (hPc : s.pc c ≠ .setLoop e 0) (hStep : s.resume c (s.pc c) = some r) : r.1.Running c := by
  have hPlace := h.place
  generalize hAt : s.pc c = pc at hPlace hStep hPc
  have hFree : pc.waitsOn = none := by
    cases hPlace with
    | _ => rfl
  cases hPlace with
  | lock =>
      cases hStep
      exact hRun
  | @loop todo done hSplit hVisits =>
      cases todo with
      | nil => exact absurd rfl hPc
      | cons t todo =>
          have hNext := (h.consistent.sound.linked.next_visits hVisits).1
          have hResult : r = s.eventSetTurn c e todo.length := (Option.some.inj hStep).symm
          rw [System.eventSetTurn_eq hNext] at hResult
          split at hResult
          · subst hResult
            exact hRun.congr rfl ((System.still_select h.consistent.sound e t).view c)
          · subst hResult
            exact hRun
  | @wake todo done t hSplit hVisits hCursor =>
      cases hStep
      have hSound := h.consistent.sound
      have hOther : c ≠ t := by
        rintro rfl
        have hOn := (System.mem_pending hSound).mp (hSound.linked.cursor _ _ hCursor)
        have hOff := (h.consistent.ok c).unpended (by simpa [System.task, hAt] using hFree)
        exact absurd (hOff.symm.trans hOn) (by simp)
      have hWake := touches_wake hSound t
      refine hRun.congr ((sameTasks_scheduler _).statics.trans (onlyTask_wake s.k t).statics) ?_
      exact ((still_scheduler hWake.sound).view c).trans (hWake.view c hOther)
  | left => cases hStep

/-- The next step of the task in the loop. -/
theorem InLoop.own (h : InLoop c e order flags x.tr.sys x.exams) (hRun : x.tr.sys.Running c)
    (hPc : x.tr.sys.pc c ≠ .setLoop e 0) (hStep : x.tr.sys.resume c (x.tr.sys.pc c) = some r) :
    ∃ x', examStep x .next = some x' ∧ x'.tr.sys = r.1 ∧
      InLoop c e order flags x'.tr.sys x'.exams ∧ x'.tr.sys.Running c := by
  have hExec : x.tr.sys.exec .next = some r := by
    rw [System.exec_next h.current, if_pos hRun]
    exact hStep
  refine ⟨⟨⟨r.1, x.tr.past ++ r.2⟩, x.exams ++ (x.tr.sys.examined .next).toList⟩, ?_, rfl,
    h.next hExec, h.running hRun hPc hStep⟩
  rw [examStep, traceStep, hExec]
  rfl

end Loop

end DoraOS
