import DoraOS.Ipc.Coherent

/-! The wake-up protocol of `_dos_queue_handler`. Behind its copy an operation
tests the pend list of the other side without protection and then wakes a
waiter or credits the counter of that side; between the test and what follows
from it other tasks can run. -/
namespace DoraOS

namespace Label

/-- The pend list that a task begins to wait on. -/
def waitsFor : Label → Option PendId
  | .waiting _ id => some id
  | _ => none

/-- The queue side whose wake step found no waiter. -/
def lostWake : Label → Option (Nat × QueueOp)
  | .queueWake q op none => some (q, op)
  | _ => none

/-- Labels that tell nothing about the protocol. -/
def offQueue : Label → Bool
  | .waiting _ (.queue _ _) => false
  | .queueWake _ _ none => false
  | _ => true

theorem offQueue_waitsFor {l : Label} (h : l.offQueue = true) (q : Nat) (op : QueueOp) :
    l.waitsFor ≠ some (.queue q op) := by
  cases l with
  | waiting t id => cases id <;> simp_all [offQueue, waitsFor]
  | _ => simp [waitsFor]

theorem offQueue_lostWake {l : Label} (h : l.offQueue = true) : l.lostWake = none := by
  cases l with
  | queueWake q op t => cases t <;> simp_all [offQueue, lostWake]
  | _ => rfl

end Label

namespace System

/-- The side of a queue on which the caller begins to wait. -/
def joins (s : System) : SysEvent → Option (Nat × QueueOp)
  | .call (.queue q op buff size timeout) =>
      if (s.queue q).queueRwCount op = 0 ∧ ¬(buff = 0 ∨ size = 0) ∧ ¬(timeout = 0 ∨ s.isLocked) then
        some (q, op)
      else none
  | _ => none

/-- The waiter that the task `c` takes off its pend list from a point. -/
def unlinkAt (s : System) (c : TaskId) : Pc → Option TaskId
  | .wake q op => (s.pending (.queue q op.other)).head?
  | .setWake _ _ t => some t
  | .cleanUp w => if w.isQueue then none else some c
  | .unlink _ => some c
  | _ => none

/-- The waiter that a step takes off its pend list. -/
def unlinks (s : System) : SysEvent → Option TaskId
  | .next => s.k.dosCurrentTask.bind fun c => s.unlinkAt c (s.pc c)
  | event => s.picks event

end System

/-- No task joins a pend list while `c`, which found it empty, is about to
credit the counter of that side. -/
def CreditInTime (s : System) (event : SysEvent) (c : TaskId) : Prop :=
  match s.pc c with
  | .credit q op => s.joins event ≠ some (q, op.other)
  | _ => True

/-- No step but its own takes the last task off the pend list while `c`, which
found a waiter there, is about to wake it. -/
def WakeInTime (s : System) (event : SysEvent) (c : TaskId) : Prop :=
  match s.pc c with
  | .wake q op => event = .next ∧ s.k.dosCurrentTask = some c ∨
      ∀ w ∈ s.unlinks event, s.pending (.queue q op.other) ≠ [w]
  | _ => True

instance (s : System) (event : SysEvent) (c : TaskId) : Decidable (CreditInTime s event c) := by
  unfold CreditInTime
  split <;> infer_instance

instance (s : System) (event : SysEvent) (c : TaskId) : Decidable (WakeInTime s event c) := by
  unfold WakeInTime
  split <;> infer_instance

/-- What a step does to the counters of queues: a counter changes by being
taken from when it is not zero, or by a credit, which finds the pend list empty
or comes from a task that did. Who begins to wait finds the counter at zero. -/
structure QueueStep (s s' : System) (ls : List Label) : Prop where
  count : ∀ q x, (s'.queue q).queueRwCount x = (s.queue q).queueRwCount x ∨
    (s.queue q).queueRwCount x ≠ 0 ∨ s.pending (.queue q x) = [] ∨
    ∃ c op, s.pc c = .credit q op ∧ op.other = x
  waiting : ∀ l ∈ ls, ∀ q x, l.waitsFor = some (.queue q x) →
    (s.queue q).queueRwCount x = 0 ∧ s'.queue = s.queue
  lost : ∀ l ∈ ls, ∀ q x, l.lostWake = some (q, x) →
    ∃ c op, s.pc c = .wake q op ∧ op.other = x ∧ s.pending (.queue q x) = []

namespace QueueStep

variable {s s' : System} {ls : List Label}

theorem of_labels (hCount : ∀ q x, (s'.queue q).queueRwCount x = (s.queue q).queueRwCount x ∨
      (s.queue q).queueRwCount x ≠ 0 ∨ s.pending (.queue q x) = [] ∨
      ∃ c op, s.pc c = .credit q op ∧ op.other = x)
    (hLabels : ls.all Label.offQueue = true) : QueueStep s s' ls where
  count := hCount
  waiting l hl q x hWaits :=
    absurd hWaits (Label.offQueue_waitsFor (List.all_eq_true.mp hLabels l hl) q x)
  lost l hl q x hLost := by
    rw [Label.offQueue_lostWake (List.all_eq_true.mp hLabels l hl)] at hLost
    cases hLost

/-- A step that leaves all counters alone. -/
theorem of_same (hQueue : s'.queue = s.queue) (hLabels : ls.all Label.offQueue = true) :
    QueueStep s s' ls :=
  of_labels (fun q x => Or.inl (by rw [hQueue])) hLabels

end QueueStep

namespace System

variable {s : System} {c : TaskId}

section Counters

/-- A counter that is taken from was not zero. -/
theorem count_take (q : Nat) (op : QueueOp) (q' : Nat) (x : QueueOp)
    (hCount : (s.queue q).queueRwCount op ≠ 0) :
    ((s.queueTake q op).queue q').queueRwCount x = (s.queue q').queueRwCount x ∨
      (s.queue q').queueRwCount x ≠ 0 := by
  by_cases hq : q' = q
  · by_cases hx : x = op
    · right
      rw [hq, hx]
      exact hCount
    · left
      simp [queueTake, setQueue, Queue.setRwCount, hq, hx]
  · left
    simp [queueTake, setQueue, hq]

theorem count_credit (q : Nat) (op : QueueOp) (q' : Nat) (x : QueueOp)
    (h : ¬(q' = q ∧ x = op.other)) :
    ((s.queueCredit q op).queue q').queueRwCount x = (s.queue q').queueRwCount x := by
  by_cases hq : q' = q
  · have hx : x ≠ op.other := fun hx => h ⟨hq, hx⟩
    simp [queueCredit, setQueue, Queue.setRwCount, hq, hx]
  · simp [queueCredit, setQueue, hq]

theorem count_copy (q : Nat) (op : QueueOp) (buff size q' : Nat) (x : QueueOp) :
    ((s.queueCopy q op buff size).queue q').queueRwCount x = (s.queue q').queueRwCount x := by
  by_cases hq : q' = q
  · simp [queueCopy, setQueue, Queue.dosQueueCopy, Queue.setRwPtr, hq]
  · simp [queueCopy, setQueue, hq]

end Counters

section Steps

theorem queueStep_block (w : Wait) (timeout : Nat) {s₁ : System} (hQueue : s₁.queue = s.queue)
    (hw : ∀ q x, w.pendId = .queue q x → (s.queue q).queueRwCount x = 0) :
    QueueStep s (s₁.block c w timeout).1 (s₁.block c w timeout).2 where
  count q x := Or.inl (by rw [show (s₁.block c w timeout).1.queue = s₁.queue from rfl, hQueue])
  waiting l hl q x hWaits := by
    rw [List.mem_singleton.mp hl] at hWaits
    exact ⟨hw q x (Option.some.inj hWaits), hQueue⟩
  lost l hl q x hLost := by
    rw [List.mem_singleton.mp hl] at hLost
    cases hLost

theorem queueStep_semPost {caller : Option TaskId} {i : Nat} {r : System × List Label}
    (hPost : s.SemPosts caller i r) : QueueStep s r.1 r.2 := by
  cases hPost <;> exact QueueStep.of_same rfl rfl

theorem queueStep_queueNow {caller : Option TaskId} {q : Nat} {op : QueueOp} {buff size : Nat}
    {r : System × List Label} (hSend : s.QueueNow caller q op buff size r) :
    QueueStep s r.1 r.2 := by
  cases hSend with
  | fails => exact QueueStep.of_same rfl rfl
  | credit hCount hEmpty =>
      refine QueueStep.of_labels ?_ rfl
      intro q' x
      by_cases hCredit : q' = q ∧ x = op.other
      · right; right; left
        rw [hCredit.1, hCredit.2]
        exact hEmpty
      · rw [count_credit q op q' x hCredit, count_copy]
        exact (count_take q op q' x hCount).imp_right Or.inl
  | wake t rest hCount =>
      refine QueueStep.of_labels (fun q' x => ?_) rfl
      have hCopy := count_copy (s := s.queueTake q op) q op buff (min size (s.queue q).queueSize) q' x
      exact (count_take q op q' x hCount).imp hCopy.trans Or.inl

/-- An empty pend list was empty before a change of no task. -/
theorem pending_nil_of_still (h : s.k.Sound) {k' : Kernel} (hStill : Kernel.Still s.k k') {id : PendId}
    (hEmpty : (s.setKernel k').pending id = []) : s.pending id = [] := by
  refine List.eq_nil_iff_forall_not_mem.mpr ?_
  intro t hOn
  have hAfter : t ∈ (s.setKernel k').pending id := by
    rw [mem_pending hStill.sound]
    exact (congrArg TaskView.pendOwner (hStill.view t)).trans ((mem_pending h).mp hOn)
  rw [hEmpty] at hAfter
  cases hAfter

theorem queueStep_overflow (h : s.k.Sound) {q : Nat} {r : System × List Label}
    (hSend : s.advanced.QueueNow none q .write s.swtmrMsg 8 r) : QueueStep s r.1.expired r.2 := by
  have hAdvance := Kernel.still_tickAdvance h
  have hNow := queueStep_queueNow hSend
  refine ⟨?_, hNow.waiting, ?_⟩
  · intro q' x
    refine (hNow.count q' x).imp_right (Or.imp_right (Or.imp_left ?_))
    exact pending_nil_of_still h hAdvance
  · intro l hl q' x hLost
    obtain ⟨c, op, hPc, hx, hEmpty⟩ := hNow.lost l hl q' x hLost
    exact ⟨c, op, hPc, hx, pending_nil_of_still h hAdvance hEmpty⟩

theorem queue_inherit (m : Nat) : (s.inherit c m).queue = s.queue := by
  unfold inherit
  split
  · split <;> rfl
  · rfl

theorem queueStep_call {a : Call} {r : System × List Label} (hCall : s.Calls c a r) :
    QueueStep s r.1 r.2 := by
  cases hCall with
  | semBlock i timeout hNone => exact queueStep_block _ _ rfl (by simp [Wait.pendId])
  | semPost i hPost => exact queueStep_semPost hPost
  | mutexBlock m timeout hHeld hOwner hWait =>
      exact queueStep_block _ _ (queue_inherit m) (by simp [Wait.pendId])
  | queueTake q op buff size size' timeout hCount =>
      exact QueueStep.of_labels (fun q' x => (count_take q op q' x hCount).imp_right Or.inl) rfl
  | queueBlock q op buff size size' timeout hCount =>
      refine queueStep_block _ _ rfl ?_
      intro q' x hEq
      simp only [Wait.pendId, PendId.queue.injEq] at hEq
      rw [← hEq.1, ← hEq.2]
      exact hCount
  | eventBlock e waitEvent op timeout =>
      have hQueue : (s.setWaitEvent c waitEvent op).queue = s.queue := rfl
      exact queueStep_block _ _ hQueue (by simp [Wait.pendId])
  | _ => exact QueueStep.of_same rfl rfl

theorem queueStep_resume {pc : Pc} (hPc : s.pc c = pc) {r : System × List Label}
    (hNext : s.Resumes c pc r) : QueueStep s r.1 r.2 := by
  cases hNext with
  | copy q op buff size =>
      exact QueueStep.of_labels (fun q' x => Or.inl (count_copy q op buff size q' x)) rfl
  | noWaiter q op hEmpty =>
      refine ⟨fun q' x => Or.inl rfl, ?_, ?_⟩
      · intro l hl q' x hWaits
        rw [List.mem_singleton.mp hl] at hWaits
        cases hWaits
      · intro l hl q' x hLost
        rw [List.mem_singleton.mp hl] at hLost
        simp only [Label.lostWake, Option.some.injEq, Prod.mk.injEq] at hLost
        obtain ⟨rfl, rfl⟩ := hLost
        exact ⟨c, op, hPc, rfl, hEmpty⟩
  | credit q op =>
      refine QueueStep.of_labels ?_ rfl
      intro q' x
      by_cases hCredit : q' = q ∧ x = op.other
      · right; right; right
        obtain ⟨rfl, rfl⟩ := hCredit
        exact ⟨c, op, hPc, rfl⟩
      · left
        exact count_credit q op q' x hCredit
  | _ => exact QueueStep.of_same rfl rfl

theorem queueStep_exec (h : s.k.Sound) {event : SysEvent} {r : System × List Label}
    (hStep : s.exec event = some r) : QueueStep s r.1 r.2 := by
  cases steps_of_exec hStep with
  | overflow q sent hQueue hSend => exact queueStep_overflow h hSend
  | isrSemPost i hPost => exact queueStep_semPost hPost
  | isrQueue q op buff size hSend => exact queueStep_queueNow hSend
  | call c a hRun hUser hCall => exact queueStep_call hCall
  | next c hRun hPc hNext => exact queueStep_resume hPc hNext
  | _ => exact QueueStep.of_same rfl rfl

end Steps

/-- What the tests of the handler have found still holds, and nobody waits on a
side whose counter is not zero. -/
structure Protocol (s : System) : Prop where
  idle : ∀ q x, s.pending (.queue q x) ≠ [] → (s.queue q).queueRwCount x = 0
  credit : ∀ c q op, s.pc c = .credit q op → s.pending (.queue q op.other) = []
  wake : ∀ c q op, s.pc c = .wake q op → s.pending (.queue q op.other) ≠ []

variable {event : SysEvent} {r : System × List Label}

/-- A task at `credit` after a step was there before, or has just found the
list empty. -/
theorem credit_began (hStep : s.exec event = some r) {q : Nat} {op : QueueOp}
    (hPc : r.1.pc c = .credit q op) :
    s.pc c = .credit q op ∨ r.1.pending (.queue q op.other) = [] := by
  rcases exec_pc hStep c with hSame | ⟨_, ⟨_, hEntry⟩ | ⟨-, hNext⟩⟩
  · exact Or.inl (hSame.symm.trans hPc)
  · rw [hPc] at hEntry
    cases hEntry
  · generalize s.pc c = pc at hNext
    cases hNext with
    | empty q' op' hEmpty =>
        simp only [setPc, if_true, Pc.credit.injEq] at hPc
        rw [← hPc.1, ← hPc.2]
        exact Or.inr hEmpty
    | _ => simp [setPc] at hPc

/-- A task at `wake` after a step was there before and did not take the step,
or has just found a waiter. -/
theorem wake_began (hStep : s.exec event = some r) {q : Nat} {op : QueueOp}
    (hPc : r.1.pc c = .wake q op) :
    s.pc c = .wake q op ∧ ¬(event = .next ∧ s.k.dosCurrentTask = some c) ∨
      r.1.pending (.queue q op.other) ≠ [] := by
  rcases exec_pc hStep c with hSame | ⟨_, ⟨_, hEntry⟩ | ⟨-, hNext⟩⟩
  · have hBefore : s.pc c = .wake q op := hSame.symm.trans hPc
    refine Or.inl ⟨hBefore, ?_⟩
    rintro ⟨rfl, hCurrent⟩
    obtain ⟨x, hRun, hResume⟩ := next_some hStep
    have hx : c = x := Option.some.inj (hCurrent.symm.trans hRun.2.1)
    subst hx
    rw [hBefore] at hResume
    cases resumes_of_resume hResume <;> simp [setPc] at hPc
  · rw [hPc] at hEntry
    cases hEntry
  · generalize s.pc c = pc at hNext
    cases hNext with
    | waiter q' op' hSome =>
        simp only [setPc, if_true, Pc.wake.injEq] at hPc
        rw [← hPc.1, ← hPc.2]
        exact Or.inr hSome
    | _ => simp [setPc] at hPc

/-- Only a call on a queue reports a wait for it. -/
theorem waiting_joins (hStep : s.exec event = some r) {t : TaskId} {q : Nat} {op : QueueOp}
    (hMem : .waiting t (.queue q op) ∈ r.2) : s.joins event = some (q, op) := by
  cases steps_of_exec hStep with
  | overflow q sent hQueue hSend => cases hSend <;> simp at hMem
  | isrSemPost i hPost => cases hPost <;> simp at hMem
  | isrQueue q op buff size hSend => cases hSend <;> simp at hMem
  | call c a hRun hUser hCall =>
      cases hCall with
      | semPost i hPost => cases hPost <;> simp at hMem
      | queueBlock q' op' buff size size' timeout hCount hArgs hWait =>
          obtain ⟨rfl, rfl, rfl⟩ : t = c ∧ q = q' ∧ op = op' := by
            simpa [block, Wait.pendId] using hMem
          exact if_pos ⟨hCount, hArgs, hWait⟩
      | _ => simp [block, Wait.pendId] at hMem
  | next c hRun hPc hNext => cases hNext <;> simp at hMem
  | _ => simp at hMem

/-- Only a task that runs its own clean-up reports a timeout. -/
theorem timedOut_unlinks (hStep : s.exec event = some r) {t : TaskId} (hMem : .timedOut t ∈ r.2) :
    s.unlinks event = some t := by
  cases steps_of_exec hStep with
  | overflow q sent hQueue hSend => cases hSend <;> simp at hMem
  | isrSemPost i hPost => cases hPost <;> simp at hMem
  | isrQueue q op buff size hSend => cases hSend <;> simp at hMem
  | call c a hRun hUser hCall =>
      cases hCall with
      | semPost i hPost => cases hPost <;> simp at hMem
      | _ => simp [block] at hMem
  | next c hRun hPc hNext =>
      simp only [unlinks, hRun.2.1, Option.bind_some, hPc]
      cases hNext with
      | cleanUpEvent w waitEvent hNot | cleanUp w hNot =>
          obtain rfl : t = c := by simpa using hMem
          simp [unlinkAt, hNot]
      | unlink w =>
          obtain rfl : t = c := by simpa using hMem
          rfl
      | _ => simp at hMem
  | _ => simp at hMem

/-- A step that selects a task from the pend list of a queue unlinks it. -/
theorem granted_unlinks (h : s.k.Sound) (hStep : s.exec event = some r) {t : TaskId}
    (hMem : .granted t ∈ r.2) {q : Nat} {op : QueueOp} (hOn : t ∈ s.pending (.queue q op)) :
    s.unlinks event = some t := by
  have hPick := granted_picks h hStep hMem
  cases event with
  | next =>
      obtain ⟨c, hCurrent, hAt⟩ := Option.bind_eq_some_iff.mp hPick
      simp only [unlinks, hCurrent, Option.bind_some]
      generalize s.pc c = pc at hAt
      cases pc with
      | wake q op => exact hAt
      | setLoop e value =>
          -- `dos_event_set` selects from the list of an event
          cases value with
          | zero => cases hAt
          | succ value =>
              have hNext := (Option.filter_eq_some_iff.mp hAt).1
              have hOther := (mem_pending h).mp (TaskLists.next_result_mem hNext)
              exact absurd (((mem_pending h).mp hOn).symm.trans hOther) (by simp)
      | _ => cases hAt
  | _ => exact hPick

/-- A waiter that is not taken off the list of a queue stays on it. -/
theorem pending_kept (h : Consistent s) (hStep : s.exec event = some r) {t : TaskId} {q : Nat}
    {op : QueueOp} (hOn : t ∈ s.pending (.queue q op)) (hNot : s.unlinks event ≠ some t) :
    t ∈ r.1.pending (.queue q op) := by
  have hSpec := spec_exec h.toCoherent h.chosen hStep
  rw [mem_pending hSpec.sound]
  refine (hSpec.task t).pended (h.ok t) ?_ ?_ ?_ ((mem_pending h.sound).mp hOn)
  · intro hWoken
    cases event with
    | next =>
        obtain ⟨c, hCurrent, hSelects⟩ := Option.bind_eq_some_iff.mp hWoken
        refine hNot ?_
        simp only [unlinks, hCurrent, Option.bind_some]
        generalize s.pc c = pc at hSelects
        cases pc with
        | setWake => exact hSelects
        | _ => cases hSelects
    | _ => cases hWoken
  · exact fun hMem => hNot (granted_unlinks h.sound hStep (List.mem_of_mem_filter hMem) hOn)
  · exact fun hMem => hNot (timedOut_unlinks hStep (List.mem_of_mem_filter hMem))

/-- A list that does not lose its only task keeps one. -/
theorem pending_left (h : Consistent s) (hStep : s.exec event = some r) {q : Nat} {op : QueueOp}
    (hSome : s.pending (.queue q op) ≠ [])
    (hLast : ∀ w ∈ s.unlinks event, s.pending (.queue q op) ≠ [w]) :
    r.1.pending (.queue q op) ≠ [] := by
  obtain ⟨w, hw, hNot⟩ : ∃ w ∈ s.pending (.queue q op), s.unlinks event ≠ some w := by
    by_contra hAll
    simp only [not_exists, not_and, not_not] at hAll
    have hNodup := h.sound.linked.nodup (.pend (.queue q op))
    cases hItems : s.pending (.queue q op) with
    | nil => exact hSome hItems
    | cons w rest =>
        have hw : s.unlinks event = some w := hAll w (by simp [hItems])
        have hRest : rest = [] := by
          refine List.eq_nil_iff_forall_not_mem.mpr fun y hy => ?_
          have hyw : w = y := Option.some.inj (hw.symm.trans (hAll y (by simp [hItems, hy])))
          rw [show s.k.lists.items _ = w :: rest from hItems, List.nodup_cons, hyw] at hNodup
          exact hNodup.1 hy
        exact hLast w hw (by rw [hItems, hRest])
  exact List.ne_nil_of_mem (pending_kept h hStep hw hNot)

theorem protocol_step (h : Consistent s) (hCredit : ∀ c, CreditInTime s event c)
    (hWake : ∀ c, WakeInTime s event c) (hProtocol : Protocol s) (hStep : s.exec event = some r) :
    Protocol r.1 := by
  have hQueue := queueStep_exec h.sound hStep
  refine ⟨?_, ?_, ?_⟩
  · intro q x hSome
    obtain ⟨w, hw⟩ := List.exists_mem_of_ne_nil _ hSome
    rcases pending_step h hStep hw with hWas | hLabel
    · have hBefore : s.pending (.queue q x) ≠ [] := List.ne_nil_of_mem hWas
      have hZero := hProtocol.idle q x hBefore
      rcases hQueue.count q x with hSame | hTake | hEmpty | ⟨c, op, hPc, rfl⟩
      · rw [hSame, hZero]
      · exact absurd hZero hTake
      · exact absurd hEmpty hBefore
      · exact absurd (hProtocol.credit c q op hPc) hBefore
    · obtain ⟨hZero, hSame⟩ := hQueue.waiting _ hLabel q x rfl
      rw [hSame, hZero]
  · intro c q op hPc
    rcases credit_began hStep hPc with hBefore | hEmpty
    · have hEmpty := hProtocol.credit c q op hBefore
      have hTime := hCredit c
      simp only [CreditInTime, hBefore] at hTime
      refine List.eq_nil_iff_forall_not_mem.mpr ?_
      intro w hw
      rcases pending_step h hStep hw with hWas | hLabel
      · rw [hEmpty] at hWas
        cases hWas
      · exact hTime (waiting_joins hStep hLabel)
    · exact hEmpty
  · intro c q op hPc
    rcases wake_began hStep hPc with ⟨hBefore, hOther⟩ | hSome
    · have hTime := hWake c
      simp only [WakeInTime, hBefore] at hTime
      exact pending_left h hStep (hProtocol.wake c q op hBefore) (hTime.resolve_left hOther)
    · exact hSome

theorem protocol_init {cfg : Config} {idle : TaskId} (hInit : s.Initial cfg idle) : Protocol s := by
  have hEmpty := pending_init hInit
  refine ⟨fun q x hSome => absurd (hEmpty _) hSome, fun _ _ _ _ => hEmpty _, ?_⟩
  intro c q op hPc
  rw [hInit.pc] at hPc
  cases hPc

end System

/-- In every run in which no task joins a pend list between another task's
empty test of it and the credit, and nobody else empties a pend list between a
successful test of it and the wake, no task waits on a side of a queue whose
counter is positive, and every wake step finds a waiter. -/
theorem queue_wakes_waiters (cfg : Config) (idle : TaskId) (s₀ : System)
    (hInit : s₀.Initial cfg idle) (events : List SysEvent) (tr : Trace)
    (run : Transition.RunsIf traceStep (fun tr event =>
      (∀ c, CreditInTime tr.sys event c) ∧ ∀ c, WakeInTime tr.sys event c) ⟨s₀, []⟩ events tr)
    (q : Nat) (op : QueueOp) :
    (0 < (tr.sys.queue q).queueRwCount op → tr.sys.pending (.queue q op) = []) ∧
      .queueWake q op none ∉ tr.past := by
  have hInv : tr.sys.Consistent ∧ tr.sys.Protocol ∧ .queueWake q op none ∉ tr.past := by
    refine Transition.RunsIf.invariant run
      (fun tr => tr.sys.Consistent ∧ tr.sys.Protocol ∧ .queueWake q op none ∉ tr.past) ?_ ?_
    · exact ⟨System.consistent_init hInit, System.protocol_init hInit, List.not_mem_nil⟩
    · intro tr event tr' h hOk hStep
      obtain ⟨r, hExec, rfl⟩ := traceStep_some hStep
      refine ⟨System.consistent_step h.1 hExec,
        System.protocol_step h.1 hOk.1 hOk.2 h.2.1 hExec, ?_⟩
      rw [List.mem_append, not_or]
      refine ⟨h.2.2, ?_⟩
      intro hLost
      obtain ⟨c, op', hPc, rfl, hEmpty⟩ :=
        (System.queueStep_exec h.1.sound hExec).lost _ hLost q op rfl
      exact h.2.1.wake c q op' hPc hEmpty
  refine ⟨?_, hInv.2.2⟩
  intro hPositive
  by_contra hSome
  have hZero := hInv.2.1.idle q op hSome
  omega

/-- In a run of a few tasks only they need be looked at. -/
theorem queueInTime_of_tasks {cfg : Config} {idle : TaskId} {s₀ : System}
    (hInit : s₀.Initial cfg idle) (tasks : List TaskId) {events : List SysEvent} {tr : Trace}
    (run : Transition.RunsIf traceStep (fun tr event =>
      (∀ c ∈ tasks, CreditInTime tr.sys event c ∧ WakeInTime tr.sys event c) ∧
      ∀ x ∈ tr.sys.k.dosCurrentTask, tr.sys.Running x → x ∈ tasks) ⟨s₀, []⟩ events tr) :
    Transition.RunsIf traceStep (fun tr event =>
      (∀ c, CreditInTime tr.sys event c) ∧ ∀ c, WakeInTime tr.sys event c) ⟨s₀, []⟩ events tr := by
  refine runsIf_of_tasks hInit tasks run ?_
  intro tr event hUser hOk
  constructor
  · intro c
    by_cases hc : c ∈ tasks
    · exact (hOk c hc).1
    · simp [CreditInTime, hUser c hc]
  · intro c
    by_cases hc : c ∈ tasks
    · exact (hOk c hc).2
    · simp [WakeInTime, hUser c hc]

/-- A reader that waits before the write is woken by it. -/
theorem queue_wakes_waiters_reader : ∃ tr,
    Transition.RunsIf traceStep (fun tr event =>
      (∀ c, CreditInTime tr.sys event c) ∧ ∀ c, WakeInTime tr.sys event c) ⟨System.small, []⟩
      [.create 1 5 5, .create 2 3 5, .start, .switch 2,
        .call (.queue 0 .read 0x20001000 4 100), .switch 1,
        .call (.queue 0 .write 0x20002000 4 0), .next, .next, .next, .switch 2, .next, .next, .next,
        .next] tr ∧
    .queueWake 0 .read (some 2) ∈ tr.past ∧ 0 < (tr.sys.queue 0).queueRwCount .write ∧
    tr.sys.pending (.queue 0 .write) = [] ∧ .queueWake 0 .read none ∉ tr.past := by
  have hRun : Transition.RunsIf traceStep (fun tr event =>
      (∀ c, CreditInTime tr.sys event c) ∧ ∀ c, WakeInTime tr.sys event c) ⟨System.small, []⟩
      [.create 1 5 5, .create 2 3 5, .start, .switch 2,
        .call (.queue 0 .read 0x20001000 4 100), .switch 1,
        .call (.queue 0 .write 0x20002000 4 0), .next, .next, .next, .switch 2, .next, .next, .next,
        .next] _ :=
    queueInTime_of_tasks System.initial_small [1, 2]
      (Transition.runsIf_of_isSome (by decide +kernel))
  have hProtocol := queue_wakes_waiters shippedConfig 0 System.small System.initial_small _ _ hRun 0
  exact ⟨_, hRun, by decide +kernel, by decide +kernel, (hProtocol .write).1 (by decide +kernel),
    (hProtocol .read).2⟩

/-- A reader that waits between the writer's test and its credit sleeps on a
queue that holds a message; a writer whose only waiter times out between its
test and its wake finds the list empty. -/
theorem unprotected_test_goes_stale :
    (∃ tr, Transition.Runs traceStep ⟨System.small, []⟩
      [.create 1 5 5, .create 2 3 5, .start, .switch 2, .call (.sleep 1), .switch 1,
        .call (.queue 0 .write 0x20002000 4 0), .next, .next, .tick, .switch 2,
        .call (.queue 0 .read 0x20001000 4 100), .switch 1, .next] tr ∧
      (∀ c, c ≠ 2 → tr.sys.pc c = .user) ∧ tr.sys.pc 2 = .wait (.queue 0 .read 0x20001000 4) ∧
      (tr.sys.queue 0).queueRwCount .read = 1 ∧ tr.sys.pending (.queue 0 .read) = [2]) ∧
    ∃ tr, Transition.Runs traceStep ⟨System.small, []⟩
      [.create 1 5 5, .create 2 3 5, .start, .switch 2, .call (.queue 0 .read 0x20001000 4 1),
        .switch 1, .call (.queue 0 .write 0x20002000 4 0), .next, .next, .tick, .switch 2, .next,
        .next, .next, .call (.sleep 100), .switch 1, .next] tr ∧
      .queueWake 0 .read none ∈ tr.past := by
  constructor
  · have hTasks : Transition.RunsIf traceStep (fun tr _ =>
        ∀ x ∈ tr.sys.k.dosCurrentTask, tr.sys.Running x → x ∈ [1, 2]) ⟨System.small, []⟩
        [.create 1 5 5, .create 2 3 5, .start, .switch 2, .call (.sleep 1), .switch 1,
          .call (.queue 0 .write 0x20002000 4 0), .next, .next, .tick, .switch 2,
          .call (.queue 0 .read 0x20001000 4 100), .switch 1, .next] _ :=
      Transition.runsIf_of_isSome (by decide +kernel)
    refine ⟨_, hTasks.mono fun _ _ _ => trivial, ?_, by decide +kernel, by decide +kernel,
      by decide +kernel⟩
    intro c hTwo
    by_cases hOne : c = 1
    · subst hOne
      decide +kernel
    · exact user_run System.initial_small [1, 2] hTasks c (by simp [hOne, hTwo])
  · exact ⟨_, Transition.runs_of_isSome (by decide +kernel), by decide +kernel⟩

end DoraOS
