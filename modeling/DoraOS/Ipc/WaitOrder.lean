import DoraOS.Ipc.MutexEffect
import DoraOS.Kernel.Moves
import DoraOS.Library.History

/-! The order in which waiters are served. A pend list is ordered by the value
that `dos_task_create` stored in the pend item, and tasks with equal values
are in the order in which they began to wait. Mutex inheritance changes the
priority of a task but not that value. -/
namespace DoraOS

def Label.waitOf (t : TaskId) : Label → Bool
  | .waiting x _ => x = t
  | _ => false

/-- When `t` last began to wait, as a position in the past. -/
def waitingSince (t : TaskId) (past : List Label) : Nat :=
  History.lastPlace (Label.waitOf t) past

/-- The pend list from which a step takes a task in order to wake it. -/
def System.servedList (s : System) : SysEvent → Option PendId
  | .call (.semPost i) => some (.sem i)
  | .call (.mutexPost m) => some (.mutex m)
  | .isrSemPost i => some (.sem i)
  | .isrQueue q op _ _ => some (.queue q op.other)
  | .tick => s.swtmrQueue.map fun q => .queue q .read
  | .next =>
      match s.k.dosCurrentTask with
      | some c =>
          match s.pc c with
          | .wake q op => some (.queue q op.other)
          | _ => none
      | none => none
  | _ => none

/-- Whether a task waits for a semaphore, a mutex or a queue. -/
def System.inLine (s : System) (t : TaskId) : Bool :=
  match s.k.lists.owner .pend t with
  | none => false
  | some (.pend (.event _)) => false
  | some _ => true

/-- `c` has the priority it was created with, and the owner to whom its wait
for a mutex gives a priority is not waiting in line itself. -/
def System.PlainWait (s : System) (c : TaskId) : PendId → Prop
  | .event _ => True
  | .mutex m => s.k.priority c = s.k.lists.value .pend c ∧
      ∀ o ∈ (s.mutex m).mutexOwner, (s.mutex m).mutexPriority > s.k.priority c → s.inLine o = false
  | _ => s.k.priority c = s.k.lists.value .pend c

instance (s : System) (c : TaskId) (id : PendId) : Decidable (s.PlainWait c id) := by
  unfold System.PlainWait
  split <;> infer_instance

def System.PlainLabel (s : System) (c : TaskId) : Label → Prop
  | .waiting _ id => s.PlainWait c id
  | _ => True

instance (s : System) (c : TaskId) (l : Label) : Decidable (s.PlainLabel c l) := by
  unfold System.PlainLabel
  split <;> infer_instance

/-- Every wait that a call begins is a plain one. -/
def WaitsPlainly (s : System) : SysEvent → Prop
  | .call a => ∀ c ∈ s.k.dosCurrentTask, ∀ l ∈ (s.call c a).2, s.PlainLabel c l
  | _ => True

instance (s : System) (event : SysEvent) : Decidable (WaitsPlainly s event) := by
  unfold WaitsPlainly
  split <;> infer_instance

section Since

variable {t : TaskId} {past ls : List Label} {id : PendId}

theorem waitingSince_le (t : TaskId) (past : List Label) : waitingSince t past ≤ past.length :=
  History.lastPlace_le _ past

theorem waitingSince_append (h : ∀ id, .waiting t id ∉ ls) :
    waitingSince t (past ++ ls) = waitingSince t past := by
  have hNone : ∀ l ∈ ls, Label.waitOf t l = false := by
    intro l hMem
    cases l with
    | waiting x id =>
        refine decide_eq_false ?_
        rintro rfl
        exact h id hMem
    | _ => rfl
  exact History.lastPlace_append hNone

theorem waitingSince_now (t : TaskId) (id : PendId) (past : List Label) :
    waitingSince t (past ++ [.waiting t id]) = past.length + 1 := by
  have hWait : Label.waitOf t (.waiting t id) = true := decide_eq_true rfl
  exact History.lastPlace_snoc hWait past

end Since

/-- Pend lists only lost members. -/
def Kernel.PendSub (k k' : Kernel) : Prop :=
  ∀ id, (k'.lists.items (.pend id)).Sublist (k.lists.items (.pend id))

structure PendLoses (s s' : System) (ls : List Label) : Prop where
  sub : Kernel.PendSub s.k s'.k
  pair : s.k.SleepPair → s'.k.SleepPair
  live : ∀ t, s'.k.Live t → s.k.Live t ∨ ∃ prio, .created t prio ∈ ls
  labels : ∀ t id, .waiting t id ∉ ls

structure PendJoins (c : TaskId) (id : PendId) (s s' : System) (ls : List Label) : Prop where
  new : ∀ id', c ∉ s.pending id'
  sub : ∀ id', (s'.pending id').Sublist
    ((s.k.lists.dosTaskItemInsert (.pend id) c).items (.pend id'))
  labels : ls = [.waiting c id]

namespace System

open Kernel

variable {s s' : System} {c : TaskId} {ls : List Label}

section Effect

/-- A step whose kernel operations link no pend item. -/
theorem loses_moves (h : Moves s.k s'.k) (hLabels : ∀ t id, .waiting t id ∉ ls) :
    PendLoses s s' ls :=
  ⟨h.pend_sublist, h.pair, fun _ hLive => Or.inl (h.live hLive), hLabels⟩

theorem loses_same (h : s'.k = s.k) (hLabels : ∀ t id, .waiting t id ∉ ls) :
    PendLoses s s' ls :=
  loses_moves (h ▸ Moves.refl) hLabels

theorem moves_wakeFirst (k : Kernel) (l : ListId) (t : TaskId) : Moves k (k.wakeFirst l t) :=
  ((moves_first k l).trans (moves_wake _ t)).trans (moves_scheduler _)

/-- The task at the end of `dos_task_wait` has joined its pend list, and
nothing else has. `s₁` is the system after a preparation that concerns other
data. -/
theorem joins_block {s₁ : System} (h : Coherent s₁) (hUser : s₁.pc c = .user)
    (hItems : ∀ id, s₁.pending id = s.pending id)
    (hKey : ∀ x, s₁.k.lists.value .pend x = s.k.lists.value .pend x) (w : Wait) (timeout : Nat) :
    PendJoins c w.pendId s (s₁.block c w timeout).1 (s₁.block c w timeout).2 := by
  have hFree : (s₁.k.view c).pendOwner = none :=
    (h.ok c).unpended (by simp [task, hUser, Pc.waitsOn])
  refine ⟨?_, ?_, rfl⟩
  · intro id' hMem
    rw [← hItems, mem_pending h.sound, hFree] at hMem
    cases hMem
  · intro id'
    have hMoves := (moves_wait_linked s₁.k c h.sound.pair w.pendId timeout).trans
      (moves_scheduler _)
    have hLinked : (s₁.k.lists.dosTaskItemInsert (.pend w.pendId) c).items (.pend id') =
        (s.k.lists.dosTaskItemInsert (.pend w.pendId) c).items (.pend id') := by
      have hValues : s₁.k.lists.value .pend = s.k.lists.value .pend := funext hKey
      rw [TaskLists.insert_items, TaskLists.insert_items]
      show (if _ then (if s₁.k.lists.value .pend c = _ then s₁.pending w.pendId ++ [c]
        else KeyOrder.insert (s₁.k.lists.value .pend) c (s₁.pending w.pendId))
        else s₁.pending id') = _
      rw [hItems, hItems, hValues]
      rfl
    rw [← hLinked]
    exact hMoves.pend_sublist id'

theorem loses_semPost {caller : Option TaskId} {i : Nat} {r : System × List Label}
    (hPost : s.SemPosts caller i r) : PendLoses s r.1 r.2 := by
  cases hPost with
  | wake t => exact loses_moves (moves_wakeFirst _ _ t) (by simp)
  | _ => exact loses_same rfl (by simp)

theorem loses_queueNow {caller : Option TaskId} {q : Nat} {op : QueueOp} {buff size : Nat}
    {r : System × List Label} (hSend : s.QueueNow caller q op buff size r) :
    PendLoses s r.1 r.2 := by
  cases hSend with
  | wake t => exact loses_moves (moves_wakeFirst _ _ t) (by simp)
  | _ => exact loses_same rfl (by simp)

theorem moves_restorePriority (k : Kernel) (t : TaskId) (prio : Nat) :
    Moves k (k.restorePriority t prio) := by
  unfold restorePriority
  split
  · exact moves_setPriority k t prio
  · exact Moves.refl

theorem moves_inherit (c : TaskId) (m : Nat) : Moves s.k (s.inherit c m).k := by
  unfold inherit
  split
  · split
    · exact moves_setPriority s.k _ _
    · exact Moves.refl
  · exact Moves.refl

theorem pending_inherit (h : s.k.Sound) (m : Nat) (id : PendId) :
    (s.inherit c m).pending id = s.pending id := by
  unfold inherit
  split
  · split
    · exact pend_items_setPriority h _ _ id
    · rfl
  · rfl

/-- A call lets nobody but its caller begin to wait. -/
theorem pend_call (h : Coherent s) (hUser : s.pc c = .user) {a : Call} {r : System × List Label}
    (hCall : s.Calls c a r) : PendLoses s r.1 r.2 ∨ ∃ id, PendJoins c id s r.1 r.2 := by
  have hBack (m : Nat) : Moves s.k (s.released c m).k := moves_restorePriority s.k c _
  cases hCall with
  | semBlock | queueBlock =>
      exact Or.inr ⟨_, joins_block h hUser (fun _ => rfl) (fun _ => rfl) _ _⟩
  | semPost i hPost => exact Or.inl (loses_semPost hPost)
  | mutexBlock m timeout hHeld hOwner hWait =>
      have hSpec := spec_inherit (s.cause .next) h.sound c m
      have hPc : (s.inherit c m).pc c = .user := by rw [inherit_pc, hUser]
      exact Or.inr ⟨_, joins_block (hSpec.coherent h) hPc (pending_inherit h.sound m)
        (key_inherit m) _ _⟩
  | mutexFree m => exact Or.inl (loses_moves (hBack m) (by simp))
  | mutexHand m t => exact Or.inl (loses_moves ((hBack m).trans (moves_wakeFirst _ _ t)) (by simp))
  | eventBlock e waitEvent op timeout =>
      have hStill := still_waitEvent h.sound c waitEvent op
      exact Or.inr ⟨_, joins_block (s := s) (h.still hStill) hUser (fun _ => rfl)
        (fun _ => rfl) _ _⟩
  | sleep sleepTick => exact Or.inl (loses_moves (moves_sleep s.k c h.sound.pair _) (by simp))
  | lock => exact Or.inl (loses_moves (moves_of_eq rfl rfl rfl id) (by simp))
  | unlock => exact Or.inl (loses_moves (moves_unlock s.k) (by simp))
  | _ => exact Or.inl (loses_same rfl (by simp))

theorem live_setWaitEvent {waitEvent op : BitVec 32} {t : TaskId}
    (hLive : (s.setWaitEvent c waitEvent op).k.Live t) : s.k.Live t := by
  refine ⟨hLive.1, ?_⟩
  have hUsed := hLive.2
  simp only [Kernel.is, setWaitEvent, setKernel, mapTcb] at hUsed
  split at hUsed <;> exact hUsed

theorem loses_resume {pc : Pc} {r : System × List Label} (hResumes : s.Resumes c pc r) :
    PendLoses s r.1 r.2 := by
  have hNext (e : Nat) : Moves s.k { s.k with
      lists := (s.k.lists.dosGetNextTask (.pend (.event e))).1 } :=
    Moves.other (fun _ => ⟨rfl, rfl⟩) (fun _ => rfl) (fun _ => TaskLists.next_items _ _)
      (fun _ => id) id
  cases hResumes with
  | reset w =>
      exact loses_moves ((moves_resetStatus s.k c (by simp)).trans (moves_setStatus _ c _)) (by simp)
  | cleanUpEvent w waitEvent =>
      have hMoves := moves_timeoutCleanUp s.k c
      exact ⟨hMoves.pend_sublist, hMoves.pair,
        fun _ hLive => Or.inl (hMoves.live (live_setWaitEvent hLive)), by simp⟩
  | cleanUp w => exact loses_moves (moves_timeoutCleanUp s.k c) (by simp)
  | unlink w => exact loses_moves (Moves.del s.k c .pend) (by simp)
  | woken q op t rest hHead => exact loses_moves (moves_wakeFirst s.k _ _) (by simp)
  | setLock e => exact loses_moves (moves_of_eq rfl rfl rfl id) (by simp)
  | setDone e => exact loses_moves (moves_unlock s.k) (by simp)
  | setSelect e value t event hSome =>
      have hGet (k : Kernel) : Moves k
          (k.mapTcb t fun tcb => { tcb with eventGet := tcb.waitEvent }) :=
        moves_mapTcb k t fun _ => ⟨⟨rfl, rfl⟩, id⟩
      exact loses_moves ((hNext e).trans (hGet _)) (by simp)
  | setTurn e value => exact loses_moves (hNext e) (by simp)
  | setWake e value t => exact loses_moves ((moves_wake s.k t).trans (moves_scheduler _)) (by simp)
  | _ => exact loses_same rfl (by simp)

theorem moves_expired (s : System) : Moves s.k s.expired.k :=
  (moves_tickTimeouts s.k).trans (moves_scheduler _)

theorem loses_create {t : TaskId} {prio tick : Nat} {k : Kernel}
    (hStep : kernelStep s.k (.create t prio tick) = some k) :
    PendLoses s (s.setKernel k) [.created t prio] := by
  simp only [kernelStep, Option.ite_none_right_eq_some, dosTaskCreate,
    Option.ite_none_left_eq_some, Option.some.injEq] at hStep
  have hMoves := moves_insertPriorityList ((s.k.zeroTcb t).dosInitTcb t prio tick) t
  rw [← hStep.2.2]
  refine ⟨hMoves.pend_sublist, hMoves.pair, ?_, by simp⟩
  intro x hLive
  by_cases hx : x = t
  · exact Or.inr ⟨prio, by simp [hx]⟩
  · have hWas := hMoves.live hLive
    simp only [Kernel.Live, Kernel.is, dosInitTcb, zeroTcb, mapTcb, if_neg hx] at hWas
    exact Or.inl hWas

/-- Apart from calls no step makes a task wait. -/
theorem loses_exec {event : SysEvent} {r : System × List Label} (hStep : s.exec event = some r)
    (hNoCall : ∀ a, event ≠ .call a) : PendLoses s r.1 r.2 := by
  have hAdvance : Moves s.k s.advanced.k := moves_tickAdvance s.k
  cases steps_of_exec hStep with
  | create t prio tick hCreate => exact loses_create hCreate
  | start => exact loses_moves (moves_start s.k) (by simp)
  | switch t => exact loses_moves (moves_of_eq rfl rfl rfl id) (by simp)
  | tick => exact loses_moves (hAdvance.trans (moves_expired s.advanced)) (by simp)
  | overflow q sent hQueue hSend =>
      have hPost := loses_queueNow hSend
      have hEnd := moves_expired sent.1
      exact ⟨fun id => (hEnd.pend_sublist id).trans ((hPost.sub id).trans (hAdvance.pend_sublist id)),
        fun hPair => hEnd.pair (hPost.pair (hAdvance.pair hPair)),
        fun t hLive => (hPost.live t (hEnd.live hLive)).imp_left hAdvance.live, hPost.labels⟩
  | isrSemPost i hPost => exact loses_semPost hPost
  | isrQueue q op buff size hSend => exact loses_queueNow hSend
  | call c a => exact absurd rfl (hNoCall a)
  | next c hRun hPc hNext => exact loses_resume hNext

/-- Only a call makes a task wait, and only the task that made it. -/
theorem pend_exec (h : Coherent s) {event : SysEvent} {r : System × List Label}
    (hStep : s.exec event = some r) : PendLoses s r.1 r.2 ∨
      ∃ a c id, event = .call a ∧ s.Running c ∧ s.call c a = r ∧ PendJoins c id s r.1 r.2 := by
  by_cases hCall : ∃ a, event = .call a
  · obtain ⟨a, rfl⟩ := hCall
    obtain ⟨c, hRun, hUser, rfl⟩ := call_some hStep
    refine (pend_call h hUser (calls_call a)).imp_right ?_
    rintro ⟨id, hJoins⟩
    exact ⟨a, c, id, rfl, hRun, rfl, hJoins⟩
  · exact Or.inl (loses_exec hStep fun a hEq => hCall ⟨a, hEq⟩)

end Effect

section Order

variable {event : SysEvent} {r : System × List Label} {past : List Label}

/-- The pend key of a task stays what it was created with. -/
theorem key_step (h : Coherent s) (hStep : s.exec event = some r) {t : TaskId}
    (hAlloc : (s.k.view t).alloc = true) :
    r.1.k.lists.value .pend t = s.k.lists.value .pend t := by
  cases effect_exec h hStep with
  | quiet _ hRank => exact hRank.key t
  | create x prio tick _ hCreates =>
      refine hCreates.key_other t ?_
      rintro rfl
      exact absurd (hCreates.free.symm.trans hAlloc) (by simp)
  | take m timeout c _ _ _ hSystem => rw [hSystem]; rfl
  | nest m timeout c _ _ _ _ hSystem => rw [hSystem]; rfl
  | block m timeout c _ _ _ _ _ _ _ _ hKey => exact hKey t
  | leave m c _ _ _ _ hSystem => rw [hSystem]; rfl
  | free m c _ _ _ _ _ _ _ _ hKey => exact hKey t
  | hand m c x rest _ _ _ _ _ _ _ _ _ hKey => exact hKey t

/-- Every pend list is in the order of the keys, and of the times at which the
waits began. -/
def InOrder (s : System) (past : List Label) : Prop :=
  ∀ id, KeyOrder.Queued (s.k.lists.value .pend) (fun t => waitingSince t past) (s.pending id)

theorem inOrder_step (h : Coherent s) (hOrder : s.InOrder past) (hStep : s.exec event = some r) :
    r.1.InOrder (past ++ r.2) := by
  have hAlloc {id : PendId} {t : TaskId} (ht : t ∈ s.pending id) : (s.k.view t).alloc = true :=
    (h.ok t).alloc ((mem_pending h.sound).mp ht)
  have hKept {id : PendId} (hLabels : ∀ t ∈ s.pending id, ∀ id', .waiting t id' ∉ r.2) :
      KeyOrder.Queued (r.1.k.lists.value .pend) (fun t => waitingSince t (past ++ r.2))
        (s.pending id) :=
    (hOrder id).congr (fun t ht => key_step h hStep (hAlloc ht))
      fun t ht => waitingSince_append (hLabels t ht)
  rcases pend_exec h hStep with hLoses | ⟨a, c, id, -, hRun, -, hJoins⟩
  · intro id
    exact (hKept fun t _ id' => hLoses.labels t id').sublist (hLoses.sub id)
  · have hOther {id' : PendId} {t : TaskId} (ht : t ∈ s.pending id') : t ≠ c := by
      rintro rfl
      exact hJoins.new id' ht
    have hLabels {id' : PendId} (t : TaskId) (ht : t ∈ s.pending id') (id'' : PendId) :
        .waiting t id'' ∉ r.2 := by
      simp [hJoins.labels, hOther ht]
    intro id'
    refine List.Pairwise.sublist (hJoins.sub id') ?_
    rw [TaskLists.insert_items]
    split
    · -- the new wait is the last label
      have hLast : ∀ t ∈ s.pending id, waitingSince t (past ++ r.2) < waitingSince c (past ++ r.2) := by
        intro t ht
        rw [waitingSince_append (hLabels t ht), hJoins.labels, waitingSince_now]
        exact Nat.lt_succ_of_le (waitingSince_le t past)
      have hKey (t : TaskId) (ht : t ∈ s.pending id ∨ t = c) :
          s.k.lists.value .pend t = r.1.k.lists.value .pend t := by
        rcases ht with ht | rfl
        · exact (key_step h hStep (hAlloc ht)).symm
        · exact (key_step h hStep hRun.alloc).symm
      split
      · rename_i hMax
        refine (hKept hLabels).append_max hLast ?_
        intro t ht
        rw [← hKey t (Or.inl ht), ← hKey c (Or.inr rfl)]
        have hBound := h.sound.linked.value_lt .pend t
        have hMax' : s.k.lists.value .pend c = 0xFFFFFFFF := hMax
        omega
      · have hOld : KeyOrder.Queued (s.k.lists.value .pend)
            (fun t => waitingSince t (past ++ r.2)) (s.pending id) :=
          (hOrder id).congr (fun _ _ => rfl) fun t ht => waitingSince_append (hLabels t ht)
        refine (hOld.insert (a := c) hLast).congr ?_ (fun _ _ => rfl)
        intro t ht
        rw [KeyOrder.mem_insert] at ht
        exact (hKey t ht.symm).symm
    · exact hKept hLabels

/-- A task that waits in line has the priority it was created with. -/
def AtKey (s : System) : Prop :=
  ∀ t, s.inLine t = true → s.k.priority t = s.k.lists.value .pend t

theorem inLine_iff (h : s.k.Sound) {t : TaskId} :
    s.inLine t = true ↔ ∃ id, (∀ e, id ≠ .event e) ∧ t ∈ s.pending id := by
  simp only [mem_pending h]
  show _ ↔ ∃ id, (∀ e, id ≠ .event e) ∧ s.k.lists.owner .pend t = some (.pend id)
  unfold inLine
  split
  · rename_i hOwner
    simp [hOwner]
  · rename_i e hOwner
    simp [hOwner]
  · rename_i l hNot hOwner
    have hKind := h.linked.kind .pend t l hOwner
    cases l with
    | pend id =>
        refine ⟨fun _ => ⟨id, ?_, hOwner⟩, fun _ => rfl⟩
        rintro e rfl
        exact hNot e rfl
    | _ => cases hKind

theorem plain_waiting (h : Coherent s) (hPlain : WaitsPlainly s event)
    (hStep : s.exec event = some r) {t : TaskId} {id : PendId} (hLabel : .waiting t id ∈ r.2) :
    s.PlainWait t id := by
  rcases pend_exec h hStep with hLoses | ⟨a, c, id', rfl, hRun, rfl, hJoins⟩
  · exact absurd hLabel (hLoses.labels t id)
  · have hSelf : t = c ∧ id = id' := by simpa [hJoins.labels] using hLabel
    obtain ⟨rfl, rfl⟩ := hSelf
    exact hPlain t hRun.2.1 _ hLabel

theorem PlainWait.atKey {id : PendId} (h : s.PlainWait c id) (hLine : ∀ e, id ≠ .event e) :
    s.k.priority c = s.k.lists.value .pend c := by
  cases id with
  | event e => exact absurd rfl (hLine e)
  | mutex m => exact h.1
  | sem i => exact h
  | queue q op => exact h

theorem atKey_step (h : Consistent s) (hKey : s.AtKey) (hPlain : WaitsPlainly s event)
    (hStep : s.exec event = some r) : r.1.AtKey := by
  intro t ht
  have hSpec := spec_exec h.toCoherent h.chosen hStep
  obtain ⟨id, hLine, hOn⟩ := (inLine_iff hSpec.sound).mp ht
  have hCases : s.inLine t = true ∨ .waiting t id ∈ r.2 :=
    (pending_step h hStep hOn).imp_left fun hWas => (inLine_iff h.sound).mpr ⟨id, hLine, hWas⟩
  have hBefore : s.k.priority t = s.k.lists.value .pend t := by
    rcases hCases with hWas | hLabel
    · exact hKey t hWas
    · exact (plain_waiting h.toCoherent hPlain hStep hLabel).atKey hLine
  have hUnpended {c : TaskId} (hUser : s.pc c = .user) : s.inLine c ≠ true := by
    intro hc
    obtain ⟨id', _, hMem⟩ := (inLine_iff h.sound).mp hc
    have hOff := (h.ok c).unpended (by simp [task, hUser, Pc.waitsOn])
    exact absurd (hOff.symm.trans ((mem_pending h.sound).mp hMem)) (by simp)
  cases effect_exec h.toCoherent hStep with
  | quiet _ hRank =>
      rw [hRank.priority, hRank.key]
      exact hBefore
  | create x prio tick _ hCreates _ hLabels =>
      by_cases hx : t = x
      · rw [hx]
        exact hCreates.priority.trans hCreates.key.symm
      · rw [hCreates.key_other t hx, ← hBefore]
        exact congrArg TaskView.priority (hCreates.view t hx)
  | take m timeout c _ _ _ hSystem =>
      rw [hSystem]
      exact hBefore
  | nest m timeout c _ _ _ _ hSystem =>
      rw [hSystem]
      exact hBefore
  | block m timeout c _ hEvent _ _ _ _ _ hPriority hRank hLabels =>
      have hWait : s.PlainWait c (.mutex m) :=
        plain_waiting h.toCoherent hPlain hStep (by simp [hLabels])
      rw [hPriority t, hRank t, ← hBefore, boosted]
      split
      · rename_i hBoost
        rcases hCases with hWas | hLabel
        · exact absurd hWas (by simp [hWait.2 t hBoost.1 hBoost.2])
        · have hSelf : t = c ∧ id = .mutex m := by simpa [hLabels] using hLabel
          rw [hSelf.1]
      · rfl
  | leave m c _ _ _ _ hSystem =>
      rw [hSystem]
      exact hBefore
  | free m c _ hUser _ _ _ _ _ hPriority hRank hLabels =>
      have hWas := hCases.resolve_right (by simp [hLabels])
      have hOther : t ≠ c := by
        rintro rfl
        exact hUnpended hUser hWas
      rw [hPriority t, if_neg hOther, hRank t, hBefore]
  | hand m c x rest _ hUser _ _ _ _ _ _ hPriority hRank hLabels =>
      have hWas := hCases.resolve_right (by simp [hLabels])
      have hOther : t ≠ c := by
        rintro rfl
        exact hUnpended hUser hWas
      rw [hPriority t, if_neg hOther, hRank t, hBefore]

end Order

section Served

variable {event : SysEvent} {r : System × List Label} {t : TaskId}

theorem granted_semPost {caller : Option TaskId} {i : Nat} (hPost : s.SemPosts caller i r)
    (hGranted : .granted t ∈ r.2) : ∃ rest, s.pending (.sem i) = t :: rest := by
  cases hPost with
  | wake x rest _ hHead =>
      obtain rfl : t = x := by simpa using hGranted
      exact ⟨rest, hHead⟩
  | _ => simp at hGranted

theorem granted_queueNow {caller : Option TaskId} {q buff size : Nat} {op : QueueOp}
    (hSend : s.QueueNow caller q op buff size r) (hGranted : .granted t ∈ r.2) :
    ∃ rest, s.pending (.queue q op.other) = t :: rest := by
  cases hSend with
  | wake x rest _ hHead =>
      obtain rfl : t = x := by simpa using hGranted
      exact ⟨rest, hHead⟩
  | _ => simp at hGranted

theorem pend_items_tickAdvance (k : Kernel) (id : PendId) :
    k.dosTickAdvance.lists.items (.pend id) = k.lists.items (.pend id) :=
  tickAdvance_rule (P := fun k' => k'.lists.items (.pend id) = k.lists.items (.pend id))
    (fun _ hk => hk) (fun hk => (TaskLists.first_items _ _).trans hk) (fun hk => hk)
    (fun hk => hk) rfl

theorem servedList_event {e : Nat} (h : s.servedList event = some (.event e)) : False := by
  unfold servedList at h
  split at h
  · cases h
  · cases h
  · cases h
  · cases h
  · simp at h
  · split at h
    · split at h <;> cases h
    · cases h
  · cases h

/-- Whom a step wakes from the list it serves was the first of that list. -/
theorem granted_head (h : Coherent s) (hStep : s.exec event = some r) {id : PendId}
    (hServed : s.servedList event = some id) (hGranted : .granted t ∈ r.2) :
    ∃ rest, s.pending id = t :: rest := by
  cases steps_of_exec hStep with
  | tick => simp at hGranted
  | overflow q sent hQueue hSend =>
      simp only [servedList, hQueue, Option.map_some, Option.some.injEq] at hServed
      subst hServed
      obtain ⟨rest, hHead⟩ := granted_queueNow hSend hGranted
      exact ⟨rest, (pend_items_tickAdvance s.k _).symm.trans hHead⟩
  | isrSemPost i hPost =>
      cases hServed
      exact granted_semPost hPost hGranted
  | isrQueue q op buff size hSend =>
      cases hServed
      exact granted_queueNow hSend hGranted
  | call c a hRun hUser hCall =>
      cases hCall with
      | semPost i hPost =>
          cases hServed
          exact granted_semPost hPost hGranted
      | mutexHand m x rest _ _ hHead =>
          cases hServed
          obtain rfl : t = x := by simpa using hGranted
          exact ⟨rest, (pending_restore h.sound c _ (.mutex m)).symm.trans hHead⟩
      | fails | mutexUnnest | mutexFree => simp at hGranted
      | _ => cases hServed
  | next c hRun hPc hNext =>
      simp only [servedList, hRun.2.1, hPc] at hServed
      cases hNext with
      | noWaiter => simp at hGranted
      | woken q op x rest hHead =>
          cases hServed
          obtain rfl : t = x := by simpa using hGranted
          exact ⟨rest, hHead⟩
      | _ => cases hServed
  | _ => cases hServed

end Served

end System

theorem inOrder_init {cfg : Config} {idle : TaskId} {s₀ : System} (hInit : s₀.Initial cfg idle) :
    s₀.InOrder [] := by
  intro id
  rw [System.pending_init hInit id]
  exact List.Pairwise.nil

/-- The pend lists of every run, those of the events included, are in order. -/
theorem inOrder_run {cfg : Config} {idle : TaskId} {s₀ : System} (hInit : s₀.Initial cfg idle)
    {ok : Trace → SysEvent → Prop} {events : List SysEvent} {tr : Trace}
    (run : Transition.RunsIf traceStep ok ⟨s₀, []⟩ events tr) : tr.sys.InOrder tr.past := by
  refine (Transition.RunsIf.invariant run (fun tr => tr.sys.Consistent ∧ tr.sys.InOrder tr.past)
    ⟨System.consistent_init hInit, inOrder_init hInit⟩ ?_).2
  intro tr event tr' h _ hStep
  obtain ⟨r, hExec, rfl⟩ := traceStep_some hStep
  exact ⟨System.consistent_step h.1 hExec, System.inOrder_step h.1.toCoherent h.2 hExec⟩

/-- In every run in which tasks wait in line only at the priority they were
created with, and boost no owner that waits in line itself, the task woken
from a semaphore, mutex or queue is the most urgent waiter, and of the most
urgent ones the one that has waited longest. -/
theorem waiters_served_in_order (cfg : Config) (idle : TaskId) (s₀ : System)
    (hInit : s₀.Initial cfg idle) (events : List SysEvent) (tr : Trace)
    (run : Transition.RunsIf traceStep (fun tr event => WaitsPlainly tr.sys event) ⟨s₀, []⟩
      events tr) (event : SysEvent) (r : System × List Label)
    (hStep : tr.sys.exec event = some r) (id : PendId) (hServed : tr.sys.servedList event = some id)
    (t : TaskId) (hGranted : .granted t ∈ r.2) :
    t ∈ tr.sys.pending id ∧ ∀ w ∈ tr.sys.pending id, w ≠ t →
      tr.sys.k.priority t ≤ tr.sys.k.priority w ∧
      (tr.sys.k.priority t = tr.sys.k.priority w →
        waitingSince t tr.past < waitingSince w tr.past) := by
  have hConsistent := consistent_run hInit run
  have hOrder := inOrder_run hInit run
  have hKey : tr.sys.AtKey := by
    refine (Transition.RunsIf.invariant run (fun tr => tr.sys.Consistent ∧ tr.sys.AtKey) ?_ ?_).2
    · refine ⟨System.consistent_init hInit, ?_⟩
      intro t ht
      obtain ⟨id, _, hMem⟩ := (System.inLine_iff (System.consistent_init hInit).sound).mp ht
      rw [System.pending_init hInit id] at hMem
      cases hMem
    · intro tr event tr' h hPlain hStep
      obtain ⟨r, hExec, rfl⟩ := traceStep_some hStep
      exact ⟨System.consistent_step h.1 hExec, System.atKey_step h.1 h.2 hPlain hExec⟩
  obtain ⟨rest, hHead⟩ := System.granted_head hConsistent.toCoherent hStep hServed hGranted
  have hLine : ∀ e, id ≠ .event e := by
    rintro e rfl
    exact System.servedList_event hServed
  have hAt {x : TaskId} (hx : x ∈ tr.sys.pending id) :
      tr.sys.k.priority x = tr.sys.k.lists.value .pend x :=
    hKey x ((System.inLine_iff hConsistent.sound).mpr ⟨id, hLine, hx⟩)
  have hQueued := hOrder id
  rw [hHead] at hQueued
  have hFirst : t ∈ tr.sys.pending id := by simp [hHead]
  refine ⟨hFirst, ?_⟩
  intro w hw hOther
  have hRest : w ∈ rest := by
    rw [hHead] at hw
    exact (List.mem_cons.mp hw).resolve_left hOther
  rw [hAt hFirst, hAt hw]
  exact hQueued.head_le hRest

/-- Three tasks wait for a semaphore, two of them at the same priority. The
post wakes the one of these two that came first. -/
theorem waiters_served_in_order_three : ∃ tr r,
    Transition.RunsIf traceStep (fun tr event => WaitsPlainly tr.sys event) ⟨System.small, []⟩
      [.create 1 7 5, .create 2 5 5, .create 3 5 5, .create 4 9 5, .start, .switch 1,
        .call (.semPend 0 100), .switch 3, .call (.semPend 0 100), .switch 2,
        .call (.semPend 0 100), .switch 4] tr ∧
    tr.sys.exec (.call (.semPost 0)) = some r ∧ tr.sys.pending (.sem 0) = [3, 2, 1] ∧
    .granted 3 ∈ r.2 ∧ ∀ w ∈ tr.sys.pending (.sem 0), w ≠ 3 →
      tr.sys.k.priority 3 ≤ tr.sys.k.priority w ∧
      (tr.sys.k.priority 3 = tr.sys.k.priority w →
        waitingSince 3 tr.past < waitingSince w tr.past) := by
  have hRun : Transition.RunsIf traceStep (fun tr event => WaitsPlainly tr.sys event)
      ⟨System.small, []⟩
      [.create 1 7 5, .create 2 5 5, .create 3 5 5, .create 4 9 5, .start, .switch 1,
        .call (.semPend 0 100), .switch 3, .call (.semPend 0 100), .switch 2,
        .call (.semPend 0 100), .switch 4] _ :=
    Transition.runsIf_of_isSome (by decide +kernel)
  refine ⟨_, _, hRun, (Option.some_get (by decide +kernel)).symm, by decide +kernel,
    by decide +kernel, ?_⟩
  exact (waiters_served_in_order shippedConfig 0 System.small System.initial_small _ _ hRun
    (.call (.semPost 0)) _ (Option.some_get (by decide +kernel)).symm (.sem 0) rfl 3
    (by decide +kernel)).2

/-- A task that is boosted to priority 2 waits for a semaphore behind a task of
priority 5, because its pend key is still 10: the post wakes the less urgent
one. -/
theorem boosted_waiter_passed_over : ∃ tr r,
    Transition.Runs traceStep ⟨System.small, []⟩
      [.create 1 10 5, .create 2 2 5, .create 3 5 5, .create 4 20 5, .start, .switch 2,
        .call (.sleep 1), .switch 3, .call (.sleep 2), .switch 1, .call (.mutexPend 0 0), .tick,
        .switch 2, .call (.mutexPend 0 100), .switch 1, .call (.semPend 0 100), .tick, .switch 3,
        .call (.semPend 0 100), .switch 4] tr ∧
    tr.sys.exec (.call (.semPost 0)) = some r ∧ tr.sys.servedList (.call (.semPost 0)) = some (.sem 0) ∧
    .granted 3 ∈ r.2 ∧ 1 ∈ tr.sys.pending (.sem 0) ∧
    tr.sys.k.priority 1 < tr.sys.k.priority 3 := by
  have hRun : Transition.Runs traceStep ⟨System.small, []⟩
      [.create 1 10 5, .create 2 2 5, .create 3 5 5, .create 4 20 5, .start, .switch 2,
        .call (.sleep 1), .switch 3, .call (.sleep 2), .switch 1, .call (.mutexPend 0 0), .tick,
        .switch 2, .call (.mutexPend 0 100), .switch 1, .call (.semPend 0 100), .tick, .switch 3,
        .call (.semPend 0 100), .switch 4] _ :=
    Transition.runs_of_isSome (by decide +kernel)
  exact ⟨_, _, hRun, (Option.some_get (by decide +kernel)).symm, rfl, by decide +kernel,
    by decide +kernel, by decide +kernel⟩

end DoraOS
