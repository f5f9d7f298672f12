import DoraOS.Ipc.Coherent

/-! What a step can do to the mutexes and to the priorities of the tasks. Only
`dos_mutex_pend` and `dos_mutex_post` change a mutex, and apart from the
creation of tasks only they change a priority. -/
namespace DoraOS

namespace Kernel

structure SameRank (k k' : Kernel) : Prop where
  priority : ∀ x, k'.priority x = k.priority x
  key : ∀ x, k'.lists.value .pend x = k.lists.value .pend x

variable {k k' k'' : Kernel} {t : TaskId}

theorem SameRank.refl : SameRank k k := ⟨fun _ => rfl, fun _ => rfl⟩

theorem SameRank.trans (first : SameRank k k') (second : SameRank k' k'') : SameRank k k'' where
  priority x := (second.priority x).trans (first.priority x)
  key x := (second.key x).trans (first.key x)

theorem Still.sameRank (h : Still k k') : SameRank k k' where
  priority x := congrArg TaskView.priority (h.view x)
  key := h.key

theorem Touches.sameRank (h : Touches t k k')
    (hPriority : (k'.view t).priority = (k.view t).priority) : SameRank k k' where
  priority x := by
    by_cases hx : x = t
    · subst hx
      exact hPriority
    · exact congrArg TaskView.priority (h.view x hx)
  key := h.key

theorem Expires.sameRank (h : Expires k k') : SameRank k k' where
  priority x := by
    rcases h.task x with hSame | ⟨_, hExp⟩
    · exact congrArg TaskView.priority hSame
    · exact congrArg TaskView.priority hExp
  key := h.key

end Kernel

/-- The labels that tell the story of tasks and mutexes. -/
def Label.isMutex : Label → Bool
  | .created _ _ => true
  | .mutexGranted _ _ _ => true
  | .mutexNested _ _ => true
  | .mutexReleased _ _ => true
  | _ => false

/-- No task that holds a mutex pends it again when it is nested as deep as its
16-bit counter can tell. -/
def NestingFits (s : System) : SysEvent → Prop
  | .call (.mutexPend m _) =>
      (s.mutex m).mutexOwner = s.k.dosCurrentTask → (s.mutex m).mutexCount < 2 ^ 16 - 1
  | _ => True

instance (s : System) (event : SysEvent) : Decidable (NestingFits s event) := by
  unfold NestingFits
  split <;> infer_instance

/-- The owner's priority after `c` has blocked on a mutex. -/
def System.boosted (s : System) (m : Nat) (c x : TaskId) : Nat :=
  if (s.mutex m).mutexOwner = some x ∧ (s.mutex m).mutexPriority > s.k.priority c then
    s.k.priority c
  else s.k.priority x

/-- Every effect of a step on mutexes, priorities and pend keys, with the
labels that record it. -/
inductive MutexEffect (s : System) (event : SysEvent) (s' : System) (ls : List Label) : Prop where
  | quiet (hMutex : s'.mutex = s.mutex) (hRank : Kernel.SameRank s.k s'.k)
      (hLabels : ls.filter Label.isMutex = []) (hWaiting : ∀ x m, .waiting x (.mutex m) ∉ ls)
  | create (t : TaskId) (prio tick : Nat) (hEvent : event = .create t prio tick)
      (hCreates : Kernel.Creates t prio s.k s'.k) (hMutex : s'.mutex = s.mutex)
      (hLabels : ls = [.created t prio])
  | take (m timeout : Nat) (c : TaskId) (hRun : s.Running c)
      (hEvent : event = .call (.mutexPend m timeout)) (hCount : (s.mutex m).mutexCount = 0)
      (hSystem : s' = s.setMutex m ⟨1, s.k.priority c, some c⟩)
      (hLabels : ls = [.mutexGranted m c (s.k.priority c), .returned (some c) .ok])
  | nest (m timeout : Nat) (c : TaskId) (hRun : s.Running c)
      (hEvent : event = .call (.mutexPend m timeout)) (hCount : (s.mutex m).mutexCount ≠ 0)
      (hOwner : (s.mutex m).mutexOwner = some c)
      (hSystem : s' = s.setMutex m (s.mutex m).mutexCountInc)
      (hLabels : ls = [.mutexNested m c, .returned (some c) .ok])
  | block (m timeout : Nat) (c : TaskId) (hRun : s.Running c)
      (hEvent : event = .call (.mutexPend m timeout)) (hCount : (s.mutex m).mutexCount ≠ 0)
      (hOwner : (s.mutex m).mutexOwner ≠ some c) (hTimeout : timeout ≠ 0) (hLock : ¬s.isLocked)
      (hMutex : s'.mutex = s.mutex)
      (hPriority : ∀ x, s'.k.priority x = s.boosted m c x)
      (hKey : ∀ x, s'.k.lists.value .pend x = s.k.lists.value .pend x)
      (hLabels : ls = [.waiting c (.mutex m)])
  | leave (m : Nat) (c : TaskId) (hRun : s.Running c) (hEvent : event = .call (.mutexPost m))
      (hOwner : (s.mutex m).mutexOwner = some c) (hCount : 1 < (s.mutex m).mutexCount)
      (hSystem : s' = s.setMutex m { s.mutex m with mutexCount := (s.mutex m).mutexCount - 1 })
      (hLabels : ls = [.mutexReleased m c, .returned (some c) .ok])
  | free (m : Nat) (c : TaskId) (hRun : s.Running c) (hUser : s.pc c = .user)
      (hEvent : event = .call (.mutexPost m))
      (hOwner : (s.mutex m).mutexOwner = some c) (hCount : (s.mutex m).mutexCount = 1)
      (hEmpty : s.pending (.mutex m) = [])
      (hMutex : s'.mutex = (s.setMutex m {}).mutex)
      (hPriority : ∀ x, s'.k.priority x = if x = c then (s.mutex m).mutexPriority else s.k.priority x)
      (hKey : ∀ x, s'.k.lists.value .pend x = s.k.lists.value .pend x)
      (hLabels : ls = [.mutexReleased m c, .returned (some c) .ok])
  | hand (m : Nat) (c t : TaskId) (rest : List TaskId) (hRun : s.Running c) (hUser : s.pc c = .user)
      (hEvent : event = .call (.mutexPost m))
      (hOwner : (s.mutex m).mutexOwner = some c) (hCount : (s.mutex m).mutexCount = 1)
      (hHead : s.pending (.mutex m) = t :: rest) (hOther : t ≠ c)
      (hMutex : s'.mutex = (s.setMutex m ⟨1, s.k.priority t, some t⟩).mutex)
      (hPriority : ∀ x, s'.k.priority x = if x = c then (s.mutex m).mutexPriority else s.k.priority x)
      (hKey : ∀ x, s'.k.lists.value .pend x = s.k.lists.value .pend x)
      (hLabels : ls = [.mutexReleased m c, .granted t, .mutexGranted m t (s.k.priority t),
        .returned (some c) .ok])

namespace System

open Kernel

variable {s : System} {c : TaskId} {event : SysEvent}

theorem mutex_setMutex (s : System) (m : Nat) (x : Mutex) : (s.setMutex m x).mutex m = x :=
  if_pos rfl

theorem mutex_setMutex_ne {m m' : Nat} (h : m' ≠ m) (x : Mutex) :
    (s.setMutex m x).mutex m' = s.mutex m' := if_neg h

section Rank

theorem rank_wakeFirst (h : s.k.Sound) (l : ListId) (t : TaskId) :
    SameRank s.k (s.k.wakeFirst l t) := by
  obtain ⟨hTouch, hView⟩ := touches_wakeFirst h l t
  exact hTouch.sameRank (by rw [hView]; rfl)

theorem rank_block (h : Coherent s) (hIdle : s.k.dosIdleTask ≠ some c) (hUser : s.pc c = .user)
    (w : Wait) (timeout : Nat) : SameRank s.k (s.block c w timeout).1.k := by
  have hFree : (s.k.view c).pendOwner = none :=
    (h.ok c).unpended (by simp [task, hUser, Pc.waitsOn])
  have hWait := touches_wait h.sound c w.pendId timeout hFree
  have hRank := hWait.sameRank (blocked_wait h.sound hIdle w.pendId timeout).priority
  exact hRank.trans (still_scheduler hWait.sound).sameRank

theorem priority_setPriority (k : Kernel) (t : TaskId) (prio : Nat) (x : TaskId) :
    (k.dosSetTaskPriority t prio).priority x = if x = t then prio else k.priority x := by
  by_cases hx : x = t
  · subst hx
    rw [if_pos rfl]
    exact (congrArg TaskView.priority (view_setPriority_eq k x prio)).trans (by simp)
  · rw [if_neg hx]
    exact (onlyTask_setPriority k t prio).priority hx

theorem priority_inherit (m : Nat) (x : TaskId) :
    (s.inherit c m).k.priority x = s.boosted m c x := by
  unfold inherit boosted
  split
  · rename_i hUrgent
    split
    · rename_i o hOwner
      show (s.k.dosSetTaskPriority o (s.k.priority c)).priority x = _
      rw [priority_setPriority, hOwner]
      simp [hUrgent, eq_comm]
    · rename_i hOwner
      simp [hOwner]
  · rename_i hUrgent
    simp [hUrgent]

theorem key_inherit (m : Nat) (x : TaskId) :
    (s.inherit c m).k.lists.value .pend x = s.k.lists.value .pend x := by
  unfold inherit
  split
  · split
    · exact (onlyTask_setPriority _ _ _).pendKey x
    · rfl
  · rfl

theorem mutex_inherit (m : Nat) : (s.inherit c m).mutex = s.mutex := by
  unfold inherit
  split
  · split <;> rfl
  · rfl

theorem priority_restore (k : Kernel) (t : TaskId) (prio : Nat) (x : TaskId) :
    (k.restorePriority t prio).priority x = if x = t then prio else k.priority x := by
  unfold restorePriority
  split
  · exact priority_setPriority k t prio x
  · rename_i hSame
    split
    · rename_i hx
      rw [hx]
      exact not_not.mp hSame
    · rfl

theorem key_restore (k : Kernel) (t : TaskId) (prio : Nat) (x : TaskId) :
    (k.restorePriority t prio).lists.value .pend x = k.lists.value .pend x := by
  unfold restorePriority
  split
  · exact (onlyTask_setPriority _ _ _).pendKey x
  · rfl

theorem rank_expired (h : s.k.Sound) : SameRank s.k s.expired.k := by
  have hExpires := expires_tickTimeouts h
  exact hExpires.sameRank.trans (still_scheduler hExpires.sound).sameRank

end Rank

section Effect

theorem effect_semPost (h : s.k.Sound) {caller : Option TaskId} {i : Nat} {r : System × List Label}
    (hPost : s.SemPosts caller i r) : MutexEffect s event r.1 r.2 := by
  cases hPost with
  | wake t => exact MutexEffect.quiet rfl (rank_wakeFirst h _ t) rfl (by simp)
  | _ => exact MutexEffect.quiet rfl SameRank.refl rfl (by simp)

/-- The queue handler has nothing to do with mutexes. -/
theorem effect_queueNow (h : s.k.Sound) {caller : Option TaskId} {q : Nat} {op : QueueOp}
    {buff size : Nat} {r : System × List Label} (hSend : s.QueueNow caller q op buff size r) :
    r.1.mutex = s.mutex ∧ SameRank s.k r.1.k ∧ r.2.filter Label.isMutex = [] ∧
      ∀ x m, .waiting x (.mutex m) ∉ r.2 := by
  cases hSend with
  | wake t => exact ⟨rfl, rank_wakeFirst h _ t, rfl, by simp⟩
  | _ => exact ⟨rfl, SameRank.refl, rfl, by simp⟩

/-- Blocking on anything but a mutex. -/
theorem effect_block (h : Coherent s) (hIdle : s.k.dosIdleTask ≠ some c) (hUser : s.pc c = .user)
    (w : Wait) (hw : ∀ m, w.pendId ≠ .mutex m) (timeout : Nat) :
    MutexEffect s event (s.block c w timeout).1 (s.block c w timeout).2 := by
  refine MutexEffect.quiet rfl (rank_block h hIdle hUser w timeout) rfl ?_
  intro x m hMem
  have hEq : (Label.waiting x (.mutex m)) = .waiting c w.pendId := List.mem_singleton.mp hMem
  simp only [Label.waiting.injEq] at hEq
  exact hw m hEq.2.symm

/-- The last post of a mutex with a waiter. -/
theorem effect_hand (h : Coherent s) (hRun : s.Running c) (hUser : s.pc c = .user) {m : Nat}
    (hEvent : event = .call (.mutexPost m)) {t : TaskId} {rest : List TaskId}
    (hOwner : (s.mutex m).mutexOwner = some c) (hLast : (s.mutex m).mutexCount = 1)
    (hHead : (s.released c m).pending (.mutex m) = t :: rest) : MutexEffect s event
      (((s.released c m).setKernel ((s.released c m).k.wakeFirst (.pend (.mutex m)) t)).setMutex m
        { ({} : Mutex).mutexCountInc with
          mutexPriority := (s.released c m).k.priority t
          mutexOwner := some t })
      [.mutexReleased m c, .granted t, .mutexGranted m t ((s.released c m).k.priority t),
        .returned (some c) .ok] := by
  have hSpec := spec_restorePriority (s.cause .next) h.sound c (s.mutex m).mutexPriority
  have hRank := rank_wakeFirst hSpec.sound (.pend (.mutex m)) t
  have hPend := pending_restore h.sound c (s.mutex m).mutexPriority (.mutex m)
  replace hHead := hPend.symm.trans hHead
  have hOther : t ≠ c := by
    rintro rfl
    have hOn := (mem_pending h.sound).mp (hHead ▸ List.mem_cons_self : t ∈ s.pending (.mutex m))
    have hOff := (h.ok t).unpended (by simp [task, hUser, Pc.waitsOn])
    exact absurd (hOff.symm.trans hOn) (by simp)
  have hPrio : (s.released c m).k.priority t = s.k.priority t := by
    show (s.k.restorePriority c (s.mutex m).mutexPriority).priority t = _
    rw [priority_restore, if_neg hOther]
  rw [hPrio]
  exact MutexEffect.hand m c t rest hRun hUser hEvent hOwner hLast hHead hOther rfl
    (fun x => (hRank.priority x).trans (priority_restore s.k c _ x))
    (fun x => (hRank.key x).trans (key_restore s.k c _ x)) rfl

theorem effect_call (h : Coherent s) (hRun : s.Running c) (hUser : s.pc c = .user) {a : Call}
    (hEvent : event = .call a) {r : System × List Label} (hCall : s.Calls c a r) :
    MutexEffect s event r.1 r.2 := by
  have hQuiet {s' : System} {ls : List Label} (hMutex : s'.mutex = s.mutex) (hKernel : s'.k = s.k)
      (hLabels : ls.filter Label.isMutex = []) (hWaiting : ∀ x m, .waiting x (.mutex m) ∉ ls) :
      MutexEffect s event s' ls :=
    MutexEffect.quiet hMutex (hKernel ▸ SameRank.refl) hLabels hWaiting
  cases hCall with
  | semBlock | queueBlock => exact effect_block h hRun.idle hUser _ (by simp [Wait.pendId]) _
  | semPost i hPost => exact effect_semPost h.sound hPost
  | mutexTake m timeout hFree =>
      refine MutexEffect.take m timeout c hRun hEvent hFree ?_ rfl
      simp [Mutex.mutexCountInc, hFree]
  | mutexNest m timeout hHeld hOwner =>
      exact MutexEffect.nest m timeout c hRun hEvent hHeld hOwner rfl rfl
  | mutexBlock m timeout hHeld hOwner hWait =>
      have hSpec := spec_inherit (s.cause .next) h.sound c m
      have hPc : (s.inherit c m).pc c = .user := by rw [inherit_pc, hUser]
      have hRank := rank_block (hSpec.coherent h) (inherit_idle hRun.idle m) hPc (.mutex m) timeout
      rw [not_or] at hWait
      refine MutexEffect.block m timeout c hRun hEvent hHeld hOwner hWait.1 hWait.2
        (mutex_inherit m) ?_ ?_ rfl
      · intro x
        rw [hRank.priority x, priority_inherit]
      · intro x
        rw [hRank.key x, key_inherit]
  | mutexUnnest m hOwner hNested => exact MutexEffect.leave m c hRun hEvent hOwner hNested rfl rfl
  | mutexFree m hOwner hLast hEmpty =>
      have hPend := pending_restore h.sound c (s.mutex m).mutexPriority (.mutex m)
      exact MutexEffect.free m c hRun hUser hEvent hOwner hLast (hPend.symm.trans hEmpty) rfl
        (priority_restore s.k c _) (key_restore s.k c _) rfl
  | mutexHand m t rest hOwner hLast hHead =>
      exact effect_hand h hRun hUser hEvent hOwner hLast hHead
  | eventBlock e waitEvent op timeout =>
      have hStill := still_waitEvent h.sound c waitEvent op
      have hRank := hStill.sameRank.trans
        (rank_block (h.still hStill) hRun.idle hUser (.event e waitEvent) timeout)
      exact MutexEffect.quiet rfl hRank rfl (by simp [block, Wait.pendId])
  | sleep n =>
      refine MutexEffect.quiet rfl ?_ rfl (by simp)
      show SameRank s.k (s.k.dosTaskSleep c n)
      unfold dosTaskSleep
      split
      · exact (still_scheduler h.sound).sameRank
      · have hSleep := touches_insertSleepList h.sound c n
        exact (hSleep.sameRank (dozes_insertSleepList h.sound c n).priority).trans
          (still_scheduler hSleep.sound).sameRank
  | lock => exact MutexEffect.quiet rfl (still_lock h.sound).sameRank rfl (by simp)
  | unlock => exact MutexEffect.quiet rfl (still_unlock h.sound).sameRank rfl (by simp)
  | _ => exact hQuiet rfl rfl rfl (by simp)

theorem effect_resume (h : Coherent s) {pc : Pc} {r : System × List Label}
    (hNext : s.Resumes c pc r) : MutexEffect s event r.1 r.2 := by
  have hMoved {s' : System} {ls : List Label} (hMutex : s'.mutex = s.mutex) (hKernel : s'.k = s.k)
      (hLabels : ls.filter Label.isMutex = []) (hWaiting : ∀ x m, .waiting x (.mutex m) ∉ ls) :
      MutexEffect s event s' ls :=
    MutexEffect.quiet hMutex (hKernel ▸ SameRank.refl) hLabels hWaiting
  have hClean : SameRank s.k (s.k.dosTimeoutCleanUp c) :=
    (touches_timeoutCleanUp h.sound c).sameRank (by rw [view_timeoutCleanUp_eq]; rfl)
  cases hNext with
  | reset w =>
      refine MutexEffect.quiet rfl ?_ rfl (by simp)
      exact (touches_flagsReset h.sound c).sameRank (by rw [view_flagsReset]; rfl)
  | cleanUpEvent w waitEvent =>
      have hStill := still_waitEvent (s := s.setKernel (s.k.dosTimeoutCleanUp c))
        (touches_timeoutCleanUp h.sound c).sound c waitEvent 0
      exact MutexEffect.quiet rfl (hClean.trans hStill.sameRank) rfl (by simp)
  | cleanUp w => exact MutexEffect.quiet rfl hClean rfl (by simp)
  | unlink w =>
      refine MutexEffect.quiet rfl ?_ rfl (by simp)
      exact (touches_pendDel h.sound c).sameRank (by rw [view_itemDel_pend])
  | woken q op t rest hHead =>
      exact MutexEffect.quiet rfl (rank_wakeFirst h.sound _ _) rfl (by simp)
  | setLock e => exact MutexEffect.quiet rfl (still_lock h.sound).sameRank rfl (by simp)
  | setDone e => exact MutexEffect.quiet rfl (still_unlock h.sound).sameRank rfl (by simp)
  | setSelect e value t event hNext =>
      exact MutexEffect.quiet rfl (still_select h.sound e t).sameRank rfl (by simp)
  | setTurn e value =>
      exact MutexEffect.quiet rfl (still_next h.sound (.pend (.event e))).sameRank rfl (by simp)
  | setWake e value t =>
      have hWake := touches_wake h.sound t
      have hRank : SameRank s.k (s.k.dosTaskWake t) := hWake.sameRank (by rw [view_wake_eq]; rfl)
      exact MutexEffect.quiet rfl (hRank.trans (still_scheduler hWake.sound).sameRank) rfl (by simp)
  | _ => exact hMoved rfl rfl rfl (by simp)

/-- Everything a step does to mutexes and priorities. -/
theorem effect_exec (h : Coherent s) {r : System × List Label} (hStep : s.exec event = some r) :
    MutexEffect s event r.1 r.2 := by
  have hAdvance := still_tickAdvance h.sound
  cases steps_of_exec hStep with
  | create t prio tick hCreate =>
      exact MutexEffect.create t prio tick rfl (creates_kernelStep h hCreate) rfl rfl
  | start => exact MutexEffect.quiet rfl (still_start h.sound).sameRank rfl (by simp)
  | switch t => exact MutexEffect.quiet rfl (still_switchTo h.sound t).sameRank rfl (by simp)
  | tick =>
      have hRank := rank_expired (s := s.advanced) hAdvance.sound
      exact MutexEffect.quiet rfl (hAdvance.sameRank.trans hRank) rfl (by simp)
  | overflow q sent hQueue hSend =>
      obtain ⟨hMutex, hRank, hLabels, hWaiting⟩ := effect_queueNow hAdvance.sound hSend
      have hSound := (spec_queueNow (s.cause .next) hAdvance.sound hSend).sound
      exact MutexEffect.quiet hMutex ((hAdvance.sameRank.trans hRank).trans (rank_expired hSound))
        hLabels hWaiting
  | isrSemPost i hPost => exact effect_semPost h.sound hPost
  | isrQueue q op buff size hSend =>
      obtain ⟨hMutex, hRank, hLabels, hWaiting⟩ := effect_queueNow h.sound hSend
      exact MutexEffect.quiet hMutex hRank hLabels hWaiting
  | call c a hRun hUser hCall => exact effect_call h hRun hUser rfl hCall
  | next c hRun hPc hNext => exact effect_resume h hNext

end Effect

end System

end DoraOS
