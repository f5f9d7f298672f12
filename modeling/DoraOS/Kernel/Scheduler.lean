import DoraOS.Kernel.Run

/-! The choice of the next task. The most urgent ready priority is the lowest
set bit of the bitmap, found by the hardware instruction or by a table of
bytes, and the scheduler leaves the processor to a ready task of it. -/
namespace DoraOS

open BitSet

namespace Kernel

section Lookup

/-- Each entry of the table is the lowest set bit of its index. -/
theorem dosBitMap_lowest : ∀ b < 256, b ≠ 0 →
    dosBitMap.getD b 0 < 8 ∧ b.testBit (dosBitMap.getD b 0) = true ∧
      ∀ j < dosBitMap.getD b 0, b.testBit j = false := by
  decide +kernel

/-- One step of the bytewise lookup. -/
theorem lookup_byte {pri : BitVec 32} {s : Nat} (hBelow : ∀ j, j < s → pri.getLsbD j = false)
    (hByte : pri &&& 0xff#32 <<< s ≠ 0) :
    IsLowest pri (dosBitMap.getD ((pri &&& 0xff#32 <<< s) >>> s).toNat 0 + s) := by
  obtain ⟨hLt, hSet, hLeast⟩ := dosBitMap_lowest _ (byte_lt pri s) (byte_ne_zero hByte)
  exact IsLowest.of_byte hBelow hLt hSet hLeast

/-- A clear byte extends the clear bits below it. -/
theorem below_byte {pri : BitVec 32} {s : Nat} (hBelow : ∀ j, j < s → pri.getLsbD j = false)
    (hZero : pri &&& 0xff#32 <<< s = 0) : ∀ j, j < s + 8 → pri.getLsbD j = false := by
  intro j hj
  by_cases hs : j < s
  · exact hBelow j hs
  · exact byte_eq_zero hZero (by omega) hj

/-- The software lookup finds the lowest set bit of every non-zero word. -/
theorem dosBitMapLookup_lowest {pri : BitVec 32} (h : pri ≠ 0) :
    IsLowest pri (dosBitMapLookup pri) := by
  have hNone : ∀ j, j < 0 → pri.getLsbD j = false := fun j hj => absurd hj (Nat.not_lt_zero j)
  have hMask0 : (0xff : BitVec 32) = 0xff#32 <<< 0 := by decide
  have hMask8 : (0xff00 : BitVec 32) = 0xff#32 <<< 8 := by decide
  have hMask16 : (0xff0000 : BitVec 32) = 0xff#32 <<< 16 := by decide
  have hMask24 : (0xff000000 : BitVec 32) = 0xff#32 <<< 24 := by decide
  unfold dosBitMapLookup
  rw [hMask8, hMask16, hMask24]
  split
  · rename_i h0
    rw [hMask0] at h0
    have hFound := lookup_byte hNone h0
    rw [BitVec.ushiftRight_zero, Nat.add_zero, ← hMask0] at hFound
    exact hFound
  · rename_i h0
    rw [hMask0, not_not] at h0
    have hLow8 := below_byte hNone h0
    split
    · rename_i h8
      exact lookup_byte hLow8 h8
    · rename_i h8
      have hLow16 := below_byte hLow8 (not_not.mp h8)
      split
      · rename_i h16
        exact lookup_byte hLow16 h16
      · rename_i h16
        have hLow24 := below_byte hLow16 (not_not.mp h16)
        refine lookup_byte hLow24 ?_
        intro h24
        have hAll := below_byte hLow24 h24
        apply h
        apply BitVec.eq_of_getLsbD_eq
        intro j hj
        rw [hAll j hj]
        exact BitVec.getLsbD_zero.symm

/-- Both lookups give the lowest set bit. -/
theorem dosGetHighestPriority_lowest (cfg : Config) {pri : BitVec 32} (h : pri ≠ 0) :
    IsLowest pri (dosGetHighestPriority cfg pri) := by
  rw [dosGetHighestPriority, if_neg h]
  split
  · exact IsLowest.ctz h
  · exact dosBitMapLookup_lowest h

/-- The lookup does not depend on how it is compiled. -/
theorem dosGetHighestPriority_eq (cfg cfg' : Config) (pri : BitVec 32) :
    dosGetHighestPriority cfg pri = dosGetHighestPriority cfg' pri := by
  by_cases h : pri = 0
  · rw [dosGetHighestPriority, dosGetHighestPriority, if_pos h, if_pos h]
  · exact (dosGetHighestPriority_lowest cfg h).unique (dosGetHighestPriority_lowest cfg' h)

end Lookup

/-- The correspondence of ready lists, flags and bitmap that scheduling rests
on. -/
structure ReadyLists (k : Kernel) : Prop where
  linked : k.lists.Linked
  bitmap : k.BitmapOk
  ready : ∀ t, k.Live t → (k.is t .ready = true ↔ t ∈ k.lists.items (.priority (k.priority t)))
  member : ∀ p t, t ∈ k.lists.items (.priority p) → k.Live t ∧ k.priority t = p

/-- The correspondence is part of the membership invariant. -/
theorem Membership.readyLists {cfg : Config} {k : Kernel} (h : Membership cfg k)
    (hMax : cfg.dosMaxPriorityNum ≤ 32) : ReadyLists k where
  linked := h.linked
  bitmap := h.bitmap hMax
  ready t hLive := by
    rw [h.linked.mem_iff]
    exact (h.live t hLive).ready_iff
  member p t hMem := by
    have hOwner := (h.linked.mem_iff _ t).mp hMem
    have hLive := h.live_of_owner hOwner (by simp)
    exact ⟨hLive, (h.ready_owner hLive p hOwner).symm⟩

/-- `dos_scheduler` followed by the context switch it asked for. -/
def dosSchedule (k : Kernel) : Kernel :=
  if k.dosScheduler.yieldPending then k.dosScheduler.dosChooseTask else k.dosScheduler

/-- The same kernel compiled with or without the hardware lookup. -/
def withClz (k : Kernel) (hw : Bool) : Kernel :=
  { k with config := { k.config with dosHwClzSupt := hw } }

variable {k : Kernel} {t c : TaskId}

section Choice

/-- Outside interrupts and locks the scheduler acts on the check. -/
theorem scheduler_eq (hRun : k.systemIsRun = true) (hLock : k.schedulerLock = 0)
    (hInterrupt : k.interruptCount = 0) :
    k.dosScheduler = if k.dosCheckTaskPriority.2 then
      { k.dosCheckTaskPriority.1 with yieldPending := true } else k.dosCheckTaskPriority.1 := by
  rw [dosScheduler, if_neg (by simp [hInterrupt]), if_pos ⟨hLock, hRun⟩]

theorem check_curPriority (k : Kernel) :
    k.dosCheckTaskPriority.1.dosCurPriority = k.dosFindPriority.dosCurPriority := by
  unfold dosCheckTaskPriority
  dsimp only
  split
  · rfl
  · split
    · rfl
    · split
      · split <;> rfl
      · rfl

theorem scheduler_curPriority (hRun : k.systemIsRun = true) (hLock : k.schedulerLock = 0)
    (hInterrupt : k.interruptCount = 0) :
    k.dosScheduler.dosCurPriority = k.dosFindPriority.dosCurPriority := by
  rw [scheduler_eq hRun hLock hInterrupt, ← check_curPriority]
  split <;> rfl

/-- Without a request the check has found no reason to switch. -/
theorem check_of_not_pending (hRun : k.systemIsRun = true) (hLock : k.schedulerLock = 0)
    (hInterrupt : k.interruptCount = 0) (hStay : k.dosScheduler.yieldPending = false) :
    k.dosCheckTaskPriority.2 = false := by
  rw [scheduler_eq hRun hLock hInterrupt] at hStay
  cases hYield : k.dosCheckTaskPriority.2 with
  | false => rfl
  | true =>
      rw [hYield] at hStay
      cases hStay

/-- Without a yield the current task is ready and nothing more urgent is. -/
theorem check_keeps (hCurrent : k.dosCurrentTask = some c)
    (hStay : k.dosCheckTaskPriority.2 = false) :
    k.is c .ready = true ∧ k.priority c ≤ k.dosFindPriority.dosCurPriority := by
  have hFind : k.dosFindPriority.dosCurrentTask = some c := hCurrent
  unfold dosCheckTaskPriority at hStay
  dsimp only at hStay
  rw [hFind] at hStay
  dsimp only at hStay
  split at hStay
  · cases hStay
  · rename_i hKeep
    rw [not_or] at hKeep
    refine ⟨?_, Nat.not_lt.mp hKeep.1⟩
    show k.dosFindPriority.is c .ready = true
    simpa using hKeep.2

/-- With at most 32 priorities the search result is the lowest bit of the one
word. -/
theorem findPriority_lowest (hMax : k.config.dosMaxPriorityNum ≤ 32)
    (hSome : k.dosTaskPriority 0 ≠ 0) :
    IsLowest (k.dosTaskPriority 0) k.dosFindPriority.dosCurPriority := by
  have hWord : k.dosPriorityWord = 0 := by
    rw [dosPriorityWord, if_neg (by omega)]
  have hEq : k.dosFindPriority.dosCurPriority =
      dosGetHighestPriority k.config (k.dosTaskPriority 0) := by
    simp [dosFindPriority, hWord]
  rw [hEq]
  exact dosGetHighestPriority_lowest k.config hSome

/-- Every ready task is at most as urgent as the found priority. -/
theorem ReadyLists.findPriority_le (h : ReadyLists k) (hMax : k.config.dosMaxPriorityNum ≤ 32)
    (hLive : k.Live t) (hReady : k.is t .ready = true) :
    k.dosFindPriority.dosCurPriority ≤ k.priority t ∧
      k.lists.items (.priority k.dosFindPriority.dosCurPriority) ≠ [] := by
  have hMem := (h.ready t hLive).mp hReady
  have hBit := (h.bitmap (k.priority t)).mpr (List.ne_nil_of_mem hMem)
  have hLowest := findPriority_lowest hMax (ne_zero_of_getLsbD hBit)
  exact ⟨hLowest.le hBit, (h.bitmap _).mp hLowest.1⟩

/-- A member of the found ready list is ready, and no ready task is more urgent. -/
theorem ReadyLists.most_urgent (h : ReadyLists k) (hMax : k.config.dosMaxPriorityNum ≤ 32)
    (hMem : t ∈ k.lists.items (.priority k.dosFindPriority.dosCurPriority)) :
    k.is t .ready = true ∧
      ∀ x, k.Live x → k.is x .ready = true → k.priority t ≤ k.priority x := by
  obtain ⟨hLive, hPrio⟩ := h.member _ t hMem
  refine ⟨?_, ?_⟩
  · rw [h.ready t hLive, hPrio]
    exact hMem
  · intro x hTask hReady
    rw [hPrio]
    exact (h.findPriority_le hMax hTask hReady).1

end Choice

section Lookups

theorem findPriority_withClz (k : Kernel) (hw : Bool) :
    (k.withClz hw).dosFindPriority = k.dosFindPriority.withClz hw := by
  have hWord : (k.withClz hw).dosPriorityWord = k.dosPriorityWord := rfl
  unfold dosFindPriority
  rw [hWord]
  simp only [withClz]
  rw [dosGetHighestPriority_eq { k.config with dosHwClzSupt := hw } k.config]

theorem check_withClz (k : Kernel) (hw : Bool) :
    (k.withClz hw).dosCheckTaskPriority =
      (k.dosCheckTaskPriority.1.withClz hw, k.dosCheckTaskPriority.2) := by
  unfold dosCheckTaskPriority
  rw [findPriority_withClz]
  dsimp only
  have hCurrent : (k.dosFindPriority.withClz hw).dosCurrentTask =
      k.dosFindPriority.dosCurrentTask := rfl
  rw [hCurrent]
  cases k.dosFindPriority.dosCurrentTask with
  | none => rfl
  | some c =>
      dsimp only
      split
      · rename_i hYield
        rw [if_pos (show k.dosFindPriority.dosCurPriority < k.dosFindPriority.priority c ∨
          k.dosFindPriority.is c .ready = false from hYield)]
      · rename_i hStay
        rw [if_neg (show ¬(k.dosFindPriority.dosCurPriority < k.dosFindPriority.priority c ∨
          k.dosFindPriority.is c .ready = false) from hStay)]
        split
        · rename_i hMany
          rw [if_pos (show k.dosFindPriority.lists.dosGetTaskListValue
            (.priority (k.dosFindPriority.priority c)) > 1 from hMany)]
          split
          · rename_i hSlice
            rw [if_pos (show ((k.dosFindPriority.tcb c).taskTick + (2 ^ 32 - 1)) % 2 ^ 32 = 0 from
              hSlice)]
            rfl
          · rename_i hSlice
            rw [if_neg (show ¬((k.dosFindPriority.tcb c).taskTick + (2 ^ 32 - 1)) % 2 ^ 32 = 0 from
              hSlice)]
            rfl
        · rename_i hMany
          rw [if_neg (show ¬k.dosFindPriority.lists.dosGetTaskListValue
            (.priority (k.dosFindPriority.priority c)) > 1 from hMany)]

/-- Both ways to find the lowest bit schedule alike. -/
theorem scheduler_withClz (k : Kernel) (hw : Bool) :
    (k.withClz hw).dosScheduler = k.dosScheduler.withClz hw := by
  unfold dosScheduler
  rw [check_withClz]
  dsimp only
  split
  · rename_i hInterrupt
    rw [if_pos (show k.interruptCount ≠ 0 from hInterrupt)]
  · rename_i hInterrupt
    rw [if_neg (show ¬k.interruptCount ≠ 0 from hInterrupt)]
    split
    · rename_i hOpen
      rw [if_pos (show k.schedulerLock = 0 ∧ k.systemIsRun = true from hOpen)]
      split <;> rfl
    · rename_i hOpen
      rw [if_neg (show ¬(k.schedulerLock = 0 ∧ k.systemIsRun = true) from hOpen)]

/-- Scheduling decisions do not depend on how the lookup is compiled. -/
theorem schedule_withClz (k : Kernel) (hw : Bool) :
    (k.withClz hw).dosSchedule = k.dosSchedule.withClz hw := by
  unfold dosSchedule
  rw [scheduler_withClz]
  split
  · rename_i hYield
    rw [if_pos (show k.dosScheduler.yieldPending = true from hYield)]
    rfl
  · rename_i hYield
    rw [if_neg (show ¬k.dosScheduler.yieldPending = true from hYield)]

end Lookups

/-- The scheduler leaves the processor to a ready task of the most urgent
priority, however the lookup is compiled. -/
theorem schedule_picks_most_urgent (k : Kernel) (hMax : k.config.dosMaxPriorityNum ≤ 32)
    (h : ReadyLists k) (hRun : k.systemIsRun = true) (hLock : k.schedulerLock = 0)
    (hInterrupt : k.interruptCount = 0)
    (hIdle : ∃ idle, k.dosIdleTask = some idle ∧ k.Live idle ∧ k.is idle .ready = true)
    (c : TaskId) (hCurrent : k.dosCurrentTask = some c) (hLive : k.is c .ready = true → k.Live c) :
    (∃ next, k.dosSchedule.dosCurrentTask = some next ∧
      k.dosSchedule.is next .ready = true ∧
      next ∈ k.dosSchedule.lists.items (.priority k.dosSchedule.dosCurPriority) ∧
      ∀ t, k.dosSchedule.Live t → k.dosSchedule.is t .ready = true →
        k.dosSchedule.priority next ≤ k.dosSchedule.priority t) ∧
    ∀ hw, (k.withClz hw).dosSchedule = k.dosSchedule.withClz hw := by
  refine ⟨?_, schedule_withClz k⟩
  have hSame := sameTasks_scheduler k
  obtain ⟨idle, _, hIdleLive, hIdleReady⟩ := hIdle
  obtain ⟨_, hNonempty⟩ := h.findPriority_le hMax hIdleLive hIdleReady
  have hCur := scheduler_curPriority hRun hLock hInterrupt
  unfold dosSchedule
  split
  · obtain ⟨next, hNext⟩ : ∃ next, (k.dosScheduler.lists.dosGetNextTask
        (.priority k.dosScheduler.dosCurPriority)).2 = some next := by
      apply TaskLists.next_result_isSome
      rw [hSame.lists, hCur]
      exact hNonempty
    have hMem := TaskLists.next_result_mem hNext
    rw [hSame.lists, hCur] at hMem
    obtain ⟨hReady, hLeast⟩ := h.most_urgent hMax hMem
    refine ⟨next, hNext, ?_, ?_, ?_⟩
    · exact (hSame.is next .ready).trans hReady
    · show next ∈ (k.dosScheduler.lists.dosGetNextTask _).1.items _
      rw [TaskLists.next_items, hSame.lists]
      show next ∈ k.lists.items (.priority k.dosScheduler.dosCurPriority)
      rw [hCur]
      exact hMem
    · intro t hTask hTaskReady
      have hTaskLive : k.Live t := (live_congr (hSame.view t)).mp hTask
      have hLe := hLeast t hTaskLive ((hSame.is t .ready).symm.trans hTaskReady)
      rw [← hSame.priority next, ← hSame.priority t] at hLe
      exact hLe
  · rename_i hStay
    have hNoYield := check_of_not_pending hRun hLock hInterrupt (Bool.eq_false_of_not_eq_true hStay)
    obtain ⟨hReady, hLe⟩ := check_keeps hCurrent hNoYield
    have hTask := hLive hReady
    have hGe := (h.findPriority_le hMax hTask hReady).1
    have hPrio : k.priority c = k.dosFindPriority.dosCurPriority := Nat.le_antisymm hLe hGe
    have hMem := (h.ready c hTask).mp hReady
    rw [hPrio] at hMem
    refine ⟨c, ?_, ?_, ?_, ?_⟩
    · exact (congrArg Statics.dosCurrentTask hSame.statics).trans hCurrent
    · exact (hSame.is c .ready).trans hReady
    · rw [hSame.lists, hCur]
      exact hMem
    · intro t hOther hOtherReady
      have hOtherLive : k.Live t := (live_congr (hSame.view t)).mp hOther
      rw [hSame.priority, hSame.priority]
      exact (h.most_urgent hMax hMem).2 t hOtherLive ((hSame.is t .ready).symm.trans hOtherReady)

/-- A task created while a less urgent one runs gets the processor. -/
theorem schedule_picks_most_urgent_created :
    ∃ k₀ k, dosTaskInit shippedConfig 0 = some k₀ ∧
      Transition.Runs kernelStep k₀ [.create 1 3 5, .start, .create 2 1 5] k ∧
      k.dosCurrentTask = some 1 ∧
      ∃ next, k.dosSchedule.dosCurrentTask = some next ∧ k.dosSchedule.is next .ready = true ∧
        ∀ t, k.dosSchedule.Live t → k.dosSchedule.is t .ready = true →
          k.dosSchedule.priority next ≤ k.dosSchedule.priority t := by
  let k₀ := (dosTaskInit shippedConfig 0).get (by decide)
  have hInit : dosTaskInit shippedConfig 0 = some k₀ := (Option.some_get _).symm
  have hRun : Transition.Runs kernelStep k₀ [.create 1 3 5, .start, .create 2 1 5] _ :=
    Transition.runs_of_isSome (by decide)
  let k := (Transition.exec kernelStep k₀ [.create 1 3 5, .start, .create 2 1 5]).get (by decide)
  have hLists : ReadyLists k := (membership_run hInit hRun).readyLists (by decide)
  have hCurrent : k.dosCurrentTask = some 1 := by decide +kernel
  obtain ⟨next, hNext, hReady, _, hLeast⟩ := (schedule_picks_most_urgent k (by decide +kernel)
    hLists (by decide +kernel) (by decide +kernel) (by decide +kernel)
    ⟨0, by decide +kernel, by decide +kernel, by decide +kernel⟩ 1 hCurrent
    (by decide +kernel)).1
  exact ⟨k₀, k, hInit, hRun, hCurrent, next, hNext, hReady, hLeast⟩

end Kernel

end DoraOS
