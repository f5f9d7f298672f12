import DoraOS.Kernel.Run

/-! Sleeping tasks and the tick counter. The counter has 32 bits; a wake time
behind the next overflow is kept, wrapped, on the overflow list, and the two
lists change places when the counter overflows. -/
namespace DoraOS

namespace Kernel

/-- A task on a sleep list with `n` ticks to go. -/
def Asleep (k : Kernel) (t : TaskId) (n : Nat) : Prop :=
  (k.lists.owner .status t = some k.dosTaskSleepList ∧
      k.lists.value .status t = k.dosTickCount + n) ∨
    (k.lists.owner .status t = some k.dosTaskSleepOverflowList ∧
      k.lists.value .status t + 2 ^ 32 = k.dosTickCount + n)

/-- What holds of the clock in the middle of `dos_tick_update`, where tasks of
the current tick are still on the sleep list. -/
structure Ticking (k : Kernel) : Prop where
  tick_lt : k.dosTickCount < 2 ^ 32
  next_lt : k.dosNextWakeTick < 2 ^ 32
  tick_le : k.dosTickCount ≤ k.dosNextWakeTick
  current : ∀ t, k.lists.owner .status t = some k.dosTaskSleepList →
    k.dosNextWakeTick ≤ k.lists.value .status t
  overflow : ∀ t, k.lists.owner .status t = some k.dosTaskSleepOverflowList →
    k.lists.value .status t < k.dosTickCount

/-- The clock between two kernel operations: the next wake time is ahead, and
so is the wake time of every task on the current list. -/
structure SleepOk (k : Kernel) : Prop extends Ticking k where
  ahead : ∀ t, k.lists.owner .status t = some k.dosTaskSleepList →
    k.dosTickCount < k.lists.value .status t
  edge : k.dosTickCount = k.dosNextWakeTick → k.dosTickCount = uint32Max
  stopped : k.systemIsRun = false → k.dosNextWakeTick = uint32Max ∧
    ∀ t l, l = k.dosTaskSleepList ∨ l = k.dosTaskSleepOverflowList →
      k.lists.owner .status t ≠ some l

structure SameClock (k k' : Kernel) : Prop where
  tick : k'.dosTickCount = k.dosTickCount
  next : k'.dosNextWakeTick = k.dosNextWakeTick
  list : k'.dosTaskSleepList = k.dosTaskSleepList
  overflowList : k'.dosTaskSleepOverflowList = k.dosTaskSleepOverflowList
  run : k'.systemIsRun = k.systemIsRun

structure SameItem (t : TaskId) (k k' : Kernel) : Prop where
  owner : k'.lists.owner .status t = k.lists.owner .status t
  value : k'.lists.value .status t = k.lists.value .status t

variable {k k' k'' : Kernel} {t x : TaskId} {n : Nat}

theorem SameClock.of_statics (hs : k'.statics = k.statics)
    (hNext : k'.dosNextWakeTick = k.dosNextWakeTick) : SameClock k k' where
  tick := congrArg Statics.dosTickCount hs
  next := hNext
  list := congrArg Statics.dosTaskSleepList hs
  overflowList := congrArg Statics.dosTaskSleepOverflowList hs
  run := congrArg Statics.systemIsRun hs

theorem OnlyTask.sameItem (h : OnlyTask t k k') (hx : x ≠ t) : SameItem x k k' :=
  ⟨h.owner .status x hx, h.value .status x hx⟩

/-- A task sleeps on while the clock and its item are untouched. -/
theorem Asleep.keep (h : Asleep k t n) (hTick : k'.dosTickCount = k.dosTickCount)
    (hList : k'.dosTaskSleepList = k.dosTaskSleepList)
    (hOver : k'.dosTaskSleepOverflowList = k.dosTaskSleepOverflowList)
    (hItem : SameItem t k k') : Asleep k' t n := by
  unfold Asleep
  rw [hTick, hList, hOver, hItem.owner, hItem.value]
  exact h

/-- No task enters a sleep list: each one is untouched or off the lists. -/
def NoneEnters (k k' : Kernel) : Prop :=
  ∀ x, SameItem x k k' ∨ ∀ l, l = k.dosTaskSleepList ∨ l = k.dosTaskSleepOverflowList →
    k'.lists.owner .status x ≠ some l

/-- Who is on a sleep list now was there before, with the same wake time. -/
theorem NoneEnters.back (h : NoneEnters k k') {l : ListId}
    (hl : l = k.dosTaskSleepList ∨ l = k.dosTaskSleepOverflowList)
    (hOwner : k'.lists.owner .status x = some l) :
    k.lists.owner .status x = some l ∧ k'.lists.value .status x = k.lists.value .status x := by
  rcases h x with hSame | hOff
  · exact ⟨hSame.owner.symm.trans hOwner, hSame.value⟩
  · exact absurd hOwner (hOff l hl)

theorem OnlyTask.noneEnters (hOnly : OnlyTask t k k')
    (hOff : SameItem t k k' ∨ ∀ l, l = k.dosTaskSleepList ∨ l = k.dosTaskSleepOverflowList →
      k'.lists.owner .status t ≠ some l) : NoneEnters k k' := by
  intro x
  by_cases hx : x = t
  · subst hx
    exact hOff
  · exact Or.inl (hOnly.sameItem hx)

/-- An operation between two expiries that puts nobody to sleep. -/
theorem Ticking.frame (h : Ticking k) (hClock : SameClock k k') (hItems : NoneEnters k k') :
    Ticking k' := by
  refine ⟨?_, ?_, ?_, ?_, ?_⟩
  · rw [hClock.tick]
    exact h.tick_lt
  · rw [hClock.next]
    exact h.next_lt
  · rw [hClock.tick, hClock.next]
    exact h.tick_le
  · intro x hx
    rw [hClock.list] at hx
    obtain ⟨hOwner, hValue⟩ := hItems.back (Or.inl rfl) hx
    rw [hClock.next, hValue]
    exact h.current x hOwner
  · intro x hx
    rw [hClock.overflowList] at hx
    obtain ⟨hOwner, hValue⟩ := hItems.back (Or.inr rfl) hx
    rw [hClock.tick, hValue]
    exact h.overflow x hOwner

/-- The same between two ticks. -/
theorem SleepOk.frame (h : SleepOk k) (hClock : SameClock k k') (hItems : NoneEnters k k') :
    SleepOk k' := by
  refine ⟨h.toTicking.frame hClock hItems, ?_, ?_, ?_⟩
  · intro x hx
    rw [hClock.list] at hx
    obtain ⟨hOwner, hValue⟩ := hItems.back (Or.inl rfl) hx
    rw [hClock.tick, hValue]
    exact h.ahead x hOwner
  · rw [hClock.tick, hClock.next]
    exact h.edge
  · intro hRun
    rw [hClock.run] at hRun
    obtain ⟨hNext, hNone⟩ := h.stopped hRun
    refine ⟨hClock.next.trans hNext, ?_⟩
    intro x l hl hOwner
    rw [hClock.list, hClock.overflowList] at hl
    exact hNone x l hl (hItems.back hl hOwner).1

section Next

@[simp] theorem next_statusItemDel (k : Kernel) (t : TaskId) :
    (k.dosStatusItemDel t).dosNextWakeTick = k.dosNextWakeTick := by
  unfold dosStatusItemDel
  dsimp only
  split <;> rfl

@[simp] theorem next_wake (k : Kernel) (t : TaskId) :
    (k.dosTaskWake t).dosNextWakeTick = k.dosNextWakeTick := rfl

@[simp] theorem next_setPriority (k : Kernel) (t : TaskId) (prio : Nat) :
    (k.dosSetTaskPriority t prio).dosNextWakeTick = k.dosNextWakeTick := by
  unfold dosSetTaskPriority
  split
  · exact next_statusItemDel k t
  · rfl

@[simp] theorem next_unlink (k : Kernel) (t : TaskId) :
    (k.dosTaskUnlink t).dosNextWakeTick = k.dosNextWakeTick := by
  have hPend (k : Kernel) (b : Bool) :
      (if b then k.dosTaskItemDel .pend t else k).dosNextWakeTick = k.dosNextWakeTick := by
    cases b <;> rfl
  have hStatus (b : Bool) :
      (if b then k.dosStatusItemDel t else k).dosNextWakeTick = k.dosNextWakeTick := by
    cases b with
    | false => rfl
    | true => exact next_statusItemDel k t
  exact (hPend _ _).trans (hStatus _)

/-- An earlier wake time of the current period becomes the next one. -/
theorem next_linkSleepItem (k : Kernel) (t : TaskId) :
    (k.dosLinkSleepItem t).dosNextWakeTick =
      if k.dosTickCount ≤ k.lists.value .status t ∧ k.lists.value .status t ≤ k.dosNextWakeTick then
        k.lists.value .status t
      else k.dosNextWakeTick := by
  unfold dosLinkSleepItem
  dsimp only
  by_cases hOver : k.lists.value .status t < k.dosTickCount
  · rw [if_pos hOver, if_neg (by omega)]
    rfl
  · rw [if_neg hOver]
    by_cases hNext : k.lists.value .status t ≤ k.dosNextWakeTick
    · have hGe : (k.dosTaskItemInsert k.dosTaskSleepList t).dosNextWakeTick ≥
          k.lists.value .status t := hNext
      rw [if_pos hGe, if_pos ⟨by omega, hNext⟩]
      rfl
    · have hLt : ¬(k.dosTaskItemInsert k.dosTaskSleepList t).dosNextWakeTick ≥
          k.lists.value .status t := hNext
      rw [if_neg hLt, if_neg (fun h => hNext h.2)]
      rfl

end Next

section Enter

/-- The state in which `_dos_insert_task_sleep_list` links the item. -/
theorem insertSleepItem_eq (k : Kernel) (t : TaskId) (n : Nat) :
    ∃ k₁, k.dosInsertSleepItem t n = k₁.dosLinkSleepItem t ∧ OnlyTask t k k₁ ∧
      k₁.dosNextWakeTick = k.dosNextWakeTick ∧
      k₁.lists.value .status t = (k.dosTickCount + n) % 2 ^ 32 := by
  let k₁ := ((k.dosResetTaskStatus t Flag.ready.mask).dosSetTaskStatus t
    Flag.delay.mask).dosStatusItemDel t
  have hOnly : OnlyTask t k k₁ :=
    ((onlyTask_resetStatus k t _).trans (onlyTask_setStatus _ t _)).trans
      (onlyTask_statusItemDel _ t)
  have hTick : k₁.dosTickCount = k.dosTickCount := congrArg Statics.dosTickCount hOnly.statics
  refine ⟨k₁.setWakeTime t ((k₁.dosTickCount + n) % 2 ^ 32), rfl,
    hOnly.trans (onlyTask_setWakeTime k₁ t _), ?_, ?_⟩
  · exact next_statusItemDel _ t
  · simp [setWakeTime, hTick]

theorem value_linkSleepItem (k : Kernel) (t : TaskId) (c : ItemKind) (x : TaskId) :
    (k.dosLinkSleepItem t).lists.value c x = k.lists.value c x := by
  unfold dosLinkSleepItem
  dsimp only
  split
  · exact TaskLists.insert_value _ t c x
  · split
    · exact TaskLists.insert_value _ t c x
    · exact TaskLists.insert_value _ t c x

theorem value_insertSleepItem (k : Kernel) (t : TaskId) (n : Nat) :
    (k.dosInsertSleepItem t n).lists.value .status t = (k.dosTickCount + n) % 2 ^ 32 := by
  obtain ⟨k₁, hEq, _, _, hValue⟩ := insertSleepItem_eq k t n
  rw [hEq, value_linkSleepItem, hValue]

theorem next_insertSleepItem (k : Kernel) (t : TaskId) (n : Nat) :
    (k.dosInsertSleepItem t n).dosNextWakeTick =
      if k.dosTickCount ≤ (k.dosTickCount + n) % 2 ^ 32 ∧
          (k.dosTickCount + n) % 2 ^ 32 ≤ k.dosNextWakeTick then
        (k.dosTickCount + n) % 2 ^ 32
      else k.dosNextWakeTick := by
  obtain ⟨k₁, hEq, hOnly, hNext, hValue⟩ := insertSleepItem_eq k t n
  have hTick : k₁.dosTickCount = k.dosTickCount := congrArg Statics.dosTickCount hOnly.statics
  rw [hEq, next_linkSleepItem, hTick, hNext, hValue]

/-- The wake time decides on the list. -/
theorem owner_insertSleepItem (k : Kernel) (t : TaskId) (n : Nat) (hPair : k.SleepPair) :
    (k.dosInsertSleepItem t n).lists.owner .status t = some (k.sleepTarget n) :=
  congrArg TaskView.statusOwner (view_insertSleepItem k t n hPair)

/-- A task that goes to sleep for `n` ticks has `n` ticks to go. -/
theorem asleep_insertSleepItem (h : SleepOk k) (hPair : k.SleepPair) (hn : n < 2 ^ 32) :
    Asleep (k.dosInsertSleepItem t n) t n := by
  have hStatics := (onlyTask_insertSleepItem k t n).statics
  have hTick : (k.dosInsertSleepItem t n).dosTickCount = k.dosTickCount :=
    congrArg Statics.dosTickCount hStatics
  have hList : (k.dosInsertSleepItem t n).dosTaskSleepList = k.dosTaskSleepList :=
    congrArg Statics.dosTaskSleepList hStatics
  have hOver : (k.dosInsertSleepItem t n).dosTaskSleepOverflowList = k.dosTaskSleepOverflowList :=
    congrArg Statics.dosTaskSleepOverflowList hStatics
  have hLt := h.tick_lt
  unfold Asleep
  rw [hTick, hList, hOver, owner_insertSleepItem k t n hPair, value_insertSleepItem, sleepTarget]
  by_cases hWrap : (k.dosTickCount + n) % 2 ^ 32 < k.dosTickCount
  · rw [if_pos hWrap]
    exact Or.inr ⟨rfl, by omega⟩
  · rw [if_neg hWrap]
    exact Or.inl ⟨rfl, by omega⟩

theorem SleepPair.ne (h : k.SleepPair) : k.dosTaskSleepList ≠ k.dosTaskSleepOverflowList := by
  rcases h with ⟨hs, ho⟩ | ⟨hs, ho⟩ <;> rw [hs, ho] <;> simp

/-- A wake time on the current list is still to come in this period. -/
theorem le_of_sleepTarget (hPair : k.SleepPair) (h : k.sleepTarget n = k.dosTaskSleepList) :
    k.dosTickCount ≤ (k.dosTickCount + n) % 2 ^ 32 := by
  rw [sleepTarget] at h
  split at h
  · exact absurd h.symm hPair.ne
  · exact not_lt.mp ‹_›

/-- One on the overflow list has wrapped. -/
theorem lt_of_sleepTarget (hPair : k.SleepPair)
    (h : k.sleepTarget n = k.dosTaskSleepOverflowList) :
    (k.dosTickCount + n) % 2 ^ 32 < k.dosTickCount := by
  rw [sleepTarget] at h
  split at h
  · assumption
  · exact absurd h hPair.ne

/-- What holds of the wake times on a list, once it holds of the new one. -/
theorem values_insertSleepItem (hPair : k.SleepPair) {l : ListId} {P : Nat → Prop}
    (hSelf : k.sleepTarget n = l → P ((k.dosTickCount + n) % 2 ^ 32))
    (hOthers : ∀ x, k.lists.owner .status x = some l → P (k.lists.value .status x)) (x : TaskId)
    (hx : (k.dosInsertSleepItem t n).lists.owner .status x = some l) :
    P ((k.dosInsertSleepItem t n).lists.value .status x) := by
  by_cases hEq : x = t
  · subst hEq
    rw [owner_insertSleepItem k x n hPair] at hx
    rw [value_insertSleepItem]
    exact hSelf (Option.some.inj hx)
  · have hItem := (onlyTask_insertSleepItem k t n).sameItem hEq
    rw [hItem.owner] at hx
    rw [hItem.value]
    exact hOthers x hx

/-- Going to sleep for at least one tick keeps the clock invariant. -/
theorem SleepOk.insertSleepItem (h : SleepOk k) (hPair : k.SleepPair)
    (hRun : k.systemIsRun = true) (hPos : 1 ≤ n) (hn : n < 2 ^ 32) :
    SleepOk (k.dosInsertSleepItem t n) := by
  let k' := k.dosInsertSleepItem t n
  have hStatics := (onlyTask_insertSleepItem k t n).statics
  have hTick : k'.dosTickCount = k.dosTickCount := congrArg Statics.dosTickCount hStatics
  have hList : k'.dosTaskSleepList = k.dosTaskSleepList :=
    congrArg Statics.dosTaskSleepList hStatics
  have hOver : k'.dosTaskSleepOverflowList = k.dosTaskSleepOverflowList :=
    congrArg Statics.dosTaskSleepOverflowList hStatics
  have hRun' : k'.systemIsRun = true := (congrArg Statics.systemIsRun hStatics).trans hRun
  have hNext : k'.dosNextWakeTick = _ := next_insertSleepItem k t n
  have hLt := h.tick_lt
  have hNextLt := h.next_lt
  have hLe := h.tick_le
  -- the new next wake time is at most the old one and not behind the tick
  have hBounds : k'.dosNextWakeTick ≤ k.dosNextWakeTick ∧ k.dosTickCount ≤ k'.dosNextWakeTick := by
    rw [hNext]
    split <;> omega
  refine ⟨⟨?_, ?_, ?_, ?_, ?_⟩, ?_, ?_, ?_⟩
  · rw [hTick]
    exact hLt
  · exact Nat.lt_of_le_of_lt hBounds.1 hNextLt
  · rw [hTick]
    exact hBounds.2
  · rw [hList]
    refine values_insertSleepItem (P := fun v => k'.dosNextWakeTick ≤ v) hPair ?_
      fun x hx => hBounds.1.trans (h.current x hx)
    intro hTarget
    have hAhead := le_of_sleepTarget hPair hTarget
    rw [hNext]
    split <;> omega
  · rw [hOver, hTick]
    exact values_insertSleepItem (P := fun v => v < k.dosTickCount) hPair
      (lt_of_sleepTarget hPair) h.overflow
  · rw [hList, hTick]
    refine values_insertSleepItem (P := fun v => k.dosTickCount < v) hPair ?_ h.ahead
    intro hTarget
    have hAhead := le_of_sleepTarget hPair hTarget
    omega
  · rw [hTick, hNext]
    intro hEdge
    have hOld := h.edge
    split at hEdge
    · omega
    · exact hOld hEdge
  · intro hStop
    rw [hRun'] at hStop
    cases hStop

end Enter

section Advance

/-- At the last tick before the overflow nobody is left on the current list. -/
theorem SleepOk.empty_of_max (h : SleepOk k) (hLinked : k.lists.Linked) (hPair : k.SleepPair)
    (hTick : k.dosTickCount = uint32Max) : k.lists.items k.dosTaskSleepList = [] := by
  rw [List.eq_nil_iff_forall_not_mem]
  intro t hMem
  have hOwner := (hLinked.mem_iff _ t).mp hMem
  rw [hPair.kind.1] at hOwner
  have hAhead := h.ahead t hOwner
  have hLt := hLinked.value_lt .status t
  have hEnd := uint32Max_eq
  omega

/-- `_dos_switch_sleep_list` with an empty current list exchanges the lists and
takes the next wake time from the new current one. -/
theorem switchSleepList_empty (hEmpty : k.lists.items k.dosTaskSleepList = []) :
    k.dosSwitchSleepList.dosTaskSleepList = k.dosTaskSleepOverflowList ∧
      k.dosSwitchSleepList.dosTaskSleepOverflowList = k.dosTaskSleepList ∧
      k.dosSwitchSleepList.dosTickCount = k.dosTickCount ∧
      k.dosSwitchSleepList.systemIsRun = k.systemIsRun ∧
      (∀ x, SameItem x k k.dosSwitchSleepList) ∧
      k.dosSwitchSleepList.dosNextWakeTick =
        ((k.lists.items k.dosTaskSleepOverflowList).head?.map (k.lists.value .status)).getD
          uint32Max := by
  have hFull : k.lists.dosTaskListIsEmpty k.dosTaskSleepList = true := by
    simp [TaskLists.dosTaskListIsEmpty, hEmpty]
  unfold dosSwitchSleepList
  rw [if_pos hFull]
  dsimp only
  split
  · rename_i hNone
    have hNil : k.lists.items k.dosTaskSleepOverflowList = [] := by
      simpa [TaskLists.dosTaskListIsEmpty, dosSwapSleepLists] using hNone
    rw [hNil]
    exact ⟨rfl, rfl, rfl, rfl, fun _ => ⟨rfl, rfl⟩, rfl⟩
  · rename_i hSome
    split
    · rename_i k₁ t hHead
      have hk : k₁ = _ := (congrArg Prod.fst hHead).symm
      have ht : (k.lists.items k.dosTaskSleepOverflowList).head? = some t :=
        congrArg Prod.snd hHead
      subst hk
      rw [ht]
      exact ⟨rfl, rfl, rfl, rfl, fun _ => ⟨rfl, rfl⟩, rfl⟩
    · rename_i k₁ hHead
      have hNone : (k.lists.items k.dosTaskSleepOverflowList).head? = none :=
        congrArg Prod.snd hHead
      rw [List.head?_eq_none_iff] at hNone
      exact absurd (by simp [TaskLists.dosTaskListIsEmpty, dosSwapSleepLists, hNone]) hSome

/-- The two ways in which the counter advances. -/
theorem tickAdvance_cases (h : SleepOk k) (hLinked : k.lists.Linked) (hPair : k.SleepPair) :
    (k.dosTickCount < uint32Max ∧ k.dosTickAdvance = k.dosTickCountInc ∧
      k.dosTickCountInc.dosTickCount = k.dosTickCount + 1) ∨
    (k.dosTickCount = uint32Max ∧ k.dosTickAdvance = k.dosTickCountInc.dosSwitchSleepList ∧
      k.dosTickCountInc.dosTickCount = 0 ∧ k.lists.items k.dosTaskSleepList = []) := by
  have hLt := h.tick_lt
  have hEnd := uint32Max_eq
  by_cases hMax : k.dosTickCount = uint32Max
  · have hZero : k.dosTickCountInc.dosTickCount = 0 := by
      simp [dosTickCountInc, hMax]
    refine Or.inr ⟨hMax, ?_, hZero, h.empty_of_max hLinked hPair hMax⟩
    rw [dosTickAdvance, if_pos hZero]
  · have hNext : k.dosTickCountInc.dosTickCount = k.dosTickCount + 1 := by
      simp only [dosTickCountInc]
      omega
    refine Or.inl ⟨by omega, ?_, hNext⟩
    rw [dosTickAdvance, if_neg (by omega)]

/-- A tick finds the clock in order. -/
theorem Ticking.of_sleepOk_advance (h : SleepOk k) (hLinked : k.lists.Linked)
    (hPair : k.SleepPair) : Ticking k.dosTickAdvance := by
  have hLt := h.tick_lt
  have hNextLt := h.next_lt
  have hLe := h.tick_le
  have hEdge := h.edge
  rcases tickAdvance_cases h hLinked hPair with ⟨hMax, hEq, hTick⟩ | ⟨hMax, hEq, hTick, hEmpty⟩
  · rw [hEq]
    refine ⟨by omega, hNextLt, ?_, h.current, ?_⟩
    · show k.dosTickCountInc.dosTickCount ≤ k.dosNextWakeTick
      omega
    · intro x hx
      have hOver := h.overflow x hx
      rw [hTick]
      exact Nat.lt_succ_of_lt hOver
  · rw [hEq]
    obtain ⟨hList, hOver, hSameTick, _, hItems, hNext⟩ :=
      switchSleepList_empty (k := k.dosTickCountInc) hEmpty
    have hHeadLe : ∀ x, k.lists.owner .status x = some k.dosTaskSleepOverflowList →
        k.dosTickCountInc.dosSwitchSleepList.dosNextWakeTick ≤ k.lists.value .status x := by
      intro x hx
      have hMem : x ∈ k.lists.items k.dosTaskSleepOverflowList := by
        rw [hLinked.mem_iff, hPair.kind.2]
        exact hx
      have hSorted := hLinked.sorted k.dosTaskSleepOverflowList
      rw [hPair.kind.2] at hSorted
      rw [hNext]
      show ((k.lists.items k.dosTaskSleepOverflowList).head?.map _).getD _ ≤ _
      cases hItemsEq : k.lists.items k.dosTaskSleepOverflowList with
      | nil =>
          rw [hItemsEq] at hMem
          cases hMem
      | cons first rest =>
          rw [hItemsEq] at hMem hSorted
          exact hSorted.head_le hMem
    have hNextRange : k.dosTickCountInc.dosSwitchSleepList.dosNextWakeTick < 2 ^ 32 := by
      rw [hNext]
      cases (k.dosTickCountInc.lists.items k.dosTickCountInc.dosTaskSleepOverflowList).head? with
      | none => simp
      | some first => exact hLinked.value_lt .status first
    refine ⟨?_, hNextRange, ?_, ?_, ?_⟩
    · rw [hSameTick, hTick]
      decide
    · rw [hSameTick, hTick]
      exact Nat.zero_le _
    · intro x hx
      rw [hList, (hItems x).owner] at hx
      rw [(hItems x).value]
      exact hHeadLe x hx
    · intro x hx
      rw [hOver, (hItems x).owner] at hx
      have hMem : x ∈ k.lists.items k.dosTaskSleepList := by
        rw [hLinked.mem_iff, hPair.kind.1]
        exact hx
      rw [hEmpty] at hMem
      cases hMem

/-- One tick brings every sleeper one tick closer, across the overflow too. -/
theorem Asleep.advance (hSleep : Asleep k t (n + 1)) (h : SleepOk k) (hLinked : k.lists.Linked)
    (hPair : k.SleepPair) : Asleep k.dosTickAdvance t n := by
  have hValue := hLinked.value_lt .status t
  have hEnd := uint32Max_eq
  rcases tickAdvance_cases h hLinked hPair with ⟨hMax, hEq, hTick⟩ | ⟨hMax, hEq, hTick, hEmpty⟩
  · rw [hEq]
    rcases hSleep with ⟨hOwner, hTime⟩ | ⟨hOwner, hTime⟩
    · refine Or.inl ⟨hOwner, ?_⟩
      show k.lists.value .status t = _
      omega
    · refine Or.inr ⟨hOwner, ?_⟩
      show k.lists.value .status t + 2 ^ 32 = _
      omega
  · rw [hEq]
    obtain ⟨hList, hOver, hSameTick, _, hItems, _⟩ :=
      switchSleepList_empty (k := k.dosTickCountInc) hEmpty
    rcases hSleep with ⟨_, hTime⟩ | ⟨hOwner, hTime⟩
    · omega
    · refine Or.inl ⟨?_, ?_⟩
      · rw [(hItems t).owner, hList]
        exact hOwner
      · rw [(hItems t).value, hSameTick, hTick]
        show k.lists.value .status t = _
        omega

end Advance

section Expire

theorem lists_expire (k : Kernel) (t : TaskId) :
    (k.dosExpireTask t).lists =
      (k.lists.dosTaskItemDel .status t).1.dosTaskItemInsert (.priority (k.priority t)) t := by
  let k₁ := (k.dosTaskItemDel .status t).dosResetTaskStatus t Flag.delay.mask
  have hPrio₁ : k₁.priority t = k.priority t := by
    simp [k₁, dosResetTaskStatus, dosTaskItemDel, mapTcb, priority]
  have hPrio₂ : (k₁.dosSetTaskStatus t Flag.timeout.mask).priority t = k.priority t := by
    simp [k₁, dosSetTaskStatus, dosResetTaskStatus, dosTaskItemDel, mapTcb, priority]
  unfold dosExpireTask
  dsimp only
  split
  · show k₁.lists.dosTaskItemInsert (.priority ((k₁.dosSetTaskStatus t Flag.timeout.mask).priority t))
      t = _
    rw [hPrio₂]
    rfl
  · show k₁.lists.dosTaskItemInsert (.priority (k₁.priority t)) t = _
    rw [hPrio₁]
    rfl

/-- An expiry takes one task off the sleep list. -/
theorem length_expire (hLinked : k.lists.Linked) (hPair : k.SleepPair)
    (hOwner : k.lists.owner .status t = some k.dosTaskSleepList) :
    ((k.dosExpireTask t).lists.items k.dosTaskSleepList).length + 1 =
      (k.lists.items k.dosTaskSleepList).length := by
  have hMem : t ∈ k.lists.items k.dosTaskSleepList := by
    rw [hLinked.mem_iff, hPair.kind.1]
    exact hOwner
  have hNot : k.dosTaskSleepList ≠ .priority (k.priority t) := by
    rcases hPair with ⟨hs, _⟩ | ⟨hs, _⟩ <;> rw [hs] <;> simp
  rw [lists_expire, TaskLists.insert_items, if_neg hNot, TaskLists.del_items, if_pos hOwner,
    List.length_erase_of_mem hMem]
  have hPos := List.length_pos_of_mem hMem
  omega

/-- What the timeout handling of one tick does: the tasks whose time it is get
ready, and nobody else is touched. -/
structure Expired (k k' : Kernel) : Prop where
  ok : SleepOk k'
  statics : k'.statics = k.statics
  keep : ∀ x, ¬(k.lists.owner .status x = some k.dosTaskSleepList ∧
      k.lists.value .status x = k.dosTickCount) → k'.view x = k.view x ∧ SameItem x k k'
  wake : ∀ x, k.lists.owner .status x = some k.dosTaskSleepList →
    k.lists.value .status x = k.dosTickCount →
      k'.is x .ready = true ∧ k'.lists.owner .status x = some (.priority (k'.priority x))

/-- A task that is ready on its list stays so when nobody touches it. -/
theorem ready_of_view (hView : k'.view x = k.view x) (hReady : k.is x .ready = true)
    (hOwner : k.lists.owner .status x = some (.priority (k.priority x))) :
    k'.is x .ready = true ∧ k'.lists.owner .status x = some (.priority (k'.priority x)) := by
  have hStatus : (k'.tcb x).taskStatus = (k.tcb x).taskStatus := congrArg TaskView.status hView
  have hPrio : k'.priority x = k.priority x := congrArg TaskView.priority hView
  have hSame : k'.lists.owner .status x = k.lists.owner .status x :=
    congrArg TaskView.statusOwner hView
  constructor
  · rw [is, hStatus]
    exact hReady
  · rw [hSame, hPrio, hOwner]

theorem expire_ready (k : Kernel) (t : TaskId) :
    (k.dosExpireTask t).is t .ready = true ∧
      (k.dosExpireTask t).lists.owner .status t =
        some (.priority ((k.dosExpireTask t).priority t)) := by
  have hView := view_expire k t
  have hPrio : (k.dosExpireTask t).priority t = k.priority t := congrArg TaskView.priority hView
  constructor
  · show Flag.test ((k.dosExpireTask t).view t).status .ready = true
    rw [hView]
    simp
  · rw [hPrio]
    exact congrArg TaskView.statusOwner hView

theorem expired_of_empty (h : Ticking k) (hRun : k.systemIsRun = true)
    (hLinked : k.lists.Linked) (hPair : k.SleepPair)
    (hEmpty : k.lists.items k.dosTaskSleepList = []) :
    Expired k (k.setNextWakeTick uint32Max) := by
  have hLt := h.tick_lt
  have hEnd := uint32Max_eq
  have hNobody : ∀ x, k.lists.owner .status x ≠ some k.dosTaskSleepList := by
    intro x hx
    have hMem : x ∈ k.lists.items k.dosTaskSleepList := by
      rw [hLinked.mem_iff, hPair.kind.1]
      exact hx
    rw [hEmpty] at hMem
    cases hMem
  refine ⟨⟨⟨h.tick_lt, ?_, ?_, ?_, h.overflow⟩, ?_, ?_, ?_⟩, rfl, ?_, ?_⟩
  · show uint32Max < 2 ^ 32
    decide
  · show k.dosTickCount ≤ uint32Max
    omega
  · exact fun x hx => absurd hx (hNobody x)
  · exact fun x hx => absurd hx (hNobody x)
  · exact fun hEdge => hEdge
  · intro hStop
    rw [show (k.setNextWakeTick uint32Max).systemIsRun = k.systemIsRun from rfl, hRun] at hStop
    cases hStop
  · exact fun x _ => ⟨rfl, rfl, rfl⟩
  · exact fun x hx => absurd hx (hNobody x)

/-- The loop ends at a first task that is still ahead of the next wake time. -/
theorem expired_of_later (h : Ticking k) (hRun : k.systemIsRun = true) {first : TaskId}
    (hFirst : ∀ x, k.lists.owner .status x = some k.dosTaskSleepList →
      k.lists.value .status first ≤ k.lists.value .status x)
    (hValue : k.lists.value .status first < 2 ^ 32)
    (hLater : k.dosTickCount < k.lists.value .status first) :
    Expired k (k.setNextWakeTick (k.lists.value .status first)) := by
  refine ⟨⟨⟨h.tick_lt, hValue, hLater.le, hFirst, h.overflow⟩, ?_, ?_, ?_⟩, rfl, ?_, ?_⟩
  · exact fun x hx => hLater.trans_le (hFirst x hx)
  · intro hEdge
    exact absurd hEdge (Nat.ne_of_lt hLater)
  · intro hStop
    have hSame : k.systemIsRun = false := hStop
    rw [hRun] at hSame
    cases hSame
  · exact fun x _ => ⟨rfl, rfl, rfl⟩
  · intro x hx hNow
    have hLe := hFirst x hx
    omega

/-- One expiry followed by the rest of the loop. -/
theorem Expired.cons (hOwner : k.lists.owner .status t = some k.dosTaskSleepList)
    (hNow : k.lists.value .status t = k.dosTickCount) (hPair : k.SleepPair)
    (rest : Expired (k.dosExpireTask t) k') : Expired k k' := by
  have hOnly := onlyTask_expire k t
  have hTick : (k.dosExpireTask t).dosTickCount = k.dosTickCount :=
    congrArg Statics.dosTickCount hOnly.statics
  have hList : (k.dosExpireTask t).dosTaskSleepList = k.dosTaskSleepList :=
    congrArg Statics.dosTaskSleepList hOnly.statics
  obtain ⟨hReady, hPlace⟩ := expire_ready k t
  refine ⟨rest.ok, rest.statics.trans hOnly.statics, ?_, ?_⟩
  · intro x hx
    have hNe : x ≠ t := by
      rintro rfl
      exact hx ⟨hOwner, hNow⟩
    have hItem := hOnly.sameItem hNe
    obtain ⟨hView, hSame⟩ := rest.keep x (by
      rw [hItem.owner, hItem.value, hTick, hList]
      exact hx)
    exact ⟨hView.trans (hOnly.view hNe), hSame.owner.trans hItem.owner,
      hSame.value.trans hItem.value⟩
  · intro x hx hValue
    by_cases hEq : x = t
    · subst hEq
      have hOff : (k.dosExpireTask x).lists.owner .status x ≠
          some (k.dosExpireTask x).dosTaskSleepList := by
        rw [hPlace, hList]
        rcases hPair with ⟨hs, _⟩ | ⟨hs, _⟩ <;> rw [hs] <;> simp
      obtain ⟨hView, _⟩ := rest.keep x (fun hBad => hOff hBad.1)
      exact ready_of_view hView hReady hPlace
    · have hItem := hOnly.sameItem hEq
      apply rest.wake x
      · rw [hItem.owner, hList]
        exact hx
      · rw [hItem.value, hTick]
        exact hValue

/-- The cursor that `dos_get_first_task` leaves behind is of no concern. -/
theorem Expired.of_first {l : ListId} (h : Expired (k.dosGetFirstTask l).1 k') : Expired k k' where
  ok := h.ok
  statics := h.statics
  keep x hx := by
    obtain ⟨hView, hItem⟩ := h.keep x hx
    exact ⟨hView, hItem.owner, hItem.value⟩
  wake := h.wake

/-- The first task of the sleep list wakes up before the others. -/
theorem Membership.first_sleeper {cfg : Config} (h : Membership cfg k) {first : TaskId}
    {rest : List TaskId} (hItems : k.lists.items k.dosTaskSleepList = first :: rest) :
    k.lists.owner .status first = some k.dosTaskSleepList ∧
      ∀ x, k.lists.owner .status x = some k.dosTaskSleepList →
        k.lists.value .status first ≤ k.lists.value .status x := by
  have hOwner (x : TaskId) : k.lists.owner .status x = some k.dosTaskSleepList ↔
      x ∈ first :: rest := by
    rw [← h.pair.kind.1, ← h.linked.mem_iff, hItems]
  have hSorted := h.linked.sorted k.dosTaskSleepList
  rw [h.pair.kind.1, hItems] at hSorted
  exact ⟨(hOwner first).mpr List.mem_cons_self, fun x hx => hSorted.head_le ((hOwner x).mp hx)⟩

/-- An expiry puts no task on a sleep list. -/
theorem Ticking.expire (h : Ticking k) (hPair : k.SleepPair) (t : TaskId) :
    Ticking (k.dosExpireTask t) := by
  have hOnly := onlyTask_expire k t
  refine h.frame (SameClock.of_statics hOnly.statics (next_expire k t))
    (hOnly.noneEnters (Or.inr ?_))
  intro l hl
  rw [(expire_ready k t).2]
  rcases hPair with ⟨hs, ho⟩ | ⟨hs, ho⟩ <;> rw [hs, ho] at hl <;> rcases hl with rfl | rfl <;> simp

/-- The expiry loop, with enough turns for every task on the sleep list. -/
theorem expired_tickExpire {cfg : Config} (fuel : Nat) :
    ∀ {k : Kernel}, Membership cfg k → Ticking k → k.systemIsRun = true →
      k.dosNextWakeTick = k.dosTickCount →
      (k.lists.items k.dosTaskSleepList).length < fuel → Expired k (dosTickExpire fuel k) := by
  induction fuel with
  | zero => exact fun _ _ _ _ hFuel => absurd hFuel (Nat.not_lt_zero _)
  | succ fuel ih =>
      intro k hMem h hRun hNext hFuel
      unfold dosTickExpire
      split
      · rename_i hEmpty
        refine expired_of_empty h hRun hMem.linked hMem.pair ?_
        simpa [TaskLists.dosTaskListIsEmpty] using hEmpty
      · rename_i hSome
        cases hItems : k.lists.items k.dosTaskSleepList with
        | nil => exact absurd (by simp [TaskLists.dosTaskListIsEmpty, hItems]) hSome
        | cons first rest =>
            obtain ⟨hOwner, hFirst⟩ := hMem.first_sleeper hItems
            have hHead : (k.dosGetFirstTask k.dosTaskSleepList).2 = some first := by
              show (k.lists.items k.dosTaskSleepList).head? = some first
              rw [hItems]
              rfl
            have hPairEq : k.dosGetFirstTask k.dosTaskSleepList =
                ((k.dosGetFirstTask k.dosTaskSleepList).1, some first) := Prod.ext rfl hHead
            rw [hPairEq]
            dsimp only
            let k₁ := (k.dosGetFirstTask k.dosTaskSleepList).1
            have hMem₁ : Membership cfg k₁ := hMem.getFirstTask _
            have hTicking₁ : Ticking k₁ :=
              ⟨h.tick_lt, h.next_lt, h.tick_le, h.current, h.overflow⟩
            refine Expired.of_first (l := k.dosTaskSleepList) ?_
            split
            · rename_i hLater
              have hAhead : k₁.dosTickCount < k₁.lists.value .status first := by
                show k.dosTickCount < _
                rw [← hNext]
                exact hLater
              exact expired_of_later hTicking₁ hRun hFirst (hMem.linked.value_lt .status first) hAhead
            · rename_i hDue
              have hNow : k₁.lists.value .status first = k₁.dosTickCount := by
                show k.lists.value .status first = k.dosTickCount
                have hLow := h.current first hOwner
                have hHigh : ¬k.lists.value .status first > k.dosNextWakeTick := hDue
                omega
              have hLive : k₁.Live first :=
                hMem₁.live_of_owner hOwner (by
                  rcases hMem.pair with ⟨hs, _⟩ | ⟨hs, _⟩ <;> rw [hs] <;> simp)
              have hStatics := (onlyTask_expire k₁ first).statics
              have hLength := length_expire hMem₁.linked hMem₁.pair hOwner
              have hItems₁ : k₁.lists.items k₁.dosTaskSleepList =
                  k.lists.items k.dosTaskSleepList := TaskLists.first_items _ _
              have hList₂ : (k₁.dosExpireTask first).dosTaskSleepList = k₁.dosTaskSleepList :=
                congrArg Statics.dosTaskSleepList hStatics
              refine Expired.cons hOwner hNow hMem₁.pair
                (ih (hMem₁.expire hLive) (hTicking₁.expire hMem₁.pair first) ?_ ?_ ?_)
              · exact (congrArg Statics.systemIsRun hStatics).trans hRun
              · rw [next_expire]
                exact hNext.trans (congrArg Statics.dosTickCount hStatics).symm
              · show ((k₁.dosExpireTask first).lists.items
                  (k₁.dosExpireTask first).dosTaskSleepList).length < fuel
                rw [hList₂]
                rw [hItems₁] at hLength
                omega

/-- The timeout handling of `dos_tick_update`. -/
theorem expired_tickTimeouts {cfg : Config} (hMem : Membership cfg k) (h : Ticking k)
    (hRun : k.systemIsRun = true) : Expired k k.dosTickTimeouts := by
  have hLe := h.tick_le
  unfold dosTickTimeouts
  split
  · rename_i hDue
    exact expired_tickExpire _ hMem h hRun (by omega) (Nat.lt_succ_self _)
  · rename_i hEarly
    refine ⟨⟨h, ?_, ?_, ?_⟩, rfl, fun x _ => ⟨rfl, rfl, rfl⟩, ?_⟩
    · intro x hx
      have hNext := h.current x hx
      omega
    · intro hEdge
      omega
    · intro hStop
      rw [hRun] at hStop
      cases hStop
    · intro x hx hNow
      have hNext := h.current x hx
      omega

end Expire

section Tick

theorem SameTasks.sameItem (h : SameTasks k k') (x : TaskId) : SameItem x k k' := by
  constructor <;> rw [h.lists]

theorem SleepOk.sameTasks (h : SleepOk k) (hSame : SameTasks k k') : SleepOk k' :=
  h.frame (SameClock.of_statics hSame.statics hSame.dosNextWakeTick)
    fun x => Or.inl (hSame.sameItem x)

theorem Asleep.of_statics (h : Asleep k x n) (hs : k'.statics = k.statics)
    (hItem : SameItem x k k') : Asleep k' x n :=
  h.keep (congrArg Statics.dosTickCount hs) (congrArg Statics.dosTaskSleepList hs)
    (congrArg Statics.dosTaskSleepOverflowList hs) hItem

/-- A woken task is on no sleep list. -/
theorem wake_off_sleep (k : Kernel) (hPair : k.SleepPair) (l : ListId)
    (hl : l = k.dosTaskSleepList ∨ l = k.dosTaskSleepOverflowList) :
    (k.dosTaskWake t).lists.owner .status t ≠ some l := by
  have hOwner : (k.dosTaskWake t).lists.owner .status t = some (.priority (k.priority t)) :=
    congrArg TaskView.statusOwner (view_wake k t)
  rw [hOwner]
  rcases hPair with ⟨hs, ho⟩ | ⟨hs, ho⟩ <;> rw [hs, ho] at hl <;> rcases hl with rfl | rfl <;> simp

/-- The message of an overflow wakes the timer task and nobody else. -/
theorem tickNotify_spec {cfg : Config} (hMem : Membership cfg k) (h : Ticking k)
    (notify : Option TaskId) (hNotify : ∀ t ∈ notify, k.Live t) :
    Membership cfg (k.dosTickNotify notify) ∧ Ticking (k.dosTickNotify notify) ∧
      (k.dosTickNotify notify).statics = k.statics ∧
      ∀ x, notify ≠ some x → SameItem x k (k.dosTickNotify notify) := by
  refine ⟨hMem.tickNotify notify hNotify, ?_⟩
  have hSkip : Ticking k ∧ k.statics = k.statics ∧ ∀ x, notify ≠ some x → SameItem x k k :=
    ⟨h, rfl, fun _ _ => ⟨rfl, rfl⟩⟩
  unfold dosTickNotify
  cases notify with
  | none => exact hSkip
  | some t =>
      dsimp only
      split
      · have hOnly := onlyTask_wake k t
        refine ⟨?_, hOnly.statics, ?_⟩
        · exact h.frame (SameClock.of_statics hOnly.statics rfl)
            (hOnly.noneEnters (Or.inr (wake_off_sleep k hMem.pair)))
        · intro x hx
          exact hOnly.sameItem (fun he => hx (by rw [he]))
      · exact hSkip

/-- The counter counts modulo 32 bits. -/
theorem tickAdvance_clock (h : SleepOk k) (hLinked : k.lists.Linked) (hPair : k.SleepPair) :
    k.dosTickAdvance.dosTickCount = (k.dosTickCount + 1) % 2 ^ 32 ∧
      k.dosTickAdvance.systemIsRun = k.systemIsRun := by
  rcases tickAdvance_cases h hLinked hPair with ⟨_, hEq, _⟩ | ⟨_, hEq, _, hEmpty⟩
  · rw [hEq]
    exact ⟨rfl, rfl⟩
  · obtain ⟨_, _, hTick, hRun, _, _⟩ := switchSleepList_empty (k := k.dosTickCountInc) hEmpty
    rw [hEq, hTick, hRun]
    exact ⟨rfl, rfl⟩

/-- One tick: the counter advances by one, the task with one tick to go gets
ready, and every other sleeper keeps sleeping with one tick less. -/
theorem tickUpdate_spec {cfg : Config} (hMem : Membership cfg k) (h : SleepOk k)
    (hRun : k.systemIsRun = true) (notify : Option TaskId)
    (hNotify : ∀ t ∈ notify, k.Live t) :
    SleepOk (k.dosTickUpdate notify) ∧
      (k.dosTickUpdate notify).dosTickCount = (k.dosTickCount + 1) % 2 ^ 32 ∧
      ∀ x n, notify ≠ some x → Asleep k x (n + 1) →
        (n = 0 → (k.dosTickUpdate notify).is x .ready = true ∧
          (k.dosTickUpdate notify).lists.owner .status x =
            some (.priority ((k.dosTickUpdate notify).priority x))) ∧
        (n ≠ 0 → Asleep (k.dosTickUpdate notify) x n) := by
  obtain ⟨hTick, hRun₁⟩ := tickAdvance_clock h hMem.linked hMem.pair
  obtain ⟨hMem₂, hTicking, hStatics₂, hItems₂⟩ := tickNotify_spec hMem.tickAdvance
    (Ticking.of_sleepOk_advance h hMem.linked hMem.pair) notify
    (fun t ht => live_tickAdvance (hNotify t ht))
  have hRun₂ : (k.dosTickAdvance.dosTickNotify notify).systemIsRun = true :=
    (congrArg Statics.systemIsRun hStatics₂).trans (hRun₁.trans hRun)
  have hExpired := expired_tickTimeouts hMem₂ hTicking hRun₂
  have hSame := sameTasks_scheduler (k.dosTickAdvance.dosTickNotify notify).dosTickTimeouts
  unfold dosTickUpdate
  refine ⟨hExpired.ok.sameTasks hSame, ?_, ?_⟩
  · have hStatics := (hSame.statics.trans hExpired.statics).trans hStatics₂
    exact (congrArg Statics.dosTickCount hStatics).trans hTick
  · intro x n hx hSleep
    have hSleep₂ : Asleep (k.dosTickAdvance.dosTickNotify notify) x n :=
      (hSleep.advance h hMem.linked hMem.pair).of_statics hStatics₂ (hItems₂ x hx)
    have hTickLt := hTicking.tick_lt
    constructor
    · rintro rfl
      rcases hSleep₂ with ⟨hOwner, hTime⟩ | ⟨_, hTime⟩
      · obtain ⟨hReady, hPlace⟩ := hExpired.wake x hOwner (by omega)
        exact ready_of_view (hSame.view x) hReady hPlace
      · omega
    · intro hn
      have hLater : ¬((k.dosTickAdvance.dosTickNotify notify).lists.owner .status x =
            some (k.dosTickAdvance.dosTickNotify notify).dosTaskSleepList ∧
          (k.dosTickAdvance.dosTickNotify notify).lists.value .status x =
            (k.dosTickAdvance.dosTickNotify notify).dosTickCount) := by
        rintro ⟨hOwner, hNow⟩
        rcases hSleep₂ with ⟨_, hTime⟩ | ⟨hOver, _⟩
        · omega
        · rw [hOver] at hOwner
          rcases hMem₂.pair with ⟨hs, ho⟩ | ⟨hs, ho⟩ <;> rw [hs, ho] at hOwner <;> cases hOwner
      obtain ⟨_, hItem⟩ := hExpired.keep x hLater
      exact (hSleep₂.of_statics hExpired.statics hItem).of_statics hSame.statics (hSame.sameItem x)

end Tick

end Kernel

end DoraOS
