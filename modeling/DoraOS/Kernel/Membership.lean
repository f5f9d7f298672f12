import DoraOS.Kernel.Frame
import DoraOS.Library.BitSet
import DoraOS.Library.Runs

/-! The kernel's membership invariant. Status flags, the two list items of a
task and the priority bitmap are updated by separate statements; after every
kernel operation they agree again. -/
namespace DoraOS

namespace Kernel

variable {k : Kernel} {t : TaskId}

section Linked

theorem linked_insertPriorityList (h : k.lists.Linked) (hFree : k.lists.owner .status t = none) :
    (k.dosInsertTaskPriorityList t).lists.Linked :=
  h.insert (.priority (k.priority t)) t hFree

theorem linked_statusItemDel (h : k.lists.Linked) : (k.dosStatusItemDel t).lists.Linked := by
  unfold dosStatusItemDel
  dsimp only
  split
  · exact h.del .status t
  · exact h.del .status t

/-- Only the status item of the task leaves its list. -/
theorem owner_statusItemDel (c : ItemKind) (x : TaskId) :
    (k.dosStatusItemDel t).lists.owner c x =
      if c = .status ∧ x = t then none else k.lists.owner c x := by
  unfold dosStatusItemDel
  dsimp only
  split <;> exact TaskLists.del_owner .status t c x

theorem linked_setWakeTime (h : k.lists.Linked) (hFree : k.lists.owner .status t = none) {v : Nat}
    (hv : v < 2 ^ 32) : (k.setWakeTime t v).lists.Linked := by
  have hSet := h.setValue .status t v hFree hv
  simpa only [setWakeTime, hFree] using hSet

theorem SleepPair.kind (h : k.SleepPair) :
    k.dosTaskSleepList.kind = .status ∧ k.dosTaskSleepOverflowList.kind = .status := by
  rcases h with ⟨hs, ho⟩ | ⟨hs, ho⟩ <;> rw [hs, ho] <;> exact ⟨rfl, rfl⟩

theorem linked_linkSleepItem (h : k.lists.Linked) (hPair : k.SleepPair)
    (hFree : k.lists.owner .status t = none) : (k.dosLinkSleepItem t).lists.Linked := by
  obtain ⟨hSleep, hOver⟩ := hPair.kind
  unfold dosLinkSleepItem
  dsimp only
  split
  · exact h.insert _ t (by rw [hOver]; exact hFree)
  · split
    · exact h.insert _ t (by rw [hSleep]; exact hFree)
    · exact h.insert _ t (by rw [hSleep]; exact hFree)

theorem linked_insertSleepItem (h : k.lists.Linked) (hPair : k.SleepPair) (n : Nat) :
    (k.dosInsertSleepItem t n).lists.Linked := by
  let k₁ := (k.dosResetTaskStatus t Flag.ready.mask).dosSetTaskStatus t Flag.delay.mask
  have hLinked : (k₁.dosStatusItemDel t).lists.Linked := linked_statusItemDel (k := k₁) h
  have hFree : (k₁.dosStatusItemDel t).lists.owner .status t = none := by
    simp [owner_statusItemDel]
  have hPair₁ : (k₁.dosStatusItemDel t).SleepPair :=
    SleepPair.congr (k := k₁) hPair (onlyTask_statusItemDel k₁ t).statics
  have hWake := linked_setWakeTime hLinked hFree
    (Nat.mod_lt ((k₁.dosStatusItemDel t).dosTickCount + n) (by decide))
  refine linked_linkSleepItem hWake hPair₁ ?_
  simpa [setWakeTime] using hFree

/-- A task that is on no pend list can be linked into one. -/
theorem linked_wait (h : k.lists.Linked) (hPair : k.SleepPair) (id : PendId) (timeout : Nat)
    (hFree : k.lists.owner .pend t = none) : (k.dosTaskWait t id timeout).lists.Linked := by
  let k₁ := (k.dosSetTaskStatus t Flag.suspend.mask).dosTaskItemInsert (.pend id) t
  have hPend : k₁.lists.Linked := h.insert (.pend id) t hFree
  unfold dosTaskWait
  dsimp only
  split
  · unfold dosInsertTaskSleepList
    split
    · exact hPend
    · exact linked_insertSleepItem (k := k₁) hPend hPair timeout
  · exact linked_statusItemDel (k := k₁.dosResetTaskStatus t Flag.ready.mask) hPend

theorem linked_wake (h : k.lists.Linked) : (k.dosTaskWake t).lists.Linked := by
  have hDel : ((k.dosTaskItemDel .pend t).dosTaskItemDel .status t).lists.Linked :=
    (h.del .pend t).del .status t
  exact hDel.insert _ t (by simp [dosTaskItemDel, ListId.kind])

theorem linked_setPriority (h : k.lists.Linked) (prio : Nat) :
    (k.dosSetTaskPriority t prio).lists.Linked := by
  unfold dosSetTaskPriority
  split
  · refine linked_insertPriorityList (linked_statusItemDel h) ?_
    show (k.dosStatusItemDel t).lists.owner .status t = none
    simp [owner_statusItemDel]
  · exact h

theorem linked_timeoutCleanUp (h : k.lists.Linked) : (k.dosTimeoutCleanUp t).lists.Linked :=
  h.del .pend t

theorem linked_expire (h : k.lists.Linked) : (k.dosExpireTask t).lists.Linked := by
  have hDel : (k.dosTaskItemDel .status t).lists.Linked := h.del .status t
  have hFree : (k.dosTaskItemDel .status t).lists.owner .status t = none := by
    simp [dosTaskItemDel]
  unfold dosExpireTask
  dsimp only
  split
  · exact linked_insertPriorityList hDel hFree
  · exact linked_insertPriorityList hDel hFree

theorem linked_unlink (h : k.lists.Linked) : (k.dosTaskUnlink t).lists.Linked := by
  have hStatus (b : Bool) : (if b then k.dosStatusItemDel t else k).lists.Linked := by
    cases b with
    | false => exact h
    | true => exact linked_statusItemDel h
  have hPend (k : Kernel) (b : Bool) (h : k.lists.Linked) :
      (if b then k.dosTaskItemDel .pend t else k).lists.Linked := by
    cases b with
    | false => exact h
    | true => exact h.del .pend t
  exact hPend _ _ (hStatus _)

theorem linked_initTcb (h : k.lists.Linked) (hStatus : k.lists.owner .status t = none)
    (hPend : k.lists.owner .pend t = none) {prio : Nat} (tick : Nat) (hPrio : prio < 2 ^ 32) :
    (k.dosInitTcb t prio tick).lists.Linked := by
  have hInit : (k.lists.dosTaskItemInit .status t).Linked := h.setValue .status t 0 hStatus (by decide)
  exact hInit.setValue .pend t prio (by simp [TaskLists.dosTaskItemInit, hPend]) hPrio

end Linked

section Bitmap

/-- Bit `p` of the single bitmap word is set exactly when the ready list of
priority `p` has a task. -/
def BitmapOk (k : Kernel) : Prop :=
  ∀ p, (k.dosTaskPriority 0).getLsbD p = true ↔ k.lists.items (.priority p) ≠ []

/-- The same at every priority but one, in the middle of an operation. -/
def BitmapExcept (q : Nat) (k : Kernel) : Prop :=
  ∀ p, p ≠ q → ((k.dosTaskPriority 0).getLsbD p = true ↔ k.lists.items (.priority p) ≠ [])

theorem BitmapOk.except (h : k.BitmapOk) (q : Nat) : k.BitmapExcept q := fun p _ => h p

/-- With one word the bit of a priority is its number. -/
theorem setPtiority_word (hMax : k.config.dosMaxPriorityNum ≤ 32) :
    (k.dosSetTaskPtiority t).dosTaskPriority 0 =
      k.dosTaskPriority 0 ||| 1#32 <<< k.priority t := by
  have hNot : ¬k.config.dosMaxPriorityNum > 32 := by omega
  simp [dosSetTaskPtiority, mapPriorityWord, Config.priorityTabIndex, Config.priorityTabBit, hNot]

theorem resetPtiority_word (hMax : k.config.dosMaxPriorityNum ≤ 32) :
    (k.dosResetTaskPtiority t).dosTaskPriority 0 =
      k.dosTaskPriority 0 &&& ~~~(1#32 <<< k.priority t) := by
  have hNot : ¬k.config.dosMaxPriorityNum > 32 := by omega
  simp [dosResetTaskPtiority, mapPriorityWord, Config.priorityTabIndex, Config.priorityTabBit, hNot]

/-- Entering the ready list repairs the one priority that may be off. -/
theorem bitmap_insertPriorityList (hMax : k.config.dosMaxPriorityNum ≤ 32)
    (h : k.BitmapExcept (k.priority t)) (hp : k.priority t < 32) :
    (k.dosInsertTaskPriorityList t).BitmapOk := by
  intro p
  have hBit : (k.dosInsertTaskPriorityList t).dosTaskPriority 0 =
      k.dosTaskPriority 0 ||| 1#32 <<< k.priority t := setPtiority_word hMax
  have hItems : (k.dosInsertTaskPriorityList t).lists =
      k.lists.dosTaskItemInsert (.priority (k.priority t)) t := rfl
  rw [hBit, hItems, BitSet.getLsbD_set _ hp]
  by_cases hEq : p = k.priority t
  · have hMem : t ∈ (k.lists.dosTaskItemInsert (.priority (k.priority t)) t).items (.priority p) := by
      simp [hEq]
    simpa [hEq] using List.ne_nil_of_mem hMem
  · rw [TaskLists.insert_items, if_neg (by simpa using hEq)]
    simpa [hEq] using h p hEq

/-- Removing an item concerns only the ready list it is on. -/
theorem bitmap_itemDel_status {q : Nat} (h : k.BitmapOk)
    (hOwner : ∀ p, k.lists.owner .status t = some (.priority p) → p = q) :
    (k.dosTaskItemDel .status t).BitmapExcept q := by
  intro p hp
  show (k.dosTaskPriority 0).getLsbD p = true ↔
    (k.lists.dosTaskItemDel .status t).1.items (.priority p) ≠ []
  rw [TaskLists.del_items, if_neg (fun he => hp (hOwner p he))]
  exact h p

theorem bitmap_itemDel_pend (h : k.BitmapOk) (hLinked : k.lists.Linked) :
    (k.dosTaskItemDel .pend t).BitmapOk := by
  intro p
  have hNot : k.lists.owner .pend t ≠ some (.priority p) := by
    intro he
    have hKind := hLinked.kind .pend t _ he
    cases hKind
  show (k.dosTaskPriority 0).getLsbD p = true ↔
    (k.lists.dosTaskItemDel .pend t).1.items (.priority p) ≠ []
  rw [TaskLists.del_items, if_neg hNot]
  exact h p

/-- A list that is no ready list has no bit. -/
theorem bitmap_itemInsert {l : ListId} (h : k.BitmapOk) (hl : ∀ p, l ≠ .priority p) :
    (k.dosTaskItemInsert l t).BitmapOk := by
  intro p
  show (k.dosTaskPriority 0).getLsbD p = true ↔ (k.lists.dosTaskItemInsert l t).items (.priority p) ≠ []
  rw [TaskLists.insert_items, if_neg (Ne.symm (hl p))]
  exact h p

/-- The guarded removal keeps the bitmap. When the item came from a sleep
list the bit may be cancelled as well, but only if it was clear already. -/
theorem bitmap_statusItemDel (hMax : k.config.dosMaxPriorityNum ≤ 32) (h : k.BitmapOk)
    (hLinked : k.lists.Linked)
    (hOwner : ∀ p, k.lists.owner .status t = some (.priority p) → p = k.priority t) :
    (k.dosStatusItemDel t).BitmapOk := by
  have hExcept := bitmap_itemDel_status h hOwner
  have hPrio : (k.dosTaskItemDel .status t).priority t = k.priority t := rfl
  unfold dosStatusItemDel
  dsimp only
  rw [hPrio]
  split
  · rename_i hEmpty
    have hNil : (k.dosTaskItemDel .status t).lists.items (.priority (k.priority t)) = [] := by
      simpa [TaskLists.dosTaskListIsEmpty] using hEmpty.2
    intro p
    have hWord : ((k.dosTaskItemDel .status t).dosResetTaskPtiority t).dosTaskPriority 0 =
        k.dosTaskPriority 0 &&& ~~~(1#32 <<< k.priority t) :=
      resetPtiority_word (k := k.dosTaskItemDel .status t) hMax
    rw [hWord, BitSet.getLsbD_clear]
    show _ ↔ (k.dosTaskItemDel .status t).lists.items (.priority p) ≠ []
    by_cases hp : p = k.priority t
    · simp [hp, hNil]
    · have hOther : (k.dosTaskPriority 0).getLsbD p = true ↔
          (k.dosTaskItemDel .status t).lists.items (.priority p) ≠ [] := hExcept p hp
      simpa [hp] using hOther
  · rename_i hKeep
    intro p
    by_cases hp : p = k.priority t
    · subst hp
      show (k.dosTaskPriority 0).getLsbD (k.priority t) = true ↔
        (k.lists.dosTaskItemDel .status t).1.items (.priority (k.priority t)) ≠ []
      cases hOld : k.lists.owner .status t with
      | none =>
          rw [TaskLists.del_unlinked hOld]
          exact h _
      | some l =>
          by_cases hl : l = .priority (k.priority t)
          · subst hl
            -- the item was on the ready list, so a kept bit means tasks are left on it
            have hLeft : (k.lists.items (.priority (k.priority t))).erase t ≠ [] := by
              intro hNil
              apply hKeep
              refine ⟨by rw [TaskLists.del_result hOld, hNil]; rfl, ?_⟩
              simp [TaskLists.dosTaskListIsEmpty, dosTaskItemDel, TaskLists.del_items, hOld, hNil]
            have hMem : t ∈ k.lists.items (.priority (k.priority t)) :=
              (hLinked.mem_iff _ _).mpr hOld
            rw [TaskLists.del_items, if_pos hOld]
            simp only [hLeft, ne_eq, not_false_eq_true, iff_true]
            exact (h _).mpr (List.ne_nil_of_mem hMem)
          · rw [TaskLists.del_items, hOld, if_neg (by simpa using hl)]
            exact h _
    · exact hExcept p hp

theorem bitmap_linkSleepItem (h : k.BitmapOk) (hPair : k.SleepPair) :
    (k.dosLinkSleepItem t).BitmapOk := by
  have hNot : (∀ p, k.dosTaskSleepList ≠ .priority p) ∧
      ∀ p, k.dosTaskSleepOverflowList ≠ .priority p := by
    rcases hPair with ⟨hs, ho⟩ | ⟨hs, ho⟩ <;> rw [hs, ho] <;> simp
  unfold dosLinkSleepItem
  dsimp only
  split
  · exact bitmap_itemInsert h hNot.2
  · split
    · exact bitmap_itemInsert h hNot.1
    · exact bitmap_itemInsert h hNot.1

/-- A task that goes to sleep takes its bit along if it was the last one. -/
theorem bitmap_insertSleepItem (hMax : k.config.dosMaxPriorityNum ≤ 32) (h : k.BitmapOk)
    (hLinked : k.lists.Linked) (hPair : k.SleepPair)
    (n : Nat) (hOwner : ∀ p, k.lists.owner .status t = some (.priority p) → p = k.priority t) :
    (k.dosInsertSleepItem t n).BitmapOk := by
  let k₁ := (k.dosResetTaskStatus t Flag.ready.mask).dosSetTaskStatus t Flag.delay.mask
  have hPrio : k₁.priority t = k.priority t := by
    simp [k₁, dosSetTaskStatus, dosResetTaskStatus, mapTcb, priority]
  have hDel : (k₁.dosStatusItemDel t).BitmapOk :=
    bitmap_statusItemDel (k := k₁) hMax h hLinked (by rw [hPrio]; exact hOwner)
  have hPair₁ : (k₁.dosStatusItemDel t).SleepPair :=
    SleepPair.congr (k := k₁) hPair (onlyTask_statusItemDel k₁ t).statics
  exact bitmap_linkSleepItem (k := (k₁.dosStatusItemDel t).setWakeTime t _) hDel hPair₁

/-- A task that begins to wait leaves the bitmap in order. -/
theorem bitmap_wait (hMax : k.config.dosMaxPriorityNum ≤ 32) (h : k.BitmapOk)
    (hLinked : k.lists.Linked) (hPair : k.SleepPair) (id : PendId)
    (timeout : Nat) (hFree : k.lists.owner .pend t = none)
    (hOwner : ∀ p, k.lists.owner .status t = some (.priority p) → p = k.priority t) :
    (k.dosTaskWait t id timeout).BitmapOk := by
  let k₁ := (k.dosSetTaskStatus t Flag.suspend.mask).dosTaskItemInsert (.pend id) t
  have hBits : k₁.BitmapOk := bitmap_itemInsert (k := k.dosSetTaskStatus t _) h (by simp)
  have hPend : k₁.lists.Linked := hLinked.insert (.pend id) t hFree
  have hOwner₁ : ∀ p, k₁.lists.owner .status t = some (.priority p) → p = k₁.priority t := by
    intro p hp
    have hSame : k₁.lists.owner .status t = k.lists.owner .status t := by
      simp [k₁, dosTaskItemInsert, dosSetTaskStatus, mapTcb, ListId.kind]
    have hPrio : k₁.priority t = k.priority t := by
      simp [k₁, dosTaskItemInsert, dosSetTaskStatus, mapTcb, priority]
    rw [hSame] at hp
    rw [hPrio]
    exact hOwner p hp
  unfold dosTaskWait
  dsimp only
  split
  · unfold dosInsertTaskSleepList
    split
    · exact hBits
    · exact bitmap_insertSleepItem (k := k₁) hMax hBits hPend hPair timeout hOwner₁
  · have hPrio : (k₁.dosResetTaskStatus t Flag.ready.mask).priority t = k₁.priority t := by
      simp [dosResetTaskStatus, mapTcb, priority]
    exact bitmap_statusItemDel (k := k₁.dosResetTaskStatus t Flag.ready.mask) hMax hBits hPend
      (by rw [hPrio]; exact hOwner₁)

theorem bitmap_wake (hMax : k.config.dosMaxPriorityNum ≤ 32) (h : k.BitmapOk)
    (hLinked : k.lists.Linked) (hp : k.priority t < 32)
    (hOwner : ∀ p, k.lists.owner .status t = some (.priority p) → p = k.priority t) :
    (k.dosTaskWake t).BitmapOk := by
  let k₁ := (k.dosTaskItemDel .pend t).dosTaskItemDel .status t
  have hExcept : k₁.BitmapExcept (k.priority t) := by
    refine bitmap_itemDel_status (bitmap_itemDel_pend h hLinked) ?_
    intro p hp
    refine hOwner p ?_
    simpa [dosTaskItemDel] using hp
  let k₂ := k₁.dosResetTaskStatus t (Flag.suspend.mask ||| Flag.delay.mask)
  have hPrio : k₂.priority t = k.priority t := by
    simp [k₂, k₁, dosResetTaskStatus, dosTaskItemDel, mapTcb, priority]
  exact bitmap_insertPriorityList (k := k₂) hMax (by rw [hPrio]; exact hExcept)
    (by rw [hPrio]; exact hp)

/-- A change of priority moves the bit of a ready task. -/
theorem bitmap_setPriority (hMax : k.config.dosMaxPriorityNum ≤ 32) (h : k.BitmapOk)
    (hLinked : k.lists.Linked) {prio : Nat}
    (hp : prio < 32)
    (hOwner : ∀ p, k.lists.owner .status t = some (.priority p) → p = k.priority t) :
    (k.dosSetTaskPriority t prio).BitmapOk := by
  unfold dosSetTaskPriority
  split
  · let k₁ := ((k.dosStatusItemDel t).dosResetTaskStatus t Flag.ready.mask).mapTcb t
      fun tcb => { tcb with priority := prio }
    have hPrio : k₁.priority t = prio := by
      simp [k₁, mapTcb, priority]
    have hBits : k₁.BitmapOk := bitmap_statusItemDel hMax h hLinked hOwner
    have hConfig : k₁.config = k.config :=
      congrArg Statics.config (onlyTask_statusItemDel k t).statics
    exact bitmap_insertPriorityList (k := k₁) (by rw [hConfig]; exact hMax) (hBits.except _)
      (by rw [hPrio]; exact hp)
  · exact h

theorem bitmap_expire (hMax : k.config.dosMaxPriorityNum ≤ 32) (h : k.BitmapOk) (hp : k.priority t < 32)
    (hOwner : ∀ p, k.lists.owner .status t = some (.priority p) → p = k.priority t) :
    (k.dosExpireTask t).BitmapOk := by
  have hExcept := bitmap_itemDel_status h hOwner
  let k₁ := (k.dosTaskItemDel .status t).dosResetTaskStatus t Flag.delay.mask
  have hPrio₁ : k₁.priority t = k.priority t := by
    simp [k₁, dosResetTaskStatus, dosTaskItemDel, mapTcb, priority]
  have hPrio₂ : (k₁.dosSetTaskStatus t Flag.timeout.mask).priority t = k.priority t := by
    simp [k₁, dosSetTaskStatus, dosResetTaskStatus, dosTaskItemDel, mapTcb, priority]
  unfold dosExpireTask
  dsimp only
  split
  · exact bitmap_insertPriorityList (k := k₁.dosSetTaskStatus t Flag.timeout.mask) hMax
      (by rw [hPrio₂]; exact hExcept) (by rw [hPrio₂]; exact hp)
  · exact bitmap_insertPriorityList (k := k₁) hMax (by rw [hPrio₁]; exact hExcept)
      (by rw [hPrio₁]; exact hp)

theorem bitmap_unlink (hMax : k.config.dosMaxPriorityNum ≤ 32) (h : k.BitmapOk)
    (hLinked : k.lists.Linked)
    (hOwner : ∀ p, k.lists.owner .status t = some (.priority p) → p = k.priority t) :
    (k.dosTaskUnlink t).BitmapOk := by
  have hStatus (b : Bool) : (if b then k.dosStatusItemDel t else k).BitmapOk ∧
      (if b then k.dosStatusItemDel t else k).lists.Linked := by
    cases b with
    | false => exact ⟨h, hLinked⟩
    | true => exact ⟨bitmap_statusItemDel hMax h hLinked hOwner, linked_statusItemDel hLinked⟩
  have hPend (k : Kernel) (b : Bool) (h : k.BitmapOk ∧ k.lists.Linked) :
      (if b then k.dosTaskItemDel .pend t else k).BitmapOk := by
    cases b with
    | false => exact h.1
    | true => exact bitmap_itemDel_pend h.1 h.2
  exact hPend _ _ (hStatus _)

end Bitmap

end Kernel

namespace TaskView

/-- Flags and list items of a live task agree. -/
structure LiveOk (max : Nat) (v : TaskView) : Prop where
  clean : Flag.Clean v.status
  priority_lt : v.priority < max
  ready_iff : Flag.test v.status .ready = true ↔ v.statusOwner = some (.priority v.priority)
  delay_iff : Flag.test v.status .delay = true ↔
    v.statusOwner = some .sleep1 ∨ v.statusOwner = some .sleep2
  suspend_iff : Flag.test v.status .suspend = true ↔ ∃ id, v.pendOwner = some (.pend id)
  owner : v.statusOwner = none ∨ v.statusOwner = some (.priority v.priority) ∨
    v.statusOwner = some .sleep1 ∨ v.statusOwner = some .sleep2

/-- A control block that is no live task is free and on no list, or deleted
and on the recycle list. -/
structure DeadOk (v : TaskView) : Prop where
  owner : v.alloc = false ∧ v.statusOwner = none ∨
    v.alloc = true ∧ v.status = Flag.unused.mask ∧ v.statusOwner = some .recycle
  pend : v.pendOwner = none

section Build

variable {max : Nat} {v : TaskView} (hClean : Flag.Clean v.status) (hPrio : v.priority < max)
  (hSuspend : Flag.test v.status .suspend = true ↔ ∃ id, v.pendOwner = some (.pend id))

include hClean hPrio hSuspend

/-- A ready task is on the ready list of its priority. -/
theorem liveOk_ready (hReady : Flag.test v.status .ready = true)
    (hDelay : Flag.test v.status .delay = false)
    (hOwner : v.statusOwner = some (.priority v.priority)) : LiveOk max v where
  clean := hClean
  priority_lt := hPrio
  ready_iff := by simp [hReady, hOwner]
  delay_iff := by simp [hDelay, hOwner]
  suspend_iff := hSuspend
  owner := Or.inr (Or.inl hOwner)

theorem liveOk_asleep (hReady : Flag.test v.status .ready = false)
    (hDelay : Flag.test v.status .delay = true)
    (hOwner : v.statusOwner = some .sleep1 ∨ v.statusOwner = some .sleep2) : LiveOk max v where
  clean := hClean
  priority_lt := hPrio
  ready_iff := by rcases hOwner with h | h <;> simp [hReady, h]
  delay_iff := by simp [hDelay, hOwner]
  suspend_iff := hSuspend
  owner := Or.inr (Or.inr hOwner)

theorem liveOk_blocked (hReady : Flag.test v.status .ready = false)
    (hDelay : Flag.test v.status .delay = false) (hOwner : v.statusOwner = none) :
    LiveOk max v where
  clean := hClean
  priority_lt := hPrio
  ready_iff := by simp [hReady, hOwner]
  delay_iff := by simp [hDelay, hOwner]
  suspend_iff := hSuspend
  owner := Or.inl hOwner

end Build

/-- A ready task is not delayed. -/
theorem LiveOk.not_delay {max : Nat} {v : TaskView} (h : LiveOk max v)
    (hReady : Flag.test v.status .ready = true) : Flag.test v.status .delay = false := by
  have hOwner := h.ready_iff.mp hReady
  cases hDelay : Flag.test v.status .delay with
  | false => rfl
  | true =>
      rcases h.delay_iff.mp hDelay with hs | hs
      · rw [hOwner] at hs
        cases hs
      · rw [hOwner] at hs
        cases hs

end TaskView

namespace Kernel

theorem live_congr {k k' : Kernel} {t : TaskId} (h : k'.view t = k.view t) :
    k'.Live t ↔ k.Live t := by
  have hAlloc : k'.alloc t = k.alloc t := congrArg TaskView.alloc h
  have hStatus : (k'.tcb t).taskStatus = (k.tcb t).taskStatus := congrArg TaskView.status h
  simp only [Live, is, hAlloc, hStatus]

theorem Live.of_view {k k' : Kernel} {t : TaskId} (h : k.Live t)
    (hAlloc : (k'.view t).alloc = (k.view t).alloc)
    (hUnused : Flag.test (k'.view t).status .unused = Flag.test (k.view t).status .unused) :
    k'.Live t :=
  ⟨hAlloc.trans h.1, hUnused.trans h.2⟩

/-- The inductive invariant behind membership. The bitmap is covered for
configurations that keep it in one word. -/
structure Membership (cfg : Config) (k : Kernel) : Prop where
  config : k.config = cfg
  linked : k.lists.Linked
  pair : k.SleepPair
  bitmap : cfg.dosMaxPriorityNum ≤ 32 → k.BitmapOk
  live : ∀ t, k.Live t → (k.view t).LiveOk cfg.dosMaxPriorityNum
  dead : ∀ t, ¬k.Live t → (k.view t).DeadOk

namespace Membership

variable {cfg : Config} {k k' : Kernel} {t : TaskId}

theorem congr (h : Membership cfg k) (hConfig : k'.config = k.config)
    (hView : ∀ x, k'.view x = k.view x) (hLinked : k'.lists.Linked) (hPair : k'.SleepPair)
    (hBitmap : k.BitmapOk → k'.BitmapOk) : Membership cfg k' := by
  refine ⟨hConfig.trans h.config, hLinked, hPair, fun hMax => hBitmap (h.bitmap hMax), ?_, ?_⟩
  · intro x hx
    rw [hView]
    exact h.live x ((live_congr (hView x)).mp hx)
  · intro x hx
    rw [hView]
    exact h.dead x (fun hl => hx ((live_congr (hView x)).mpr hl))

/-- A change of one task has to be checked on that task only. -/
theorem update (h : Membership cfg k) (hConfig : k'.config = k.config)
    (hView : ∀ x, x ≠ t → k'.view x = k.view x) (hPair : k'.SleepPair)
    (hLinked : k'.lists.Linked)
    (hBitmap : cfg.dosMaxPriorityNum ≤ 32 → k'.BitmapOk)
    (hLive : k'.Live t → (k'.view t).LiveOk cfg.dosMaxPriorityNum)
    (hDead : ¬k'.Live t → (k'.view t).DeadOk) : Membership cfg k' := by
  refine ⟨hConfig.trans h.config, hLinked, hPair, hBitmap, ?_, ?_⟩
  · intro x hx
    by_cases hEq : x = t
    · subst hEq
      exact hLive hx
    · rw [hView x hEq]
      exact h.live x ((live_congr (hView x hEq)).mp hx)
  · intro x hx
    by_cases hEq : x = t
    · subst hEq
      exact hDead hx
    · rw [hView x hEq]
      exact h.dead x (fun hl => hx ((live_congr (hView x hEq)).mpr hl))

/-- The common case of `update`: one operation on a task that stays live. -/
theorem of_onlyTask (h : Membership cfg k) (hOnly : OnlyTask t k k') (hLinked : k'.lists.Linked)
    (hBitmap : cfg.dosMaxPriorityNum ≤ 32 → k'.BitmapOk) (hStays : k'.Live t)
    (hOk : (k'.view t).LiveOk cfg.dosMaxPriorityNum) : Membership cfg k' :=
  h.update (congrArg Statics.config hOnly.statics) (fun _ hx => hOnly.view hx)
    (h.pair.congr hOnly.statics) hLinked hBitmap
    (fun _ => hOk) (fun hDead => absurd hStays hDead)

/-- A live task's status item is on no ready list but its own. -/
theorem ready_owner (h : Membership cfg k) (hLive : k.Live t) (p : Nat)
    (hOwner : k.lists.owner .status t = some (.priority p)) : p = k.priority t := by
  have hv : (k.view t).statusOwner = some (.priority p) := hOwner
  rcases (h.live t hLive).owner with hn | hr | hs | hs
  · rw [hv] at hn
    cases hn
  · rw [hv] at hr
    cases hr
    rfl
  · rw [hv] at hs
    cases hs
  · rw [hv] at hs
    cases hs

/-- A live task that is not suspended is on no pend list. -/
theorem pend_owner (h : Membership cfg k) (hLive : k.Live t) (hSuspend : k.is t .suspend = false) :
    k.lists.owner .pend t = none := by
  cases hOwner : k.lists.owner .pend t with
  | none => rfl
  | some l =>
      have hKind := h.linked.kind .pend t l hOwner
      cases l with
      | pend id =>
          have hSet : k.is t .suspend = true := (h.live t hLive).suspend_iff.mpr ⟨id, hOwner⟩
          rw [hSuspend] at hSet
          cases hSet
      | priority p => cases hKind
      | sleep1 => cases hKind
      | sleep2 => cases hKind
      | recycle => cases hKind

/-- Only live tasks are on a ready list or a sleep list. -/
theorem live_of_owner (h : Membership cfg k) {l : ListId}
    (hOwner : k.lists.owner .status t = some l) (hl : l ≠ .recycle) : k.Live t := by
  by_contra hDead
  have hv : (k.view t).statusOwner = some l := hOwner
  rcases (h.dead t hDead).owner with ⟨_, hn⟩ | ⟨_, _, hr⟩
  · rw [hv] at hn
    cases hn
  · rw [hv] at hr
    exact hl (Option.some.inj hr)

theorem one_word (h : Membership cfg k) (hMax : cfg.dosMaxPriorityNum ≤ 32) :
    k.config.dosMaxPriorityNum ≤ 32 := by
  rw [h.config]
  exact hMax

theorem priority_lt (h : Membership cfg k) (hMax : cfg.dosMaxPriorityNum ≤ 32) (hLive : k.Live t) :
    k.priority t < 32 :=
  Nat.lt_of_lt_of_le (h.live t hLive).priority_lt hMax

section Operations

variable (h : Membership cfg k) (hLive : k.Live t)

include h hLive

/-- `dos_task_wake` of a live task keeps the invariant. -/
theorem wake : Membership cfg (k.dosTaskWake t) := by
  have hOk := h.live t hLive
  refine h.of_onlyTask (onlyTask_wake k t) (linked_wake h.linked)
    (fun hMax => bitmap_wake (h.one_word hMax) (h.bitmap hMax) h.linked (h.priority_lt hMax hLive)
      (h.ready_owner hLive)) ?_ ?_
  · exact hLive.of_view (by simp) (by simp)
  · rw [view_wake]
    exact TaskView.liveOk_ready ((hOk.clean.reset _).or (Flag.clean_mask _)) hOk.priority_lt
      (by simp) (by simp) (by simp) rfl

theorem expire : Membership cfg (k.dosExpireTask t) := by
  have hOk := h.live t hLive
  have hView := view_expire k t
  refine h.of_onlyTask (onlyTask_expire k t) (linked_expire h.linked)
    (fun hMax => bitmap_expire (h.one_word hMax) (h.bitmap hMax) (h.priority_lt hMax hLive)
      (h.ready_owner hLive)) ?_ ?_
  · refine hLive.of_view (by rw [hView]) ?_
    rw [hView]
    split <;> simp
  · rw [hView]
    have hSuspend := hOk.suspend_iff
    split
    · exact TaskView.liveOk_ready
        (((hOk.clean.reset _).or (Flag.clean_mask _)).or (Flag.clean_mask _)) hOk.priority_lt
        (by simpa using hSuspend) (by simp) (by simp) rfl
    · exact TaskView.liveOk_ready ((hOk.clean.reset _).or (Flag.clean_mask _)) hOk.priority_lt
        (by simpa using hSuspend) (by simp) (by simp) rfl

/-- `dos_set_task_priority` to a priority of the configuration keeps it too. -/
theorem setPriority {prio : Nat} (hPrio : prio < cfg.dosMaxPriorityNum) :
    Membership cfg (k.dosSetTaskPriority t prio) := by
  have hOk := h.live t hLive
  have hView := view_setPriority k t prio
  refine h.of_onlyTask (onlyTask_setPriority k t prio) (linked_setPriority h.linked prio)
    (fun hMax => bitmap_setPriority (h.one_word hMax) (h.bitmap hMax) h.linked
      (Nat.lt_of_lt_of_le hPrio hMax) (h.ready_owner hLive)) ?_ ?_
  · refine hLive.of_view ?_ ?_
    · rw [hView]
      split <;> rfl
    · rw [hView]
      split <;> simp
  · rw [hView]
    split
    · rename_i hReady
      have hDelay := hOk.not_delay hReady
      exact TaskView.liveOk_ready ((hOk.clean.reset _).or (Flag.clean_mask _)) hPrio
        (by simpa using hOk.suspend_iff) (by simp) (by simpa using hDelay) rfl
    · rename_i hReady
      have hNot : Flag.test (k.view t).status .ready = false := by
        show k.is t .ready = false
        simpa using hReady
      -- a task that is not ready keeps its place, whatever its priority becomes
      rcases hOk.owner with hn | hr | hs
      · have hDelay : Flag.test (k.view t).status .delay = false := by
          simpa [hn] using hOk.delay_iff
        exact TaskView.liveOk_blocked hOk.clean hPrio hOk.suspend_iff hNot hDelay hn
      · rw [hOk.ready_iff.mpr hr] at hNot
        cases hNot
      · exact TaskView.liveOk_asleep hOk.clean hPrio hOk.suspend_iff hNot
          (hOk.delay_iff.mpr hs) hs

theorem timeoutCleanUp (hReady : k.is t .ready = true) :
    Membership cfg (k.dosTimeoutCleanUp t) := by
  have hOk := h.live t hLive
  have hDelay := hOk.not_delay hReady
  refine h.of_onlyTask (onlyTask_timeoutCleanUp k t) (linked_timeoutCleanUp h.linked)
    (fun hMax => bitmap_itemDel_pend (h.bitmap hMax) h.linked) ?_ ?_
  · exact hLive.of_view (by simp) (by simp)
  · rw [view_timeoutCleanUp]
    exact TaskView.liveOk_ready ((hOk.clean.reset _).or (Flag.clean_mask _)) hOk.priority_lt
      (by simp) (by simp) (by simpa using hDelay) (hOk.ready_iff.mp hReady)

theorem insertSleepList (hIdle : k.dosIdleTask ≠ some t) (n : Nat) :
    Membership cfg (k.dosInsertTaskSleepList t n) := by
  have hOk := h.live t hLive
  have hView := view_insertSleepItem k t n h.pair
  rw [dosInsertTaskSleepList, if_neg hIdle]
  refine h.of_onlyTask (onlyTask_insertSleepItem k t n) (linked_insertSleepItem h.linked h.pair n)
    (fun hMax => bitmap_insertSleepItem (h.one_word hMax) (h.bitmap hMax) h.linked h.pair n
      (h.ready_owner hLive)) ?_ ?_
  · exact hLive.of_view (by rw [hView]) (by rw [hView]; simp)
  · rw [hView]
    exact TaskView.liveOk_asleep ((hOk.clean.reset _).or (Flag.clean_mask _)) hOk.priority_lt
      (by simpa using hOk.suspend_iff) (by simp) (by simp) (by simpa using h.pair.target n)

/-- `dos_task_wait` of a ready task that is not suspended keeps the invariant. -/
theorem wait (hIdle : k.dosIdleTask ≠ some t) (hSuspend : k.is t .suspend = false)
    (hReady : k.is t .ready = true) (id : PendId) (timeout : Nat) :
    Membership cfg (k.dosTaskWait t id timeout) := by
  have hOk := h.live t hLive
  have hDelay := hOk.not_delay hReady
  have hFree := h.pend_owner hLive hSuspend
  have hView := view_wait k t id timeout h.pair hIdle
  refine h.of_onlyTask (onlyTask_wait k t id timeout) (linked_wait h.linked h.pair id timeout hFree)
    (fun hMax => bitmap_wait (h.one_word hMax) (h.bitmap hMax) h.linked h.pair id timeout hFree
      (h.ready_owner hLive)) ?_ ?_
  · refine hLive.of_view ?_ ?_
    · rw [hView]
      split <;> rfl
    · rw [hView]
      split <;> simp
  · rw [hView]
    split
    · exact TaskView.liveOk_asleep
        (((hOk.clean.or (Flag.clean_mask _)).reset _).or (Flag.clean_mask _)) hOk.priority_lt
        (by simp) (by simp) (by simp) (by simpa using h.pair.target timeout)
    · exact TaskView.liveOk_blocked ((hOk.clean.or (Flag.clean_mask _)).reset _) hOk.priority_lt
        (by simp) (by simp) (by simpa using hDelay) rfl

theorem unlink_view : (k.dosTaskUnlink t).view t = { k.view t with
    status := Flag.unused.mask, statusOwner := none, pendOwner := none } := by
  have hOk := h.live t hLive
  have hStatus : (if k.is t .delay || k.is t .ready then none else (k.view t).statusOwner) = none := by
    split
    · rfl
    · rename_i hFlags
      simp only [Bool.or_eq_true, not_or] at hFlags
      rcases hOk.owner with hn | hr | hs
      · exact hn
      · exact absurd (hOk.ready_iff.mpr hr) hFlags.2
      · exact absurd (hOk.delay_iff.mpr hs) hFlags.1
  have hPend : (if k.is t .suspend then none else (k.view t).pendOwner) = none := by
    split
    · rfl
    · rename_i hSuspend
      exact h.pend_owner hLive (by simpa using hSuspend)
  rw [view_unlink, hStatus, hPend, hOk.clean.unused]

/-- Deleting another task gives its control block back to the heap. -/
theorem unlink_free : Membership cfg ((k.dosTaskUnlink t).freeTcb t) := by
  have hView := h.unlink_view hLive
  have hOnly := onlyTask_unlink k t
  refine h.update (t := t) (congrArg Statics.config hOnly.statics) ?_
    (h.pair.congr hOnly.statics) (linked_unlink h.linked)
    (fun hMax => bitmap_unlink (h.one_word hMax) (h.bitmap hMax) h.linked (h.ready_owner hLive)) ?_ ?_
  · intro x hx
    rw [view_freeTcb_of_ne _ _ hx, hOnly.view hx]
  · intro hNew
    have hSet : (((k.dosTaskUnlink t).freeTcb t).view t).alloc = true := hNew.1
    simp at hSet
  · intro _
    rw [view_freeTcb, hView]
    exact ⟨Or.inl ⟨rfl, rfl⟩, rfl⟩

/-- A task that deletes itself waits on the recycle list. -/
theorem unlink_recycle : Membership cfg ((k.dosTaskUnlink t).dosTaskItemInsert .recycle t) := by
  have hView := h.unlink_view hLive
  have hOnly := onlyTask_unlink k t
  have hNew : ((k.dosTaskUnlink t).dosTaskItemInsert .recycle t).view t = { k.view t with
      status := Flag.unused.mask, statusOwner := some .recycle, pendOwner := none } := by
    rw [view_itemInsert_status _ _ rfl, hView]
  have hFree : (k.dosTaskUnlink t).lists.owner .status t = none :=
    congrArg TaskView.statusOwner hView
  refine h.update (t := t) (congrArg Statics.config hOnly.statics) ?_
    (h.pair.congr hOnly.statics) ((linked_unlink h.linked).insert .recycle t hFree)
    (fun hMax => bitmap_itemInsert
      (bitmap_unlink (h.one_word hMax) (h.bitmap hMax) h.linked (h.ready_owner hLive)) (by simp)) ?_ ?_
  · intro x hx
    exact (hOnly.trans (onlyTask_itemInsert _ t _)).view hx
  · intro hStays
    have hUnused : Flag.test (((k.dosTaskUnlink t).dosTaskItemInsert .recycle t).view t).status
        .unused = false := hStays.2
    rw [hNew] at hUnused
    simp at hUnused
  · intro _
    rw [hNew]
    exact ⟨Or.inr ⟨hLive.1, rfl, rfl⟩, rfl⟩

omit hLive in
/-- A deleted block is told by its status. -/
theorem live_of_used (hAlloc : k.alloc t = true)
    (hUsed : (k.tcb t).taskStatus ≠ Flag.unused.mask) : k.Live t := by
  by_contra hDead
  rcases (h.dead t hDead).owner with ⟨hFree, _⟩ | ⟨_, hStatus, _⟩
  · have hNot : k.alloc t = false := hFree
    rw [hAlloc] at hNot
    cases hNot
  · exact hUsed hStatus

omit hLive in
/-- A second deletion of the same block is refused. -/
theorem delete (hAlloc : k.alloc t = true) : Membership cfg (k.dosTaskDelete t).1 := by
  unfold dosTaskDelete
  split
  · exact h
  · rename_i hUsed
    have hLive := h.live_of_used hAlloc hUsed
    split
    · exact h
    · split
      · exact h.unlink_free hLive
      · exact h.unlink_recycle hLive

end Operations

section Clock

variable (h : Membership cfg k)

include h

/-- Moving a cursor changes no membership. -/
theorem getFirstTask (l : ListId) : Membership cfg (k.dosGetFirstTask l).1 := by
  refine h.congr rfl (fun _ => rfl) (h.linked.first l) h.pair ?_
  intro hBitmap p
  show (k.dosTaskPriority 0).getLsbD p = true ↔ (k.lists.dosGetFirstTask l).1.items _ ≠ []
  rw [TaskLists.first_items]
  exact hBitmap p

theorem recycle_free (hOwner : k.lists.owner .status t = some .recycle) :
    Membership cfg ((k.dosTaskItemDel .status t).freeTcb t) := by
  have hOnly := onlyTask_itemDel k t .status
  have hBitmap : cfg.dosMaxPriorityNum ≤ 32 → (k.dosTaskItemDel .status t).BitmapOk := by
    intro hMax p
    have hExcept := bitmap_itemDel_status (t := t) (q := p + 1) (h.bitmap hMax) (by simp [hOwner])
    exact hExcept p (by omega)
  refine h.update (t := t) rfl ?_ h.pair (h.linked.del .status t) hBitmap ?_ ?_
  · intro x hx
    rw [view_freeTcb_of_ne _ _ hx, hOnly.view hx]
  · intro hNew
    have hSet : (((k.dosTaskItemDel .status t).freeTcb t).view t).alloc = true := hNew.1
    simp at hSet
  · intro _
    have hDead : ¬k.Live t := by
      intro hLive
      rcases (h.live t hLive).owner with hv | hv | hv | hv
      all_goals
        have hSame : k.lists.owner .status t = _ := hv
        rw [hOwner] at hSame
        cases hSame
    rw [view_freeTcb, view_itemDel_status]
    exact ⟨Or.inl ⟨rfl, rfl⟩, (h.dead t hDead).pend⟩

/-- The idle task frees a deleted task, which is on no other list. -/
theorem idleRecycle : Membership cfg k.dosIdleRecycle := by
  unfold dosIdleRecycle
  split
  · exact h
  · have hFirst := h.getFirstTask .recycle
    split
    · rename_i k₁ t hHead
      have hk : k₁ = (k.dosGetFirstTask .recycle).1 := by rw [hHead]
      have ht : (k.lists.items .recycle).head? = some t := congrArg Prod.snd hHead
      subst hk
      exact hFirst.recycle_free ((h.linked.mem_iff .recycle t).mp (List.mem_of_head? ht))
    · rename_i k₁ hHead
      have hk : k₁ = (k.dosGetFirstTask .recycle).1 := by rw [hHead]
      subst hk
      exact hFirst

theorem sameTasks (hSame : SameTasks k k') : Membership cfg k' := by
  refine h.congr (congrArg Statics.config hSame.statics) hSame.view ?_
    (h.pair.congr hSame.statics) ?_
  · rw [hSame.lists]
    exact h.linked
  · intro hBitmap p
    rw [hSame.dosTaskPriority, hSame.lists]
    exact hBitmap p

theorem setNextWakeTick (n : Nat) : Membership cfg (k.setNextWakeTick n) :=
  h.congr rfl (fun _ => rfl) h.linked h.pair id

theorem tickAdvance : Membership cfg k.dosTickAdvance :=
  tickAdvance_rule (fun n hk => hk.setNextWakeTick n) (fun hk => hk.getFirstTask _)
    (fun hk => hk.congr rfl (fun _ => rfl) hk.linked hk.pair id)
    (fun hk => hk.congr rfl (fun _ => rfl) hk.linked (hk.pair.symm.imp And.symm And.symm) id) h

theorem tickNotify (notify : Option TaskId) (hNotify : ∀ t, notify = some t → k.Live t) :
    Membership cfg (k.dosTickNotify notify) := by
  unfold dosTickNotify
  cases hTarget : notify with
  | none => exact h
  | some t =>
      dsimp only
      split
      · exact h.wake (hNotify t hTarget)
      · exact h

theorem tickTimeouts : Membership cfg k.dosTickTimeouts := by
  refine tickTimeouts_rule (fun n hk => hk.setNextWakeTick n) (fun hk => hk.getFirstTask _) ?_ h
  intro k t hk hHead
  have hOwner := (hk.linked.mem_iff _ t).mp (List.mem_of_head? hHead)
  rw [hk.pair.kind.1] at hOwner
  have hNot : k.dosTaskSleepList ≠ .recycle := by
    rcases hk.pair with ⟨hs, _⟩ | ⟨hs, _⟩ <;> rw [hs] <;> simp
  exact hk.expire (hk.live_of_owner hOwner hNot)

/-- A tick keeps the invariant, with or without a message to the timer task. -/
theorem tickUpdate (notify : Option TaskId)
    (hNotify : ∀ t, notify = some t → k.dosTickAdvance.Live t) :
    Membership cfg (k.dosTickUpdate notify) :=
  (h.tickAdvance.tickNotify notify hNotify).tickTimeouts.sameTasks (sameTasks_scheduler _)

end Clock

/-- A creation in a zeroed block adds a live task. -/
theorem create (h : Membership cfg k) {prio : Nat} (tick : Nat) (hFree : k.alloc t = false)
    (hZero : (k.tcb t).taskStatus = 0) (hPrio : prio < cfg.dosMaxPriorityNum)
    (hWord : prio < 2 ^ 16) :
    Membership cfg ((k.dosInitTcb t prio tick).dosInsertTaskPriorityList t) := by
  have hDead : ¬k.Live t := by
    intro hLive
    have hSet := hLive.1
    rw [hFree] at hSet
    cases hSet
  have hStatus : k.lists.owner .status t = none := by
    rcases (h.dead t hDead).owner with ⟨_, hn⟩ | ⟨hAlloc, _⟩
    · exact hn
    · have hSet : k.alloc t = true := hAlloc
      rw [hFree] at hSet
      cases hSet
  have hPend : k.lists.owner .pend t = none := (h.dead t hDead).pend
  have hPrioEq : (k.dosInitTcb t prio tick).priority t = prio := by
    simp [dosInitTcb, priority]
  have hOwner : (k.dosInitTcb t prio tick).lists.owner .status t = none := by
    simp [dosInitTcb, TaskLists.dosTaskItemInit]
  have hInit : (k.dosInitTcb t prio tick).view t =
      { alloc := true, status := 0, priority := prio, statusOwner := none, pendOwner := none } := by
    simp [view, dosInitTcb, priority, TaskLists.dosTaskItemInit, hZero]
  have hView := view_insertPriorityList (k.dosInitTcb t prio tick) t
  rw [hInit] at hView
  refine h.update (t := t) rfl ?_ h.pair
    (linked_insertPriorityList (linked_initTcb h.linked hStatus hPend tick (by omega)) hOwner)
    (fun hMax => bitmap_insertPriorityList (h.one_word hMax) ?_ (by omega)) ?_ ?_
  · intro x hx
    rw [(onlyTask_insertPriorityList _ t).view hx]
    simp [view, dosInitTcb, priority, TaskLists.dosTaskItemInit, hx]
  · intro p _
    exact h.bitmap hMax p
  · intro _
    rw [hView]
    exact TaskView.liveOk_ready (Flag.clean_zero.or (Flag.clean_mask _)) hPrio (by simp) (by simp)
      (by simp) rfl
  · intro hNot
    refine absurd ⟨?_, ?_⟩ hNot
    · exact congrArg TaskView.alloc hView
    · show Flag.test (((k.dosInitTcb t prio tick).dosInsertTaskPriorityList t).view t).status
        .unused = false
      rw [hView]
      simp

end Membership

end Kernel

end DoraOS
