import DoraOS.Timer.Swtmr

/-! The lists of running timers. Only the timer task changes them, by a few
operations, and these keep every running timer in exactly one list, in the
order of the wake times. -/
namespace DoraOS

namespace Timers

variable {s s' s₁ : Timers} {t x : SwtmrId}

def wakeTime (s : Timers) (t : SwtmrId) : Nat := (s.swtmr t).swtmrWakeTime

@[simp] theorem setSwtmr_self (y : Swtmr) : (s.setSwtmr t y).swtmr t = y := if_pos rfl

theorem setSwtmr_ne (y : Swtmr) (h : x ≠ t) : (s.setSwtmr t y).swtmr x = s.swtmr x := if_neg h

/-- `t` joins a list whose keys are at most `0xFFFFFFFF`. -/
structure Joins (key : SwtmrId → Nat) (t : SwtmrId) (l l' : List SwtmrId) : Prop where
  perm : l'.Perm (t :: l)
  sorted : (∀ x ∈ l, key x ≤ 0xFFFFFFFF) → KeyOrder.Sorted key l → KeyOrder.Sorted key l'

theorem joins_insert (key : SwtmrId → Nat) (t : SwtmrId) (l : List SwtmrId) :
    Joins key t l (KeyOrder.insert key t l) where
  perm := List.perm_orderedInsert _ t l
  sorted _ h := h.insert

theorem joins_append {key : SwtmrId → Nat} {t : SwtmrId} (hKey : key t = 0xFFFFFFFF)
    (l : List SwtmrId) : Joins key t l (l ++ [t]) where
  perm := List.perm_append_singleton t l
  sorted hMax h := h.append_max fun x hx => (hMax x hx).trans hKey.ge

section Start

/-- Apart from the timer itself, a start changes the two lists only. -/
theorem dosSwtmrStart_eq (s : Timers) (t : SwtmrId) : ∃ ptr overflow, s.dosSwtmrStart t =
    { s.setSwtmr t (s.started t) with swtmrPtr := ptr, swtmrOverflowPtr := overflow } := by
  simp only [dosSwtmrStart]
  split
  · exact ⟨_, _, rfl⟩
  · split <;> exact ⟨_, _, rfl⟩

theorem dosSwtmrStart_swtmr (s : Timers) (t : SwtmrId) :
    (s.dosSwtmrStart t).swtmr = (s.setSwtmr t (s.started t)).swtmr := by
  obtain ⟨ptr, overflow, hEq⟩ := dosSwtmrStart_eq s t
  rw [hEq]

theorem dosSwtmrStart_alloc (s : Timers) (t : SwtmrId) :
    (s.dosSwtmrStart t).alloc = s.alloc := by
  obtain ⟨ptr, overflow, hEq⟩ := dosSwtmrStart_eq s t
  rw [hEq]
  rfl

theorem dosSwtmrStart_self (s : Timers) (t : SwtmrId) :
    (s.dosSwtmrStart t).swtmr t = s.started t := by
  rw [dosSwtmrStart_swtmr, setSwtmr_self]

theorem dosSwtmrStart_ne (s : Timers) (h : x ≠ t) :
    (s.dosSwtmrStart t).swtmr x = s.swtmr x := by
  rw [dosSwtmrStart_swtmr, setSwtmr_ne _ h]

/-- A started timer joins the overflow list if its wake time lies behind the
next wrap, and the other list if not. -/
theorem dosSwtmrStart_joins (s : Timers) (t : SwtmrId) :
    ((s.started t).swtmrWakeTime < s.dosGetTick ∧
      (s.dosSwtmrStart t).swtmrPtr = s.swtmrPtr ∧
      Joins (s.dosSwtmrStart t).wakeTime t s.swtmrOverflowPtr
        (s.dosSwtmrStart t).swtmrOverflowPtr) ∨
    (s.dosGetTick ≤ (s.started t).swtmrWakeTime ∧
      (s.dosSwtmrStart t).swtmrOverflowPtr = s.swtmrOverflowPtr ∧
      Joins (s.dosSwtmrStart t).wakeTime t s.swtmrPtr (s.dosSwtmrStart t).swtmrPtr) := by
  have hKey : (s.dosSwtmrStart t).wakeTime =
      fun x => ((s.setSwtmr t (s.started t)).swtmr x).swtmrWakeTime := by
    funext x
    rw [wakeTime, dosSwtmrStart_swtmr]
  rw [hKey]
  unfold dosSwtmrStart
  by_cases hWrap : (s.started t).swtmrWakeTime < s.dosGetTick
  · left
    simp only [if_pos hWrap]
    exact ⟨hWrap, rfl, joins_insert _ _ _⟩
  · right
    simp only [if_neg hWrap]
    by_cases hLast : (s.started t).swtmrWakeTime = 0xFFFFFFFF
    · rw [if_pos hLast]
      exact ⟨by omega, rfl, joins_append (by simpa using hLast) _⟩
    · rw [if_neg hLast]
      exact ⟨by omega, rfl, joins_insert _ _ _⟩

theorem dosSwtmrStart_perm (s : Timers) (t : SwtmrId) :
    ((s.dosSwtmrStart t).swtmrPtr ++ (s.dosSwtmrStart t).swtmrOverflowPtr).Perm
      (t :: (s.swtmrPtr ++ s.swtmrOverflowPtr)) := by
  rcases dosSwtmrStart_joins s t with ⟨-, hPtr, hJoins⟩ | ⟨-, hOverflow, hJoins⟩
  · rw [hPtr]
    exact (hJoins.perm.append_left _).trans List.perm_middle
  · rw [hOverflow]
    exact hJoins.perm.append_right _

end Start

/-- The operations of the timer task on the timers, apart from the exchange of
the lists: a timer that is not running is started, a running one is stopped,
and one that is not running is freed. -/
inductive Edited (s : Timers) : Timers → Prop where
  | refl : Edited s s
  | start {s₁ : Timers} {t : SwtmrId} (prior : Edited s s₁)
      (hUsed : (s₁.swtmr t).swtmrStatus ≠ .unused)
      (hIdle : (s₁.swtmr t).swtmrStatus ≠ .running) : Edited s (s₁.dosSwtmrStart t)
  | stop {s₁ : Timers} {t : SwtmrId} (prior : Edited s s₁)
      (hRunning : (s₁.swtmr t).swtmrStatus = .running) : Edited s (s₁.dosSwtmrStop t)
  | free {s₁ : Timers} {t : SwtmrId} (prior : Edited s s₁)
      (hIdle : (s₁.swtmr t).swtmrStatus ≠ .running) : Edited s (s₁.freeSwtmr t)

@[simp] theorem dosSwtmrStop_status :
    ((s.dosSwtmrStop t).swtmr t).swtmrStatus = .stop := by
  simp [dosSwtmrStop, setSwtmr]

theorem dosSwtmrStop_wakeTime : (s.dosSwtmrStop t).wakeTime = s.wakeTime := by
  funext x
  by_cases hx : x = t
  · subst hx
    simp [wakeTime, dosSwtmrStop]
  · rw [wakeTime, show (s.dosSwtmrStop t).swtmr x = s.swtmr x from setSwtmr_ne _ hx, wakeTime]

theorem Edited.restart (h : Edited s s₁) (hRunning : (s₁.swtmr t).swtmrStatus = .running) :
    Edited s ((s₁.dosSwtmrStop t).dosSwtmrStart t) :=
  (h.stop hRunning).start (by simp) (by simp)

theorem Edited.remove (h : Edited s s₁) (hRunning : (s₁.swtmr t).swtmrStatus = .running) :
    Edited s ((s₁.dosSwtmrStop t).freeSwtmr t) :=
  (h.stop hRunning).free (by simp)

theorem edited_dosSwtmrDelete (s : Timers) (t : SwtmrId) : Edited s (s.dosSwtmrDelete t) := by
  unfold dosSwtmrDelete
  split
  next => exact Edited.refl
  next h => exact Edited.refl.free (by simp [h])
  next h => exact Edited.refl.free (by simp [h])
  next h => exact Edited.refl.remove h

/-- A command on a timer. -/
theorem edited_dosSwtmrCmdHandle (s : Timers) (t : SwtmrId) {op : SwtmrOption}
    (hOp : op ≠ .overflow) : Edited s (s.dosSwtmrCmdHandle ⟨op, some t⟩) := by
  unfold dosSwtmrCmdHandle
  by_cases hUsed : (s.swtmr t).swtmrStatus = .unused
  · simp only [if_pos hUsed]
    exact Edited.refl
  simp only [if_neg hUsed]
  cases op with
  | start =>
      by_cases hRunning : (s.swtmr t).swtmrStatus = .running
      · simp only [if_pos hRunning]
        exact Edited.refl.restart hRunning
      · simp only [if_neg hRunning]
        exact Edited.refl.start hUsed hRunning
  | stop =>
      by_cases hRunning : (s.swtmr t).swtmrStatus = .running
      · simp only [if_pos hRunning]
        exact Edited.refl.stop hRunning
      · simp only [if_neg hRunning]
        exact Edited.refl
  | delete => exact edited_dosSwtmrDelete s t
  | overflow => exact absurd rfl hOp

/-- A command edits the lists, or it is the exchange of them. -/
theorem dosSwtmrCmdHandle_cases (s : Timers) (msg : SwtmrMsg) :
    Edited s (s.dosSwtmrCmdHandle msg) ∨
      msg.swtmrOpt = .overflow ∧ s.dosSwtmrCmdHandle msg = s.dosSwtmrSwitchPtr := by
  obtain ⟨op, target⟩ := msg
  by_cases hOp : op = .overflow
  · subst hOp
    cases target with
    | none =>
        by_cases hNull : s.nullUnused = true
        · exact Or.inl (by simp [dosSwtmrCmdHandle, hNull, Edited.refl])
        · exact Or.inr ⟨rfl, by simp [dosSwtmrCmdHandle, hNull]⟩
    | some t =>
        by_cases hUsed : (s.swtmr t).swtmrStatus = .unused
        · exact Or.inl (by simp [dosSwtmrCmdHandle, hUsed, Edited.refl])
        · exact Or.inr ⟨rfl, by simp [dosSwtmrCmdHandle, hUsed]⟩
  · left
    cases target with
    | none =>
        have hSame : s.dosSwtmrCmdHandle ⟨op, none⟩ = s := by
          cases op with
          | overflow => exact absurd rfl hOp
          | _ => simp [dosSwtmrCmdHandle]
        rw [hSame]
        exact Edited.refl
    | some t => exact edited_dosSwtmrCmdHandle s t hOp

/-- The end of an expiry. -/
theorem edited_dosSwtmrTimeoutHandle (hRunning : (s.swtmr t).swtmrStatus = .running) :
    Edited s (s.dosSwtmrTimeoutHandle t) := by
  unfold dosSwtmrTimeoutHandle
  split
  · exact Edited.refl.restart hRunning
  · simp only [dosSwtmrDelete, dosSwtmrStop_status]
    exact Edited.refl.remove hRunning

/-- Everything but the timers and their lists. -/
structure SameQueue (s s' : Timers) : Prop where
  now : s'.now = s.now
  made : s'.made = s.made
  msgs : s'.msgs = s.msgs
  readCount : s'.readCount = s.readCount
  writeCount : s'.writeCount = s.writeCount
  writers : s'.writers = s.writers
  pc : s'.pc = s.pc
  nullUnused : s'.nullUnused = s.nullUnused

theorem SameQueue.trans (h : SameQueue s s₁) (h' : SameQueue s₁ s') : SameQueue s s' where
  now := h'.now.trans h.now
  made := h'.made.trans h.made
  msgs := h'.msgs.trans h.msgs
  readCount := h'.readCount.trans h.readCount
  writeCount := h'.writeCount.trans h.writeCount
  writers := h'.writers.trans h.writers
  pc := h'.pc.trans h.pc
  nullUnused := h'.nullUnused.trans h.nullUnused

theorem sameQueue_dosSwtmrStart (s : Timers) (t : SwtmrId) : SameQueue s (s.dosSwtmrStart t) := by
  obtain ⟨ptr, overflow, hEq⟩ := dosSwtmrStart_eq s t
  rw [hEq]
  constructor <;> rfl

theorem Edited.sameQueue (h : Edited s s') : SameQueue s s' := by
  induction h with
  | refl => constructor <;> rfl
  | start prior hUsed hIdle ih => exact ih.trans (sameQueue_dosSwtmrStart _ _)
  | stop prior hRunning ih => exact ih.trans (by constructor <;> rfl)
  | free prior hIdle ih => exact ih.trans (by constructor <;> rfl)

theorem sameQueue_dosSwtmrCmdHandle (s : Timers) (msg : SwtmrMsg) :
    SameQueue s (s.dosSwtmrCmdHandle msg) := by
  rcases dosSwtmrCmdHandle_cases s msg with hEdited | ⟨-, hSwitch⟩
  · exact hEdited.sameQueue
  · rw [hSwitch]
    constructor <;> rfl

theorem sameQueue_dosSwtmrTimeoutHandle (s : Timers) (t : SwtmrId) :
    SameQueue s (s.dosSwtmrTimeoutHandle t) := by
  have hStop : SameQueue s (s.dosSwtmrStop t) := by constructor <;> rfl
  unfold dosSwtmrTimeoutHandle
  split
  · exact hStop.trans (sameQueue_dosSwtmrStart _ t)
  · exact hStop.trans (edited_dosSwtmrDelete _ t).sameQueue

/-- The running timers are those of the two lists, each once. The lists are
ordered by the wake time, which is the remainder of the due time. -/
structure ListsOk (s : Timers) : Prop where
  listed : ∀ t, (s.swtmr t).swtmrStatus = .running ↔ t ∈ s.swtmrPtr ++ s.swtmrOverflowPtr
  nodup : (s.swtmrPtr ++ s.swtmrOverflowPtr).Nodup
  sortedPtr : KeyOrder.Sorted s.wakeTime s.swtmrPtr
  sortedOverflow : KeyOrder.Sorted s.wakeTime s.swtmrOverflowPtr
  wake : ∀ t, (s.swtmr t).swtmrStatus = .running → s.wakeTime t = (s.swtmr t).due % 2 ^ 32
  due : ∀ t, (s.swtmr t).swtmrStatus = .running →
    (s.swtmr t).due ≤ s.now + (s.swtmr t).swtmrTimeout
  timeout : ∀ t, (s.swtmr t).swtmrStatus ≠ .unused →
    0 < (s.swtmr t).swtmrTimeout ∧ (s.swtmr t).swtmrTimeout < 2 ^ 32
  free : ∀ t, s.alloc t = false → (s.swtmr t).swtmrStatus = .unused

namespace ListsOk

theorem running_ptr (h : ListsOk s) (ht : t ∈ s.swtmrPtr) :
    (s.swtmr t).swtmrStatus = .running :=
  (h.listed t).mpr (List.mem_append_left _ ht)

theorem running_overflow (h : ListsOk s) (ht : t ∈ s.swtmrOverflowPtr) :
    (s.swtmr t).swtmrStatus = .running :=
  (h.listed t).mpr (List.mem_append_right _ ht)

theorem wakeTime_le (h : ListsOk s) (ht : (s.swtmr t).swtmrStatus = .running) :
    s.wakeTime t ≤ 0xFFFFFFFF := by
  rw [h.wake t ht]
  omega

/-- The wake time of the first timer is the least one. -/
theorem head_le (h : ListsOk s) (hHead : s.swtmrPtr.head? = some t) (hx : x ∈ s.swtmrPtr) :
    s.wakeTime t ≤ s.wakeTime x := by
  obtain ⟨rest, hPtr⟩ := List.head?_eq_some_iff.mp hHead
  have hSorted := h.sortedPtr
  rw [hPtr] at hSorted hx
  exact hSorted.head_le hx

theorem start (h : ListsOk s) (hUsed : (s.swtmr t).swtmrStatus ≠ .unused)
    (hIdle : (s.swtmr t).swtmrStatus ≠ .running) : ListsOk (s.dosSwtmrStart t) := by
  have hPerm := dosSwtmrStart_perm s t
  have hQueue := sameQueue_dosSwtmrStart s t
  have hNew : t ∉ s.swtmrPtr ++ s.swtmrOverflowPtr := fun ht => hIdle ((h.listed t).mpr ht)
  have hOld : ∀ x ∈ s.swtmrPtr ++ s.swtmrOverflowPtr,
      (s.dosSwtmrStart t).swtmr x = s.swtmr x := by
    intro x hx
    exact dosSwtmrStart_ne s fun hEq => hNew (hEq ▸ hx)
  have hOldKey : ∀ x ∈ s.swtmrPtr ++ s.swtmrOverflowPtr,
      (s.dosSwtmrStart t).wakeTime x = s.wakeTime x := by
    intro x hx
    rw [wakeTime, hOld x hx, wakeTime]
  have hMax : ∀ x ∈ s.swtmrPtr ++ s.swtmrOverflowPtr,
      (s.dosSwtmrStart t).wakeTime x ≤ 0xFFFFFFFF := by
    intro x hx
    rw [hOldKey x hx]
    exact h.wakeTime_le ((h.listed x).mpr hx)
  have hPtr : KeyOrder.Sorted (s.dosSwtmrStart t).wakeTime s.swtmrPtr :=
    h.sortedPtr.congr fun x hx => hOldKey x (List.mem_append_left _ hx)
  have hOverflow : KeyOrder.Sorted (s.dosSwtmrStart t).wakeTime s.swtmrOverflowPtr :=
    h.sortedOverflow.congr fun x hx => hOldKey x (List.mem_append_right _ hx)
  refine ⟨?_, ?_, ?_, ?_, ?_, ?_, ?_, ?_⟩
  · intro x
    rw [hPerm.mem_iff, List.mem_cons]
    by_cases hx : x = t
    · subst hx
      simp [dosSwtmrStart_self, started]
    · rw [dosSwtmrStart_ne s hx]
      simp [hx, h.listed x]
  · exact hPerm.nodup_iff.mpr (List.nodup_cons.mpr ⟨hNew, h.nodup⟩)
  · rcases dosSwtmrStart_joins s t with ⟨-, hSame, -⟩ | ⟨-, -, hJoins⟩
    · rw [hSame]
      exact hPtr
    · exact hJoins.sorted (fun x hx => hMax x (List.mem_append_left _ hx)) hPtr
  · rcases dosSwtmrStart_joins s t with ⟨-, -, hJoins⟩ | ⟨-, hSame, -⟩
    · exact hJoins.sorted (fun x hx => hMax x (List.mem_append_right _ hx)) hOverflow
    · rw [hSame]
      exact hOverflow
  · intro x hx
    by_cases hEq : x = t
    · subst hEq
      simp only [wakeTime, dosSwtmrStart_self, started, dosGetTick]
      omega
    · rw [dosSwtmrStart_ne s hEq] at hx ⊢
      rw [wakeTime, dosSwtmrStart_ne s hEq]
      exact h.wake x hx
  · intro x hx
    rw [hQueue.now]
    by_cases hEq : x = t
    · subst hEq
      rw [dosSwtmrStart_self]
      exact Nat.le_refl _
    · rw [dosSwtmrStart_ne s hEq] at hx ⊢
      exact h.due x hx
  · intro x hx
    by_cases hEq : x = t
    · subst hEq
      rw [dosSwtmrStart_self]
      exact h.timeout x hUsed
    · rw [dosSwtmrStart_ne s hEq] at hx ⊢
      exact h.timeout x hx
  · intro x hx
    rw [dosSwtmrStart_alloc] at hx
    by_cases hEq : x = t
    · subst hEq
      exact absurd (h.free x hx) hUsed
    · rw [dosSwtmrStart_ne s hEq]
      exact h.free x hx

theorem stop (h : ListsOk s) (hRunning : (s.swtmr t).swtmrStatus = .running) :
    ListsOk (s.dosSwtmrStop t) := by
  obtain ⟨hPtr, hOverflow, -⟩ := List.nodup_append.mp h.nodup
  have hSublist : (s.swtmrPtr.erase t ++ s.swtmrOverflowPtr.erase t).Sublist
      (s.swtmrPtr ++ s.swtmrOverflowPtr) :=
    List.erase_sublist.append List.erase_sublist
  have hOther : ∀ x, x ≠ t → (s.dosSwtmrStop t).swtmr x = s.swtmr x :=
    fun x hx => setSwtmr_ne _ hx
  refine ⟨?_, h.nodup.sublist hSublist, ?_, ?_, ?_, ?_, ?_, ?_⟩
  · intro x
    simp only [dosSwtmrStop, List.mem_append, hPtr.mem_erase_iff, hOverflow.mem_erase_iff]
    by_cases hx : x = t
    · subst hx
      simp
    · rw [setSwtmr_ne _ hx, h.listed x]
      simp [hx]
  · rw [dosSwtmrStop_wakeTime]
    exact h.sortedPtr.erase t
  · rw [dosSwtmrStop_wakeTime]
    exact h.sortedOverflow.erase t
  · intro x hx
    have hNe : x ≠ t := by
      rintro rfl
      simp at hx
    rw [dosSwtmrStop_wakeTime]
    rw [hOther x hNe] at hx ⊢
    exact h.wake x hx
  · intro x hx
    have hNe : x ≠ t := by
      rintro rfl
      simp at hx
    rw [hOther x hNe] at hx ⊢
    exact h.due x hx
  · intro x hx
    by_cases hEq : x = t
    · subst hEq
      have hTimeout := h.timeout x (by simp [hRunning])
      simpa [dosSwtmrStop] using hTimeout
    · rw [hOther x hEq] at hx ⊢
      exact h.timeout x hx
  · intro x hx
    have hFree := h.free x hx
    have hNe : x ≠ t := by
      rintro rfl
      simp [hRunning] at hFree
    rw [hOther x hNe]
    exact hFree

/-- A timer outside the lists may get any record that is not running. -/
theorem replace (h : ListsOk s) (hPtr : s'.swtmrPtr = s.swtmrPtr)
    (hOverflow : s'.swtmrOverflowPtr = s.swtmrOverflowPtr) (hNow : s'.now = s.now)
    (hOther : ∀ x, x ≠ t → s'.swtmr x = s.swtmr x) (hAlloc : ∀ x, x ≠ t → s'.alloc x = s.alloc x)
    (hIdle : (s.swtmr t).swtmrStatus ≠ .running) (hNew : (s'.swtmr t).swtmrStatus ≠ .running)
    (hTimeout : (s'.swtmr t).swtmrStatus ≠ .unused →
      0 < (s'.swtmr t).swtmrTimeout ∧ (s'.swtmr t).swtmrTimeout < 2 ^ 32)
    (hFree : s'.alloc t = false → (s'.swtmr t).swtmrStatus = .unused) : ListsOk s' := by
  have hRunning : ∀ x, (s'.swtmr x).swtmrStatus = .running → x ≠ t := by
    rintro x hx rfl
    exact hNew hx
  have hKey : ∀ x ∈ s.swtmrPtr ++ s.swtmrOverflowPtr, s'.wakeTime x = s.wakeTime x := by
    intro x hx
    have hNe : x ≠ t := by
      rintro rfl
      exact hIdle ((h.listed x).mpr hx)
    rw [wakeTime, hOther x hNe, wakeTime]
  refine ⟨?_, ?_, ?_, ?_, ?_, ?_, ?_, ?_⟩
  · intro x
    rw [hPtr, hOverflow, ← h.listed x]
    by_cases hEq : x = t
    · subst hEq
      simp [hNew, hIdle]
    · rw [hOther x hEq]
  · rw [hPtr, hOverflow]
    exact h.nodup
  · rw [hPtr]
    exact h.sortedPtr.congr fun x hx => hKey x (List.mem_append_left _ hx)
  · rw [hOverflow]
    exact h.sortedOverflow.congr fun x hx => hKey x (List.mem_append_right _ hx)
  · intro x hx
    have hEq := hOther x (hRunning x hx)
    rw [hEq] at hx
    rw [wakeTime, hEq]
    exact h.wake x hx
  · intro x hx
    have hEq := hOther x (hRunning x hx)
    rw [hEq] at hx ⊢
    rw [hNow]
    exact h.due x hx
  · intro x hx
    by_cases hEq : x = t
    · subst hEq
      exact hTimeout hx
    · rw [hOther x hEq] at hx ⊢
      exact h.timeout x hx
  · intro x hx
    by_cases hEq : x = t
    · subst hEq
      exact hFree hx
    · rw [hOther x hEq]
      exact h.free x ((hAlloc x hEq).symm.trans hx)

theorem freeSwtmr (h : ListsOk s) (hIdle : (s.swtmr t).swtmrStatus ≠ .running) :
    ListsOk (s.freeSwtmr t) := by
  have hSelf : (s.freeSwtmr t).swtmr t = {} := setSwtmr_self _
  refine h.replace rfl rfl rfl (fun x hx => setSwtmr_ne _ hx) (fun x hx => if_neg hx) hIdle ?_ ?_ ?_
  · simp [hSelf]
  · simp [hSelf]
  · simp [hSelf]

theorem create (h : ListsOk s) {timeout mode : Nat} (hFree : s.alloc t = false)
    (hTimeout : 0 < timeout ∧ timeout < 2 ^ 32) : ListsOk (s.dosSwtmrCreate t timeout mode) := by
  have hIdle : (s.swtmr t).swtmrStatus ≠ .running := by simp [h.free t hFree]
  have hSelf : (s.dosSwtmrCreate t timeout mode).swtmr t =
    { swtmrStatus := .create, swtmrMode := mode, swtmrTimeout := timeout } := setSwtmr_self _
  refine h.replace rfl rfl rfl (fun x hx => setSwtmr_ne _ hx) (fun x hx => if_neg hx) hIdle ?_ ?_ ?_
  · simp [hSelf]
  · simpa [hSelf] using hTimeout
  · simp [dosSwtmrCreate]

/-- A creation leaves running timers alone. -/
theorem create_running (h : ListsOk s) (timeout mode : Nat) (hFree : s.alloc t = false)
    (hx : (s.swtmr x).swtmrStatus = .running) :
    (s.dosSwtmrCreate t timeout mode).swtmr x = s.swtmr x := by
  refine setSwtmr_ne _ ?_
  rintro rfl
  rw [h.free x hFree] at hx
  cases hx

/-- The exchange of the lists. -/
theorem switch (h : ListsOk s) : ListsOk s.dosSwtmrSwitchPtr where
  listed t := by
    rw [List.mem_append, or_comm, ← List.mem_append]
    exact h.listed t
  nodup := List.perm_append_comm.nodup_iff.mpr h.nodup
  sortedPtr := h.sortedOverflow
  sortedOverflow := h.sortedPtr
  wake := h.wake
  due := h.due
  timeout := h.timeout
  free := h.free

theorem edited (h : ListsOk s) (hEdited : Edited s s') : ListsOk s' := by
  induction hEdited with
  | refl => exact h
  | start prior hUsed hIdle ih => exact ih.start hUsed hIdle
  | stop prior hRunning ih => exact ih.stop hRunning
  | free prior hIdle ih => exact ih.freeSwtmr hIdle

end ListsOk

/-- The operations keep the timeouts of the timers. -/
theorem Edited.timeout (h : Edited s s') (hUsed : (s'.swtmr x).swtmrStatus ≠ .unused) :
    (s.swtmr x).swtmrStatus ≠ .unused ∧ (s'.swtmr x).swtmrTimeout = (s.swtmr x).swtmrTimeout := by
  induction h with
  | refl => exact ⟨hUsed, rfl⟩
  | @start s₁ t prior hOld hIdle ih =>
      by_cases hEq : x = t
      · subst hEq
        rw [dosSwtmrStart_self]
        exact ih hOld
      · rw [dosSwtmrStart_ne s₁ hEq] at hUsed ⊢
        exact ih hUsed
  | @stop s₁ t prior hRunning ih =>
      by_cases hEq : x = t
      · subst hEq
        have hSelf : ((s₁.dosSwtmrStop x).swtmr x).swtmrTimeout = (s₁.swtmr x).swtmrTimeout := by
          simp [dosSwtmrStop, setSwtmr]
        rw [hSelf]
        exact ih (by simp [hRunning])
      · have hSame : (s₁.dosSwtmrStop t).swtmr x = s₁.swtmr x := setSwtmr_ne _ hEq
        rw [hSame] at hUsed ⊢
        exact ih hUsed
  | @free s₁ t prior hIdle ih =>
      by_cases hEq : x = t
      · subst hEq
        simp [freeSwtmr, setSwtmr] at hUsed
      · have hSame : (s₁.freeSwtmr t).swtmr x = s₁.swtmr x := setSwtmr_ne _ hEq
        rw [hSame] at hUsed ⊢
        exact ih hUsed

section Epoch

/-- The wake time of a started timer is behind the next wrap exactly if the
due time is. -/
theorem started_epoch (hTimeout : (s.swtmr t).swtmrTimeout < 2 ^ 32) :
    (s.started t).due / 2 ^ 32 =
      if (s.started t).swtmrWakeTime < s.dosGetTick then s.now / 2 ^ 32 + 1 else s.now / 2 ^ 32 := by
  by_cases hWrap : (s.started t).swtmrWakeTime < s.dosGetTick
  · rw [if_pos hWrap]
    simp only [started, dosGetTick] at hWrap ⊢
    omega
  · rw [if_neg hWrap]
    simp only [started, dosGetTick] at hWrap ⊢
    omega

/-- Timers of the current period of the counter are in the first list, those
of the next one in the overflow list. -/
structure InEpoch (s : Timers) : Prop where
  ptr : ∀ t ∈ s.swtmrPtr, (s.swtmr t).due / 2 ^ 32 = s.now / 2 ^ 32
  overflow : ∀ t ∈ s.swtmrOverflowPtr, (s.swtmr t).due / 2 ^ 32 = s.now / 2 ^ 32 + 1

/-- Where the timers of the lists come from: they were in the same list before,
or they were started at the present tick. -/
structure Origin (s s' : Timers) : Prop where
  ptr : ∀ x ∈ s'.swtmrPtr, x ∈ s.swtmrPtr ∧ s'.swtmr x = s.swtmr x ∨
    s.now < (s'.swtmr x).due ∧ (s'.swtmr x).due / 2 ^ 32 = s.now / 2 ^ 32
  overflow : ∀ x ∈ s'.swtmrOverflowPtr, x ∈ s.swtmrOverflowPtr ∧ s'.swtmr x = s.swtmr x ∨
    (s'.swtmr x).due / 2 ^ 32 = s.now / 2 ^ 32 + 1

/-- An operation that only removes timers from the lists. -/
theorem Origin.shrink (h : Origin s s₁) (hPtr : ∀ x ∈ s'.swtmrPtr, x ∈ s₁.swtmrPtr)
    (hOverflow : ∀ x ∈ s'.swtmrOverflowPtr, x ∈ s₁.swtmrOverflowPtr)
    (hSame : ∀ x ∈ s'.swtmrPtr ++ s'.swtmrOverflowPtr, s'.swtmr x = s₁.swtmr x) :
    Origin s s' where
  ptr x hx := by
    rw [hSame x (List.mem_append_left _ hx)]
    exact h.ptr x (hPtr x hx)
  overflow x hx := by
    rw [hSame x (List.mem_append_right _ hx)]
    exact h.overflow x (hOverflow x hx)

theorem Edited.origin (h : Edited s s') (hOk : ListsOk s) : Origin s s' := by
  induction h with
  | refl => exact ⟨fun x hx => Or.inl ⟨hx, rfl⟩, fun x hx => Or.inl ⟨hx, rfl⟩⟩
  | @start s₁ t prior hUsed hIdle ih =>
      have hOk₁ := hOk.edited prior
      have hNow := prior.sameQueue.now
      have hTimeout := hOk₁.timeout t hUsed
      have hEpoch := started_epoch hTimeout.2
      have hOld : ∀ x ∈ s₁.swtmrPtr ++ s₁.swtmrOverflowPtr,
          (s₁.dosSwtmrStart t).swtmr x = s₁.swtmr x := by
        intro x hx
        refine dosSwtmrStart_ne s₁ fun hEq => hIdle ?_
        exact (hOk₁.listed t).mpr (hEq ▸ hx)
      have hDue : s.now < (s₁.started t).due := by
        simp only [started, hNow]
        omega
      rw [hNow] at hEpoch
      rcases dosSwtmrStart_joins s₁ t with ⟨hWrap, hPtr, hJoins⟩ | ⟨hLater, hOverflow, hJoins⟩
      · rw [if_pos hWrap] at hEpoch
        refine ⟨?_, ?_⟩
        · intro x hx
          rw [hPtr] at hx
          rw [hOld x (List.mem_append_left _ hx)]
          exact ih.ptr x hx
        · intro x hx
          rcases List.mem_cons.mp (hJoins.perm.mem_iff.mp hx) with rfl | hx
          · exact Or.inr (by rw [dosSwtmrStart_self, hEpoch])
          · rw [hOld x (List.mem_append_right _ hx)]
            exact ih.overflow x hx
      · rw [if_neg (by omega)] at hEpoch
        refine ⟨?_, ?_⟩
        · intro x hx
          rcases List.mem_cons.mp (hJoins.perm.mem_iff.mp hx) with rfl | hx
          · exact Or.inr (by rw [dosSwtmrStart_self]; exact ⟨hDue, hEpoch⟩)
          · rw [hOld x (List.mem_append_left _ hx)]
            exact ih.ptr x hx
        · intro x hx
          rw [hOverflow] at hx
          rw [hOld x (List.mem_append_right _ hx)]
          exact ih.overflow x hx
  | @stop s₁ t prior hRunning ih =>
      have hOk₁ := (hOk.edited prior).stop hRunning
      refine ih.shrink (fun x hx => List.mem_of_mem_erase hx)
        (fun x hx => List.mem_of_mem_erase hx) ?_
      intro x hx
      refine setSwtmr_ne _ ?_
      rintro rfl
      have hListed := (hOk₁.listed x).mpr hx
      simp at hListed
  | @free s₁ t prior hIdle ih =>
      have hOk₁ := hOk.edited prior
      refine ih.shrink (fun x hx => hx) (fun x hx => hx) ?_
      intro x hx
      refine setSwtmr_ne _ ?_
      rintro rfl
      exact hIdle ((hOk₁.listed x).mpr hx)

theorem InEpoch.edited (h : InEpoch s) (hEdited : Edited s s') (hOk : ListsOk s) :
    InEpoch s' := by
  have hOrigin := hEdited.origin hOk
  have hNow := hEdited.sameQueue.now
  refine ⟨?_, ?_⟩
  · intro x hx
    rw [hNow]
    rcases hOrigin.ptr x hx with ⟨hOld, hSame⟩ | hNew
    · rw [hSame]
      exact h.ptr x hOld
    · exact hNew.2
  · intro x hx
    rw [hNow]
    rcases hOrigin.overflow x hx with ⟨hOld, hSame⟩ | hNew
    · rw [hSame]
      exact h.overflow x hOld
    · exact hNew

end Epoch

/-- The same timers in the same lists. -/
structure SameTimers (s s' : Timers) : Prop where
  swtmr : s'.swtmr = s.swtmr
  alloc : s'.alloc = s.alloc
  swtmrPtr : s'.swtmrPtr = s.swtmrPtr
  swtmrOverflowPtr : s'.swtmrOverflowPtr = s.swtmrOverflowPtr
  nullUnused : s'.nullUnused = s.nullUnused

theorem ListsOk.congr (h : ListsOk s) (hSame : SameTimers s s') (hNow : s.now ≤ s'.now) :
    ListsOk s' := by
  obtain ⟨hSwtmr, hAlloc, hPtr, hOverflow, -⟩ := hSame
  have hKey : s'.wakeTime = s.wakeTime := by
    funext x
    rw [wakeTime, hSwtmr, wakeTime]
  constructor
  · rw [hSwtmr, hPtr, hOverflow]
    exact h.listed
  · rw [hPtr, hOverflow]
    exact h.nodup
  · rw [hKey, hPtr]
    exact h.sortedPtr
  · rw [hKey, hOverflow]
    exact h.sortedOverflow
  · rw [hKey, hSwtmr]
    exact h.wake
  · intro t ht
    rw [hSwtmr] at ht ⊢
    exact (h.due t ht).trans (Nat.add_le_add_right hNow _)
  · rw [hSwtmr]
    exact h.timeout
  · rw [hSwtmr, hAlloc]
    exact h.free

end Timers

end DoraOS
