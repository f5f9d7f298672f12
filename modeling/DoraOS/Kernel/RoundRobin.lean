import DoraOS.Library.Rota
import DoraOS.Kernel.PriorityTable
import DoraOS.Kernel.Effects
import DoraOS.Kernel.ListWalk

/-! Time slices. The slice of the current task is counted down by the
scheduler's check and not by the tick, and the tick reaches the scheduler twice:
inside the interrupt, where it does nothing, and when the interrupt is left. A
list of ready tasks is thereby a rota with the slices of its tasks. -/
namespace DoraOS

namespace Kernel

/-- `dos_interrupt_enter` in an interrupt. The depth is an 8-bit counter. -/
def dosInterruptEnter (k : Kernel) : Kernel :=
  if k.systemIsRun = true then { k with interruptCount := (k.interruptCount + 1) % 2 ^ 8 } else k

def dosInterruptLeave (k : Kernel) : Kernel :=
  if k.systemIsRun = true then
    let k := { k with interruptCount := (k.interruptCount + (2 ^ 8 - 1)) % 2 ^ 8 }
    if k.interruptCount ≠ 0 then k else k.dosScheduler
  else k

def sysTickHandler (k : Kernel) : Kernel :=
  (k.dosInterruptEnter.dosTickUpdate none).dosInterruptLeave

/-- A SysTick interrupt with the context switch it asked for. -/
def sysTick (k : Kernel) : Kernel :=
  if k.sysTickHandler.yieldPending then k.sysTickHandler.dosChooseTask else k.sysTickHandler

/-- A priority whose bit is set where the search looks for it. -/
def Marked (k : Kernel) (p : Nat) : Prop :=
  if 32 < k.config.dosMaxPriorityNum then k.Represents p
  else (k.dosTaskPriority 0).getLsbD p = true

instance (k : Kernel) (p : Nat) : Decidable (k.Marked p) :=
  inferInstanceAs (Decidable (ite _ _ _))

/-- Two or more ready tasks share the most urgent priority `p` and are at the
start of their slices. The task `c` of them is running, and the cursor of the
ready list is on it. -/
structure SliceStart (k : Kernel) (p : Nat) (c : TaskId) : Prop where
  sound : k.Sound
  running : k.systemIsRun = true
  unlocked : k.schedulerLock = 0
  outside : k.interruptCount = 0
  settled : k.yieldPending = false
  table : ∀ q, k.Marked q ↔ k.lists.items (.priority q) ≠ []
  range : ∀ q, k.lists.items (.priority q) ≠ [] → q < k.config.dosMaxPriorityNum
  urgent : ∀ q, q < p → k.lists.items (.priority q) = []
  many : 2 ≤ (k.lists.items (.priority p)).length
  ready : ∀ t ∈ k.lists.items (.priority p), k.is t .ready = true ∧ k.priority t = p
  slice : ∀ t ∈ k.lists.items (.priority p),
    1 ≤ (k.tcb t).taskInitTick ∧ (k.tcb t).taskInitTick < 2 ^ 32
  full : ∀ t ∈ k.lists.items (.priority p), (k.tcb t).taskTick = (k.tcb t).taskInitTick
  current : k.dosCurrentTask = some c
  cursor : k.lists.cursor (.priority p) = some c

/-- The tasks of a ready list in order, from `c` on and round to it. -/
def turnsFrom (items : List TaskId) (c : TaskId) : List TaskId :=
  items.dropWhile (· ≠ c) ++ items.takeWhile (· ≠ c)

variable {k k' : Kernel} {p : Nat} {c t : TaskId}

/-- The search finds the most urgent non-empty ready list. -/
theorem SliceStart.findPriority (h : k.SliceStart p c) : k.dosFindPriority.dosCurPriority = p := by
  have hSome : k.lists.items (.priority p) ≠ [] := by
    intro hNil
    have hMany := h.many
    rw [hNil] at hMany
    cases hMany
  have hMark := (h.table p).mpr hSome
  by_cases hMax : 32 < k.config.dosMaxPriorityNum
  · have hTable (q : Nat) : k.Represents q ↔ k.lists.items (.priority q) ≠ [] := by
      have hq := h.table q
      rwa [Marked, if_pos hMax] at hq
    have hLeast := findPriority_isLeast hMax (fun q hq => h.range q ((hTable q).mp hq))
      ((hTable p).mpr hSome)
    refine hLeast.unique ⟨(hTable p).mpr hSome, ?_⟩
    intro q hq
    by_contra hLess
    exact (hTable q).mp hq (h.urgent q (Nat.not_le.mp hLess))
  · have hTable (q : Nat) : (k.dosTaskPriority 0).getLsbD q = true ↔
        k.lists.items (.priority q) ≠ [] := by
      have hq := h.table q
      rwa [Marked, if_neg hMax] at hq
    have hBit := (hTable p).mpr hSome
    apply (findPriority_lowest (Nat.not_lt.mp hMax) (BitSet.ne_zero_of_getLsbD hBit)).unique
    refine ⟨hBit, ?_⟩
    intro q hq
    by_contra hSet
    exact (hTable q).mp (by simpa using hSet) (h.urgent q hq)

/-- What no tick changes: everything but the clock, the cursors, the slices and
the choice of the current task. -/
structure Quiet (k k' : Kernel) : Prop where
  sound : k'.Sound
  config : k'.config = k.config
  words : k'.dosTaskPriority = k.dosTaskPriority
  sleepList : k'.dosTaskSleepList = k.dosTaskSleepList
  running : k'.systemIsRun = k.systemIsRun
  unlocked : k'.schedulerLock = k.schedulerLock
  outside : k'.interruptCount = k.interruptCount
  settled : k'.yieldPending = k.yieldPending
  items : ∀ l, k'.lists.items l = k.lists.items l
  value : ∀ c t, k'.lists.value c t = k.lists.value c t
  task : ∀ t, k'.tcb t = { k.tcb t with taskTick := (k'.tcb t).taskTick }

/-- With no sleeping task due, the timeout handling moves at most the cursor of
the sleep list and the next wake tick. -/
theorem tickTimeouts_none (hDue : ∀ t ∈ k.lists.items k.dosTaskSleepList,
    k.dosTickCount < k.lists.value .status t) :
    ∃ lists w, k.dosTickTimeouts = { k with lists := lists, dosNextWakeTick := w } ∧
      (lists = k.lists ∨ lists = (k.lists.dosGetFirstTask k.dosTaskSleepList).1) := by
  unfold dosTickTimeouts
  split
  · rename_i hLate
    unfold dosTickExpire
    split
    · exact ⟨k.lists, _, rfl, Or.inl rfl⟩
    · split
      · rename_i k₁ hHead
        have hk : k₁ = _ := (congrArg Prod.fst hHead).symm
        subst hk
        exact ⟨_, k.dosNextWakeTick, rfl, Or.inr rfl⟩
      · rename_i k₁ t hHead
        have hk : k₁ = _ := (congrArg Prod.fst hHead).symm
        have ht : (k.lists.items k.dosTaskSleepList).head? = some t := congrArg Prod.snd hHead
        subst hk
        have hLater := hDue t (List.mem_of_head? ht)
        have hNext : (k.dosGetFirstTask k.dosTaskSleepList).1.lists.value .status t >
            (k.dosGetFirstTask k.dosTaskSleepList).1.dosNextWakeTick :=
          Nat.lt_of_le_of_lt hLate hLater
        dsimp only
        rw [if_pos hNext]
        exact ⟨_, _, rfl, Or.inr rfl⟩
  · exact ⟨k.lists, k.dosNextWakeTick, rfl, Or.inl rfl⟩

/-- The outermost handler calls the scheduler as it leaves. -/
theorem interruptLeave_outermost (hRun : k.systemIsRun = true) (hDepth : k.interruptCount = 1) :
    k.dosInterruptLeave = { k with interruptCount := 0 }.dosScheduler := by
  simp [dosInterruptLeave, hRun, hDepth]

/-- The handler counts the tick and calls the scheduler once. -/
theorem sysTickHandler_eq (hRun : k.systemIsRun = true) (hOutside : k.interruptCount = 0)
    (hWrap : k.dosTickCount + 1 < 2 ^ 32)
    (hDue : ∀ t ∈ k.lists.items k.dosTaskSleepList,
      k.dosTickCount + 1 < k.lists.value .status t) :
    ∃ lists w, k.sysTickHandler = { k with
        lists := lists
        dosNextWakeTick := w
        dosTickCount := k.dosTickCount + 1
        interruptCount := 0 }.dosScheduler ∧
      (lists = k.lists ∨ lists = (k.lists.dosGetFirstTask k.dosTaskSleepList).1) := by
  have hEnter : k.dosInterruptEnter = { k with interruptCount := 1 } := by
    rw [dosInterruptEnter, if_pos hRun, hOutside]
    rfl
  let k₁ : Kernel := { k with interruptCount := 1, dosTickCount := k.dosTickCount + 1 }
  have hAdvance : k.dosInterruptEnter.dosTickAdvance = k₁ := by
    have hInc : k.dosInterruptEnter.dosTickCountInc = k₁ := by
      rw [hEnter]
      simp only [dosTickCountInc, Nat.mod_eq_of_lt hWrap, k₁]
    rw [dosTickAdvance, hInc, if_neg (Nat.succ_ne_zero _)]
  obtain ⟨lists, w, hTimeouts, hLists⟩ := tickTimeouts_none (k := k₁) hDue
  refine ⟨lists, w, ?_, hLists⟩
  have hUpdate : k.dosInterruptEnter.dosTickUpdate none =
      { k₁ with lists := lists, dosNextWakeTick := w } := by
    rw [dosTickUpdate, hAdvance, dosTickNotify, hTimeouts]
    exact if_pos Nat.one_ne_zero
  rw [sysTickHandler, hUpdate]
  exact interruptLeave_outermost hRun rfl

/-- The check of a task that shares its ready list counts its slice down. -/
theorem check_slice (hCurrent : k.dosCurrentTask = some c) (hReady : k.is c .ready = true)
    (hFind : k.dosFindPriority.dosCurPriority = k.priority c)
    (hMany : 2 ≤ (k.lists.items (.priority (k.priority c))).length)
    (hSlice : 1 ≤ (k.tcb c).taskTick ∧ (k.tcb c).taskTick < 2 ^ 32) :
    k.dosCheckTaskPriority =
      if (k.tcb c).taskTick ≤ 1 then
        (k.dosFindPriority.mapTcb c fun tcb => { tcb with taskTick := tcb.taskInitTick }, true)
      else
        (k.dosFindPriority.mapTcb c fun tcb => { tcb with taskTick := (k.tcb c).taskTick - 1 },
          false) := by
  have hStay : ¬(k.dosFindPriority.dosCurPriority < k.dosFindPriority.priority c ∨
      k.dosFindPriority.is c .ready = false) := by
    rw [hFind, not_or]
    refine ⟨Nat.lt_irrefl _, ?_⟩
    rw [show k.dosFindPriority.is c .ready = k.is c .ready from rfl, hReady]
    exact Bool.noConfusion
  have hTick : ((k.dosFindPriority.tcb c).taskTick + (2 ^ 32 - 1)) % 2 ^ 32 =
      (k.tcb c).taskTick - 1 := by
    show ((k.tcb c).taskTick + (2 ^ 32 - 1)) % 2 ^ 32 = _
    omega
  unfold dosCheckTaskPriority
  dsimp only
  rw [show k.dosFindPriority.dosCurrentTask = some c from hCurrent]
  dsimp only
  rw [if_neg hStay, if_pos (show k.dosFindPriority.lists.dosGetTaskListValue
    (.priority (k.dosFindPriority.priority c)) > 1 from hMany), hTick]
  split
  · rw [if_pos (by omega)]
  · rw [if_neg (by omega)]

/-- The kernel after `n` ticks shows the rota `r` in the ready list. -/
structure Shows (k₀ : Kernel) (p n : Nat) (k : Kernel) (r : Rota TaskId) : Prop where
  quiet : Quiet k₀ k
  clock : k.dosTickCount = k₀.dosTickCount + n
  head : ∃ c rest, r.ring = c :: rest ∧ k.dosCurrentTask = some c ∧
    k.lists.cursor (.priority p) = some c ∧ k.lists.visits (.priority p) = rest ++ [c]
  member : ∀ t, t ∈ r.ring ↔ t ∈ k₀.lists.items (.priority p)
  left : ∀ t ∈ r.ring, (k.tcb t).taskTick = r.left t
  other : ∀ t, t ∉ r.ring → (k.tcb t).taskTick = (k₀.tcb t).taskTick

/-- The context switch gives the next task of the list its slice. -/
theorem choose_next {e : TaskId} (hPrio : k.dosCurPriority = p)
    (hNext : (k.lists.dosGetNextTask (.priority p)).2 = some e) :
    k.dosChooseTask = { k with
      lists := (k.lists.dosGetNextTask (.priority p)).1
      dosCurrentTask := some e
      yieldPending := false } := by
  simp only [dosChooseTask, hPrio, hNext]

/-- The search depends on the table alone. -/
theorem findPriority_congr (hConfig : k'.config = k.config)
    (hWords : k'.dosTaskPriority = k.dosTaskPriority) :
    k'.dosFindPriority.dosCurPriority = k.dosFindPriority.dosCurPriority := by
  have hWord : k'.dosPriorityWord = k.dosPriorityWord := by
    rw [dosPriorityWord, dosPriorityWord, hConfig, hWords]
  simp only [dosFindPriority]
  rw [hWord, hConfig, hWords]

/-- Moving the cursor of a sleep list is not seen in the ready lists. -/
theorem first_of_sleepList (hSound : k.Sound) {lists : TaskLists}
    (h : lists = k.lists ∨ lists = (k.lists.dosGetFirstTask k.dosTaskSleepList).1) :
    lists.Linked ∧ (∀ l, lists.items l = k.lists.items l) ∧
      (∀ c t, lists.value c t = k.lists.value c t) ∧
      ∀ p, lists.cursor (.priority p) = k.lists.cursor (.priority p) := by
  rcases h with rfl | rfl
  · exact ⟨hSound.linked, fun _ => rfl, fun _ _ => rfl, fun _ => rfl⟩
  · refine ⟨hSound.linked.first _, fun _ => TaskLists.first_items .., fun _ _ => rfl, ?_⟩
    intro p
    have hNot : ListId.priority p ≠ k.dosTaskSleepList := by
      rcases hSound.pair with ⟨hs, _⟩ | ⟨hs, _⟩ <;> rw [hs] <;> nofun
    rw [TaskLists.dosGetFirstTask, TaskLists.setList_cursor, if_neg hNot]

section Step

variable {k₀ : Kernel} {n : Nat} {r : Rota TaskId}

def slices (k : Kernel) (t : TaskId) : Nat := (k.tcb t).taskInitTick

/-- At the start of the slices the rota is the ready list from the running task on. -/
theorem shows_start (h : k.SliceStart p c) :
    Shows k p 0 k ⟨turnsFrom (k.lists.items (.priority p)) c, k.slices⟩ := by
  have hMem := h.sound.linked.cursor _ _ h.cursor
  obtain ⟨before, behind, hItems, hNew⟩ := List.eq_append_cons_of_mem hMem
  have hTurns : turnsFrom (k.lists.items (.priority p)) c = c :: (behind ++ before) := by
    rw [turnsFrom, hItems, TaskLists.takeWhile_split hNew, TaskLists.dropWhile_split hNew,
      List.cons_append]
  have hMember (t : TaskId) : t ∈ turnsFrom (k.lists.items (.priority p)) c ↔
      t ∈ k.lists.items (.priority p) := by
    rw [hTurns, hItems]
    simp only [List.mem_cons, List.mem_append]
    tauto
  refine ⟨?_, rfl, ⟨c, behind ++ before, hTurns, h.current, h.cursor, ?_⟩, hMember, ?_,
    fun _ _ => rfl⟩
  · exact ⟨h.sound, rfl, rfl, rfl, rfl, rfl, rfl, rfl, fun _ => rfl, fun _ _ => rfl, fun _ => rfl⟩
  · rw [TaskLists.visits, h.cursor, hItems, TaskLists.rotation_split hNew, List.append_assoc]
  · exact fun t ht => h.full t ((hMember t).mp ht)

/-- The tasks of the rota are ready tasks of the priority. -/
theorem Shows.task (hStart : k₀.SliceStart p c) (h : Shows k₀ p n k r) (ht : t ∈ r.ring) :
    k.is t .ready = true ∧ k.priority t = p ∧ (k.tcb t).taskInitTick = k₀.slices t := by
  have hReady := hStart.ready t ((h.member t).mp ht)
  have hTask := h.quiet.task t
  refine ⟨?_, ?_, ?_⟩
  · rw [Kernel.is, hTask]
    exact hReady.1
  · rw [Kernel.priority, hTask]
    exact hReady.2
  · rw [hTask]
    rfl

/-- Another task waits for its turn. -/
theorem Shows.rest_ne_nil (hStart : k₀.SliceStart p c) (h : Shows k₀ p n k r) {d : TaskId}
    {rest : List TaskId} (hVisits : k.lists.visits (.priority p) = rest ++ [d]) : rest ≠ [] := by
  rintro rfl
  have hLength := (h.quiet.sound.linked.visits_perm (.priority p)).length_eq
  have hMany := hStart.many
  rw [hVisits, h.quiet.items] at hLength
  rw [← hLength] at hMany
  cases hMany with
  | step hLess => cases hLess

/-- A new value for the slice of the running task, seen in the rota. -/
theorem Shows.mapSlice {d : TaskId} {rest : List TaskId} {left : TaskId → Nat}
    (h : Shows k₀ p n k ⟨d :: rest, left⟩) (f : Tcb → Nat) :
    (∀ t ∈ d :: rest, ((k.mapTcb d fun tcb => { tcb with taskTick := f tcb }).tcb t).taskTick =
        Function.update left d (f (k.tcb d)) t) ∧
      (∀ t, t ∉ d :: rest → ((k.mapTcb d fun tcb => { tcb with taskTick := f tcb }).tcb t).taskTick =
        (k₀.tcb t).taskTick) ∧
      ∀ t, (k.mapTcb d fun tcb => { tcb with taskTick := f tcb }).tcb t = { k₀.tcb t with
        taskTick := ((k.mapTcb d fun tcb => { tcb with taskTick := f tcb }).tcb t).taskTick } := by
  have hSame {t : TaskId} (ht : t ≠ d) :
      (k.mapTcb d fun tcb => { tcb with taskTick := f tcb }).tcb t = k.tcb t := if_neg ht
  have hNew : (k.mapTcb d fun tcb => { tcb with taskTick := f tcb }).tcb d =
      { k.tcb d with taskTick := f (k.tcb d) } := if_pos rfl
  refine ⟨?_, ?_, ?_⟩
  · intro t ht
    by_cases hd : t = d
    · rw [hd, hNew, Function.update_self]
    · rw [hSame hd, Function.update_of_ne hd]
      exact h.left t ht
  · intro t ht
    have hd : t ≠ d := fun hd => ht (hd ▸ List.mem_cons_self)
    rw [hSame hd]
    exact h.other t ht
  · intro t
    by_cases hd : t = d
    · rw [hd, hNew, h.quiet.task d]
    · rw [hSame hd]
      exact h.quiet.task t

/-- The scheduler with the switch it asks for is one tick of the rota. -/
theorem Shows.schedule (hStart : k₀.SliceStart p c) (h : Shows k₀ p n k r)
    (hIn : r.InSlice k₀.slices) : Shows k₀ p n k.dosSchedule (r.tick k₀.slices) := by
  have hQuiet := h.quiet
  obtain ⟨d, rest, hRing, hCurrent, hCursor, hVisits⟩ := h.head
  obtain ⟨ring, left⟩ := r
  dsimp only at hRing
  subst hRing
  have hHead : d ∈ d :: rest := List.mem_cons_self
  obtain ⟨hReady, hPrio, hInit⟩ := h.task hStart hHead
  have hLeft : (k.tcb d).taskTick = left d := h.left d hHead
  have hBound := hIn d hHead
  have hWord := (hStart.slice d ((h.member d).mp hHead)).2
  have hFind : k.dosFindPriority.dosCurPriority = p :=
    (findPriority_congr hQuiet.config hQuiet.words).trans hStart.findPriority
  have hCheck := check_slice hCurrent hReady (hFind.trans hPrio.symm)
    (by rw [hPrio, hQuiet.items]; exact hStart.many)
    (by rw [hLeft]; exact ⟨hBound.1, Nat.lt_of_le_of_lt hBound.2 hWord⟩)
  have hScheduler := scheduler_eq (hQuiet.running.trans hStart.running)
    (hQuiet.unlocked.trans hStart.unlocked) (hQuiet.outside.trans hStart.outside)
  have hSettled : k.yieldPending = false := hQuiet.settled.trans hStart.settled
  rw [hCheck, hLeft] at hScheduler
  by_cases hLast : left d ≤ 1
  · -- the slice is over: a new slice, and the cursor moves to the next task
    rw [if_pos hLast] at hScheduler
    obtain ⟨e, behind, rfl⟩ := List.exists_cons_of_ne_nil (h.rest_ne_nil hStart hVisits)
    obtain ⟨hNext, hTurned, hMoved⟩ := hQuiet.sound.linked.next_visits hVisits
    obtain ⟨hSlices, hOthers, hTask⟩ := h.mapSlice Tcb.taskInitTick
    have hChoice : k.dosSchedule = { k.mapTcb d (fun tcb => { tcb with taskTick := tcb.taskInitTick })
        with
        lists := (k.lists.dosGetNextTask (.priority p)).1
        dosCurPriority := k.dosFindPriority.dosCurPriority
        dosCurrentTask := some e
        yieldPending := false } := by
      have hYield : k.dosScheduler = { k.dosFindPriority.mapTcb d
          (fun tcb => { tcb with taskTick := tcb.taskInitTick }) with yieldPending := true } :=
        hScheduler
      rw [dosSchedule, hYield, if_pos rfl]
      exact choose_next hFind hNext
    have hMember (t : TaskId) : t ∈ (e :: behind) ++ [d] ↔ t ∈ d :: e :: behind := by
      simp only [List.mem_append, List.mem_cons, List.not_mem_nil, or_false]
      tauto
    rw [hChoice, Rota.tick_last hLast, ← hInit]
    refine ⟨⟨⟨hQuiet.sound.linked.next _, hQuiet.sound.pair⟩, hQuiet.config, hQuiet.words,
      hQuiet.sleepList, hQuiet.running, hQuiet.unlocked, hQuiet.outside, hStart.settled.symm, ?_, ?_,
      hTask⟩, h.clock, ⟨e, behind ++ [d], rfl, rfl, hMoved, hTurned⟩, ?_, ?_, ?_⟩
    · exact fun l => (TaskLists.next_items ..).trans (hQuiet.items l)
    · exact fun c t => (TaskLists.next_value ..).trans (hQuiet.value c t)
    · exact fun t => (hMember t).trans (h.member t)
    · exact fun t ht => hSlices t ((hMember t).mp ht)
    · exact fun t ht => hOthers t fun hOld => ht ((hMember t).mpr hOld)
  · -- the slice goes on
    rw [if_neg hLast] at hScheduler
    obtain ⟨hSlices, hOthers, hTask⟩ := h.mapSlice fun _ => left d - 1
    have hChoice : k.dosSchedule =
        { k.mapTcb d (fun tcb => { tcb with taskTick := left d - 1 }) with
          dosCurPriority := k.dosFindPriority.dosCurPriority } := by
      have hStay : k.dosScheduler = k.dosFindPriority.mapTcb d
          (fun tcb => { tcb with taskTick := left d - 1 }) := hScheduler
      rw [dosSchedule, hStay]
      exact if_neg (Bool.eq_false_iff.mp hSettled)
    rw [hChoice, Rota.tick_within (Nat.not_le.mp hLast)]
    exact ⟨⟨⟨hQuiet.sound.linked, hQuiet.sound.pair⟩, hQuiet.config, hQuiet.words,
      hQuiet.sleepList, hQuiet.running, hQuiet.unlocked, hQuiet.outside, hQuiet.settled, hQuiet.items,
      hQuiet.value, hTask⟩, h.clock, ⟨d, rest, rfl, hCurrent, hCursor, hVisits⟩, h.member, hSlices,
      hOthers⟩

/-- One tick of the kernel is one tick of the rota. -/
theorem Shows.sysTick (hStart : k₀.SliceStart p c) (h : Shows k₀ p n k r)
    (hIn : r.InSlice k₀.slices) (hWrap : k₀.dosTickCount + (n + 1) < 2 ^ 32)
    (hDue : ∀ t ∈ k₀.lists.items k₀.dosTaskSleepList,
      k₀.dosTickCount + (n + 1) < k₀.lists.value .status t) :
    Shows k₀ p (n + 1) k.sysTick (r.tick k₀.slices) := by
  have hQuiet := h.quiet
  have hClock := h.clock
  obtain ⟨lists, w, hHandler, hLists⟩ := sysTickHandler_eq
    (hQuiet.running.trans hStart.running) (hQuiet.outside.trans hStart.outside)
    (by rw [hClock]; exact hWrap)
    (by
      intro t ht
      rw [hQuiet.items, hQuiet.sleepList] at ht
      rw [hClock, hQuiet.value]
      exact hDue t ht)
  obtain ⟨hLinked, hItems, hValue, hCursors⟩ := first_of_sleepList hQuiet.sound hLists
  -- the tick is counted before the scheduler is called
  have hCounted : Shows k₀ p (n + 1) { k with
      lists := lists
      dosNextWakeTick := w
      dosTickCount := k.dosTickCount + 1
      interruptCount := 0 } r := by
    obtain ⟨d, rest, hRing, hCurrent, hCursor, hVisits⟩ := h.head
    refine ⟨⟨⟨hLinked, hQuiet.sound.pair⟩, hQuiet.config, hQuiet.words, hQuiet.sleepList,
      hQuiet.running, hQuiet.unlocked, hStart.outside.symm, hQuiet.settled, ?_, ?_, hQuiet.task⟩,
      ?_, ⟨d, rest, hRing, hCurrent, ?_, ?_⟩, h.member, h.left, h.other⟩
    · exact fun l => (hItems l).trans (hQuiet.items l)
    · exact fun c t => (hValue c t).trans (hQuiet.value c t)
    · show k.dosTickCount + 1 = _
      rw [hClock, Nat.add_assoc]
    · exact (hCursors p).trans hCursor
    · rw [← hVisits]
      simp only [TaskLists.visits, hItems, hCursors]
  have hNext := hCounted.schedule hStart hIn
  unfold Kernel.sysTick
  rw [hHandler]
  exact hNext

/-- The kernel follows the rota as long as no sleeping task is due. -/
theorem shows_ticks {N : Nat} (h : k.SliceStart p c) (hWrap : k.dosTickCount + N < 2 ^ 32)
    (hDue : ∀ t ∈ k.lists.items k.dosTaskSleepList, k.dosTickCount + N < k.lists.value .status t)
    (hn : n ≤ N) :
    Shows k p n (Kernel.sysTick^[n] k) ((Rota.tick k.slices)^[n]
        ⟨turnsFrom (k.lists.items (.priority p)) c, k.slices⟩) ∧
      ((Rota.tick k.slices)^[n]
        ⟨turnsFrom (k.lists.items (.priority p)) c, k.slices⟩).InSlice k.slices := by
  induction n with
  | zero =>
      have hFirst := shows_start h
      refine ⟨hFirst, ?_⟩
      exact fun t ht => ⟨(h.slice t ((hFirst.member t).mp ht)).1, Nat.le_refl _⟩
  | succ n ih =>
      obtain ⟨hShows, hIn⟩ := ih (by omega)
      rw [Function.iterate_succ_apply', Function.iterate_succ_apply']
      refine ⟨hShows.sysTick h hIn (by omega) ?_, ?_⟩
      · intro t ht
        have hLater := hDue t ht
        omega
      · exact hIn.tick fun t ht => (h.slice t ((hShows.member t).mp ht)).1

end Step

/-- Ready tasks of the most urgent priority take turns: each runs for its whole
slice, in the order of the ready list, and after the sum of the slices the list,
its cursor and the slices are as at the start. -/
theorem time_slices_rotate (k : Kernel) (p : Nat) (c : TaskId) (h : k.SliceStart p c) (N : Nat)
    (hWrap : k.dosTickCount + N < 2 ^ 32)
    (hDue : ∀ t ∈ k.lists.items k.dosTaskSleepList, k.dosTickCount + N < k.lists.value .status t)
    (n : Nat) (hn : n ≤ N) :
    (sysTick^[n] k).dosCurrentTask =
        ((turnsFrom (k.lists.items (.priority p)) c).flatMap fun t =>
          List.replicate (k.tcb t).taskInitTick t)[n %
            ((k.lists.items (.priority p)).map fun t => (k.tcb t).taskInitTick).sum]? ∧
      (∀ t ∈ k.lists.items (.priority p), 1 ≤ ((sysTick^[n] k).tcb t).taskTick ∧
        ((sysTick^[n] k).tcb t).taskTick ≤ (k.tcb t).taskInitTick) ∧
      (((k.lists.items (.priority p)).map fun t => (k.tcb t).taskInitTick).sum ∣ n →
        (∀ l, (sysTick^[n] k).lists.items l = k.lists.items l) ∧
        (sysTick^[n] k).lists.cursor (.priority p) = some c ∧
        ∀ t, ((sysTick^[n] k).tcb t).taskTick = (k.tcb t).taskTick) := by
  have hStart := shows_start h
  obtain ⟨hShows, hIn⟩ := shows_ticks h hWrap hDue hn
  have hPerm : (turnsFrom (k.lists.items (.priority p)) c).Perm (k.lists.items (.priority p)) := by
    have hSplit := List.takeWhile_append_dropWhile (p := (· ≠ c)) (l := k.lists.items (.priority p))
    exact List.perm_append_comm.trans (List.Perm.of_eq hSplit)
  have hCycle : Rota.cycle k.slices (turnsFrom (k.lists.items (.priority p)) c) =
      ((k.lists.items (.priority p)).map fun t => (k.tcb t).taskInitTick).sum :=
    (hPerm.map k.slices).sum_eq
  have hFull : ∀ t ∈ turnsFrom (k.lists.items (.priority p)) c,
      k.slices t = k.slices t ∧ 1 ≤ k.slices t :=
    fun t ht => ⟨rfl, (h.slice t ((hStart.member t).mp ht)).1⟩
  refine ⟨?_, ?_, ?_⟩
  · obtain ⟨d, rest, hRing, hCurrent, _⟩ := hShows.head
    have hSome : turnsFrom (k.lists.items (.priority p)) c ≠ [] := by
      obtain ⟨_, _, hCons, _⟩ := hStart.head
      rw [show turnsFrom (k.lists.items (.priority p)) c = _ from hCons]
      exact List.cons_ne_nil _ _
    have hHead := Rota.head_ticks hFull hSome n
    rw [hRing, hCycle] at hHead
    exact hCurrent.trans hHead
  · intro t ht
    have hMem := (hShows.member t).mpr ht
    rw [hShows.left t hMem]
    exact hIn t hMem
  · rintro ⟨m, rfl⟩
    have hBack := (Rota.ticks_cycle hFull).const_mul m
    rw [hCycle, Nat.mul_comm] at hBack
    rw [hBack] at hShows
    obtain ⟨d, rest, hRing, _, hCursor, _⟩ := hShows.head
    obtain ⟨e, others, hTurns, _, hOld, _⟩ := hStart.head
    have hSame : d = e := (List.cons.inj (hRing.symm.trans hTurns)).1
    refine ⟨hShows.quiet.items, ?_, ?_⟩
    · rw [hCursor, hSame, ← hOld, h.cursor]
    · intro t
      by_cases ht : t ∈ turnsFrom (k.lists.items (.priority p)) c
      · exact (hShows.left t ht).trans (h.full t ((hStart.member t).mp ht)).symm
      · exact hShows.other t ht

/-- In a reachable state with at most 32 priorities the table marks exactly the
non-empty ready lists. -/
theorem Membership.marked_iff {cfg : Config} (h : Membership cfg k)
    (hMax : cfg.dosMaxPriorityNum ≤ 32) (q : Nat) :
    (k.Marked q ↔ k.lists.items (.priority q) ≠ []) ∧
      (k.lists.items (.priority q) ≠ [] → q < k.config.dosMaxPriorityNum) := by
  have hWord := h.one_word hMax
  refine ⟨?_, ?_⟩
  · rw [Marked, if_neg (Nat.not_lt.mpr hWord)]
    exact h.bitmap hMax q
  · intro hSome
    obtain ⟨t, ht⟩ := List.exists_mem_of_ne_nil _ hSome
    obtain ⟨hLive, hPrio⟩ := (h.readyLists hMax).member q t ht
    rw [← hPrio, h.config]
    exact (h.live t hLive).priority_lt

/-- Two tasks with slices of two ticks and one tick: the first runs in the first
two of every three ticks. -/
theorem time_slices_rotate_two :
    ∃ k₀ k, dosTaskInit shippedConfig 0 = some k₀ ∧
      Transition.Runs kernelStep k₀ [.create 1 3 2, .create 2 3 1, .start] k ∧ k.SliceStart 3 1 ∧
      (sysTick^[1] k).dosCurrentTask = some 1 ∧ (sysTick^[2] k).dosCurrentTask = some 2 ∧
      (sysTick^[3] k).dosCurrentTask = some 1 ∧
      (sysTick^[3] k).lists.cursor (.priority 3) = some 1 := by
  let k₀ := (dosTaskInit shippedConfig 0).get (by decide)
  have hInit : dosTaskInit shippedConfig 0 = some k₀ := (Option.some_get _).symm
  let k := (Transition.exec kernelStep k₀ [.create 1 3 2, .create 2 3 1, .start]).get
    (by decide +kernel)
  have hRun : Transition.Runs kernelStep k₀ [.create 1 3 2, .create 2 3 1, .start] k :=
    Transition.runs_of_isSome _
  have hOk := membership_run hInit hRun
  have hItems : k.lists.items (.priority 3) = [1, 2] := by decide +kernel
  have hStart : k.SliceStart 3 1 := by
    refine ⟨⟨hOk.linked, hOk.pair⟩, by decide +kernel, by decide +kernel, by decide +kernel,
      by decide +kernel, fun q => (hOk.marked_iff (by decide) q).1,
      fun q => (hOk.marked_iff (by decide) q).2, by decide +kernel, by decide +kernel, ?_, ?_, ?_,
      by decide +kernel, by decide +kernel⟩
    · rw [hItems]
      decide +kernel
    · rw [hItems]
      decide +kernel
    · rw [hItems]
      decide +kernel
  have hNone : k.lists.items k.dosTaskSleepList = [] := by decide +kernel
  have hTicks := time_slices_rotate k 3 1 hStart 3 (by decide +kernel)
    (by rw [hNone]; nofun)
  have hTurns : ((turnsFrom (k.lists.items (.priority 3)) 1).flatMap fun t =>
      List.replicate (k.tcb t).taskInitTick t) = [1, 1, 2] := by decide +kernel
  have hSum : ((k.lists.items (.priority 3)).map fun t => (k.tcb t).taskInitTick).sum = 3 := by
    decide +kernel
  rw [hTurns, hSum] at hTicks
  exact ⟨k₀, k, hInit, hRun, hStart, (hTicks 1 (by decide)).1, (hTicks 2 (by decide)).1,
    (hTicks 3 (by decide)).1, ((hTicks 3 (by decide)).2.2 (Nat.dvd_refl 3)).2.1⟩

end Kernel

end DoraOS
