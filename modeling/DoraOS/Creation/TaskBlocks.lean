import DoraOS.Creation.Creators
import DoraOS.Memory.HeapStore

/-! The blocks of the tasks. A task has two blocks of the heap, and the pointer to
its stack is a word of its control block. A task is released in three places, by
two calls of `dos_mem_free`, of which the second reads its argument from the block
that the first has freed. Nothing runs between the two. -/
namespace DoraOS

def Heap.taskBlocks (h : Heap) (task : Nat) : List Nat := [task, h.stackAddr task]

/-- The heap, the control blocks of tasks that have no stack yet, of complete
tasks, and of tasks on the recycle list, and the blocks of all other callers. -/
structure TaskHeap where
  heap : Heap
  fresh : List Nat
  tasks : List Nat
  recycled : List Nat
  others : List Nat

/-- `create` and `stack` are the two allocations of `dos_task_create`, `delete` is
`dos_task_delete` of another task and `exit` that of the task itself, and `recycle`
is done by the idle task. -/
inductive TaskHeapEvent where
  | create
  | stack (task size : Nat)
  | delete (task : Nat)
  | exit (task : Nat)
  | recycle (task : Nat)
  | alloc (size : Nat)
  | free (mem : Nat)
  | write (mem offset word : Nat)

namespace TaskHeap

def held (x : TaskHeap) : List Nat :=
  x.others ++ x.fresh ++ (x.tasks ++ x.recycled).flatMap x.heap.taskBlocks

/-- One step. What is written to a control block leaves `stack_addr` alone. -/
def step (x : TaskHeap) : TaskHeapEvent → Option TaskHeap
  | .create =>
      (x.heap.dosMemAlloc sizeofTask).map fun r =>
        { x with heap := r.1, fresh := if r.2 = 0 then x.fresh else r.2 :: x.fresh }
  | .stack task size =>
      if task ∈ x.fresh then
        (x.heap.dosMemAlloc size).bind fun r =>
          if r.2 = 0 then
            (r.1.dosMemFree task).map fun f => { x with heap := f.1, fresh := x.fresh.erase task }
          else some { x with
            heap := r.1.write (task + 4) r.2
            fresh := x.fresh.erase task
            tasks := task :: x.tasks }
      else none
  | .delete task =>
      if task ∈ x.tasks then
        (x.heap.releaseTask task).map fun h => { x with heap := h, tasks := x.tasks.erase task }
      else none
  | .exit task =>
      if task ∈ x.tasks then
        some { x with tasks := x.tasks.erase task, recycled := task :: x.recycled }
      else none
  | .recycle task =>
      if task ∈ x.recycled then
        (x.heap.releaseTask task).map fun h => { x with heap := h, recycled := x.recycled.erase task }
      else none
  | .alloc size =>
      (x.heap.dosMemAlloc size).map fun r =>
        { x with heap := r.1, others := if r.2 = 0 then x.others else r.2 :: x.others }
  | .free mem =>
      if mem ∈ x.others then
        (x.heap.dosMemFree mem).map fun r => { x with heap := r.1, others := x.others.erase mem }
      else none
  | .write mem offset word =>
      if mem ∈ x.held ∧ (mem ∈ x.tasks ++ x.recycled → offset ≠ 4) ∧
          offset + 4 ≤ x.heap.userSize mem ∧ offset % 4 = 0 then
        some { x with heap := x.heap.write (mem + offset) word }
      else none

def Cuts (x : TaskHeap) : TaskHeapEvent → Prop
  | .create => x.heap.Cuts sizeofTask
  | .stack _ size => x.heap.Cuts size
  | .alloc size => x.heap.Cuts size
  | _ => True

instance (x : TaskHeap) : (event : TaskHeapEvent) → Decidable (x.Cuts event)
  | .create => inferInstanceAs (Decidable (x.heap.Cuts sizeofTask))
  | .stack _ size => inferInstanceAs (Decidable (x.heap.Cuts size))
  | .alloc size => inferInstanceAs (Decidable (x.heap.Cuts size))
  | .delete _ | .exit _ | .recycle _ | .free _ | .write _ _ _ => inferInstanceAs (Decidable True)

end TaskHeap

/-- The heap is reached from `h₀` by calls that free held blocks only, and `held`
are the blocks that are left. -/
def Heap.Lends (h₀ h : Heap) (held : List Nat) : Prop :=
  ∃ events live bs, Transition.RunsIf heapStep CutsNode ⟨h₀, []⟩ events ⟨h, live⟩ ∧
    HeapOk h₀ ⟨h, live⟩ bs ∧ live.Perm held

namespace Heap.Lends

variable {h₀ h : Heap} {held held' : List Nat} {p size offset : Nat}

theorem perm (hLends : Lends h₀ h held) (hPerm : held.Perm held') : Lends h₀ h held' := by
  obtain ⟨events, live, bs, hRun, hOk, hLive⟩ := hLends
  exact ⟨events, live, bs, hRun, hOk, hLive.trans hPerm⟩

theorem nodup (hLends : Lends h₀ h held) : held.Nodup := by
  obtain ⟨events, live, bs, hRun, hOk, hLive⟩ := hLends
  exact hLive.nodup_iff.mp hOk.nodup

theorem alloc (hLends : Lends h₀ h held) (hCuts : h.Cuts size) {r : Heap × Nat}
    (hAlloc : h.dosMemAlloc size = some r) :
    Lends h₀ r.1 (if r.2 = 0 then held else r.2 :: held) ∧
      (r.2 ≠ 0 → r.1.userSize r.2 = dosAlign size) ∧ ∀ q ∈ held, h.SameBlock r.1 q := by
  obtain ⟨events, live, bs, hRun, hOk, hLive⟩ := hLends
  have hStep : heapStep ⟨h, live⟩ (.alloc size) =
      some ⟨r.1, if r.2 = 0 then live else r.2 :: live⟩ := by
    simp only [heapStep, hAlloc, Option.map_some]
  have hCuts : CutsNode ⟨h, live⟩ (.alloc size) := hCuts
  obtain ⟨bs', hOk'⟩ := hOk.alloc hCuts hStep
  obtain ⟨hNew, hSame⟩ := hOk.alloc_same hCuts hStep
  refine ⟨⟨_, _, bs', hRun.snoc hCuts hStep, hOk', ?_⟩, ?_,
    fun q hq => hSame q (hLive.mem_iff.mpr hq)⟩
  · split
    · exact hLive
    · exact hLive.cons _
  · intro hNe
    simp only [if_neg hNe, HeapRun.mk.injEq, List.cons.injEq] at hNew
    rcases hNew with ⟨-, hLoop⟩ | ⟨q, -, ⟨rfl, -⟩, hSize⟩
    · exact absurd hLoop (List.cons_ne_self _ _)
    · exact hSize

/-- A held block can be freed, and its words stay for the moment. -/
theorem free (hLends : Lends h₀ h held) (hp : p ∈ held) :
    ∃ h', h.dosMemFree p = some (h', true) ∧ Lends h₀ h' (held.erase p) ∧
      (∀ y, p ≤ y → y < p + h.userSize p → h'.mem y = h.mem y) ∧
      ∀ q ∈ held, q ≠ p → h.SameBlock h' q := by
  obtain ⟨events, live, bs, hRun, hOk, hLive⟩ := hLends
  have hMem : p ∈ live := hLive.mem_iff.mpr hp
  have hPerm := List.perm_cons_erase (hOk.area hMem)
  obtain ⟨h', -, hFree, -⟩ := (hOk.owns.perm hPerm.symm).free
  have hStep : heapStep ⟨h, live⟩ (.free p) = some ⟨h', live.erase p⟩ := by
    simp only [heapStep, if_pos hMem, hFree, Option.map_some]
  obtain ⟨bs', hOk'⟩ := hOk.free hStep
  obtain ⟨hWords, hSame⟩ := hOk.free_same hStep
  have hCuts : CutsNode ⟨h, live⟩ (.free p) := trivial
  exact ⟨h', hFree, ⟨_, _, bs', hRun.snoc hCuts hStep, hOk', hLive.erase p⟩, hWords,
    fun q hq => hSame q (hLive.mem_iff.mpr hq)⟩

theorem store (hLends : Lends h₀ h held) (word : Nat) (hp : p ∈ held)
    (hInside : offset + 4 ≤ h.userSize p)
    (hAligned : offset % 4 = 0) :
    Lends h₀ (h.write (p + offset) word) held ∧
      (∀ q ∈ held, (h.write (p + offset) word).userSize q = h.userSize q) ∧
      (h.write (p + offset) word).mem (p + offset) = word ∧
      (∀ y, y ≠ p + offset → (h.write (p + offset) word).mem y = h.mem y) ∧
      ∀ q ∈ held, q ≠ p → h.SameBlock (h.write (p + offset) word) q := by
  obtain ⟨events, live, bs, hRun, hOk, hLive⟩ := hLends
  have hMem : p ∈ live := hLive.mem_iff.mpr hp
  have hStep : heapStep ⟨h, live⟩ (.store p offset word) =
      some ⟨h.write (p + offset) word, live⟩ := by
    exact if_pos ⟨hMem, hInside, hAligned⟩
  obtain ⟨bs', hOk'⟩ := hOk.store hStep
  obtain ⟨hSize, hHere, hElse, hSame⟩ := hOk.store_same hStep
  have hCuts : CutsNode ⟨h, live⟩ (.store p offset word) := trivial
  exact ⟨⟨_, _, bs', hRun.snoc hCuts hStep, hOk', hLive⟩,
    fun q hq => hSize q (hLive.mem_iff.mpr hq), hHere, hElse,
    fun q hq => hSame q (hLive.mem_iff.mpr hq)⟩

end Heap.Lends

/-- The held blocks are those that the heap has lent, and a control block is large
enough for its fields. -/
structure TaskHeap.Kept (h₀ : Heap) (x : TaskHeap) : Prop where
  lends : h₀.Lends x.heap x.held
  sizeofTask : ∀ task ∈ x.fresh ++ (x.tasks ++ x.recycled), sizeofTask ≤ x.heap.userSize task

theorem Heap.SameBlock.stackAddr {h h' : Heap} {task : Nat} (hSame : h.SameBlock h' task)
    (hSize : sizeofTask ≤ h.userSize task) : h'.stackAddr task = h.stackAddr task := by
  unfold sizeofTask at hSize
  exact hSame.word (task + 4) (by omega) (by omega)

theorem Heap.flatMap_taskBlocks {h h' : Heap} {ts : List Nat}
    (hStack : ∀ t ∈ ts, h'.stackAddr t = h.stackAddr t) :
    ts.flatMap h'.taskBlocks = ts.flatMap h.taskBlocks :=
  List.flatMap_congr fun t ht => by rw [taskBlocks, hStack t ht, taskBlocks]

namespace TaskHeap

variable {h₀ : Heap} {x x' : TaskHeap} {task mem size offset word : Nat}

theorem mem_blocks {h : Heap} {others fresh ts : List Nat} (ht : task ∈ fresh ++ ts) :
    task ∈ others ++ fresh ++ ts.flatMap h.taskBlocks := by
  rcases List.mem_append.mp ht with hFresh | hTask
  · exact List.mem_append_left _ (List.mem_append_right _ hFresh)
  · exact List.mem_append_right _ (List.mem_flatMap.mpr ⟨task, hTask, List.mem_cons_self⟩)

theorem mem_held_of_task (h : task ∈ x.fresh ++ (x.tasks ++ x.recycled)) : task ∈ x.held :=
  mem_blocks h

namespace Kept

/-- The pointers in the control blocks are those in the heap of `x`. -/
theorem of_lends
    (hLends : h₀.Lends x'.heap
      (x'.others ++ x'.fresh ++ (x'.tasks ++ x'.recycled).flatMap x.heap.taskBlocks))
    (hStack : ∀ t ∈ x'.tasks ++ x'.recycled, x'.heap.stackAddr t = x.heap.stackAddr t)
    (hSize : ∀ t ∈ x'.fresh ++ (x'.tasks ++ x'.recycled), DoraOS.sizeofTask ≤ x'.heap.userSize t) :
    Kept h₀ x' := by
  refine ⟨?_, hSize⟩
  rw [held, Heap.flatMap_taskBlocks hStack]
  exact hLends

/-- The same if the control blocks are as they were. -/
theorem of_same (hKept : Kept h₀ x)
    (hLends : h₀.Lends x'.heap
      (x'.others ++ x'.fresh ++ (x'.tasks ++ x'.recycled).flatMap x.heap.taskBlocks))
    (hMem : ∀ t ∈ x'.fresh ++ (x'.tasks ++ x'.recycled), t ∈ x.fresh ++ (x.tasks ++ x.recycled))
    (hSame : ∀ t ∈ x'.fresh ++ (x'.tasks ++ x'.recycled), x.heap.SameBlock x'.heap t) :
    Kept h₀ x' := by
  refine of_lends hLends (fun t ht => ?_) (fun t ht => ?_)
  · have ht := List.mem_append_right x'.fresh ht
    exact (hSame t ht).stackAddr (hKept.sizeofTask t (hMem t ht))
  · rw [(hSame t ht).size]
    exact hKept.sizeofTask t (hMem t ht)

theorem alloc (hKept : Kept h₀ x) (hCuts : x.heap.Cuts size) {r : Heap × Nat}
    (hAlloc : x.heap.dosMemAlloc size = some r) :
    Kept h₀ { x with heap := r.1, others := if r.2 = 0 then x.others else r.2 :: x.others } := by
  obtain ⟨hLends, -, hSame⟩ := hKept.lends.alloc hCuts hAlloc
  refine hKept.of_same ?_ (fun t ht => ht) fun t ht => hSame t (mem_held_of_task ht)
  split at hLends
  · rwa [if_pos ‹_›]
  · rwa [if_neg ‹_›]

theorem create (hKept : Kept h₀ x) (hCuts : x.heap.Cuts DoraOS.sizeofTask) {r : Heap × Nat}
    (hAlloc : x.heap.dosMemAlloc DoraOS.sizeofTask = some r) :
    Kept h₀ { x with heap := r.1, fresh := if r.2 = 0 then x.fresh else r.2 :: x.fresh } := by
  obtain ⟨hLends, hNew, hSame⟩ := hKept.lends.alloc hCuts hAlloc
  by_cases hNull : r.2 = 0
  · rw [if_pos hNull] at hLends ⊢
    exact hKept.of_same hLends (fun t ht => ht) fun t ht => hSame t (mem_held_of_task ht)
  · rw [if_neg hNull] at hLends ⊢
    have hOld (t : Nat) (ht : t ∈ x.fresh ++ (x.tasks ++ x.recycled)) :=
      hSame t (mem_held_of_task ht)
    refine of_lends (x := x) (hLends.perm ?_) (fun t ht => ?_) (fun t ht => ?_)
    · simp only [held, List.append_assoc, List.cons_append]
      exact List.perm_middle.symm
    · have ht := List.mem_append_right x.fresh ht
      exact (hOld t ht).stackAddr (hKept.sizeofTask t ht)
    · rcases List.mem_cons.mp ht with rfl | ht
      · rw [hNew hNull]
        decide
      · rw [(hOld t ht).size]
        exact hKept.sizeofTask t ht

theorem free (hKept : Kept h₀ x) (hMem : mem ∈ x.others) :
    ∃ h, x.heap.dosMemFree mem = some (h, true) ∧
      Kept h₀ { x with heap := h, others := x.others.erase mem } := by
  have hNodup := hKept.lends.nodup
  have hHeld : mem ∈ x.held := List.mem_append_left _ (List.mem_append_left _ hMem)
  obtain ⟨h, hFree, hLends, -, hSame⟩ := hKept.lends.free hHeld
  refine ⟨h, hFree, hKept.of_same ?_ (fun t ht => ht) fun t ht => ?_⟩
  · rw [held, List.append_assoc, List.erase_append_left _ hMem, ← List.append_assoc] at hLends
    exact hLends
  · refine hSame t (mem_held_of_task ht) ?_
    rintro rfl
    rw [held, List.append_assoc] at hNodup
    exact List.disjoint_of_nodup_append hNodup hMem (show t ∈ [] ++ x.fresh ++ _ from mem_blocks ht)

/-- The two calls of `dos_mem_free` for a task succeed, although the second one
reads its argument from a freed block. -/
theorem release (hKept : Kept h₀ x) (hTask : task ∈ x.tasks ++ x.recycled) :
    ∃ h₁ h₂, x.heap.dosMemFree task = some (h₁, true) ∧
      h₁.stackAddr task = x.heap.stackAddr task ∧
      h₁.dosMemFree (h₁.stackAddr task) = some (h₂, true) ∧
      h₀.Lends h₂ (x.others ++ x.fresh ++
        ((x.tasks ++ x.recycled).erase task).flatMap x.heap.taskBlocks) ∧
      ∀ t ∈ x.fresh ++ (x.tasks ++ x.recycled).erase task, x.heap.SameBlock h₂ t := by
  let rest := x.others ++ x.fresh ++ ((x.tasks ++ x.recycled).erase task).flatMap x.heap.taskBlocks
  have hPerm : x.held.Perm (task :: x.heap.stackAddr task :: rest) := by
    have hBlocks := (List.perm_cons_erase hTask).flatMap_right x.heap.taskBlocks
    refine (hBlocks.append_left (x.others ++ x.fresh)).trans ?_
    rw [List.flatMap_cons, Heap.taskBlocks]
    exact List.perm_middle.trans (List.perm_middle.cons _)
  have hLends := hKept.lends.perm hPerm
  obtain ⟨hNotTask, hNotStack⟩ := List.nodup_cons.mp hLends.nodup
  rw [List.mem_cons, not_or] at hNotTask
  have hNotStack := (List.nodup_cons.mp hNotStack).1
  have hSize := hKept.sizeofTask task (List.mem_append_right _ hTask)
  obtain ⟨h₁, hFree₁, hLends₁, hWords, hSame₁⟩ := hLends.free List.mem_cons_self
  have hStack : h₁.stackAddr task = x.heap.stackAddr task := by
    unfold DoraOS.sizeofTask at hSize
    exact hWords (task + 4) (by omega) (by omega)
  rw [List.erase_cons_head] at hLends₁
  obtain ⟨h₂, hFree₂, hLends₂, -, hSame₂⟩ := hLends₁.free List.mem_cons_self
  rw [List.erase_cons_head] at hLends₂
  refine ⟨h₁, h₂, hFree₁, hStack, by rw [hStack]; exact hFree₂, hLends₂, fun t ht => ?_⟩
  have hRest : t ∈ rest := mem_blocks ht
  have hNe₁ : t ≠ task := fun he => hNotTask.2 (he ▸ hRest)
  have hNe₂ : t ≠ x.heap.stackAddr task := fun he => hNotStack (he ▸ hRest)
  have hMem : t ∈ x.heap.stackAddr task :: rest := List.mem_cons_of_mem _ hRest
  exact (hSame₁ t (List.mem_cons_of_mem _ hMem) hNe₁).trans (hSame₂ t hMem hNe₂)

/-- A task is released, wherever it was listed. -/
theorem released (hKept : Kept h₀ x) (hTask : task ∈ x.tasks ++ x.recycled) {tasks recycled : List Nat}
    (hErase : (x.tasks ++ x.recycled).erase task = tasks ++ recycled) {h : Heap}
    (hRelease : x.heap.releaseTask task = some h) :
    Kept h₀ { x with heap := h, tasks := tasks, recycled := recycled } := by
  obtain ⟨h₁, h₂, hFree₁, -, hFree₂, hLends, hSame⟩ := hKept.release hTask
  rw [Heap.releaseTask, hFree₁, Option.bind_some, hFree₂, Option.map_some] at hRelease
  obtain rfl := Option.some.inj hRelease
  rw [hErase] at hLends hSame
  refine hKept.of_same hLends (fun t ht => ?_) hSame
  rcases List.mem_append.mp ht with hFresh | hRest
  · exact List.mem_append_left _ hFresh
  · exact List.mem_append_right _ (List.mem_of_mem_erase (hErase ▸ hRest))

/-- No task is listed twice. -/
theorem nodup_tasks (hKept : Kept h₀ x) : (x.tasks ++ x.recycled).Nodup := by
  have hNodup := (List.nodup_append.mp hKept.lends.nodup).2.1
  have hSub : (x.tasks ++ x.recycled).Sublist ((x.tasks ++ x.recycled).flatMap x.heap.taskBlocks) := by
    induction x.tasks ++ x.recycled with
    | nil => exact .slnil
    | cons t ts ih => exact (ih.cons (x.heap.stackAddr t)).cons_cons t
  exact hNodup.sublist hSub

theorem exit (hKept : Kept h₀ x) (hTask : task ∈ x.tasks) :
    Kept h₀ { x with tasks := x.tasks.erase task, recycled := task :: x.recycled } := by
  have hPerm : (x.tasks ++ x.recycled).Perm (x.tasks.erase task ++ task :: x.recycled) :=
    ((List.perm_cons_erase hTask).append_right _).trans List.perm_middle.symm
  refine hKept.of_same (hKept.lends.perm ?_) (fun t ht => ?_) fun _ _ => .rfl
  · exact (hPerm.flatMap_right _).append_left _
  · exact ((hPerm.append_left _).mem_iff).mpr ht

/-- A control block without a stack among the held blocks. -/
theorem perm_fresh (hFresh : task ∈ x.fresh) : x.held.Perm (task ::
    (x.others ++ x.fresh.erase task ++ (x.tasks ++ x.recycled).flatMap x.heap.taskBlocks)) := by
  have hErase := (List.perm_cons_erase hFresh).append_left x.others
  exact (hErase.trans List.perm_middle).append_right _

theorem ne_of_fresh (hKept : Kept h₀ x) (hFresh : task ∈ x.fresh) {t : Nat}
    (ht : t ∈ x.fresh.erase task ++ (x.tasks ++ x.recycled)) : t ≠ task := by
  have hNodup := (hKept.lends.perm (perm_fresh hFresh)).nodup
  rintro rfl
  exact (List.nodup_cons.mp hNodup).1 (mem_blocks ht)

theorem mem_of_erase {t : Nat} (ht : t ∈ x.fresh.erase task ++ (x.tasks ++ x.recycled)) :
    t ∈ x.fresh ++ (x.tasks ++ x.recycled) :=
  (List.mem_append.mp ht).elim (fun h => List.mem_append_left _ (List.mem_of_mem_erase h))
    (List.mem_append_right _)

/-- A task gets its stack. -/
theorem stack (hKept : Kept h₀ x) (hFresh : task ∈ x.fresh) (hCuts : x.heap.Cuts size) {r : Heap × Nat}
    (hAlloc : x.heap.dosMemAlloc size = some r) (hStack : r.2 ≠ 0) :
    Kept h₀ { x with
      heap := r.1.write (task + 4) r.2
      fresh := x.fresh.erase task
      tasks := task :: x.tasks } := by
  obtain ⟨hLends, -, hSame⟩ := hKept.lends.alloc hCuts hAlloc
  rw [if_neg hStack] at hLends
  have hAll : task ∈ x.fresh ++ (x.tasks ++ x.recycled) := List.mem_append_left _ hFresh
  have hMem := mem_held_of_task hAll
  have hRoom := hKept.sizeofTask task hAll
  have hInside : 4 + 4 ≤ r.1.userSize task := by
    rw [(hSame task hMem).size]
    unfold DoraOS.sizeofTask at hRoom
    omega
  obtain ⟨hLends', hSize, hHere, -, hOthers⟩ :=
    hLends.store r.2 (List.mem_cons_of_mem _ hMem) hInside rfl
  have hElse (t : Nat) (ht : t ∈ x.fresh.erase task ++ (x.tasks ++ x.recycled)) :
      x.heap.SameBlock (r.1.write (task + 4) r.2) t :=
    have hHeld := mem_held_of_task (mem_of_erase ht)
    (hSame t hHeld).trans (hOthers t (List.mem_cons_of_mem _ hHeld) (hKept.ne_of_fresh hFresh ht))
  have hBlocks : (x.tasks ++ x.recycled).flatMap (r.1.write (task + 4) r.2).taskBlocks =
      (x.tasks ++ x.recycled).flatMap x.heap.taskBlocks :=
    Heap.flatMap_taskBlocks fun t ht => (hElse t (List.mem_append_right _ ht)).stackAddr
      (hKept.sizeofTask t (List.mem_append_right _ ht))
  refine ⟨hLends'.perm ?_, fun t ht => ?_⟩
  · have hNew : (r.1.write (task + 4) r.2).stackAddr task = r.2 := hHere
    have hPerm := ((perm_fresh hFresh).cons r.2).trans (List.Perm.swap task r.2 _)
    simp only [held, List.cons_append, List.flatMap_cons, hBlocks]
    rw [Heap.taskBlocks, hNew]
    exact hPerm.trans (((List.perm_middle.trans (List.perm_middle.cons _))).symm)
  · rcases List.mem_append.mp ht with hErase | hTask
    · rw [(hElse t (List.mem_append_left _ hErase)).size]
      exact hKept.sizeofTask t (List.mem_append_left _ (List.mem_of_mem_erase hErase))
    · rw [List.cons_append, List.mem_cons] at hTask
      rcases hTask with rfl | hTask
      · rw [hSize t (List.mem_cons_of_mem _ hMem), (hSame t hMem).size]
        exact hRoom
      · rw [(hElse t (List.mem_append_right _ hTask)).size]
        exact hKept.sizeofTask t (List.mem_append_right _ hTask)

/-- There is no memory for the stack of a task. -/
theorem undo (hKept : Kept h₀ x) (hFresh : task ∈ x.fresh) (hCuts : x.heap.Cuts size) {r : Heap × Nat}
    (hAlloc : x.heap.dosMemAlloc size = some r) (hNull : r.2 = 0) :
    ∃ h, r.1.dosMemFree task = some (h, true) ∧
      Kept h₀ { x with heap := h, fresh := x.fresh.erase task } := by
  obtain ⟨hLends, -, hSame⟩ := hKept.lends.alloc hCuts hAlloc
  rw [if_pos hNull] at hLends
  obtain ⟨h, hFree, hLends', -, hSame'⟩ := (hLends.perm (perm_fresh hFresh)).free List.mem_cons_self
  rw [List.erase_cons_head] at hLends'
  refine ⟨h, hFree, hKept.of_same hLends' (fun t ht => mem_of_erase ht) fun t ht => ?_⟩
  have hHeld := mem_held_of_task (mem_of_erase ht)
  exact (hSame t hHeld).trans
    (hSame' t ((perm_fresh hFresh).mem_iff.mp hHeld) (hKept.ne_of_fresh hFresh ht))

theorem write (hKept : Kept h₀ x) (hMem : mem ∈ x.held)
    (hField : mem ∈ x.tasks ++ x.recycled → offset ≠ 4)
    (hInside : offset + 4 ≤ x.heap.userSize mem) (hAligned : offset % 4 = 0) :
    Kept h₀ { x with heap := x.heap.write (mem + offset) word } := by
  obtain ⟨hLends, hSize, -, hElse, hOthers⟩ := hKept.lends.store word hMem hInside hAligned
  refine of_lends (x := x) hLends (fun t ht => ?_) (fun t ht => ?_)
  · have hAll := List.mem_append_right x.fresh ht
    by_cases hThis : t = mem
    · have hNe := hField (hThis ▸ ht)
      exact hElse (t + 4) (by omega)
    · exact (hOthers t (mem_held_of_task hAll) hThis).stackAddr (hKept.sizeofTask t hAll)
  · rw [hSize t (mem_held_of_task ht)]
    exact hKept.sizeofTask t ht

theorem step (hKept : Kept h₀ x) {event : TaskHeapEvent} (hCuts : x.Cuts event)
    (hStep : x.step event = some x') : Kept h₀ x' := by
  cases event with
  | create =>
      obtain ⟨r, hAlloc, rfl⟩ := Option.map_eq_some_iff.mp hStep
      exact hKept.create hCuts hAlloc
  | stack task size =>
      simp only [TaskHeap.step, Option.ite_none_right_eq_some, Option.bind_eq_some_iff] at hStep
      obtain ⟨hFresh, r, hAlloc, hStep⟩ := hStep
      split at hStep
      · obtain ⟨h, hFree, hUndone⟩ := hKept.undo hFresh hCuts hAlloc ‹_›
        rw [hFree, Option.map_some] at hStep
        exact Option.some.inj hStep ▸ hUndone
      · exact Option.some.inj hStep ▸ hKept.stack hFresh hCuts hAlloc ‹_›
  | delete task =>
      simp only [TaskHeap.step, Option.ite_none_right_eq_some, Option.map_eq_some_iff] at hStep
      obtain ⟨hTask, h, hRelease, rfl⟩ := hStep
      exact hKept.released (List.mem_append_left _ hTask) (List.erase_append_left _ hTask) hRelease
  | exit task =>
      simp only [TaskHeap.step, Option.ite_none_right_eq_some, Option.some.injEq] at hStep
      obtain ⟨hTask, rfl⟩ := hStep
      exact hKept.exit hTask
  | recycle task =>
      simp only [TaskHeap.step, Option.ite_none_right_eq_some, Option.map_eq_some_iff] at hStep
      obtain ⟨hTask, h, hRelease, rfl⟩ := hStep
      have hOnce : task ∉ x.tasks := fun hBoth =>
        List.disjoint_of_nodup_append hKept.nodup_tasks hBoth hTask
      exact hKept.released (List.mem_append_right _ hTask) (List.erase_append_right _ hOnce) hRelease
  | alloc size =>
      obtain ⟨r, hAlloc, rfl⟩ := Option.map_eq_some_iff.mp hStep
      exact hKept.alloc hCuts hAlloc
  | free mem =>
      simp only [TaskHeap.step, Option.ite_none_right_eq_some] at hStep
      obtain ⟨hMem, hStep⟩ := hStep
      obtain ⟨h, hFree, hFreed⟩ := hKept.free hMem
      rw [hFree, Option.map_some] at hStep
      exact Option.some.inj hStep ▸ hFreed
  | write mem offset word =>
      simp only [TaskHeap.step, Option.ite_none_right_eq_some, Option.some.injEq] at hStep
      obtain ⟨⟨hMem, hField, hInside, hAligned⟩, rfl⟩ := hStep
      exact hKept.write hMem hField hInside hAligned

end Kept

end TaskHeap

/-- In every run of task creations, deletions, exits and recycling among other
callers of an initialised heap, whose allocations cut the node they take, every
block that the kernel frees is held: the calls of the heap are those of callers
that free their own blocks once. A task, complete or on the recycle list, can be
released, the pointer read from its freed block is that of its stack, and when
nobody holds a block the heap is one free node again. -/
theorem task_blocks_are_returned (h : Heap) (mem : Nat → Nat) (memHeap heapSize : Nat)
    (hMade : h.MadeOf mem memHeap heapSize) (events : List TaskHeapEvent) (x : TaskHeap)
    (run : Transition.RunsIf TaskHeap.step TaskHeap.Cuts ⟨h, [], [], [], []⟩ events x) :
    (∃ calls live, Transition.RunsIf heapStep CutsNode ⟨h, []⟩ calls ⟨x.heap, live⟩ ∧
      live.Perm x.held) ∧
    x.held.Nodup ∧
    (∀ task ∈ x.tasks ++ x.recycled, ∃ h₁ h₂, x.heap.dosMemFree task = some (h₁, true) ∧
      h₁.stackAddr task = x.heap.stackAddr task ∧
      h₁.dosMemFree (h₁.stackAddr task) = some (h₂, true)) ∧
    (x.held = [] → x.heap.memTail = x.heap.memHead ∧ x.heap.used x.heap.memHead = 0 ∧
      x.heap.memHeapSize = h.memHeapSize) := by
  obtain ⟨b, hTidy⟩ := HeapTidy.start hMade
  have hStart : TaskHeap.Kept h ⟨h, [], [], [], []⟩ :=
    ⟨⟨[], [], [b], .nil, hTidy.ok, .rfl⟩, by simp⟩
  have hKept := run.invariant (TaskHeap.Kept h) hStart
    fun _ _ _ hKept hCuts hStep => hKept.step hCuts hStep
  obtain ⟨calls, live, bs, hCalls, hOk, hLive⟩ := hKept.lends
  refine ⟨⟨calls, live, hCalls, hLive⟩, hKept.lends.nodup, ?_, ?_⟩
  · intro task hTask
    obtain ⟨h₁, h₂, hFree₁, hStack, hFree₂, -⟩ := hKept.release hTask
    exact ⟨h₁, h₂, hFree₁, hStack, hFree₂⟩
  · intro hNone
    rw [hNone] at hLive
    obtain ⟨bs', hTidy'⟩ := hTidy.runs hCalls
    obtain ⟨-, hTail, hUsed, -, hCount⟩ := hTidy'.emptied hLive.eq_nil hTidy.ok.tiled
    exact ⟨hTail, hUsed, hCount⟩

/-- Two tasks are made, one is deleted by the other, which then ends and is recycled. -/
theorem task_blocks_are_returned_recycled : ∃ x, Transition.RunsIf TaskHeap.step TaskHeap.Cuts
      ⟨(Heap.dosMemHeapInit (fun _ => 0) 0x20000000 512).1, [], [], [], []⟩
      [.create, .stack 0x20000018 64, .create, .alloc 20, .stack 0x200000c4 64,
        .write 0x2000007c 60 7, .write 0x20000018 0 9, .delete 0x20000018, .exit 0x200000c4,
        .free 0x20000128, .write 0x200000c4 8 1, .recycle 0x200000c4] x ∧
    x.held = [] ∧ x.heap.memTail = x.heap.memHead := by
  have hRun : Transition.RunsIf TaskHeap.step TaskHeap.Cuts
      ⟨(Heap.dosMemHeapInit (fun _ => 0) 0x20000000 512).1, [], [], [], []⟩
      [.create, .stack 0x20000018 64, .create, .alloc 20, .stack 0x200000c4 64,
        .write 0x2000007c 60 7, .write 0x20000018 0 9, .delete 0x20000018, .exit 0x200000c4,
        .free 0x20000128, .write 0x200000c4 8 1, .recycle 0x200000c4] _ :=
    Transition.runsIf_of_isSome (by decide +kernel)
  obtain ⟨-, -, -, hEmpty⟩ := task_blocks_are_returned _ (fun _ => 0) 0x20000000 512
    ⟨rfl, by decide +kernel, by decide +kernel, by decide⟩ _ _ hRun
  exact ⟨_, hRun, by decide +kernel, (hEmpty (by decide +kernel)).1⟩

end DoraOS
