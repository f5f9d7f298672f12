import DoraOS.Creation.Creators
import DoraOS.Memory.HeapStore
import DoraOS.Port.SwitchRun

/-! Where the memory of the tasks comes from. The control block and the stack
of a task are two blocks of the heap. -/
namespace DoraOS

/-- The two blocks of the task are held. A task is named by its control block. -/
structure Thread.Allocated (t : Thread) (x : HeapRun) : Prop where
  id : t.id = t.tcb
  tcb : t.tcb ∈ x.live
  stack : t.stackAddr ∈ x.live
  sizeofTask : sizeofTask ≤ x.heap.userSize t.tcb
  stackSize : t.stackSize ≤ x.heap.userSize t.stackAddr
  pos : 0 < t.stackSize

def Thread.blocks (t : Thread) : List Nat := [t.tcb, t.stackAddr]

namespace Thread.Allocated

variable {h : Heap} {x : HeapRun} {bs : List Block} {t u : Thread} {y : Nat}

/-- The stack up to its top is inside of its block. -/
theorem topOfStack_le (ht : t.Allocated x) :
    t.topOfStack ≤ t.stackAddr + x.heap.userSize t.stackAddr := by
  have hPos := ht.pos
  have hSize := ht.stackSize
  unfold Thread.topOfStack
  omega

/-- A word of a task is inside of one of its blocks. -/
theorem block_of_owns (ht : t.Allocated x) (hy : t.Owns y) :
    ∃ p ∈ t.blocks, p ∈ x.live ∧ p ≤ y ∧ y < p + x.heap.userSize p := by
  rcases hy with rfl | ⟨hLow, hHigh⟩
  · have hSize := ht.sizeofTask
    refine ⟨t.tcb, List.mem_cons_self, ht.tcb, Nat.le_refl _, ?_⟩
    unfold DoraOS.sizeofTask at hSize
    omega
  · have hTop := ht.topOfStack_le
    exact ⟨t.stackAddr, by simp [Thread.blocks], ht.stack, hLow, by omega⟩

end Thread.Allocated

namespace HeapOk

variable {h : Heap} {x : HeapRun} {bs : List Block} {p q y : Nat}

theorem inside (hOk : HeapOk h x bs) (hp : p ∈ x.live) :
    x.heap.alignMemHeapBegin ≤ p ∧ p + x.heap.userSize p ≤ x.heap.alignMemHeapEnd := by
  obtain ⟨hLow, hHigh⟩ := hOk.tiled.live_inside (hOk.live.mem_iff.mp hp)
  rw [hOk.tiled.framed.head, Heap.userMem, Heap.firstNode] at hLow
  exact ⟨by omega, hHigh⟩

/-- A word is in one held block at most. -/
theorem eq_of_word (hOk : HeapOk h x bs) (hp : p ∈ x.live) (hq : q ∈ x.live)
    (hLeft : p ≤ y ∧ y < p + x.heap.userSize p) (hRight : q ≤ y ∧ y < q + x.heap.userSize q) :
    p = q := by
  by_contra hNe
  have hApart := hOk.apart hp hq hNe
  unfold Heap.Apart at hApart
  omega

end HeapOk

/-- Tasks whose blocks are held at the same time, in any run of the heap, are
placed apart from each other and from the variables of the kernel. A stack of 73
bytes has room for the first frame. -/
theorem live_tasks_are_placed {h : Heap} {mem : Nat → Nat} {memHeap heapSize : Nat}
    {events : List HeapEvent} {x : HeapRun} (hMade : h.MadeOf mem memHeap heapSize)
    (hRun : Transition.RunsIf heapStep CutsNode ⟨h, []⟩ events x) (l : Layout) (hKernel : Placed l [])
    (hOutside : ∀ y, l.Owns y → y < x.heap.alignMemHeapBegin ∨ x.heap.alignMemHeapEnd ≤ y)
    (threads : List Thread) (hHeld : ∀ t ∈ threads, t.Allocated x)
    (hDistinct : (threads.flatMap Thread.blocks).Nodup) :
    Placed l threads ∧ ∀ core, ∀ t ∈ threads, 73 ≤ t.stackSize →
      t.stackAddr + firstFrame core ≤ t.topOfStack := by
  obtain ⟨b, -, hStart⟩ := HeapOk.start hMade
  obtain ⟨bs, hOk⟩ := hStart.runs hRun
  obtain ⟨hOwn, hOthers⟩ := List.nodup_flatMap.mp hDistinct
  have hBlocks : ∀ t ∈ threads, ∀ u ∈ threads, t ≠ u → ∀ p ∈ t.blocks, p ∉ u.blocks := by
    have : Std.Symm (Function.onFun List.Disjoint Thread.blocks) := ⟨fun _ _ h => h.symm⟩
    exact fun t ht u hu hNe p hp hq => hOthers.forall ht hu hNe hp hq
  refine ⟨⟨hKernel.current, hKernel.main, hKernel.mainTop, ?_, ?_, ?_, ?_, ?_⟩, ?_⟩
  · exact fun t ht => hOk.aligned (hHeld t ht).tcb
  · intro t ht u hu hId
    rw [(hHeld t ht).id, (hHeld u hu).id] at hId
    by_contra hNe
    exact hBlocks t ht u hu hNe t.tcb (by simp [Thread.blocks]) (by simp [Thread.blocks, hId])
  · intro t ht hIn
    have hTask := hHeld t ht
    have hTop := hTask.topOfStack_le
    have hBytes := hTask.sizeofTask
    have hNe : t.tcb ≠ t.stackAddr := by simpa [Thread.blocks] using hOwn t ht
    unfold sizeofTask at hBytes
    exact hNe (hOk.eq_of_word hTask.tcb hTask.stack ⟨Nat.le_refl _, by omega⟩ (by omega))
  · intro t ht u hu hNe y hy hy'
    obtain ⟨p, hp, hpLive, hLeft⟩ := (hHeld t ht).block_of_owns hy
    obtain ⟨q, hq, hqLive, hRight⟩ := (hHeld u hu).block_of_owns hy'
    obtain rfl := hOk.eq_of_word hpLive hqLive hLeft hRight
    exact hBlocks t ht u hu hNe p hp hq
  · intro t ht y hy hKernel
    obtain ⟨p, -, hpLive, hIn⟩ := (hHeld t ht).block_of_owns hy
    have hInside := hOk.inside hpLive
    have hOff := hOutside y hKernel
    omega
  · intro core t ht hLarge
    have hInside := hOk.inside (hHeld t ht).stack
    have hFits := (hHeld t ht).stackSize
    have hWord := hOk.aligned (hHeld t ht).stack
    have hEnd := hOk.tiled.framed.end_lt
    have hFrame : firstFrame core ≤ 68 := by cases core <;> decide
    unfold Thread.topOfStack
    omega

/-- Two tasks in a heap of 1024 bytes. -/
theorem live_tasks_are_placed_two : ∃ x, Transition.RunsIf heapStep CutsNode
    ⟨(Heap.dosMemHeapInit (fun _ => 0) 0x20000000 1024).1, []⟩
    [.alloc 92, .alloc 128, .alloc 92, .alloc 128] x ∧
    Placed ⟨0x20001000, 0x20002000, 0x20003000⟩
      [⟨0x20000018, 0x20000018, 0x2000007c, 128⟩, ⟨0x20000104, 0x20000104, 0x20000168, 128⟩] := by
  have hRun : Transition.RunsIf heapStep CutsNode
      ⟨(Heap.dosMemHeapInit (fun _ => 0) 0x20000000 1024).1, []⟩
      [.alloc 92, .alloc 128, .alloc 92, .alloc 128] _ :=
    Transition.runsIf_of_isSome (by decide +kernel)
  have hKernel : Placed ⟨0x20001000, 0x20002000, 0x20003000⟩ [] :=
    ⟨by decide, by decide, by decide, by simp, by simp, by simp, by simp, by simp⟩
  refine ⟨_, hRun, (live_tasks_are_placed ⟨rfl, by decide +kernel, by decide +kernel, by decide⟩
    hRun _ hKernel (fun y hy => Or.inr ?_) _ (fun t ht => ?_) (by decide)).1⟩
  · refine Nat.le_trans (m := 0x20000400) (by decide +kernel) ?_
    simp only [Layout.Owns] at hy
    omega
  · rcases List.mem_pair.mp ht with rfl | rfl <;>
      exact ⟨rfl, by decide +kernel, by decide +kernel, by decide +kernel, by decide +kernel,
        by decide⟩

end DoraOS
