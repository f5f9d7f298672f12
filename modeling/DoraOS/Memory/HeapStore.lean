import DoraOS.Memory.Balance

/-! The heap as a store. What a caller has written to a block it holds is there
until the block is freed, whatever else is allocated, freed and written. When
all blocks have been freed, the heap is one free node again. -/
namespace DoraOS

open Segments

/-- A run of the heap with the words that were written to each block since it
was allocated, by pointer and offset. -/
structure HeapStore where
  run : HeapRun
  contents : Nat → Nat → Option Nat

namespace HeapStore

/-- What the callers know behind an event. -/
def record (s : HeapStore) : HeapEvent → Nat → Nat → Option Nat
  | .alloc _ => fun p offset => if p ∈ s.run.live then s.contents p offset else none
  | .free mem => fun p offset => if p = mem then none else s.contents p offset
  | .store mem offset word => fun p o =>
      if p = mem ∧ o = offset then some word else s.contents p o

def step (s : HeapStore) (event : HeapEvent) : Option HeapStore :=
  (heapStep s.run event).map fun x => ⟨x, s.record event⟩

end HeapStore

/-- The heap that `dos_mem_heap_init` makes of an array. -/
structure Heap.MadeOf (h : Heap) (mem : Nat → Nat) (memHeap heapSize : Nat) : Prop where
  heap : h = (dosMemHeapInit mem memHeap heapSize).1
  init : (dosMemHeapInit mem memHeap heapSize).2 = true
  size : h.memHeapSize < 2 ^ 30
  array : memHeap + heapSize < 2 ^ 32

/-- The size of an owned area is that in its header. -/
theorem Heap.Owns.userSize {h : Heap} {bs : List Block} {owned : List (Nat × Nat)} {p k : Nat}
    (hOwns : h.Owns bs owned) (hMem : (p, k) ∈ owned) : h.userSize p = k := by
  obtain ⟨xs, b, ys, rfl, -, rfl, rfl⟩ := hOwns.split hMem
  exact Heap.userSize_place hOwns.tiled.focus.node

theorem Block.total_span_mod (bs : List Block) : total Block.span bs % 4 = 0 := by
  induction bs with
  | nil => rfl
  | cons b bs ih =>
      have hAligned := b.aligned
      rw [total_cons, Block.span_eq]
      omega

/-- The block at `p` has the size and the words that it had. -/
structure Heap.SameBlock (h h' : Heap) (p : Nat) : Prop where
  size : h'.userSize p = h.userSize p
  word : ∀ y, p ≤ y → y < p + h.userSize p → h'.mem y = h.mem y

theorem Heap.SameBlock.rfl {h : Heap} {p : Nat} : h.SameBlock h p := ⟨Eq.refl _, fun _ _ _ => Eq.refl _⟩

theorem Heap.SameBlock.trans {h h' h'' : Heap} {p : Nat} (first : h.SameBlock h' p)
    (second : h'.SameBlock h'' p) : h.SameBlock h'' p where
  size := second.size.trans first.size
  word y hLow hHigh := (second.word y hLow (by rw [first.size]; exact hHigh)).trans
    (first.word y hLow hHigh)

namespace HeapOk

variable {h : Heap} {x x' : HeapRun} {bs : List Block} {p q size offset word : Nat}

theorem area (hInv : HeapOk h x bs) (hMem : p ∈ x.live) :
    (p, x.heap.userSize p) ∈ Block.areas x.heap.firstNode bs := by
  obtain ⟨size, hArea⟩ := hInv.area_of_live hMem
  rwa [hInv.owns.userSize hArea]

theorem apart (hInv : HeapOk h x bs) (hp : p ∈ x.live) (hq : q ∈ x.live) (hNe : p ≠ q) :
    x.heap.Apart p q := by
  have hPairwise : x.live.Pairwise x.heap.Apart :=
    (hInv.live.pairwise_iff fun hApart => hApart.symm).mpr hInv.tiled.live_apart
  have : Std.Symm x.heap.Apart := ⟨fun _ _ hApart => hApart.symm⟩
  exact hPairwise.forall hp hq hNe

theorem runs {events : List HeapEvent} {y : HeapRun} (hInv : HeapOk h x bs)
    (run : Transition.RunsIf heapStep CutsNode x events y) : ∃ bs', HeapOk h y bs' :=
  run.invariant (fun y => ∃ bs', HeapOk h y bs') ⟨bs, hInv⟩
    fun _ _ _ hInv hCuts hStep => hInv.elim fun _ hOk => hOk.step hCuts hStep

theorem aligned (hInv : HeapOk h x bs) (hMem : p ∈ x.live) : p % 4 = 0 := by
  obtain ⟨xs, b, ys, rfl, -, rfl, -⟩ := hInv.owns.split (hInv.area hMem)
  have hWords := Block.total_span_mod xs
  have hBegin := hInv.tiled.framed.begin_aligned
  rw [Heap.userMem, Heap.place, Heap.firstNode, memInfoSize, memNodeSize]
  omega

theorem nodup (hInv : HeapOk h x bs) : x.live.Nodup := by
  have hBlocks : (Block.live x.heap.firstNode bs).Nodup := by
    rw [Block.live, List.Nodup, List.pairwise_map]
    refine List.Pairwise.filter _ (located_pairwise.imp ?_)
    intro l r hBefore
    have hSpan := l.2.span_eq
    rw [Heap.userMem, Heap.userMem]
    omega
  exact hInv.live.nodup_iff.mpr hBlocks

/-- The blocks of a run that starts with an initialised heap. -/
theorem start {mem : Nat → Nat} {memHeap heapSize : Nat} (hMade : h.MadeOf mem memHeap heapSize) :
    ∃ b : Block, b.used = false ∧ HeapOk h ⟨h, []⟩ [b] := by
  obtain ⟨rfl, hInit, hSize, hArray⟩ := hMade
  obtain ⟨b, hFree, hTiled⟩ := Heap.dosMemHeapInit_tiled hInit hSize hArray
  refine ⟨b, hFree, hTiled, .rfl, ?_⟩
  simp [Block.live, hFree]

/-- An allocation that returns a block moves and writes no other. -/
theorem alloc_same (hInv : HeapOk h x bs) (hCuts : CutsNode x (.alloc size))
    (hStep : heapStep x (.alloc size) = some x') :
    (x' = x ∨ ∃ q, q ≠ 0 ∧ x'.live = q :: x.live ∧ x'.heap.userSize q = dosAlign size) ∧
      ∀ p ∈ x.live, x.heap.SameBlock x'.heap p := by
  simp only [heapStep] at hStep
  rcases hInv.owns.alloc hCuts with hNull | ⟨h', bs', q, hAlloc, hGranted⟩
  · rw [hNull] at hStep
    have hEq : x = x' := by simpa using hStep
    exact ⟨Or.inl hEq.symm, fun p _ => hEq ▸ .rfl⟩
  · rw [hAlloc, Option.map_some, if_neg hGranted.nonnull] at hStep
    obtain rfl := Option.some.inj hStep
    refine ⟨Or.inr ⟨q, hGranted.nonnull, rfl, hGranted.owns.userSize List.mem_cons_self⟩, ?_⟩
    intro p hp
    have hMem := List.mem_cons_of_mem (q, dosAlign size) (hInv.area hp)
    exact ⟨hGranted.owns.userSize hMem,
      fun y hLow hHigh => hGranted.mem y ⟨_, hMem, hLow, hHigh⟩⟩

/-- A block that is freed keeps its words for the moment, and the others are as
they were. -/
theorem free_same (hInv : HeapOk h x bs) (hStep : heapStep x (.free q) = some x') :
    (∀ y, q ≤ y → y < q + x.heap.userSize q → x'.heap.mem y = x.heap.mem y) ∧
      ∀ p ∈ x.live, p ≠ q → x.heap.SameBlock x'.heap p := by
  simp only [heapStep, Option.ite_none_right_eq_some] at hStep
  obtain ⟨hLive, hStep⟩ := hStep
  have hPerm := List.perm_cons_erase (hInv.area hLive)
  obtain ⟨h', bs', hFree, hReleased⟩ := (hInv.owns.perm hPerm.symm).free
  rw [hFree, Option.map_some] at hStep
  obtain rfl := Option.some.inj hStep
  refine ⟨fun y hLow hHigh => hReleased.mem y ⟨_, List.mem_cons_self, hLow, hHigh⟩, ?_⟩
  intro p hp hNe
  have hMem := hPerm.mem_iff.mp (hInv.area hp)
  have hOwned := (List.mem_cons.mp hMem).resolve_left fun hEq => hNe (congrArg Prod.fst hEq)
  exact ⟨hReleased.owns.userSize hOwned, fun y hLow hHigh => hReleased.mem y ⟨_, hMem, hLow, hHigh⟩⟩

/-- A word is written to a block, and the other words are as they were. -/
theorem store_same (hInv : HeapOk h x bs) (hStep : heapStep x (.store q offset word) = some x') :
    (∀ p ∈ x.live, x'.heap.userSize p = x.heap.userSize p) ∧
      x'.heap.mem (q + offset) = word ∧
      (∀ y, y ≠ q + offset → x'.heap.mem y = x.heap.mem y) ∧
      ∀ p ∈ x.live, p ≠ q → x.heap.SameBlock x'.heap p := by
  simp only [heapStep, Option.ite_none_right_eq_some] at hStep
  obtain ⟨⟨hLive, hInside, -⟩, hStep⟩ := hStep
  obtain rfl := Option.some.inj hStep
  have hEdits : x.heap.Edits (x.heap.write (q + offset) word) q (x.heap.userSize q) :=
    Heap.edits_write (Nat.le_add_right q offset) (by omega)
  obtain ⟨hOwns, -⟩ := hInv.owns.edit (hInv.area hLive) hEdits
  refine ⟨fun p hp => hOwns.userSize (hInv.area hp), Heap.mem_write_self .., ?_, ?_⟩
  · intro y hy
    exact Heap.mem_write_of_ne hy
  · intro p hp hNe
    refine ⟨hOwns.userSize (hInv.area hp), fun y hLow hHigh => Heap.mem_write_of_ne ?_⟩
    have hApart := hInv.apart hp hLive hNe
    unfold Heap.Apart at hApart
    omega

end HeapOk

/-- The recorded words are in the blocks. -/
structure HeapStore.Holds (h : Heap) (s : HeapStore) : Prop where
  ok : ∃ bs, HeapOk h s.run bs
  words : ∀ p ∈ s.run.live, ∀ offset word, s.contents p offset = some word →
    offset + 4 ≤ s.run.heap.userSize p ∧ s.run.heap.mem (p + offset) = word

namespace HeapStore.Holds

variable {h g : Heap} {s s' : HeapStore} {p size offset word : Nat}

/-- A word of a block that was not written. -/
theorem kept (hSame : s.run.heap.SameBlock g p)
    (hWord : offset + 4 ≤ s.run.heap.userSize p ∧ s.run.heap.mem (p + offset) = word) :
    offset + 4 ≤ g.userSize p ∧ g.mem (p + offset) = word := by
  rw [hSame.size, hSame.word _ (by omega) (by omega)]
  exact hWord

theorem alloc (hHolds : s.Holds h) (hCuts : CutsNode s.run (.alloc size))
    (hStep : s.step (.alloc size) = some s') : s'.Holds h := by
  obtain ⟨x, hHeap, rfl⟩ := Option.map_eq_some_iff.mp hStep
  obtain ⟨bs, hOk⟩ := hHolds.ok
  refine ⟨hOk.alloc hCuts hHeap, fun p _ offset word hWord => ?_⟩
  -- a new block has no recorded words
  simp only [HeapStore.record, Option.ite_none_right_eq_some] at hWord
  exact kept ((hOk.alloc_same hCuts hHeap).2 p hWord.1) (hHolds.words p hWord.1 offset word hWord.2)

theorem free {mem : Nat} (hHolds : s.Holds h) (hStep : s.step (.free mem) = some s') :
    s'.Holds h := by
  obtain ⟨x, hHeap, rfl⟩ := Option.map_eq_some_iff.mp hStep
  obtain ⟨bs, hOk⟩ := hHolds.ok
  refine ⟨hOk.free hHeap, fun p hp offset word hWord => ?_⟩
  simp only [HeapStore.record, Option.ite_none_left_eq_some] at hWord
  obtain ⟨hNe, hWord⟩ := hWord
  have hOld : p ∈ s.run.live := by
    simp only [heapStep, Option.ite_none_right_eq_some, Option.map_eq_some_iff] at hHeap
    obtain ⟨-, r, -, rfl⟩ := hHeap
    exact List.mem_of_mem_erase hp
  exact kept ((hOk.free_same hHeap).2 p hOld hNe) (hHolds.words p hOld offset word hWord)

theorem store {mem place value : Nat} (hHolds : s.Holds h)
    (hStep : s.step (.store mem place value) = some s') : s'.Holds h := by
  obtain ⟨x, hHeap, rfl⟩ := Option.map_eq_some_iff.mp hStep
  obtain ⟨bs, hOk⟩ := hHolds.ok
  refine ⟨hOk.store hHeap, fun p hp offset word hWord => ?_⟩
  obtain ⟨hSize, hHere, hElse, hOthers⟩ := hOk.store_same hHeap
  simp only [heapStep, Option.ite_none_right_eq_some] at hHeap
  obtain ⟨⟨-, hInside, -⟩, hHeap⟩ := hHeap
  obtain rfl := Option.some.inj hHeap
  by_cases hThis : p = mem ∧ offset = place
  · obtain ⟨rfl, rfl⟩ := hThis
    simp only [HeapStore.record, and_self, if_true, Option.some.injEq] at hWord
    exact ⟨(hSize p hp).symm ▸ hInside, hHere.trans hWord⟩
  · simp only [HeapStore.record, if_neg hThis] at hWord
    have hOld := hHolds.words p hp offset word hWord
    by_cases hEq : p = mem
    · have hNe : p + offset ≠ mem + place := by omega
      exact ⟨(hSize p hp).symm ▸ hOld.1, (hElse _ hNe).trans hOld.2⟩
    · exact kept (hOthers p hp hEq) hOld

theorem step {event : HeapEvent} (hHolds : s.Holds h) (hCuts : CutsNode s.run event)
    (hStep : s.step event = some s') : s'.Holds h := by
  cases event with
  | alloc size => exact hHolds.alloc hCuts hStep
  | free mem => exact hHolds.free hStep
  | store mem place value => exact hHolds.store hStep

end HeapStore.Holds

/-- In every run from an initialised heap whose allocations all cut the node
they take, a block that is held has the words that were last written to it,
whatever was allocated, freed and written besides. -/
theorem held_blocks_keep_their_words {h : Heap} {mem : Nat → Nat} {memHeap heapSize : Nat}
    {events : List HeapEvent} {s : HeapStore} (hMade : h.MadeOf mem memHeap heapSize)
    (hRun : Transition.RunsIf HeapStore.step (fun s event => CutsNode s.run event)
      ⟨⟨h, []⟩, fun _ _ => none⟩ events s)
    (p offset word : Nat) (hLive : p ∈ s.run.live) (hWord : s.contents p offset = some word) :
    s.run.heap.mem (p + offset) = word := by
  obtain ⟨b, -, hStart⟩ := HeapOk.start hMade
  have hHolds := hRun.invariant (HeapStore.Holds h) ⟨⟨[b], hStart⟩, by simp⟩
    fun _ _ _ hHolds hCuts hStep => hHolds.step hCuts hStep
  exact (hHolds.words p hLive offset word hWord).2

/-- The second of two blocks is written, freed and allocated again. -/
theorem held_blocks_keep_their_words_reused : ∃ s, Transition.RunsIf HeapStore.step
    (fun s event => CutsNode s.run event)
    ⟨⟨(Heap.dosMemHeapInit (fun _ => 0) 0x20000000 128).1, []⟩, fun _ _ => none⟩
    [.alloc 10, .alloc 16, .store 0x20000018 4 7, .store 0x2000002c 4 9, .free 0x2000002c,
      .alloc 8, .store 0x2000002c 4 11] s ∧
    s.run.live = [0x2000002c, 0x20000018] ∧ s.run.heap.mem 0x2000001c = 7 := by
  have hRun : Transition.RunsIf HeapStore.step (fun s event => CutsNode s.run event)
      ⟨⟨(Heap.dosMemHeapInit (fun _ => 0) 0x20000000 128).1, []⟩, fun _ _ => none⟩
      [.alloc 10, .alloc 16, .store 0x20000018 4 7, .store 0x2000002c 4 9, .free 0x2000002c,
        .alloc 8, .store 0x2000002c 4 11] _ :=
    Transition.runsIf_of_isSome (by decide +kernel)
  exact ⟨_, hRun, by decide +kernel, held_blocks_keep_their_words
    ⟨rfl, by decide +kernel, by decide +kernel, by decide⟩ hRun 0x20000018 4 7 (by decide +kernel)
    (by decide +kernel)⟩

section Emptied

variable {h : Heap} {x x' : HeapRun} {bs xs ys : List Block} {b : Block}

/-- A free block between used ones may be cut. -/
theorem Block.Coalesced.cut {n : Nat} {hn : n % 4 = 0} (hCoalesced : Coalesced (xs ++ b :: ys))
    (hFree : b.used = false) : Coalesced (xs ++ taken n hn :: b.rest n hn :: ys) := by
  obtain ⟨hFront, hBack, -⟩ := List.isChain_append.mp hCoalesced
  obtain ⟨hHead, hTail⟩ := List.isChain_cons.mp hBack
  refine List.isChain_append.mpr ⟨hFront, List.isChain_cons_cons.mpr ⟨Or.inl rfl, ?_⟩, ?_⟩
  · refine List.isChain_cons.mpr ⟨fun c hc => Or.inr ?_, hTail⟩
    exact (hHead c hc).resolve_left (by rw [hFree]; decide)
  · intro c _ d hd
    rw [List.head?_cons, Option.mem_some_iff] at hd
    exact Or.inr (hd ▸ rfl)

/-- The blocks of a run without two free ones next to each other, and
`mem_heap_size` with the bytes that the used blocks count for. -/
structure HeapTidy (h : Heap) (x : HeapRun) (bs : List Block) : Prop where
  ok : HeapOk h x bs
  coalesced : Block.Coalesced bs
  count : (x.heap.memHeapSize + total Block.usedSize bs) % 2 ^ 32 = h.memHeapSize
  word : x.heap.memHeapSize < 2 ^ 32

namespace HeapTidy

theorem alloc {size : Nat} (hTidy : HeapTidy h x bs) (hCuts : CutsNode x (.alloc size))
    (hStep : heapStep x (.alloc size) = some x') : ∃ bs', HeapTidy h x' bs' := by
  have hOwns := hTidy.ok.owns
  obtain ⟨best, hFound, hBest⟩ := hTidy.ok.tiled.bestNode (dosAlign size)
  have hCut := hCuts best hFound
  have hAlloc := hTidy.ok.tiled.dosMemAlloc_eq hFound
  simp only [heapStep] at hStep
  cases hBest with
  | null hNull hNone =>
      rw [hAlloc, if_pos hNull] at hStep
      have hEq : x = x' := by simpa using hStep
      exact ⟨bs, hEq ▸ hTidy⟩
  | found front b back hSplit hAddr hFits hLeast =>
      rw [List.nil_append] at hAddr
      subst hSplit
      have hFocus := hTidy.ok.tiled.focus
      have hPos := hFocus.place_pos
      rw [hAddr] at hFound hCut
      rw [hFocus.node.size, memNodeSize] at hCut
      obtain ⟨h', hAlloc', hGranted⟩ := hOwns.granted hFits.1 hFound (hCut.resolve_left (by omega))
      rw [hAlloc', Option.map_some, if_neg hGranted.nonnull] at hStep
      obtain rfl := Option.some.inj hStep
      have hLive := hTidy.ok.live
      rw [Block.live_eq] at hLive
      refine ⟨_, HeapOk.of_owns hGranted.owns (hTidy.ok.same.trans hGranted.same) (hLive.cons _),
        hTidy.coalesced.cut hFits.1, ?_, ?_⟩
      · have hCount := hTidy.count
        have hSmall := hGranted.small
        have hNone : b.usedSize = 0 := if_neg (by rw [hFits.1]; decide)
        have hTaken : (Block.taken (dosAlign size) (dosAlign_mod size)).usedSize = dosAlign size := rfl
        have hRest : (b.rest (dosAlign size) (dosAlign_mod size)).usedSize = 0 := rfl
        rw [total_append, total_cons] at hCount
        rw [hGranted.size, total_append, total_cons, total_cons, hTaken, hRest]
        omega
      · show h'.memHeapSize < 2 ^ 32
        rw [hGranted.size]
        omega

theorem free {mem : Nat} (hTidy : HeapTidy h x bs) (hStep : heapStep x (.free mem) = some x') :
    ∃ bs', HeapTidy h x' bs' := by
  simp only [heapStep, Option.ite_none_right_eq_some] at hStep
  obtain ⟨hMem, hStep⟩ := hStep
  obtain ⟨xs, b, ys, rfl, hUsed, hPlace, -⟩ := hTidy.ok.owns.split (hTidy.ok.area hMem)
  obtain ⟨h', hFree, hLaid, hSame, -, hSize, -⟩ :=
    hTidy.ok.tiled.dosMemFree hUsed hTidy.ok.tiled.joined_fits
  rw [hPlace, hFree, Option.map_some] at hStep
  obtain rfl := Option.some.inj hStep
  have hAreas : (Block.areas x.heap.firstNode (xs ++ b :: ys)).Perm
      ((Heap.userMem (x.heap.place xs), b.size) ::
        Block.areas x.heap.firstNode (Block.freed xs b ys)) := by
    rw [Block.areas_append, Block.areas_cons_used hUsed, Block.areas_freed, Block.areas_append,
      Block.areas_cons_free rfl]
    exact List.perm_middle
  have hLive : (x.live.erase (Heap.userMem (x.heap.place xs))).Perm
      ((Block.areas h'.firstNode (Block.freed xs b ys)).map Prod.fst) := by
    have hOld := hTidy.ok.live
    rw [Block.live_eq] at hOld
    have hErase := (hOld.trans (hAreas.map _)).erase (Heap.userMem (x.heap.place xs))
    rw [List.map_cons, List.erase_cons_head] at hErase
    rwa [hSame.firstNode]
  refine ⟨Block.freed xs b ys, HeapOk.of_owns ⟨hLaid.tiled hTidy.ok.tiled hSame, List.Perm.rfl⟩
    (hTidy.ok.same.trans hSame) hLive, ?_, ?_, ?_⟩
  · obtain ⟨merged, hEq, -, -⟩ := Block.freed_eq xs b ys
    rw [hEq]
    exact hTidy.coalesced.merged
  · have hCount := hTidy.count
    have hBlock : b.usedSize = b.size := if_pos hUsed
    rw [total_append, total_cons, hBlock] at hCount
    rw [hSize, Block.usedSize_freed]
    omega
  · show h'.memHeapSize < 2 ^ 32
    rw [hSize]
    omega

theorem store {mem offset word : Nat} (hTidy : HeapTidy h x bs)
    (hStep : heapStep x (.store mem offset word) = some x') : ∃ bs', HeapTidy h x' bs' := by
  simp only [heapStep, Option.ite_none_right_eq_some] at hStep
  obtain ⟨⟨hMem, hInside, -⟩, hStep⟩ := hStep
  obtain rfl := Option.some.inj hStep
  have hEdits : x.heap.Edits (x.heap.write (mem + offset) word) mem (x.heap.userSize mem) :=
    Heap.edits_write (Nat.le_add_right mem offset) (by omega)
  obtain ⟨hOwns, hSize⟩ := hTidy.ok.owns.edit (hTidy.ok.area hMem) hEdits
  have hLive := hTidy.ok.live
  rw [Block.live_eq] at hLive
  refine ⟨bs, HeapOk.of_owns hOwns (hTidy.ok.same.trans Heap.write_bounds) hLive, hTidy.coalesced,
    ?_, ?_⟩
  · rw [hSize]
    exact hTidy.count
  · rw [hSize]
    exact hTidy.word

theorem step {event : HeapEvent} (hTidy : HeapTidy h x bs) (hCuts : CutsNode x event)
    (hStep : heapStep x event = some x') : ∃ bs', HeapTidy h x' bs' := by
  cases event with
  | alloc size => exact hTidy.alloc hCuts hStep
  | free mem => exact hTidy.free hStep
  | store mem offset word => exact hTidy.store hStep

theorem start {mem : Nat → Nat} {memHeap heapSize : Nat} (hMade : h.MadeOf mem memHeap heapSize) :
    ∃ b : Block, HeapTidy h ⟨h, []⟩ [b] := by
  obtain ⟨b, hFree, hOk⟩ := HeapOk.start hMade
  have hNoBytes : total Block.usedSize [b] = 0 := Block.usedSize_of_free (by simpa using hFree)
  have hWord : h.memHeapSize < 2 ^ 32 := Nat.lt_trans hMade.size (by decide)
  refine ⟨b, hOk, List.isChain_singleton _, ?_, hWord⟩
  rw [hNoBytes]
  exact Nat.mod_eq_of_lt hWord

theorem runs {events : List HeapEvent} {y : HeapRun} (hTidy : HeapTidy h x bs)
    (run : Transition.RunsIf heapStep CutsNode x events y) : ∃ bs', HeapTidy h y bs' :=
  run.invariant (fun y => ∃ bs', HeapTidy h y bs') ⟨bs, hTidy⟩
    fun _ _ _ hInv hCuts hStep => hInv.elim fun _ hTidy => hTidy.step hCuts hStep

/-- Without a used block there is one free block. -/
theorem single (hTidy : HeapTidy h x bs) (hNone : x.live = []) :
    ∃ b : Block, b.used = false ∧ HeapTidy h x [b] := by
  have hFree : ∀ b ∈ bs, b.used = false := by
    intro b hb
    obtain ⟨xs, ys, rfl⟩ := List.append_of_mem hb
    have hLive := hTidy.ok.live
    rw [hNone, Block.live_eq, Block.areas_append] at hLive
    cases hUsed : b.used with
    | false => rfl
    | true =>
        rw [Block.areas_cons_used hUsed] at hLive
        simp at hLive
  match bs, hTidy with
  | [], hTidy => exact absurd rfl hTidy.ok.tiled.nonempty
  | [b], hTidy => exact ⟨b, hFree b (by simp), hTidy⟩
  | b :: c :: bs, hTidy =>
      rcases (List.isChain_cons_cons.mp hTidy.coalesced).1 with hUsed | hUsed
      · exact absurd (hUsed.symm.trans (hFree b (by simp))) (by decide)
      · exact absurd (hUsed.symm.trans (hFree c (by simp))) (by decide)

theorem tiled_single (hTiled : h.Tiled [b]) : h.memHead = h.firstNode ∧ h.memTail = h.firstNode ∧
    h.used h.firstNode = b.used.toNat ∧ h.nodeSize h.firstNode = b.size ∧
    h.firstNode + b.span = h.alignMemHeapEnd := by
  have hNode : h.NodeAt 0 h.firstNode b := hTiled.chain.1
  exact ⟨hTiled.framed.head, hTiled.tail, hNode.used, hNode.size, hTiled.framed.fills⟩

/-- A heap without a used block is as it was with its first one. -/
theorem emptied {b₀ : Block} (hTidy : HeapTidy h x bs) (hNone : x.live = []) (hStart : h.Tiled [b₀]) :
    x.heap.memHead = h.memHead ∧ x.heap.memTail = x.heap.memHead ∧
      x.heap.used x.heap.memHead = 0 ∧ x.heap.nodeSize x.heap.memHead = h.nodeSize h.memHead ∧
      x.heap.memHeapSize = h.memHeapSize := by
  obtain ⟨b, hFree, hTidy⟩ := hTidy.single hNone
  obtain ⟨hHead₀, -, -, hSize₀, hEnd₀⟩ := tiled_single hStart
  obtain ⟨hHead, hTail, hUsed, hSize, hEnd⟩ := tiled_single hTidy.ok.tiled
  have hSame := hTidy.ok.same
  have hBlock : b.size = b₀.size := by
    have hSpan := b.span_eq
    have hSpan₀ := b₀.span_eq
    rw [hSame.firstNode, hSame.heapEnd] at hEnd
    omega
  have hCount := hTidy.count
  have hWord := hTidy.word
  have hNoBytes : total Block.usedSize [b] = 0 := Block.usedSize_of_free (by simpa using hFree)
  rw [hNoBytes] at hCount
  refine ⟨?_, ?_, ?_, ?_, by omega⟩
  · rw [hHead, hHead₀, hSame.firstNode]
  · rw [hHead, hTail]
  · rw [hHead, hUsed, hFree]
    rfl
  · rw [hHead, hSize, hHead₀, hSize₀, hBlock]

end HeapTidy

end Emptied

/-- When every block of a run from an initialised heap has been freed, the heap
is as `dos_mem_heap_init` has left it: one free node of the same size, with the
same count of free bytes. -/
theorem emptied_heap_is_one_node {h : Heap} {mem : Nat → Nat} {memHeap heapSize : Nat}
    {events : List HeapEvent} {x : HeapRun} (hMade : h.MadeOf mem memHeap heapSize)
    (hRun : Transition.RunsIf heapStep CutsNode ⟨h, []⟩ events x) (hNone : x.live = []) :
    x.heap.memHead = h.memHead ∧ x.heap.memTail = x.heap.memHead ∧
      x.heap.used x.heap.memHead = 0 ∧ x.heap.nodeSize x.heap.memHead = h.nodeSize h.memHead ∧
      x.heap.memHeapSize = h.memHeapSize := by
  obtain ⟨b₀, hTidy₀⟩ := HeapTidy.start hMade
  obtain ⟨bs, hTidy⟩ := hTidy₀.runs hRun
  exact hTidy.emptied hNone hTidy₀.ok.tiled

/-- Two blocks are freed in the order in which they were allocated. -/
theorem emptied_heap_is_one_node_two : ∃ x, Transition.RunsIf heapStep CutsNode
    ⟨(Heap.dosMemHeapInit (fun _ => 0) 0x20000000 128).1, []⟩
    [.alloc 10, .alloc 16, .store 0x2000002c 4 7, .free 0x20000018, .free 0x2000002c] x ∧
    x.live = [] ∧ x.heap.nodeSize x.heap.memHead = 104 := by
  have hRun : Transition.RunsIf heapStep CutsNode
      ⟨(Heap.dosMemHeapInit (fun _ => 0) 0x20000000 128).1, []⟩
      [.alloc 10, .alloc 16, .store 0x2000002c 4 7, .free 0x20000018, .free 0x2000002c] _ :=
    Transition.runsIf_of_isSome (by decide +kernel)
  obtain ⟨-, -, -, hSize, -⟩ := emptied_heap_is_one_node
    ⟨rfl, by decide +kernel, by decide +kernel, by decide⟩ hRun (by decide +kernel)
  exact ⟨_, hRun, by decide +kernel, hSize.trans (by decide +kernel)⟩

end DoraOS
