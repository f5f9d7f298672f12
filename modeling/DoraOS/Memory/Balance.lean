import DoraOS.Memory.HeapRun
import DoraOS.Memory.Coalesce

/-! The sizes of blocks and the count of free bytes. `mem_heap_size` and the
sizes of the used nodes add up to the same number before and after each call,
whether a node is cut or not. -/
namespace DoraOS

open Segments

def Block.usedSize (b : Block) : Nat := if b.used then b.size else 0

theorem Block.usedSize_le_span (b : Block) : b.usedSize ≤ b.span := by
  rw [usedSize, span_eq]
  split <;> omega

namespace Heap

variable {h h' g : Heap} {best fuel n p size : Nat} {b : Block} {xs ys bs : List Block}

def usedAt (h : Heap) (a : Nat) : Nat := if h.used a = 0 then 0 else h.nodeSize a

/-- The sum of `mem_node_size` over the used nodes from `node` on along `prev`. -/
def sumUsed (h : Heap) : Nat → Nat → Option Nat
  | 0, _ => none
  | fuel + 1, node =>
      if node = 0 then some 0 else (h.sumUsed fuel (h.prev node)).map fun n => n + h.usedAt node

def usedBytes (h : Heap) : Option Nat := h.sumUsed h.fuel h.memTail

/-- The free bytes and the used ones are `total` bytes. -/
def Balanced (h : Heap) (total : Nat) : Prop :=
  ∃ n, h.usedBytes = some n ∧ h.memHeapSize + n = total

section Size

/-- What a call of `dos_mem_alloc` does that returns a block. -/
theorem Laid.alloc_cases (hLaid : h.Laid bs) (hAlloc : h.dosMemAlloc size = some (h', p))
    (hp : p ≠ 0) : ∃ xs b ys, bs = xs ++ b :: ys ∧ b.Fits (dosAlign size) ∧
      h.bestNode (dosAlign size) = some (h.place xs) ∧ p = userMem (h.place xs) ∧
      h' = (if b.size - dosAlign size > memNodeSize then h.cutNode (h.place xs) (dosAlign size)
        else h).takeNode (h.place xs) (dosAlign size) := by
  obtain ⟨best, hFound, hBest⟩ := hLaid.bestNode (dosAlign size)
  rw [hLaid.dosMemAlloc_eq hFound, Option.some.injEq] at hAlloc
  cases hBest with
  | null hNull hNone =>
      rw [if_pos hNull] at hAlloc
      exact absurd (congrArg Prod.snd hAlloc).symm hp
  | found front b back hSplit hAddr hFits hLeast =>
      rw [List.nil_append] at hAddr
      subst hSplit hAddr
      have hPos := hLaid.focus.place_pos
      rw [if_neg (by omega), hLaid.focus.node.size] at hAlloc
      exact ⟨front, b, back, rfl, hFits, hFound, (congrArg Prod.snd hAlloc).symm,
        (congrArg Prod.fst hAlloc).symm⟩

/-- A call that returns null changes nothing. -/
theorem Laid.alloc_null (hLaid : h.Laid bs) (hAlloc : h.dosMemAlloc size = some (h', 0)) : h' = h := by
  obtain ⟨best, hFound, -⟩ := hLaid.bestNode (dosAlign size)
  rw [hLaid.dosMemAlloc_eq hFound, Option.some.injEq] at hAlloc
  split at hAlloc
  · exact (congrArg Prod.fst hAlloc).symm
  · exact absurd (congrArg Prod.snd hAlloc) (Nat.succ_ne_zero _)

/-- The recorded size of a new block is the aligned size. -/
theorem Laid.alloc_userSize (hLaid : h.Laid bs) (hAlloc : h.dosMemAlloc size = some (h', p))
    (hp : p ≠ 0) : h'.userSize p = dosAlign size := by
  obtain ⟨xs, b, ys, rfl, hFits, -, rfl, rfl⟩ := hLaid.alloc_cases hAlloc hp
  have hBounds := hLaid.focus.bounds
  have hSmall := hLaid.focus.node.size_lt
  have hLess := hFits.2
  have hBegin : (if b.size - dosAlign size > memNodeSize then h.cutNode (h.place xs) (dosAlign size)
      else h).alignMemHeapBegin = h.alignMemHeapBegin := by
    split
    · exact (cutNode_bounds _ _).heapBegin
    · rfl
  rw [userSize, userMem, Nat.add_sub_cancel, takeNode_nodeSize (by rw [hBegin]; omega)]
  exact Nat.mod_eq_of_lt (by omega)

end Size

end Heap

/-- A block that `dos_mem_alloc` returns is as large as the request iff the
request can be rounded up to whole words, or there is no byte to be had. -/
theorem alloc_large_enough (h : Heap) (bs : List Block) (size : Nat) (hLaid : h.Laid bs)
    (hSize : size < 2 ^ 32) :
    (∀ h' p, h.dosMemAlloc size = some (h', p) → p ≠ 0 → size ≤ h'.userSize p) ↔
      size + 3 < 2 ^ 32 ∨ ∀ a, h.FreeNode bs a → h.nodeSize a = 0 := by
  constructor
  · intro hEnough
    by_contra hFails
    obtain ⟨hWraps, hFree⟩ := not_or.mp hFails
    obtain ⟨a, hNode⟩ := not_forall.mp hFree
    obtain ⟨hNode, hBytes⟩ := Classical.not_imp.mp hNode
    have hZero : dosAlign size = 0 := by
      rw [dosAlign]
      omega
    obtain ⟨best, hFound, ⟨-, hNone⟩ | ⟨hSome, -⟩⟩ := hLaid.bestNode_least (dosAlign size)
    · have hLe := hNone a hNode
      omega
    · have hAlloc := hLaid.dosMemAlloc_eq hFound
      rw [if_neg hSome] at hAlloc
      have hUser : Heap.userMem best ≠ 0 := Nat.succ_ne_zero _
      have hLarge := hEnough _ _ hAlloc hUser
      rw [hLaid.alloc_userSize hAlloc hUser] at hLarge
      omega
  · intro hHolds h' p hAlloc hp
    rw [hLaid.alloc_userSize hAlloc hp]
    rcases hHolds with hRounds | hNone
    · rw [dosAlign]
      omega
    · obtain ⟨xs, b, ys, hSplit, hFits, -⟩ := hLaid.alloc_cases hAlloc hp
      obtain ⟨hNodeSize, hFree⟩ := hLaid.freeNode_iff hSplit
      have hEmpty := hNone _ (hFree.mpr hFits.1)
      have hLess := hFits.2
      omega

/-- A request for 10 bytes of a heap of 128 bytes. -/
theorem alloc_large_enough_ten : ∃ h',
    (Heap.layout 0x20000000 104 [⟨104, false, rfl⟩]).dosMemAlloc 10 = some (h', 0x20000018) ∧
      10 ≤ h'.userSize 0x20000018 := by
  have hRun : ((Heap.layout 0x20000000 104 [⟨104, false, rfl⟩]).dosMemAlloc 10).map Prod.snd =
      some 0x20000018 := by decide +kernel
  obtain ⟨⟨h', p⟩, hAlloc, rfl⟩ := Option.map_eq_some_iff.mp hRun
  have hLaid : (Heap.layout 0x20000000 104 [⟨104, false, rfl⟩]).Laid [⟨104, false, rfl⟩] :=
    Heap.layout_laid (by decide) (by decide) (by decide) (by decide) (by decide)
  exact ⟨h', hAlloc, (alloc_large_enough _ _ 10 hLaid (by decide)).mpr (.inl (by decide)) h' _ hAlloc
    (by decide)⟩

/-- A request for 2^32 - 3 bytes wraps to zero and gets a block of no bytes. -/
theorem wrapped_request_gets_nothing :
    (Heap.layout 0x20000000 104 [⟨104, false, rfl⟩]).Laid [⟨104, false, rfl⟩] ∧
    ∃ h', (Heap.layout 0x20000000 104 [⟨104, false, rfl⟩]).dosMemAlloc 0xFFFFFFFD =
      some (h', 0x20000018) ∧ h'.userSize 0x20000018 = 0 := by
  refine ⟨Heap.layout_laid (by decide) (by decide) (by decide) (by decide) (by decide), ?_⟩
  have hRun : ((Heap.layout 0x20000000 104 [⟨104, false, rfl⟩]).dosMemAlloc 0xFFFFFFFD).map
      (fun r => (r.2, r.1.userSize r.2)) = some (0x20000018, 0) := by decide +kernel
  obtain ⟨⟨h', p⟩, hAlloc, hResult⟩ := Option.map_eq_some_iff.mp hRun
  obtain ⟨rfl, hSize⟩ := Prod.mk.inj hResult
  exact ⟨h', hAlloc, hSize⟩

section Balance

namespace Heap

variable {h h' g : Heap} {best fuel n p size : Nat} {b : Block} {xs ys bs : List Block}

/-- The sum along the chain of a heap that has the same pointers. -/
theorem Laid.sumUsed (hLaid : h.Laid (xs ++ ys)) (hFuel : xs.length < fuel)
    (hPrev : ∀ pre b post, xs ++ ys = pre ++ b :: post →
      g.prev (h.place pre) = h.prev (h.place pre)) :
    g.sumUsed fuel (lastStart Block.span 0 h.firstNode xs) =
      some ((h.nodes xs).map fun l => g.usedAt l.1).sum := by
  induction xs using List.reverseRecOn generalizing ys fuel with
  | nil =>
      obtain ⟨k, rfl⟩ := Nat.exists_eq_succ_of_ne_zero (Nat.ne_of_gt hFuel)
      rfl
  | append_singleton xs x ih =>
      obtain ⟨k, rfl⟩ := Nat.exists_eq_succ_of_ne_zero (Nat.ne_of_gt (Nat.zero_lt_of_lt hFuel))
      have hLength : xs.length < k := by
        simp only [List.length_append, List.length_singleton] at hFuel
        omega
      rw [List.append_assoc, List.singleton_append] at hLaid hPrev
      have hPos := hLaid.focus.place_pos
      rw [lastStart_snoc, ← place, Heap.sumUsed, if_neg (by omega), hPrev xs x ys rfl,
        hLaid.focus.node.prev, ih hLaid hLength hPrev, Option.map_some, nodes_append,
        List.map_append, List.sum_append]
      simp

/-- The used nodes of a heap are its used blocks. -/
theorem Laid.map_usedAt (hLaid : h.Laid bs) :
    ((h.nodes bs).map fun l => h.usedAt l.1) = bs.map Block.usedSize := by
  have hNode : ∀ l ∈ h.nodes bs, h.usedAt l.1 = l.2.usedSize := by
    intro l hl
    obtain ⟨q, hAt⟩ := hLaid.chain.of_located hl
    rw [usedAt, hAt.used, hAt.size, Block.usedSize]
    cases l.2.used <;> rfl
  calc ((h.nodes bs).map fun l => h.usedAt l.1)
      = (h.nodes bs).map (Block.usedSize ∘ Prod.snd) := List.map_congr_left hNode
    _ = ((h.nodes bs).map Prod.snd).map Block.usedSize := List.map_map.symm
    _ = bs.map Block.usedSize := by rw [nodes, map_snd_located]

theorem Laid.usedBytes (hLaid : h.Laid bs) : h.usedBytes = some (total Block.usedSize bs) := by
  have hSplit : h.Laid (bs ++ []) := by rwa [List.append_nil]
  rw [Heap.usedBytes, hLaid.tail, hSplit.sumUsed hLaid.length_lt_fuel fun _ _ _ _ => rfl,
    hLaid.map_usedAt]
  rfl

theorem node_bounds {l : Nat × Block} (hl : l ∈ h.nodes xs) :
    h.firstNode ≤ l.1 ∧ l.1 + 8 ≤ h.place xs := by
  obtain ⟨pre, post, rfl, hAddr⟩ := mem_located.mp hl
  have hSpan := l.2.span_eq
  rw [place, total_append, total_cons]
  omega

/-- Two headers are at least eight bytes apart. -/
theorem place_apart {pre post : List Block} (hSplit : xs ++ ys = pre ++ post) :
    h.place pre = h.place xs ∨ h.place pre + 8 ≤ h.place xs ∨ h.place xs + 8 ≤ h.place pre := by
  have hGrows (zs : List Block) : zs = [] ∨ 8 ≤ total Block.span zs := by
    cases zs with
    | nil => exact Or.inl rfl
    | cons c zs =>
        right
        rw [total_cons, Block.span_eq]
        omega
  rcases List.append_eq_append_iff.mp hSplit with ⟨zs, rfl, -⟩ | ⟨zs, rfl, -⟩
  · rw [place_append]
    rcases hGrows zs with rfl | hZs
    · exact Or.inl rfl
    · omega
  · rw [place_append]
    rcases hGrows zs with rfl | hZs
    · exact Or.inl rfl
    · omega

theorem takeNode_usedAt {x : Nat} (hx : h.firstNode ≤ x) (hBest : h.alignMemHeapBegin ≠ best)
    (hn : n < 2 ^ 30) :
    (h.takeNode best n).usedAt x = if x = best then n else h.usedAt x := by
  have hFirst : h.firstNode = h.alignMemHeapBegin + 16 := rfl
  by_cases hEq : x = best
  · rw [if_pos hEq, hEq, usedAt, takeNode_used hBest, takeNode_nodeSize hBest,
      if_neg (by decide), Nat.mod_eq_of_lt hn]
  · have hWord : (h.takeNode best n).mem (x + 4) = h.mem (x + 4) :=
      takeNode_mem (by omega) (by omega)
    rw [if_neg hEq, usedAt, Heap.used, nodeSize, hWord]
    rfl

/-- A node that is taken whole keeps its place in the chain. -/
theorem Laid.usedBytes_takeNode (hLaid : h.Laid (xs ++ b :: ys)) (hFree : b.used = false)
    (hn : n < 2 ^ 30) : (h.takeNode (h.place xs) n).usedBytes =
      some (total Block.usedSize (xs ++ b :: ys) + n) := by
  have hBounds := hLaid.focus.bounds
  have hFirst : h.firstNode = h.alignMemHeapBegin + 16 := rfl
  have hPlace : h.firstNode ≤ h.place xs := Nat.le_add_right _ _
  have hBest : h.alignMemHeapBegin ≠ h.place xs := by omega
  have hWhole : h.Laid (xs ++ b :: ys ++ []) := by rwa [List.append_nil]
  have hPrev (pre : List Block) (c : Block) (post : List Block)
      (hSplit : xs ++ b :: ys ++ [] = pre ++ c :: post) :
      (h.takeNode (h.place xs) n).prev (h.place pre) = h.prev (h.place pre) := by
    rw [List.append_nil] at hSplit
    have hApart := place_apart (h := h) hSplit
    have hLow : h.firstNode ≤ h.place pre := Nat.le_add_right _ _
    exact takeNode_mem (by omega) (by omega)
  have hTail : (h.takeNode (h.place xs) n).memTail = h.memTail :=
    takeNode_mem (show h.alignMemHeapBegin + 12 ≠ h.place xs + 4 by omega)
      (show h.alignMemHeapBegin + 12 ≠ h.alignMemHeapBegin + 4 by omega)
  have hFront : ((h.nodes xs).map fun l => (h.takeNode (h.place xs) n).usedAt l.1) =
      (h.nodes xs).map fun l => h.usedAt l.1 := by
    refine List.map_congr_left fun l hl => ?_
    have hIn := node_bounds hl
    rw [takeNode_usedAt hIn.1 hBest hn, if_neg (by omega)]
  have hBack : ((located Block.span (h.place xs + b.span) ys).map fun l =>
      (h.takeNode (h.place xs) n).usedAt l.1) =
      (located Block.span (h.place xs + b.span) ys).map fun l => h.usedAt l.1 := by
    refine List.map_congr_left fun l hl => ?_
    obtain ⟨pre, post, rfl, hAddr⟩ := mem_located.mp hl
    have hSpan := b.span_eq
    rw [takeNode_usedAt (by omega) hBest hn, if_neg (by omega)]
  have hHere : h.usedAt (h.place xs) = 0 := by
    rw [usedAt, hLaid.focus.node.used, hFree]
    rfl
  have hSum := congrArg List.sum hLaid.map_usedAt
  simp only [nodes_append, located_cons, List.map_append, List.map_cons, List.sum_append,
    List.sum_cons, hHere] at hSum
  have hChain := hWhole.sumUsed hLaid.length_lt_fuel hPrev
  rw [Heap.usedBytes, hTail, hLaid.tail]
  refine hChain.trans (congrArg some ?_)
  simp only [nodes_append, located_cons, List.map_append, List.map_cons, List.sum_append,
    List.sum_cons, hFront, hBack, takeNode_usedAt hPlace hBest hn, if_true, total]
  omega

/-- The bytes that a new block counts for are taken from `mem_heap_size`. -/
theorem Laid.alloc_balance (hLaid : h.Laid bs) (hAlloc : h.dosMemAlloc size = some (h', p))
    (hp : p ≠ 0) : h'.usedBytes = some (total Block.usedSize bs + dosAlign size) ∧
      h'.memHeapSize = (h.memHeapSize + (2 ^ 32 - dosAlign size)) % 2 ^ 32 := by
  obtain ⟨xs, b, ys, rfl, hFits, hBest, hUser, hEq⟩ := hLaid.alloc_cases hAlloc hp
  have hBounds := hLaid.focus.bounds
  have hSmall := hLaid.focus.node.size_lt
  have hLess := hFits.2
  by_cases hCut : b.size - dosAlign size > memNodeSize
  · obtain ⟨h₁, hAlloc₁, hLaid₁, -, -, hSize⟩ :=
      hLaid.dosMemAlloc_cut hBest (show dosAlign size + 8 < b.size by rw [memNodeSize] at hCut; omega)
    rw [hAlloc, Option.some.injEq] at hAlloc₁
    rw [(Prod.mk.inj hAlloc₁).1]
    refine ⟨?_, hSize⟩
    have hNone : b.usedSize = 0 := if_neg (by rw [hFits.1]; decide)
    have hTaken : (Block.taken (dosAlign size) (dosAlign_mod size)).usedSize = dosAlign size := rfl
    have hRest : (b.rest (dosAlign size) (dosAlign_mod size)).usedSize = 0 := rfl
    rw [hLaid₁.usedBytes, total_append, total_append, total_cons, total_cons, total_cons, hNone,
      hTaken, hRest]
    exact congrArg some (by omega)
  · rw [hEq, if_neg hCut]
    exact ⟨hLaid.usedBytes_takeNode hFits.1 (by omega), takeNode_memHeapSize (by omega)⟩

end Heap

theorem Block.usedSize_of_free {xs : List Block} (h : ∀ b ∈ xs, b.used = false) :
    total usedSize xs = 0 := by
  induction xs with
  | nil => rfl
  | cons b xs ih =>
      obtain ⟨hb, hRest⟩ := List.forall_mem_cons.mp h
      rw [total_cons, ih hRest, usedSize, hb]
      rfl

/-- The freed block counts no longer. -/
theorem Block.usedSize_freed (xs : List Block) (b : Block) (ys : List Block) :
    total usedSize (freed xs b ys) = total usedSize xs + total usedSize ys := by
  obtain ⟨merged, hEq, hFree, -⟩ := freed_eq xs b ys
  have hFront := total_rdropWhile_add usedSize (fun c => !c.used) xs
  have hBack := total_takeWhile_add usedSize (fun c => !c.used) ys
  have hLeft : total usedSize (xs.rtakeWhile fun c => !c.used) = 0 :=
    usedSize_of_free fun c hc => by simpa using List.mem_rtakeWhile_imp hc
  have hRight : total usedSize (ys.takeWhile fun c => !c.used) = 0 :=
    usedSize_of_free fun c hc => by simpa using List.mem_takeWhile_imp hc
  have hMerged : merged.usedSize = 0 := by simp [usedSize, hFree]
  rw [hEq, total_append, total_cons]
  omega

namespace Heap

variable {h : Heap} {bs xs ys : List Block} {b : Block}

/-- The bounds of an initialised heap and its `mem_heap_size`. -/
theorem dosMemHeapInit_area {mem : Nat → Nat} {memHeap heapSize : Nat}
    (hInit : (dosMemHeapInit mem memHeap heapSize).2 = true)
    (hSame : (dosMemHeapInit mem memHeap heapSize).1.SameBounds h)
    (hOrder : h.alignMemHeapBegin ≤ h.alignMemHeapEnd) (hEnd : h.alignMemHeapEnd < 2 ^ 32) :
    h.alignMemHeapBegin + (memInfoSize + memNodeSize +
      (dosMemHeapInit mem memHeap heapSize).1.memHeapSize) = h.alignMemHeapEnd := by
  obtain ⟨hBegin, hTop⟩ := hSame
  unfold dosMemHeapInit at hInit hBegin hTop ⊢
  simp only at hInit hBegin hTop ⊢
  split at hInit
  · cases hInit
  next hOk =>
    rw [if_neg hOk] at hBegin hTop ⊢
    simp only [not_or, memInfoSize, memNodeSize] at hOk
    rw [initNodes_eq] at hBegin hTop
    rw [initNodes_memHeapSize]
    have hBegin' : h.alignMemHeapBegin = dosAlign memHeap := hBegin
    have hTop' : h.alignMemHeapEnd = dosAlignDown ((memHeap + heapSize) % 2 ^ 32) := hTop
    rw [← hBegin', ← hTop'] at hOk ⊢
    simp only [memInfoSize, memNodeSize]
    omega

/-- User data is no part of the layout. -/
theorem Laid.write_user (hLaid : h.Laid (xs ++ b :: ys)) {addr word : Nat}
    (hLow : h.place xs + 8 ≤ addr) (hHigh : addr < h.place xs + b.span) :
    (h.write addr word).Laid (xs ++ b :: ys) :=
  (hLaid.focus.write_apart (Or.inr ⟨hLow, hHigh⟩)).laid

/-- The used blocks and a free one fit into the heap together. -/
theorem Laid.free_space (hLaid : h.Laid bs) {total' : Nat}
    (hArea : h.alignMemHeapBegin + (memInfoSize + memNodeSize + total') = h.alignMemHeapEnd)
    (hb : b ∈ bs) (hFree : b.used = false) : total Block.usedSize bs + b.size ≤ total' := by
  obtain ⟨xs, ys, rfl⟩ := List.append_of_mem hb
  have hFills := hLaid.framed.fills
  have hFront : total Block.usedSize xs ≤ total Block.span xs := total_le_total Block.usedSize_le_span
  have hBack : total Block.usedSize ys ≤ total Block.span ys := total_le_total Block.usedSize_le_span
  have hNone : b.usedSize = 0 := if_neg (by rw [hFree]; decide)
  rw [total_append, total_cons, Block.span_eq, firstNode] at hFills
  rw [total_append, total_cons, hNone]
  simp only [memInfoSize, memNodeSize] at hArea hFills
  omega

end Heap

/-- Every allocation and every free of a heap with the bounds of an initialised
one keeps the sum of the free and the used bytes, and an allocation takes no more
than the free bytes. A freed node has to fit its field together with the free
ones beside it. -/
theorem heap_balance_kept (h : Heap) (bs : List Block) (mem : Nat → Nat) (memHeap heapSize : Nat)
    (hInit : (Heap.dosMemHeapInit mem memHeap heapSize).2 = true)
    (hSame : (Heap.dosMemHeapInit mem memHeap heapSize).1.SameBounds h) (hLaid : h.Laid bs)
    (hBalanced : h.Balanced (Heap.dosMemHeapInit mem memHeap heapSize).1.memHeapSize) :
    (∀ size, ∃ h' p, h.dosMemAlloc size = some (h', p) ∧
      h'.Balanced (Heap.dosMemHeapInit mem memHeap heapSize).1.memHeapSize ∧
      (p ≠ 0 → dosAlign size ≤ h.memHeapSize)) ∧
    (∀ xs b ys, bs = xs ++ b :: ys → b.used = true →
      total Block.span (Block.joined xs b ys) < 2 ^ 30 + memNodeSize →
      ∃ h', h.dosMemFree (Heap.userMem (h.place xs)) = some (h', true) ∧
        h'.Balanced (Heap.dosMemHeapInit mem memHeap heapSize).1.memHeapSize) ∧
    ∀ p, memNodeSize ≤ p → p < 2 ^ 32 → h.used (p - memNodeSize) = 0 →
      ∃ h', h.dosMemFree p = some (h', false) ∧
        h'.Balanced (Heap.dosMemHeapInit mem memHeap heapSize).1.memHeapSize := by
  have hFills := hLaid.framed.fills
  have hArea := Heap.dosMemHeapInit_area hInit hSame
    (by rw [← hFills, Heap.firstNode]; omega) hLaid.framed.end_lt
  have hEnd := hLaid.framed.end_lt
  obtain ⟨n, hUsed, hSum⟩ := hBalanced
  have hn : n = total Block.usedSize bs := Option.some.inj (hUsed.symm.trans hLaid.usedBytes)
  refine ⟨?_, ?_, ?_⟩
  · intro size
    obtain ⟨⟨h', p⟩, hAlloc⟩ := Option.isSome_iff_exists.mp (hLaid.dosMemAlloc_isSome size)
    refine ⟨h', p, hAlloc, ?_⟩
    by_cases hp : p = 0
    · subst hp
      rw [hLaid.alloc_null hAlloc]
      exact ⟨⟨n, hUsed, hSum⟩, fun hNull => absurd rfl hNull⟩
    · obtain ⟨hBytes, hSize⟩ := hLaid.alloc_balance hAlloc hp
      obtain ⟨xs, b, ys, hSplit, hFits, -⟩ := hLaid.alloc_cases hAlloc hp
      have hSpace := hLaid.free_space hArea (by rw [hSplit]; simp) hFits.1
      have hLess := hFits.2
      refine ⟨⟨_, hBytes, ?_⟩, fun _ => by omega⟩
      rw [hSize]
      omega
  · intro xs b ys hSplit hb hFits
    subst hSplit
    obtain ⟨h', hFree, hFreed, -, -, hSize, -⟩ := hLaid.dosMemFree hb hFits
    refine ⟨h', hFree, _, hFreed.usedBytes, ?_⟩
    have hBlock : b.usedSize = b.size := if_pos hb
    rw [Block.usedSize_freed, hSize]
    rw [hn, total_append, total_cons, hBlock] at hSum
    rw [Nat.mod_eq_of_lt (by omega)]
    omega
  · intro p hLow hHigh hUnused
    exact ⟨h, Heap.dosMemFree_unused hLow hHigh hUnused, n, hUsed, hSum⟩

/-- The first of two blocks of a heap of 128 bytes is freed. -/
theorem heap_balance_kept_freed : ∃ h',
    (Heap.layout 0x20000000 92 [⟨12, true, rfl⟩, ⟨84, false, rfl⟩]).dosMemFree 0x20000018 =
      some (h', true) ∧ h'.Balanced 104 := by
  have hLaid : (Heap.layout 0x20000000 92 [⟨12, true, rfl⟩, ⟨84, false, rfl⟩]).Laid
      ([] ++ ⟨12, true, rfl⟩ :: [⟨84, false, rfl⟩]) :=
    Heap.layout_laid (by decide) (by decide) (by decide) (by decide) (by decide)
  have hBalance := heap_balance_kept _ _ (fun _ => 0) 0x20000000 128 (by decide +kernel)
    ⟨by decide +kernel, by decide +kernel⟩ hLaid ⟨12, by decide +kernel, by decide +kernel⟩
  have hInit : (Heap.dosMemHeapInit (fun _ => 0) 0x20000000 128).1.memHeapSize = 104 := by
    decide +kernel
  rw [hInit] at hBalance
  exact hBalance.2.1 [] ⟨12, true, rfl⟩ [⟨84, false, rfl⟩] rfl rfl (by decide)

/-- In a heap of more than 2^30 bytes the joined size wraps, and the last pointer
that `dos_mem_free` sets may fall on the header of the block it frees. -/
theorem wide_free_loses_balance : ∃ h h' : Heap, ∃ xs b ys,
    (Heap.dosMemHeapInit (fun _ => 0) 0x40000000 (2 ^ 30 + 104)).2 = true ∧
    (Heap.dosMemHeapInit (fun _ => 0) 0x40000000 (2 ^ 30 + 104)).1.SameBounds h ∧
    h.Laid (xs ++ b :: ys) ∧
    h.Balanced (Heap.dosMemHeapInit (fun _ => 0) 0x40000000 (2 ^ 30 + 104)).1.memHeapSize ∧
    b.used = true ∧ h.dosMemFree (Heap.userMem (h.place xs)) = some (h', true) ∧
    ¬h'.Balanced (Heap.dosMemHeapInit (fun _ => 0) 0x40000000 (2 ^ 30 + 104)).1.memHeapSize := by
  -- user data that looks like a free node of the right size, and like a used one
  let h := ((Heap.layout 0x40000000 (2 ^ 29 + 16) [⟨2 ^ 29, false, rfl⟩, ⟨2 ^ 29, true, rfl⟩,
    ⟨64, true, rfl⟩]).write 0x40000024 (NodeWord.pack (2 ^ 29 - 12) 0 0)).write 0x60000020
      (NodeWord.pack 0 1 0)
  have hRun : (h.dosMemFree (Heap.userMem (h.place [⟨2 ^ 29, false, rfl⟩]))).map
      (fun r => (r.2, r.1.usedBytes, r.1.memHeapSize)) = some (true, some 80, 2 ^ 30 + 16) := by
    decide +kernel
  obtain ⟨⟨h', ok⟩, hFree, hResult⟩ := Option.map_eq_some_iff.mp hRun
  simp only [Prod.mk.injEq] at hResult
  obtain ⟨rfl, hBytes, hSize⟩ := hResult
  have hInit : (Heap.dosMemHeapInit (fun _ => 0) 0x40000000 (2 ^ 30 + 104)).1.memHeapSize =
      2 ^ 30 + 80 := by decide +kernel
  have hLayout : (Heap.layout 0x40000000 (2 ^ 29 + 16) [⟨2 ^ 29, false, rfl⟩, ⟨2 ^ 29, true, rfl⟩,
      ⟨64, true, rfl⟩]).Laid ([] ++ ⟨2 ^ 29, false, rfl⟩ :: [⟨2 ^ 29, true, rfl⟩, ⟨64, true, rfl⟩]) :=
    Heap.layout_laid (by decide) (by decide) (by decide) (by decide) (by decide)
  refine ⟨h, h', [⟨2 ^ 29, false, rfl⟩], ⟨2 ^ 29, true, rfl⟩, [⟨64, true, rfl⟩], by decide +kernel,
    ⟨by decide +kernel, by decide +kernel⟩, ?_, ⟨2 ^ 29 + 64, by decide +kernel, by decide +kernel⟩,
    rfl, hFree, ?_⟩
  · have hFirst : ((Heap.layout 0x40000000 (2 ^ 29 + 16) [⟨2 ^ 29, false, rfl⟩, ⟨2 ^ 29, true, rfl⟩,
        ⟨64, true, rfl⟩]).write 0x40000024 (NodeWord.pack (2 ^ 29 - 12) 0 0)).Laid
        ([⟨2 ^ 29, false, rfl⟩] ++ ⟨2 ^ 29, true, rfl⟩ :: [⟨64, true, rfl⟩]) :=
      hLayout.write_user (by decide +kernel) (by decide +kernel)
    exact hFirst.write_user (by decide +kernel) (by decide +kernel)
  · rintro ⟨n, hUsed, hSum⟩
    rw [hBytes, Option.some.injEq] at hUsed
    rw [hInit, hSize, ← hUsed] at hSum
    exact absurd hSum (by decide)

end Balance

end DoraOS
