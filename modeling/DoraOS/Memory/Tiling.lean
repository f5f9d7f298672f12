import DoraOS.Library.Segments
import DoraOS.Memory.Heap

/-! What the heap represents: a list of blocks whose node headers follow each
other without a gap from the information block to the end of the heap, each
with a pointer to the one before it. -/
namespace DoraOS

open Segments

/-- A node without its address. Sizes are whole words, so every header is at
a word-aligned address. -/
structure Block where
  size : Nat
  used : Bool
  aligned : size % 4 = 0

namespace Block

def span (b : Block) : Nat := memNodeSize + b.size

theorem span_eq (b : Block) : b.span = 8 + b.size := rfl

/-- The block given to a caller that asks for `n` bytes. -/
def taken (n : Nat) (hn : n % 4 = 0) : Block := ⟨n, true, hn⟩

/-- What is left of a free block behind the first `n` bytes and a header. -/
def rest (b : Block) (n : Nat) (hn : n % 4 = 0) : Block where
  size := b.size - n - memNodeSize
  used := false
  aligned := by
    have hSize := b.aligned
    unfold memNodeSize
    omega

def release (b : Block) : Block := { b with used := false }

def join (b c : Block) : Block where
  size := b.size + (memNodeSize + c.size)
  used := b.used
  aligned := by
    have hLeft := b.aligned
    have hRight := c.aligned
    unfold memNodeSize
    omega

theorem span_rest {b : Block} {n : Nat} {hn : n % 4 = 0} (h : n + memNodeSize < b.size) :
    (taken n hn).span + (b.rest n hn).span = b.span := by
  simp only [span, taken, rest, memNodeSize] at h ⊢
  omega

theorem span_join (b c : Block) : (b.join c).span = b.span + c.span := by
  simp only [span, join]
  omega

end Block

namespace Heap

/-- The node at `a` is `b` and its `prev` is `p`. -/
structure NodeAt (h : Heap) (p a : Nat) (b : Block) : Prop where
  prev : h.prev a = p
  size : h.nodeSize a = b.size
  used : h.used a = b.used.toNat

/-- The address behind the information block. -/
def firstNode (h : Heap) : Nat := h.alignMemHeapBegin + memInfoSize

def place (h : Heap) (xs : List Block) : Nat := h.firstNode + total Block.span xs

def nodes (h : Heap) (bs : List Block) : List (Nat × Block) := located Block.span h.firstNode bs

/-- The static pointers are never changed. -/
structure SameBounds (h h' : Heap) : Prop where
  heapBegin : h'.alignMemHeapBegin = h.alignMemHeapBegin
  heapEnd : h'.alignMemHeapEnd = h.alignMemHeapEnd

/-- The bounds of a heap with `n` bytes behind the information block. -/
structure Framed (h : Heap) (n : Nat) : Prop where
  begin_pos : 0 < h.alignMemHeapBegin
  begin_aligned : h.alignMemHeapBegin % 4 = 0
  head : h.memHead = h.firstNode
  fills : h.firstNode + n = h.alignMemHeapEnd
  end_lt : h.alignMemHeapEnd < 2 ^ 32

/-- The word at `x` belongs to no header of `bs` and is not `mem_tail`. -/
def Aside (h : Heap) (bs : List Block) (x : Nat) : Prop :=
  x ≠ h.alignMemHeapBegin + 12 ∧
    ∀ pre post, bs = pre ++ post → x ≠ h.place pre ∧ x ≠ h.place pre + 4

/-- The nodes of the heap are `bs`. -/
structure Laid (h : Heap) (bs : List Block) : Prop where
  framed : h.Framed (total Block.span bs)
  nonempty : bs ≠ []
  chain : Chain Block.span h.NodeAt 0 h.firstNode bs
  tail : h.memTail = lastStart Block.span 0 h.firstNode bs

/-- The same for a heap that one node can describe, as after `dos_mem_heap_init`. -/
structure Tiled (h : Heap) (bs : List Block) : Prop extends Laid h bs where
  small : total Block.span bs < 2 ^ 30 + memNodeSize

/-- The nodes of the heap with one of them in view. While the heap is changed,
the node behind it may have a pointer `link` to some other node. -/
structure Spine (h : Heap) (xs : List Block) (b : Block) (link : Nat) (ys : List Block) : Prop where
  framed : h.Framed (total Block.span (xs ++ b :: ys))
  front : Chain Block.span h.NodeAt 0 h.firstNode xs
  node : h.NodeAt (lastStart Block.span 0 h.firstNode xs) (h.place xs) b
  back : Chain Block.span h.NodeAt link (h.place xs + b.span) ys

/-- The same with `mem_tail` at the last node. -/
structure Focus (h : Heap) (xs : List Block) (b : Block) (link : Nat) (ys : List Block) : Prop
    extends Spine h xs b link ys where
  tail : h.memTail = lastStart Block.span (h.place xs) (h.place xs + b.span) ys

variable {h h' : Heap} {p q a n addr word : Nat} {b c : Block} {xs ys bs : List Block}

section Frame

theorem SameBounds.rfl : h.SameBounds h := ⟨Eq.refl _, Eq.refl _⟩

theorem SameBounds.trans {k : Heap} (hFirst : h.SameBounds h') (hSecond : h'.SameBounds k) :
    h.SameBounds k :=
  ⟨hSecond.heapBegin.trans hFirst.heapBegin, hSecond.heapEnd.trans hFirst.heapEnd⟩

theorem mem_write_self : (h.write addr word).mem addr = word := by
  simp [write]

theorem mem_write_of_ne (hne : a ≠ addr) : (h.write addr word).mem a = h.mem a := by
  simp [write, hne]

theorem NodeAt.congr (hNode : h.NodeAt p a b) (hPrev : h'.mem a = h.mem a)
    (hWord : h'.mem (a + 4) = h.mem (a + 4)) : h'.NodeAt p a b where
  prev := hPrev.trans hNode.prev
  size := by
    rw [nodeSize, hWord]
    exact hNode.size
  used := by
    rw [Heap.used, hWord]
    exact hNode.used

theorem NodeAt.size_lt (hNode : h.NodeAt p a b) : b.size < 2 ^ 30 := by
  rw [← hNode.size]
  exact Nat.mod_lt _ (by decide)

/-- The nodes of an area depend on its memory only. -/
theorem chain_congr (hChain : Chain Block.span h.NodeAt p a xs)
    (hMem : ∀ x, a ≤ x → x < a + total Block.span xs → h'.mem x = h.mem x) :
    Chain Block.span h'.NodeAt p a xs := by
  refine hChain.mono ?_
  intro q d c hLow hHigh hNode
  rw [Block.span_eq] at hHigh
  exact hNode.congr (hMem d hLow (by omega)) (hMem (d + 4) (by omega) (by omega))

/-- The first node of an area may get another predecessor. -/
theorem chain_relink (hChain : Chain Block.span h.NodeAt p a (b :: xs)) (hPrev : h'.mem a = q)
    (hMem : ∀ x, a < x → x < a + total Block.span (b :: xs) → h'.mem x = h.mem x) :
    Chain Block.span h'.NodeAt q a (b :: xs) := by
  obtain ⟨hNode, hRest⟩ := hChain
  rw [total_cons, Block.span_eq] at hMem
  have hWord : h'.mem (a + 4) = h.mem (a + 4) := hMem (a + 4) (by omega) (by omega)
  refine ⟨⟨hPrev, ?_, ?_⟩, chain_congr hRest ?_⟩
  · rw [nodeSize, hWord]
    exact hNode.size
  · rw [Heap.used, hWord]
    exact hNode.used
  · intro x hLow hHigh
    rw [Block.span_eq] at hLow hHigh
    exact hMem x (by omega) (by omega)

/-- The word behind `prev` decides on the other fields. -/
theorem NodeAt.pack {size used align : Nat} (hNode : h.NodeAt p a b)
    (hSize : size % 2 ^ 30 = c.size) (hUsed : used % 2 = c.used.toNat) :
    (h.write (a + 4) (NodeWord.pack size used align)).NodeAt p a c where
  prev := (mem_write_of_ne (by omega)).trans hNode.prev
  size := by
    rw [nodeSize, mem_write_self, NodeWord.size_pack, hSize]
  used := by
    rw [Heap.used, mem_write_self, NodeWord.used_pack, hUsed]

theorem NodeAt.setUsed (hNode : h.NodeAt p a b) (u : Bool) :
    (h.setUsed a u.toNat).NodeAt p a { b with used := u } :=
  hNode.pack ((Nat.mod_mod _ _).trans hNode.size) (by cases u <;> rfl)

theorem NodeAt.setAlign (hNode : h.NodeAt p a b) : (h.setAlign a n).NodeAt p a b :=
  hNode.pack ((Nat.mod_mod _ _).trans hNode.size) ((Nat.mod_mod _ _).trans hNode.used)

theorem NodeAt.setNodeSize (hNode : h.NodeAt p a b) (hUsed : c.used = b.used)
    (hSize : c.size < 2 ^ 30) : (h.setNodeSize a c.size).NodeAt p a c :=
  hNode.pack (Nat.mod_eq_of_lt hSize) (by rw [hUsed]; exact (Nat.mod_mod _ _).trans hNode.used)

end Frame

section Views

theorem place_append : h.place (xs ++ ys) = h.place xs + total Block.span ys := by
  rw [place, place, total_append, Nat.add_assoc]

theorem place_snoc : h.place (xs ++ [b]) = h.place xs + b.span := by
  simp [place_append]

theorem nodes_append : h.nodes (xs ++ ys) = h.nodes xs ++ located Block.span (h.place xs) ys := by
  rw [nodes, located_append, nodes, place]

theorem lastStart_place : lastStart Block.span 0 h.firstNode (xs ++ b :: ys) =
    lastStart Block.span (h.place xs) (h.place xs + b.span) ys := by
  rw [lastStart_append, lastStart_cons, place]

theorem Laid.focus (hLaid : h.Laid (xs ++ b :: ys)) : h.Focus xs b (h.place xs) ys := by
  obtain ⟨hFront, hNode, hBack⟩ := chain_append.mp hLaid.chain
  exact ⟨⟨hLaid.framed, hFront, hNode, hBack⟩, hLaid.tail.trans lastStart_place⟩

theorem Focus.laid (hFocus : h.Focus xs b (h.place xs) ys) : h.Laid (xs ++ b :: ys) where
  framed := hFocus.framed
  nonempty := by simp
  chain := chain_append.mpr ⟨hFocus.front, hFocus.node, hFocus.back⟩
  tail := hFocus.tail.trans lastStart_place.symm

theorem Spine.bounds (hSpine : h.Spine xs b q ys) :
    h.alignMemHeapBegin + 16 ≤ h.place xs ∧
      h.place xs + b.span + total Block.span ys = h.alignMemHeapEnd := by
  have hFills := hSpine.framed.fills
  rw [total_append, total_cons] at hFills
  rw [place]
  constructor
  · exact Nat.le_add_right _ _
  · omega

theorem Spine.place_pos (hSpine : h.Spine xs b q ys) : 0 < h.place xs := by
  have hBegin := hSpine.framed.begin_pos
  rw [place, firstNode]
  omega

theorem Spine.nodeEnd (hSpine : h.Spine xs b q ys) :
    h.nodeEnd (h.place xs) = h.place xs + b.span := by
  have hBounds := hSpine.bounds
  have hEnd := hSpine.framed.end_lt
  rw [Heap.nodeEnd, hSpine.node.size, userMem, memNodeSize]
  rw [Block.span_eq] at hBounds ⊢
  omega

theorem Focus.next_nil (hFocus : h.Focus xs b q []) : h.dosGetNextNode (h.place xs) = 0 := by
  rw [dosGetNextNode, hFocus.tail, lastStart_nil, if_pos rfl]

theorem Focus.lt_tail (hFocus : h.Focus xs b q (c :: ys)) :
    h.place xs + b.span ≤ h.memTail := by
  rw [hFocus.tail]
  exact (lastStart_bounds fun x => by rw [Block.span_eq]; omega).1

theorem Focus.next_cons (hFocus : h.Focus xs b q (c :: ys)) :
    h.dosGetNextNode (h.place xs) = h.place xs + b.span := by
  have hTail := hFocus.lt_tail
  rw [Block.span_eq] at hTail
  rw [dosGetNextNode, if_neg (by omega), hFocus.nodeEnd]

/-- The node at `mem_tail` ends where the heap ends. -/
theorem Laid.nodeEnd_tail (hLaid : h.Laid bs) : h.nodeEnd h.memTail = h.alignMemHeapEnd := by
  obtain ⟨xs, b, rfl⟩ : ∃ xs b, bs = xs ++ [b] :=
    ⟨_, _, (List.dropLast_append_getLast hLaid.nonempty).symm⟩
  have hTail : h.memTail = h.place xs := hLaid.focus.tail
  rw [hTail, hLaid.focus.nodeEnd]
  simpa using hLaid.focus.bounds.2

theorem Laid.length_lt_fuel (hLaid : h.Laid bs) : bs.length < h.fuel := by
  have hFills := hLaid.framed.fills
  have hLength : 8 * bs.length ≤ total Block.span bs :=
    length_le_total fun x => by rw [Block.span_eq]; omega
  rw [firstNode] at hFills
  rw [fuel, memNodeSize]
  omega

theorem SameBounds.firstNode (hBounds : h.SameBounds h') : h'.firstNode = h.firstNode := by
  rw [Heap.firstNode, hBounds.heapBegin, Heap.firstNode]

theorem SameBounds.place (hBounds : h.SameBounds h') : h'.place xs = h.place xs := by
  rw [Heap.place, hBounds.firstNode, Heap.place]

/-- The bounds of the heap decide on the space of its nodes. -/
theorem Laid.tiled (hLaid : h'.Laid ys) (hTiled : h.Tiled xs) (hSame : h.SameBounds h') :
    h'.Tiled ys := by
  refine ⟨hLaid, ?_⟩
  have hBefore := hTiled.framed.fills
  have hAfter := hLaid.framed.fills
  rw [hSame.firstNode, hSame.heapEnd, ← hBefore] at hAfter
  rw [Nat.add_left_cancel hAfter]
  exact hTiled.small

/-- A change of the heap around the node in view. -/
theorem Spine.update (hSpine : h.Spine xs b p ys) {zs : List Block} (hSame : h.SameBounds h')
    (hHead : h'.mem (h.alignMemHeapBegin + 8) = h.mem (h.alignMemHeapBegin + 8))
    (hFront : ∀ x, h.firstNode ≤ x → x < h.place xs → h'.mem x = h.mem x)
    (hNode : ∀ l, h.NodeAt l (h.place xs) b → h'.NodeAt l (h.place xs) c)
    (hTotal : c.span + total Block.span zs = b.span + total Block.span ys)
    (hBack : Chain Block.span h'.NodeAt q (h.place xs + c.span) zs) :
    h'.Spine xs c q zs := by
  have hSum : total Block.span (xs ++ c :: zs) = total Block.span (xs ++ b :: ys) := by
    simp only [total_append, total_cons, hTotal]
  obtain ⟨hPos, hAligned, hHeadIs, hFills, hLt⟩ := hSpine.framed
  refine ⟨⟨?_, ?_, ?_, ?_, ?_⟩, ?_, ?_, ?_⟩
  · rwa [hSame.heapBegin]
  · rwa [hSame.heapBegin]
  · rw [memHead, hSame.heapBegin, hHead, hSame.firstNode]
    exact hHeadIs
  · rw [hSum, hSame.firstNode, hSame.heapEnd, hFills]
  · rwa [hSame.heapEnd]
  · rw [hSame.firstNode]
    exact chain_congr hSpine.front hFront
  · rw [hSame.firstNode, hSame.place]
    exact hNode _ hSpine.node
  · rw [hSame.place]
    exact hBack

theorem Spine.focus (hSpine : h'.Spine xs c q ys) (hSame : h.SameBounds h')
    (hTail : h'.memTail = lastStart Block.span (h.place xs) (h.place xs + c.span) ys) :
    h'.Focus xs c q ys := by
  refine ⟨hSpine, ?_⟩
  rw [hSame.place]
  exact hTail

theorem write_bounds : h.SameBounds (h.write addr word) := ⟨rfl, rfl⟩

/-- A change of the bit-fields of the node in view. -/
theorem Focus.write_fields (hFocus : h.Focus xs b q ys)
    (hNode : ∀ l, h.NodeAt l (h.place xs) b → (h.write (h.place xs + 4) word).NodeAt l (h.place xs) c)
    (hSpan : c.span = b.span) : (h.write (h.place xs + 4) word).Focus xs c q ys := by
  have hBounds := hFocus.bounds
  have hSize := b.span_eq
  refine (hFocus.update write_bounds (mem_write_of_ne (by omega)) ?_ hNode (by rw [hSpan]) ?_).focus
    write_bounds ?_
  · intro x hLow hHigh
    exact mem_write_of_ne (by omega)
  · rw [hSpan]
    refine chain_congr hFocus.back ?_
    intro x hLow hHigh
    exact mem_write_of_ne (by omega)
  · rw [hSpan, ← hFocus.tail]
    exact mem_write_of_ne (show h.alignMemHeapBegin + 12 ≠ h.place xs + 4 by omega)

theorem Focus.setUsed (hFocus : h.Focus xs b q ys) (u : Bool) :
    (h.setUsed (h.place xs) u.toNat).Focus xs { b with used := u } q ys :=
  hFocus.write_fields (fun _ hNode => hNode.setUsed u) rfl

/-- A write that touches no header and no pointer of the information block. -/
theorem Focus.write_apart (hFocus : h.Focus xs b q ys)
    (hAddr : addr = h.alignMemHeapBegin + 4 ∨
      h.place xs + 8 ≤ addr ∧ addr < h.place xs + b.span) :
    (h.write addr word).Focus xs b q ys := by
  have hBounds := hFocus.bounds
  have hFirst : h.firstNode = h.alignMemHeapBegin + 16 := rfl
  have hSize := b.span_eq
  refine (hFocus.update write_bounds (mem_write_of_ne (by omega)) ?_ ?_ rfl ?_).focus write_bounds ?_
  · intro x hLow hHigh
    exact mem_write_of_ne (by omega)
  · intro l hNode
    exact hNode.congr (mem_write_of_ne (by omega)) (mem_write_of_ne (by omega))
  · refine chain_congr hFocus.back ?_
    intro x hLow hHigh
    exact mem_write_of_ne (by omega)
  · rw [← hFocus.tail]
    exact mem_write_of_ne (show h.alignMemHeapBegin + 12 ≠ addr by omega)

theorem Focus.setMemHeapSize (hFocus : h.Focus xs b q ys) (size : Nat) :
    (h.setMemHeapSize size).Focus xs b q ys :=
  hFocus.write_apart (Or.inl rfl)

/-- The user area of a block holds no header. -/
theorem Spine.aside_user (hSpine : h.Spine xs b q ys) (hLow : h.place xs + 8 ≤ a)
    (hHigh : a < h.place xs + b.span) : h.Aside (xs ++ b :: ys) a := by
  have hBounds := hSpine.bounds
  refine ⟨by omega, ?_⟩
  intro pre post hSplit
  rcases List.append_eq_append_iff.mp hSplit with ⟨as, rfl, hTail⟩ | ⟨cs, rfl, -⟩
  · cases as with
    | nil =>
        rw [List.append_nil]
        omega
    | cons d as =>
        rw [List.cons_append, List.cons.injEq] at hTail
        rw [place_append, total_cons, ← hTail.1]
        omega
  · rw [place_append] at hLow
    omega

/-- So does the word `mem_heap_size`. -/
theorem aside_size : h.Aside bs (h.alignMemHeapBegin + 4) := by
  refine ⟨by omega, ?_⟩
  intro pre post _
  have hFirst : h.place pre = h.alignMemHeapBegin + 16 + total Block.span pre := rfl
  omega

end Views

end Heap

end DoraOS
