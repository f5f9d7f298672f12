import Mathlib.Data.List.Chain
import DoraOS.Memory.Free

/-! Coalescing. When no two free nodes are next to each other, `dos_mem_free`
joins the freed node with its free neighbours and again leaves no two free
nodes next to each other. The size of the joined node has to fit the 30 bits of
`mem_node_size`. -/
namespace DoraOS

open Segments

namespace Block

/-- No two free blocks are next to each other. -/
def Coalesced (bs : List Block) : Prop := bs.IsChain fun b c => b.used = true ∨ c.used = true

def freeLast (xs : List Block) : List Block := xs.getLast?.toList.filter fun c => !c.used

def freeHead (ys : List Block) : List Block := ys.head?.toList.filter fun c => !c.used

variable {b : Block} {xs ys : List Block}

theorem Coalesced.takeWhile (h : Coalesced ys) : ys.takeWhile (fun c => !c.used) = freeHead ys := by
  cases ys with
  | nil => rfl
  | cons c ys =>
      cases hc : c.used with
      | true => simp [freeHead, hc]
      | false =>
          have hNext : ys.takeWhile (fun c => !c.used) = [] := by
            cases ys with
            | nil => rfl
            | cons d ys =>
                have hd := (List.isChain_cons_cons.mp h).1
                simp_all
          rw [List.takeWhile_cons_of_pos (by simp [hc]), hNext]
          simp [freeHead, hc]

theorem Coalesced.reverse (h : Coalesced xs) : Coalesced xs.reverse := by
  rw [Coalesced, List.isChain_reverse]
  exact List.IsChain.imp (fun b c hUsed => hUsed.symm) h

theorem Coalesced.rtakeWhile (h : Coalesced xs) :
    xs.rtakeWhile (fun c => !c.used) = freeLast xs := by
  rw [List.rtakeWhile, h.reverse.takeWhile, freeHead, freeLast, List.head?_reverse]
  cases xs.getLast? with
  | none => rfl
  | some c => cases hc : c.used <;> simp [hc]

/-- The blocks in front of the joined ones, the joined ones and the rest. -/
theorem Coalesced.split (h : Coalesced (xs ++ b :: ys)) :
    xs ++ b :: ys = xs.rdropWhile (fun c => !c.used) ++
      ((freeLast xs ++ b :: freeHead ys) ++ ys.dropWhile fun c => !c.used) := by
  have hBack : Coalesced ys := (List.IsChain.right_of_append h).tail
  rw [← Coalesced.rtakeWhile (List.IsChain.left_of_append h), ← hBack.takeWhile, List.append_assoc,
    List.cons_append, List.takeWhile_append_dropWhile, ← List.append_assoc,
    List.rdropWhile_append_rtakeWhile]

theorem Coalesced.joined_eq (h : Coalesced (xs ++ b :: ys)) :
    joined xs b ys = freeLast xs ++ b :: freeHead ys := by
  have hBack : Coalesced ys := (List.IsChain.right_of_append h).tail
  rw [joined, Coalesced.rtakeWhile (List.IsChain.left_of_append h), hBack.takeWhile]

/-- A free block between two used ones. -/
theorem Coalesced.merged {merged : Block} (h : Coalesced (xs ++ b :: ys)) :
    Coalesced (xs.rdropWhile (fun c => !c.used) ++ merged :: ys.dropWhile fun c => !c.used) := by
  obtain ⟨hFront, hBack, -⟩ := List.isChain_append.mp h
  have hLast : ∀ c ∈ (xs.rdropWhile fun c => !c.used).getLast?, c.used = true := by
    intro c hc
    have hNe : xs.rdropWhile (fun c => !c.used) ≠ [] := by
      intro hNil
      rw [hNil] at hc
      cases hc
    have hNot := List.rdropWhile_last_not (fun c : Block => !c.used) xs hNe
    rw [List.getLast?_eq_some_getLast hNe, Option.mem_some_iff] at hc
    rw [hc] at hNot
    simpa using hNot
  have hHead : ∀ c ∈ (ys.dropWhile fun c => !c.used).head?, c.used = true := by
    intro c hc
    have hNot := List.head?_dropWhile_not (fun c : Block => !c.used) ys
    rw [Option.mem_def.mp hc] at hNot
    simpa using hNot
  refine List.isChain_append.mpr ⟨?_, List.isChain_cons.mpr ⟨?_, ?_⟩, ?_⟩
  · exact hFront.prefix (List.rdropWhile_prefix _ _)
  · exact fun c hc => Or.inr (hHead c hc)
  · exact hBack.tail.suffix (List.dropWhile_suffix _)
  · exact fun c hc d _ => Or.inl (hLast c hc)

end Block

namespace Heap

variable {h h' : Heap} {a p q : Nat} {b : Block} {xs ys bs : List Block}

section Layout

/-- The headers of `bs` from `a` on, with `p` before the first one. -/
def writeNodes (h : Heap) (p a : Nat) : List Block → Heap
  | [] => h.setMemTail p
  | b :: bs => writeNodes ((h.write a p).write (a + 4) (NodeWord.pack b.size b.used.toNat 0)) a
      (a + b.span) bs

/-- A heap with the nodes `bs` and `n` bytes in `mem_heap_size`. -/
def layout (heapBegin n : Nat) (bs : List Block) : Heap :=
  let h : Heap := ⟨fun _ => 0, heapBegin, heapBegin + memInfoSize + total Block.span bs⟩
  ((h.setMemHeapSize n).setMemHead (heapBegin + memInfoSize)).writeNodes 0
    (heapBegin + memInfoSize) bs

theorem writeNodes_bounds : h.SameBounds (h.writeNodes p a bs) := by
  induction bs generalizing h p a with
  | nil => exact write_bounds
  | cons b bs ih => exact (write_bounds.trans write_bounds).trans ih

theorem writeNodes_mem (hTail : q ≠ h.alignMemHeapBegin + 12) (hLow : q < a) :
    (h.writeNodes p a bs).mem q = h.mem q := by
  induction bs generalizing h p a with
  | nil => exact mem_write_of_ne hTail
  | cons b bs ih =>
      have hRest := ih (h := (h.write a p).write (a + 4) (NodeWord.pack b.size b.used.toNat 0))
        (p := a) hTail (show q < a + b.span by omega)
      rw [writeNodes, hRest, mem_write_of_ne (by omega), mem_write_of_ne (by omega)]

theorem writeNodes_memTail :
    (h.writeNodes p a bs).memTail = lastStart Block.span p a bs := by
  induction bs generalizing h p a with
  | nil => exact mem_write_self
  | cons b bs ih => exact ih

theorem writeNodes_chain (hLow : h.alignMemHeapBegin + 16 ≤ a) (hSizes : ∀ b ∈ bs, b.size < 2 ^ 30) :
    Chain Block.span (h.writeNodes p a bs).NodeAt p a bs := by
  induction bs generalizing h p a with
  | nil => exact chain_nil
  | cons b bs ih =>
      obtain ⟨hSize, hRest⟩ := List.forall_mem_cons.mp hSizes
      rw [writeNodes]
      refine ⟨?_, ih (Nat.le_trans hLow (Nat.le_add_right _ _)) hRest⟩
      have hWord : ((h.write a p).write (a + 4)
        (NodeWord.pack b.size b.used.toNat 0)).NodeAt p a b := by
        refine ⟨(mem_write_of_ne (by omega)).trans mem_write_self, ?_, ?_⟩
        · rw [nodeSize, mem_write_self, NodeWord.size_pack, Nat.mod_eq_of_lt hSize]
        · rw [Heap.used, mem_write_self, NodeWord.used_pack]
          cases b.used <;> rfl
      have hSpan := b.span_eq
      refine hWord.congr (writeNodes_mem ?_ ?_) (writeNodes_mem ?_ ?_)
      · show a ≠ h.alignMemHeapBegin + 12
        omega
      · omega
      · show a + 4 ≠ h.alignMemHeapBegin + 12
        omega
      · omega

/-- Every list of blocks is the layout of some heap, if the addresses and the
sizes of its nodes can be represented. -/
theorem layout_laid {heapBegin n : Nat} (hPos : 0 < heapBegin) (hAligned : heapBegin % 4 = 0)
    (hEnd : heapBegin + memInfoSize + total Block.span bs < 2 ^ 32) (hNonempty : bs ≠ [])
    (hSizes : ∀ b ∈ bs, b.size < 2 ^ 30) : (layout heapBegin n bs).Laid bs := by
  have hSame : (Heap.mk (fun _ => 0) heapBegin
    (heapBegin + memInfoSize + total Block.span bs)).SameBounds
      (layout heapBegin n bs) := (write_bounds.trans write_bounds).trans writeNodes_bounds
  refine ⟨⟨?_, ?_, ?_, ?_, ?_⟩, hNonempty, ?_, ?_⟩
  · rwa [hSame.heapBegin]
  · rwa [hSame.heapBegin]
  · rw [memHead, firstNode, hSame.heapBegin]
    refine (writeNodes_mem ?_ ?_).trans mem_write_self
    · show heapBegin + 8 ≠ heapBegin + 12
      omega
    · show heapBegin + 8 < heapBegin + 16
      omega
  · rw [firstNode, hSame.heapBegin, hSame.heapEnd]
  · rwa [hSame.heapEnd]
  · rw [firstNode, hSame.heapBegin]
    exact writeNodes_chain (Nat.le_refl _) hSizes
  · rw [firstNode, hSame.heapBegin]
    exact writeNodes_memTail

end Layout

end Heap

/-- Freeing a used node of a heap without adjacent free nodes joins it with its
free neighbours and with nothing else, if the joined size fits its field. A
second free of the same pointer is refused. -/
theorem free_coalesces (h : Heap) (xs ys : List Block) (b : Block) (hLaid : h.Laid (xs ++ b :: ys))
    (hCoalesced : Block.Coalesced (xs ++ b :: ys)) (hUsed : b.used = true)
    (hFits : total Block.span (Block.freeLast xs ++ b :: Block.freeHead ys) < 2 ^ 30 + memNodeSize) :
    ∃ h' front merged back, h.dosMemFree (Heap.userMem (h.place xs)) = some (h', true) ∧
      h'.Laid (front ++ merged :: back) ∧ Block.Coalesced (front ++ merged :: back) ∧
      merged.used = false ∧
      merged.span = total Block.span (Block.freeLast xs ++ b :: Block.freeHead ys) ∧
      h.SameBounds h' ∧
      (∃ right, h.nodes (xs ++ b :: ys) = h.nodes front ++
          located Block.span (h.place front) (Block.freeLast xs ++ b :: Block.freeHead ys) ++ right ∧
        h'.nodes (front ++ merged :: back) = h.nodes front ++ (h.place front, merged) :: right) ∧
      h'.dosMemFree (Heap.userMem (h.place xs)) = some (h', false) := by
  have hJoined := hCoalesced.joined_eq
  obtain ⟨h', hFree, hFreed, hSame, -, -, hMark⟩ :=
    hLaid.dosMemFree hUsed (by rwa [hJoined])
  obtain ⟨merged, hEq, hUnused, hSpan⟩ := Block.freed_eq xs b ys
  rw [hEq] at hFreed
  rw [hJoined] at hSpan
  refine ⟨h', _, merged, _, hFree, hFreed, hCoalesced.merged, hUnused, hSpan, hSame, ?_, ?_⟩
  · refine ⟨located Block.span (h.place (xs.rdropWhile fun c => !c.used) + merged.span)
      (ys.dropWhile fun c => !c.used), ?_, ?_⟩
    · rw [hCoalesced.split, Heap.nodes_append, located_append, hSpan, List.append_assoc]
    · rw [Heap.nodes_append, located_cons, hSame.place, Heap.nodes, hSame.firstNode, Heap.nodes]
  · have hBounds := hLaid.focus.bounds
    have hEnd := hLaid.framed.end_lt
    have hBlock := b.span_eq
    refine Heap.dosMemFree_unused ?_ ?_ ?_
    · exact Nat.le_add_left _ _
    · rw [Heap.userMem, memNodeSize]
      omega
    · rwa [Heap.userMem, Nat.add_sub_cancel]

/-- The second of three blocks is freed between a free and a used one. -/
theorem free_coalesces_left : ∃ h',
    (Heap.layout 0x20000000 0 [⟨16, false, rfl⟩, ⟨8, true, rfl⟩, ⟨12, true, rfl⟩]).dosMemFree
      0x20000030 = some (h', true) ∧ h'.dosMemFree 0x20000030 = some (h', false) := by
  have hLaid : (Heap.layout 0x20000000 0 [⟨16, false, rfl⟩, ⟨8, true, rfl⟩, ⟨12, true, rfl⟩]).Laid
      ([⟨16, false, rfl⟩] ++ ⟨8, true, rfl⟩ :: [⟨12, true, rfl⟩]) :=
    Heap.layout_laid (by decide) (by decide) (by decide) (by decide) (by decide)
  have hPlace : Heap.userMem ((Heap.layout 0x20000000 0
      [⟨16, false, rfl⟩, ⟨8, true, rfl⟩, ⟨12, true, rfl⟩]).place [⟨16, false, rfl⟩]) = 0x20000030 := by
    decide +kernel
  obtain ⟨h', front, merged, back, hFree, -, -, -, -, -, -, hAgain⟩ :=
    free_coalesces _ [⟨16, false, rfl⟩] [⟨12, true, rfl⟩] ⟨8, true, rfl⟩ hLaid
      (by simp [Block.Coalesced]) rfl (by decide)
  rw [hPlace] at hFree hAgain
  exact ⟨h', hFree, hAgain⟩

/-- In a heap of more than 2^30 bytes, a free and a used block of 2^29 bytes are
joined to a node whose recorded size is 8. -/
theorem free_truncates_size : ∃ h h' : Heap, ∃ b c : Block, h.Laid ([b] ++ c :: []) ∧
    Block.Coalesced ([b] ++ c :: []) ∧ c.used = true ∧
    h.dosMemFree (Heap.userMem (h.place [b])) = some (h', true) ∧
    h'.nodeSize h'.memTail = 8 ∧ ∀ bs, ¬h'.Laid bs := by
  let h := Heap.layout 0x10000000 0 [⟨2 ^ 29, false, rfl⟩, ⟨2 ^ 29, true, rfl⟩]
  have hRun : (h.dosMemFree (Heap.userMem (h.place [⟨2 ^ 29, false, rfl⟩]))).map
      (fun r => (r.2, r.1.nodeSize r.1.memTail, r.1.nodeEnd r.1.memTail, r.1.alignMemHeapEnd)) =
      some (true, 8, 0x10000020, 0x50000020) := by decide +kernel
  obtain ⟨⟨h', ok⟩, hFree, hResult⟩ := Option.map_eq_some_iff.mp hRun
  simp only [Prod.mk.injEq] at hResult
  obtain ⟨rfl, hSize, hEnd, hBound⟩ := hResult
  refine ⟨h, h', ⟨2 ^ 29, false, rfl⟩, ⟨2 ^ 29, true, rfl⟩, ?_, ?_, rfl, hFree, hSize, ?_⟩
  · exact Heap.layout_laid (by decide) (by decide) (by decide) (by decide) (by decide)
  · simp [Block.Coalesced]
  · intro bs hLaid
    have hTail := hLaid.nodeEnd_tail
    rw [hEnd, hBound] at hTail
    exact absurd hTail (by decide)

end DoraOS
