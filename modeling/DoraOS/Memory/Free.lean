import Mathlib.Data.List.DropRight
import DoraOS.Memory.Tiling

/-! `dos_mem_free` joins the freed block with the free blocks on both sides of
it and leaves every other block where it is. -/
namespace DoraOS

open Segments

namespace Block

/-- The block takes in the free blocks that follow it. -/
def absorb (b : Block) : List Block → List Block
  | [] => [b]
  | c :: ys => if c.used then b :: c :: ys else absorb (b.join c) ys

/-- The blocks after the first one took in the free blocks behind it. -/
def absorbAll : List Block → List Block
  | [] => []
  | b :: ys => b.absorb ys

/-- The blocks after `b`, between `xs` and `ys`, is freed. -/
def freed (xs : List Block) (b : Block) (ys : List Block) : List Block :=
  xs.rdropWhile (fun c => !c.used) ++
    absorbAll (xs.rtakeWhile (fun c => !c.used) ++ b.release :: ys)

/-- The blocks that become one when `b` is freed. -/
def joined (xs : List Block) (b : Block) (ys : List Block) : List Block :=
  xs.rtakeWhile (fun c => !c.used) ++ b :: ys.takeWhile (fun c => !c.used)

/-- A block takes in the free blocks directly behind it and no others. -/
theorem absorb_eq (b : Block) (ys : List Block) :
    ∃ merged, b.absorb ys = merged :: ys.dropWhile (fun c => !c.used) ∧ merged.used = b.used ∧
      merged.span = b.span + total span (ys.takeWhile fun c => !c.used) := by
  induction ys generalizing b with
  | nil => exact ⟨b, rfl, rfl, by simp⟩
  | cons c ys ih =>
      cases hc : c.used with
      | true => exact ⟨b, by simp [absorb, hc], rfl, by simp [hc]⟩
      | false =>
          obtain ⟨merged, hAbsorb, hUsed, hSpan⟩ := ih (b.join c)
          refine ⟨merged, by simpa [absorb, hc] using hAbsorb, hUsed, ?_⟩
          rw [hSpan, span_join, List.takeWhile_cons_of_pos (by simp [hc]), total_cons, Nat.add_assoc]

/-- The run of free blocks that ends with the freed one, taken in by its first
block. -/
theorem freed_eq (xs : List Block) (b : Block) (ys : List Block) :
    ∃ merged, freed xs b ys = xs.rdropWhile (fun c => !c.used) ++
        merged :: ys.dropWhile (fun c => !c.used) ∧ merged.used = false ∧
      merged.span = total span (joined xs b ys) := by
  have hFree : ∀ c ∈ xs.rtakeWhile (fun c => !c.used), c.used = false := by
    intro c hc
    simpa using List.mem_rtakeWhile_imp hc
  rw [freed, joined]
  generalize xs.rtakeWhile (fun c => !c.used) = run at hFree
  cases run with
  | nil =>
      obtain ⟨merged, hAbsorb, hUsed, hSpan⟩ := absorb_eq b.release ys
      refine ⟨merged, by rw [List.nil_append, absorbAll, hAbsorb], hUsed, ?_⟩
      rw [hSpan, List.nil_append, total_cons]
      rfl
  | cons c run =>
      have hRun : ∀ d ∈ run, d.used = false := fun d hd => hFree d (List.mem_cons_of_mem c hd)
      obtain ⟨merged, hAbsorb, hUsed, hSpan⟩ := absorb_eq c (run ++ b.release :: ys)
      have hTake : (run ++ b.release :: ys).takeWhile (fun c => !c.used) =
          run ++ b.release :: ys.takeWhile (fun c => !c.used) := by
        rw [List.takeWhile_append_of_pos (by simpa using hRun),
          List.takeWhile_cons_of_pos (by simp [release])]
      have hDrop : (run ++ b.release :: ys).dropWhile (fun c => !c.used) =
          ys.dropWhile (fun c => !c.used) := by
        rw [List.dropWhile_append_of_pos (by simpa using hRun),
          List.dropWhile_cons_of_pos (by simp [release])]
      refine ⟨merged, by rw [List.cons_append, absorbAll, hAbsorb, hDrop],
        hUsed.trans (hFree c List.mem_cons_self), ?_⟩
      rw [hSpan, hTake, List.cons_append, total_cons, total_append, total_append, total_cons,
        total_cons]
      rfl

end Block

namespace Heap

variable {h : Heap} {q : Nat} {b c : Block} {xs ys bs : List Block}

section Merge

theorem mergeNode_bounds (freeNode node : Nat) : h.SameBounds (h.mergeNode freeNode node) := by
  unfold mergeNode
  simp only
  split <;> exact ⟨rfl, rfl⟩

theorem mergeNode_mem {freeNode node x : Nat} (hx : x ≠ h.alignMemHeapBegin + 12) :
    (h.mergeNode freeNode node).mem x = (h.setNodeSize freeNode
      (h.nodeSize freeNode + (memNodeSize + h.nodeSize node))).mem x := by
  unfold mergeNode
  simp only
  split
  · exact mem_write_of_ne hx
  · rfl

theorem mergeNode_mem_of_ne {freeNode node x : Nat} (hx : x ≠ h.alignMemHeapBegin + 12)
    (hx' : x ≠ freeNode + 4) : (h.mergeNode freeNode node).mem x = h.mem x :=
  (mergeNode_mem hx).trans (mem_write_of_ne hx')

theorem mergeNode_memTail {freeNode node : Nat} (hne : h.alignMemHeapBegin + 12 ≠ freeNode + 4) :
    (h.mergeNode freeNode node).memTail = if node = h.memTail then freeNode else h.memTail := by
  have hTail : (h.setNodeSize freeNode
      (h.nodeSize freeNode + (memNodeSize + h.nodeSize node))).memTail = h.memTail :=
    mem_write_of_ne hne
  simp only [mergeNode, hTail]
  split
  · exact mem_write_self
  · exact hTail

/-- One round of the merging loop. The node behind the two keeps its pointer
to the second of them. -/
theorem Focus.mergeNode (hFocus : h.Focus xs b q (c :: ys)) (hSize : (b.join c).size < 2 ^ 30) :
    (h.mergeNode (h.place xs) (h.place xs + b.span)).Focus xs (b.join c)
      (h.place xs + b.span) ys := by
  obtain ⟨hNext, hBack⟩ := hFocus.back
  have hBounds := hFocus.bounds
  have hSpan := b.span_eq
  have hSpan' := c.span_eq
  have hJoin := Block.span_join b c
  simp only [total_cons] at hBounds
  have hWrite : h.nodeSize (h.place xs) + (memNodeSize + h.nodeSize (h.place xs + b.span)) =
      (b.join c).size := by
    rw [hFocus.node.size, hNext.size, Block.join]
  have hOff : ∀ x, x ≠ h.alignMemHeapBegin + 12 → x ≠ h.place xs + 4 →
      (h.mergeNode (h.place xs) (h.place xs + b.span)).mem x = h.mem x :=
    fun _ hx hx' => mergeNode_mem_of_ne hx hx'
  refine (hFocus.update (mergeNode_bounds _ _) (hOff _ (by omega) (by omega)) ?_ ?_
    (by rw [hJoin, total_cons, Nat.add_assoc]) ?_).focus (mergeNode_bounds _ _) ?_
  · intro x hLow hHigh
    rw [firstNode, memInfoSize] at hLow
    exact hOff x (by omega) (by omega)
  · intro l hNode
    have hGrown : (h.setNodeSize (h.place xs) (b.join c).size).NodeAt l (h.place xs) (b.join c) :=
      hNode.setNodeSize rfl hSize
    refine hGrown.congr ?_ ?_
    · rw [mergeNode_mem (by omega), hWrite]
    · rw [mergeNode_mem (by omega), hWrite]
  · rw [hJoin, ← Nat.add_assoc]
    refine chain_congr hBack ?_
    intro x hLow hHigh
    exact hOff x (by omega) (by omega)
  · rw [mergeNode_memTail (by omega), hFocus.tail, lastStart_cons, hJoin, ← Nat.add_assoc]
    cases ys with
    | nil => rw [lastStart_nil, if_pos rfl, lastStart_nil]
    | cons d ys =>
        have hLast : h.place xs + b.span + c.span ≤ lastStart Block.span (h.place xs + b.span)
            (h.place xs + b.span + c.span) (d :: ys) :=
          (lastStart_bounds fun x => by rw [Block.span_eq]; omega).1
        rw [if_neg (by omega), lastStart_cons, lastStart_cons]

/-- The merging loop ends and takes in all the free blocks that follow. -/
theorem Focus.mergeNext {fuel : Nat} (hFocus : h.Focus xs b q ys) (hFuel : ys.length < fuel)
    (hFits : b.span + total Block.span (ys.takeWhile fun c => !c.used) < 2 ^ 30 + memNodeSize) :
    ∃ h' link merged post, Heap.mergeNext fuel h (h.place xs) = some h' ∧
      b.absorb ys = merged :: post ∧ h'.Focus xs merged link post ∧ h.SameBounds h' ∧
      ∀ x, x ≠ h.alignMemHeapBegin + 12 → x ≠ h.place xs + 4 → h'.mem x = h.mem x := by
  induction ys generalizing h b q fuel with
  | nil =>
      obtain ⟨k, rfl⟩ := Nat.exists_eq_succ_of_ne_zero (Nat.ne_of_gt hFuel)
      refine ⟨h, q, b, [], ?_, rfl, hFocus, .rfl, fun _ _ _ => rfl⟩
      simp [Heap.mergeNext, hFocus.next_nil]
  | cons c ys ih =>
      obtain ⟨k, rfl⟩ := Nat.exists_eq_succ_of_ne_zero (Nat.ne_of_gt (Nat.zero_lt_of_lt hFuel))
      have hPos := hFocus.place_pos
      have hUsed := hFocus.back.1.used
      simp only [Heap.mergeNext, hFocus.next_cons, hUsed, Block.absorb]
      cases hc : c.used with
      | true => exact ⟨h, q, b, c :: ys, by simp, by simp, hFocus, .rfl, fun _ _ _ => rfl⟩
      | false =>
          have hFuel' : ys.length < k := Nat.lt_of_succ_lt_succ hFuel
          have hSame := mergeNode_bounds (h := h) (h.place xs) (h.place xs + b.span)
          have hJoin := Block.span_join b c
          rw [List.takeWhile_cons_of_pos (by simp [hc]), total_cons, ← Nat.add_assoc, ← hJoin] at hFits
          have hSize : (b.join c).size < 2 ^ 30 := by
            rw [Block.span, memNodeSize] at hFits
            omega
          obtain ⟨h', link, merged, post, hRun, hAbsorb, hFocus', hSame', hMem⟩ :=
            ih (hFocus.mergeNode hSize) hFuel' hFits
          rw [hSame.place] at hRun hMem
          rw [hSame.heapBegin] at hMem
          refine ⟨h', link, merged, post, ?_, by simpa using hAbsorb, hFocus',
            hSame.trans hSame', ?_⟩
          · rw [if_pos ⟨by omega, rfl⟩]
            exact hRun
          · intro x hx hx'
            exact (hMem x hx hx').trans (mergeNode_mem_of_ne hx hx')

/-- The last statement of `dos_mem_free`. -/
def relinkNext (h : Heap) (first : Nat) : Heap :=
  if h.dosGetNextNode first ≠ 0 then h.setPrev (h.dosGetNextNode first) first else h

/-- The last pointer that `dos_mem_free` sets. -/
theorem Focus.relink (hFocus : h.Focus xs b q (c :: ys)) :
    (h.setPrev (h.place xs + b.span) (h.place xs)).Focus xs b (h.place xs) (c :: ys) := by
  have hBounds := hFocus.bounds
  have hSpan := b.span_eq
  refine (hFocus.update write_bounds (mem_write_of_ne (by omega)) ?_ ?_ rfl ?_).focus write_bounds ?_
  · intro x hLow hHigh
    exact mem_write_of_ne (by omega)
  · intro l hNode
    exact hNode.congr (mem_write_of_ne (by omega)) (mem_write_of_ne (by omega))
  · refine chain_relink hFocus.back mem_write_self ?_
    intro x hLow hHigh
    exact mem_write_of_ne (by omega)
  · rw [← hFocus.tail]
    exact mem_write_of_ne (show h.alignMemHeapBegin + 12 ≠ h.place xs + b.span by omega)

theorem Focus.relinkNext (hFocus : h.Focus xs b q ys) :
    (h.relinkNext (h.place xs)).Laid (xs ++ b :: ys) := by
  have hPos := hFocus.place_pos
  rw [Heap.relinkNext]
  cases ys with
  | nil =>
      rw [hFocus.next_nil, if_neg (by simp)]
      exact Focus.laid ⟨⟨hFocus.framed, hFocus.front, hFocus.node, chain_nil⟩, hFocus.tail⟩
  | cons c ys =>
      rw [hFocus.next_cons, if_pos (by omega)]
      exact hFocus.relink.laid

theorem Focus.relinkNext_mem (hFocus : h.Focus xs b q ys) {x : Nat} (hx : x ≠ h.place xs + b.span) :
    (h.relinkNext (h.place xs)).mem x = h.mem x := by
  rw [Heap.relinkNext]
  cases ys with
  | nil => rw [hFocus.next_nil, if_neg (by simp)]
  | cons c ys =>
      rw [hFocus.next_cons]
      split
      · exact mem_write_of_ne hx
      · rfl

theorem relinkNext_bounds (first : Nat) : h.SameBounds (h.relinkNext first) := by
  rw [relinkNext]
  split
  · exact write_bounds
  · exact .rfl

/-- Merging at a node changes `mem_tail`, its size and the pointer to it. -/
theorem Laid.mergeNext (hLaid : h.Laid (xs ++ c :: ys)) {merged : Block} {zs : List Block}
    (hAbsorb : c.absorb ys = merged :: zs) (hFits : merged.span < 2 ^ 30 + memNodeSize) :
    ∃ h', Heap.mergeNext h.fuel h (h.place xs) = some h' ∧
      (h'.relinkNext (h.place xs)).Laid (xs ++ merged :: zs) ∧
      h.SameBounds (h'.relinkNext (h.place xs)) ∧
      ∀ x, x ≠ h.alignMemHeapBegin + 12 → x ≠ h.place xs + 4 → x ≠ h.place xs + merged.span →
        (h'.relinkNext (h.place xs)).mem x = h.mem x := by
  have hFuel := hLaid.length_lt_fuel
  rw [List.length_append, List.length_cons] at hFuel
  obtain ⟨merged', hAbsorb', -, hSpan⟩ := Block.absorb_eq c ys
  obtain ⟨rfl, rfl⟩ := List.cons.inj (hAbsorb.symm.trans hAbsorb')
  obtain ⟨h', link, merged', post, hMerge, hAbsorb', hFocus, hSame, hMem⟩ :=
    hLaid.focus.mergeNext (show ys.length < h.fuel by omega) (hSpan ▸ hFits)
  obtain ⟨rfl, rfl⟩ := List.cons.inj (hAbsorb.symm.trans hAbsorb')
  have hRelinked := hFocus.relinkNext
  have hRelinked_mem (x : Nat) := hFocus.relinkNext_mem (x := x)
  rw [hSame.place] at hRelinked hRelinked_mem
  refine ⟨h', hMerge, hRelinked, hSame.trans (relinkNext_bounds _), ?_⟩
  intro x hTail hHeader hNext
  exact (hRelinked_mem x hNext).trans (hMem x hTail hHeader)

end Merge

/-- `dos_mem_free` finds the header of the node that a user pointer belongs to. -/
theorem Focus.header_userMem (hFocus : h.Focus xs b q ys) :
    (userMem (h.place xs) + (2 ^ 32 - memNodeSize)) % 2 ^ 32 = h.place xs := by
  have hBounds := hFocus.bounds
  have hEnd := hFocus.framed.end_lt
  have hSpan := b.span_eq
  rw [userMem, memNodeSize]
  omega

/-- The loop to the front ends at the first of the free nodes. -/
theorem Laid.firstFree {fuel : Nat} (hLaid : h.Laid (xs ++ b :: ys)) (hFuel : xs.length < fuel) :
    h.firstFree fuel (h.place xs) = some (h.place (xs.rdropWhile fun c => !c.used)) := by
  induction xs using List.reverseRecOn generalizing b ys fuel with
  | nil =>
      obtain ⟨k, rfl⟩ := Nat.exists_eq_succ_of_ne_zero (Nat.ne_of_gt hFuel)
      have hPrev : h.prev (h.place []) = 0 := hLaid.focus.node.prev
      simp [Heap.firstFree, hPrev]
  | append_singleton xs x ih =>
      obtain ⟨k, rfl⟩ := Nat.exists_eq_succ_of_ne_zero (Nat.ne_of_gt (Nat.zero_lt_of_lt hFuel))
      have hPrev : h.prev (h.place (xs ++ [x])) = h.place xs := by
        rw [hLaid.focus.node.prev, lastStart_snoc, place]
      rw [List.append_assoc, List.singleton_append] at hLaid
      have hPos := hLaid.focus.place_pos
      have hUsed := hLaid.focus.node.used
      rw [Heap.firstFree, hPrev, hUsed]
      cases hx : x.used with
      | true =>
          rw [List.rdropWhile_concat_neg _ _ _ (by simp [hx]), if_neg (by simp)]
      | false =>
          rw [List.rdropWhile_concat_pos _ _ _ (by simp [hx]), if_pos ⟨by omega, rfl⟩]
          refine ih hLaid ?_
          simp only [List.length_append, List.length_singleton] at hFuel
          omega

/-- The two loops of `dos_mem_free` on a heap whose node is marked free. The
header of that node keeps its mark, also inside of a larger free node. -/
theorem Laid.mergeFree (hLaid : h.Laid (xs ++ b.release :: ys))
    (hFits : total Block.span (Block.joined xs b ys) < 2 ^ 30 + memNodeSize) :
    ∃ first h', h.firstFree h.fuel (h.place xs) = some first ∧
      Heap.mergeNext h.fuel h first = some h' ∧
      (h'.relinkNext first).Laid (Block.freed xs b ys) ∧ h.SameBounds (h'.relinkNext first) ∧
      (∀ x, h.Aside (xs ++ b.release :: ys) x → (h'.relinkNext first).mem x = h.mem x) ∧
      (h'.relinkNext first).used (h.place xs) = 0 := by
  have hMark : h.used (h.place xs) = 0 := hLaid.focus.node.used
  have hBounds := hLaid.focus.bounds
  have hLength := hLaid.length_lt_fuel
  simp only [List.length_append, List.length_cons] at hLength
  have hFirst := hLaid.firstFree (show xs.length < h.fuel by omega)
  obtain ⟨merged, hFreed, hFree, hSpan⟩ := Block.freed_eq xs b ys
  have hXs : xs.rdropWhile (fun c => !c.used) ++ xs.rtakeWhile (fun c => !c.used) = xs :=
    List.rdropWhile_append_rtakeWhile
  -- The run of free blocks that ends with the freed one, and what is behind it.
  obtain ⟨c, zs, hRun⟩ : ∃ c zs, xs.rtakeWhile (fun c => !c.used) ++ b.release :: ys = c :: zs :=
    List.exists_cons_of_ne_nil (by simp)
  have hSplit : xs ++ b.release :: ys = xs.rdropWhile (fun c => !c.used) ++ c :: zs := by
    rw [← hRun, ← List.append_assoc, hXs]
  have hAbsorb : c.absorb zs = merged :: ys.dropWhile fun c => !c.used := by
    rw [Block.freed, hRun, Block.absorbAll] at hFreed
    exact List.append_cancel_left hFreed
  rw [hSplit] at hLaid
  obtain ⟨h', hMerge, hMerged, hSame, hMem⟩ := hLaid.mergeNext hAbsorb (hSpan ▸ hFits)
  have hPlace : h.place xs = h.place (xs.rdropWhile fun c => !c.used) +
      total Block.span (xs.rtakeWhile fun c => !c.used) := by rw [← place_append, hXs]
  rw [Block.joined, total_append, total_cons] at hSpan
  refine ⟨_, h', hFirst, hMerge, hFreed ▸ hMerged, hSame, ?_, ?_⟩
  · -- the headers written are those of the first block and of the one behind the run
    rintro x ⟨hTail, hHeaders⟩
    have hBehind := (hHeaders (xs ++ b.release :: ys.takeWhile fun c => !c.used)
      (ys.dropWhile fun c => !c.used)
      (by rw [List.append_assoc, List.cons_append, List.takeWhile_append_dropWhile])).1
    rw [place_append, total_cons, hPlace, Nat.add_assoc] at hBehind
    exact hMem x hTail (hHeaders _ _ hSplit).2 (hSpan ▸ hBehind)
  · by_cases hEq : h.place (xs.rdropWhile fun c => !c.used) = h.place xs
    · have hNode := hMerged.focus.node.used
      rw [hSame.place, hFree] at hNode
      rw [← hEq]
      exact hNode
    · rw [Heap.used, hMem _ (by omega) (by omega) (by rw [hSpan, Block.span_eq]; omega)]
      exact hMark

/-- The headers stay where they are when a block is marked free. -/
theorem Aside.release {x : Nat} (hx : h.Aside (xs ++ b :: ys) x) :
    h.Aside (xs ++ b.release :: ys) x := by
  refine ⟨hx.1, ?_⟩
  intro pre post hSplit
  rcases List.append_eq_append_iff.mp hSplit with ⟨as, rfl, hTail⟩ | ⟨cs, rfl, -⟩
  · cases as with
    | nil =>
        rw [List.append_nil]
        exact hx.2 xs (b :: ys) rfl
    | cons d as =>
        rw [List.cons_append, List.cons.injEq] at hTail
        have hPlace : h.place (xs ++ d :: as) = h.place (xs ++ b :: as) := by
          rw [place_append, place_append, total_cons, total_cons, ← hTail.1]
          rfl
        rw [hPlace]
        exact hx.2 (xs ++ b :: as) post (by rw [hTail.2, List.append_assoc, List.cons_append])
  · exact hx.2 pre (cs ++ b :: ys) (by rw [List.append_assoc])

/-- Freeing a used block returns `DOS_OK`. It changes headers and the
information block only. -/
theorem Laid.dosMemFree (hLaid : h.Laid (xs ++ b :: ys)) (hUsed : b.used = true)
    (hFits : total Block.span (Block.joined xs b ys) < 2 ^ 30 + memNodeSize) :
    ∃ h', h.dosMemFree (userMem (h.place xs)) = some (h', true) ∧
      h'.Laid (Block.freed xs b ys) ∧ h.SameBounds h' ∧
      (∀ x, h.Aside (xs ++ b :: ys) x → x ≠ h.alignMemHeapBegin + 4 → h'.mem x = h.mem x) ∧
      h'.memHeapSize = (h.memHeapSize + b.size) % 2 ^ 32 ∧ h'.used (h.place xs) = 0 := by
  have hFocus := hLaid.focus
  have hPos := hFocus.framed.begin_pos
  have hBounds := hFocus.bounds
  have hMarked : (h.setUsed (h.place xs) 0).Focus xs b.release (h.place xs) ys := hFocus.setUsed false
  obtain ⟨first, h', hFirst, hMerge, hResult, hSame, hMem, hMark⟩ :=
    Laid.mergeFree (hMarked.setMemHeapSize ((h.setUsed (h.place xs) 0).memHeapSize +
      (h.setUsed (h.place xs) 0).nodeSize (h.place xs))).laid hFits
  have hNodeSize : (h.setUsed (h.place xs) 0).nodeSize (h.place xs) = b.size := hMarked.node.size
  have hWord : (h.setUsed (h.place xs) 0).memHeapSize = h.memHeapSize :=
    mem_write_of_ne (show h.alignMemHeapBegin + 4 ≠ h.place xs + 4 by omega)
  refine ⟨h'.relinkNext first, ?_, hResult, ⟨hSame.heapBegin, hSame.heapEnd⟩, ?_, ?_, hMark⟩
  · rw [Heap.dosMemFree, if_neg (by rw [userMem, memNodeSize]; omega), if_neg (by omega)]
    simp only [hFocus.header_userMem, hFocus.node.used, hUsed]
    rw [if_neg (by decide)]
    exact Option.bind_eq_some_iff.mpr ⟨first, hFirst, Option.bind_eq_some_iff.mpr ⟨h', hMerge, rfl⟩⟩
  · intro x hx hSizeWord
    have hHeader := (hx.2 xs (b :: ys) rfl).2
    exact (hMem x hx.release).trans
      ((mem_write_of_ne hSizeWord).trans (mem_write_of_ne hHeader))
  · have hFinal := (hMem _ aside_size).trans mem_write_self
    rw [hNodeSize, hWord] at hFinal
    rw [← hFinal]
    exact congrArg (Heap.mem _) (congrArg (· + 4) hSame.heapBegin)

/-- In a heap that one node can describe the joined blocks always fit one. -/
theorem Tiled.joined_fits (hTiled : h.Tiled (xs ++ b :: ys)) :
    total Block.span (Block.joined xs b ys) < 2 ^ 30 + memNodeSize := by
  have hSmall := hTiled.small
  have hFront := total_rdropWhile_add Block.span (fun c => !c.used) xs
  have hBack := total_takeWhile_add Block.span (fun c => !c.used) ys
  simp only [Block.joined, total_append, total_cons] at hSmall ⊢
  omega

/-- Freeing a block that is marked free returns `DOS_NOK`. -/
theorem dosMemFree_unused {mem : Nat} (hLow : memNodeSize ≤ mem) (hHigh : mem < 2 ^ 32)
    (hUnused : h.used (mem - memNodeSize) = 0) : h.dosMemFree mem = some (h, false) := by
  have hNode : (mem + (2 ^ 32 - memNodeSize)) % 2 ^ 32 = mem - memNodeSize := by
    rw [memNodeSize] at *
    omega
  rw [Heap.dosMemFree]
  split
  · rfl
  · split
    · rfl
    · rw [hNode, if_pos hUnused]

end Heap

end DoraOS
