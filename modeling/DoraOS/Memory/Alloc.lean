import Mathlib.Data.List.Induction
import DoraOS.Memory.Tiling

/-! `dos_mem_alloc` takes the smallest free node that is larger than the aligned
size. When it cuts the node, the rest of it becomes a free block. -/
namespace DoraOS

open Segments

theorem dosAlign_mod (size : Nat) : dosAlign size % 4 = 0 := Nat.mul_mod_left _ 4

/-- A free block that the search takes into account. -/
def Block.Fits (size : Nat) (b : Block) : Prop := b.used = false ∧ size < b.size

instance (size : Nat) (b : Block) : Decidable (b.Fits size) := inferInstanceAs (Decidable (_ ∧ _))

namespace Heap

variable {h h' : Heap} {best size n q : Nat} {b c : Block} {xs ys bs : List Block}

section Search

/-- The search has seen the blocks `ys` behind `xs`: `best` is the smallest
that fits, or null. -/
inductive Best (h : Heap) (size : Nat) (xs ys : List Block) (best : Nat) : Prop where
  | null (hNull : best = 0) (hNone : ∀ c ∈ ys, ¬c.Fits size)
  | found (front : List Block) (b : Block) (back : List Block) (hSplit : ys = front ++ b :: back)
      (hBest : best = h.place (xs ++ front)) (hFits : b.Fits size)
      (hLeast : ∀ c ∈ ys, c.Fits size → b.size ≤ c.size)

/-- One round of the search. -/
theorem Best.visit (hLaid : h.Laid (xs ++ b :: ys)) (hBest : h.Best size (xs ++ [b]) ys best) :
    h.Best size xs (b :: ys)
      (if b.Fits size ∧ (best = 0 ∨ b.size < h.nodeSize best) then h.place xs else best) := by
  have hPos := hLaid.focus.place_pos
  split
  next hTake =>
    obtain ⟨hFits, hLess⟩ := hTake
    refine .found [] b ys rfl (by rw [List.append_nil]) hFits ?_
    intro c hc hFits'
    rcases List.mem_cons.mp hc with rfl | hc
    · exact Nat.le_refl _
    · cases hBest with
      | null hNull hNone => exact absurd hFits' (hNone c hc)
      | found front d back hSplit hAddr hd hLeast =>
          have hLaid' : h.Laid ((xs ++ [b] ++ front) ++ d :: back) := by
            simpa [hSplit] using hLaid
          have hSize := hLaid'.focus.node.size
          have hPlace := hLaid'.focus.place_pos
          have hLe := hLeast c hc hFits'
          rw [hAddr, hSize] at hLess
          omega
  next hKeep =>
    cases hBest with
    | null hNull hNone =>
        refine .null hNull ?_
        intro c hc hFits
        rcases List.mem_cons.mp hc with rfl | hc
        · exact hKeep ⟨hFits, Or.inl hNull⟩
        · exact hNone c hc hFits
    | found front d back hSplit hAddr hd hLeast =>
        refine .found (b :: front) d back (by rw [hSplit, List.cons_append]) (by simp [hAddr]) hd ?_
        intro c hc hFits
        rcases List.mem_cons.mp hc with rfl | hc
        · have hLaid' : h.Laid ((xs ++ [c] ++ front) ++ d :: back) := by
            simpa [hSplit] using hLaid
          have hSize := hLaid'.focus.node.size
          rw [hAddr, hSize] at hKeep
          by_contra hLt
          exact hKeep ⟨hFits, Or.inr (by omega)⟩
        · exact hLeast c hc hFits

/-- The round as the loop makes it. Its early exit is never taken. -/
theorem findBestNode_succ {fuel : Nat} (hLaid : h.Laid (xs ++ b :: ys)) :
    h.findBestNode size (fuel + 1) (h.place xs) best =
      h.findBestNode size fuel (lastStart Block.span 0 h.firstNode xs)
        (if b.Fits size ∧ (best = 0 ∨ b.size < h.nodeSize best) then h.place xs else best) := by
  have hFocus := hLaid.focus
  have hPos := hFocus.place_pos
  have hUsed : b.used.toNat = 0 ↔ b.used = false := by cases b.used <;> decide
  rw [findBestNode, if_neg (by omega), hFocus.node.used, hFocus.node.size, hFocus.node.prev]
  by_cases hTake : b.Fits size ∧ (best = 0 ∨ b.size < h.nodeSize best)
  · have hSize := hTake.1.2
    rw [if_pos hTake, if_pos ⟨hUsed.mpr hTake.1.1, hSize, hTake.2⟩, if_neg (by omega)]
  · rw [if_neg hTake, if_neg fun hAll => hTake ⟨⟨hUsed.mp hAll.1, hAll.2.1⟩, hAll.2.2⟩]

/-- The search ends with the best fit. -/
theorem Laid.findBestNode {fuel : Nat} (hLaid : h.Laid (xs ++ ys)) (hFuel : xs.length < fuel)
    (hBest : h.Best size xs ys best) :
    ∃ found, h.findBestNode size fuel (lastStart Block.span 0 h.firstNode xs) best = some found ∧
      h.Best size [] (xs ++ ys) found := by
  induction xs using List.reverseRecOn generalizing ys best fuel with
  | nil =>
      obtain ⟨k, rfl⟩ := Nat.exists_eq_succ_of_ne_zero (Nat.ne_of_gt hFuel)
      exact ⟨best, by simp [Heap.findBestNode], hBest⟩
  | append_singleton xs x ih =>
      obtain ⟨k, rfl⟩ := Nat.exists_eq_succ_of_ne_zero (Nat.ne_of_gt (Nat.zero_lt_of_lt hFuel))
      have hLength : xs.length < k := by
        simp only [List.length_append, List.length_singleton] at hFuel
        omega
      rw [List.append_assoc, List.singleton_append] at hLaid ⊢
      rw [lastStart_snoc, ← place, findBestNode_succ hLaid]
      exact ih hLaid hLength (hBest.visit hLaid)

theorem Laid.bestNode (hLaid : h.Laid bs) (size : Nat) :
    ∃ best, h.bestNode size = some best ∧ h.Best size [] bs best := by
  have hStart : h.Best size bs [] 0 := .null rfl (by simp)
  rw [← List.append_nil bs] at hLaid
  have hFuel := hLaid.length_lt_fuel
  rw [List.append_nil] at hFuel
  have hFound := hLaid.findBestNode hFuel hStart
  rw [List.append_nil] at hLaid hFound
  rwa [Heap.bestNode, hLaid.tail]

end Search

section Cut

/-- The node in view is cut but still has its old size: the header of the rest
is in its user area and the heap is linked to that header. -/
structure Carved (h : Heap) (xs : List Block) (b : Block) (cut : Nat) (rest : Block)
    (ys : List Block) : Prop extends Spine h xs b cut ys where
  inner : h.NodeAt (h.place xs) cut rest
  tail : h.memTail = lastStart Block.span (h.place xs) cut (rest :: ys)

/-- A free node is written at `cut`, whatever was there. -/
theorem nodeAt_header {cut size : Nat} (hSize : b.size = size) (hLt : size < 2 ^ 30)
    (hFree : b.used = false) :
    (((h.setUsed cut 0).setNodeSize cut size).setPrev cut q).NodeAt q cut b := by
  have hUsed : (h.setUsed cut 0).used cut = 0 := by
    rw [Heap.used, setUsed, mem_write_self, NodeWord.used_pack]
  have hWord : (((h.setUsed cut 0).setNodeSize cut size).setPrev cut q).mem (cut + 4) =
      NodeWord.pack size 0 ((h.setUsed cut 0).align cut) := by
    rw [setPrev, mem_write_of_ne (by omega), setNodeSize, mem_write_self, hUsed]
  refine ⟨mem_write_self, ?_, ?_⟩
  · rw [nodeSize, hWord, NodeWord.size_pack, Nat.mod_eq_of_lt hLt, hSize]
  · rw [Heap.used, hWord, NodeWord.used_pack, hFree]
    rfl

/-- The header of the rest is written into the user area of the node. -/
theorem Focus.write_header (hFocus : h.Focus xs b q ys) (hCut : n + 8 < b.size) {size link : Nat} :
    (((h.setUsed (h.place xs + (8 + n)) 0).setNodeSize (h.place xs + (8 + n)) size).setPrev
      (h.place xs + (8 + n)) link).Focus xs b q ys := by
  have hSpan := b.span_eq
  have hUsed : (h.setUsed (h.place xs + (8 + n)) 0).Focus xs b q ys :=
    hFocus.write_apart (Or.inr (by omega))
  have hSize : ((h.setUsed (h.place xs + (8 + n)) 0).setNodeSize (h.place xs + (8 + n)) size).Focus
      xs b q ys :=
    hUsed.write_apart (Or.inr (show h.place xs + 8 ≤ _ ∧ _ < h.place xs + b.span by omega))
  exact hSize.write_apart (Or.inr (show h.place xs + 8 ≤ _ ∧ _ < h.place xs + b.span by omega))

/-- The node behind the rest is the one behind the node that is cut. -/
theorem Focus.next_rest (hFocus : h.Focus xs b q (c :: ys)) {cut : Nat} {rest : Block}
    (hCut : cut = h.place xs + (8 + n)) (hRest : h.NodeAt (h.place xs) cut rest)
    (hSpan : 8 + n + rest.span = b.span) : h.dosGetNextNode cut = h.place xs + b.span := by
  have hBounds := hFocus.bounds
  have hEnd := hFocus.framed.end_lt
  have hSize := rest.span_eq
  have hTail := hFocus.lt_tail
  rw [dosGetNextNode, if_neg (by omega), Heap.nodeEnd, userMem, memNodeSize, hRest.size]
  omega

/-- The heap is linked to the header of the rest. -/
theorem Focus.link_rest (hFocus : h.Focus xs b q ys) {cut : Nat} {rest : Block}
    (hCut : cut = h.place xs + (8 + n)) (hRest : h.NodeAt (h.place xs) cut rest)
    (hSpan : 8 + n + rest.span = b.span) :
    (if h.place xs ≠ h.memTail then
      if h.dosGetNextNode cut ≠ 0 then h.setPrev (h.dosGetNextNode cut) cut else h
    else h.setMemTail cut).Carved xs b cut rest ys := by
  have hBounds := hFocus.bounds
  have hFirst : h.firstNode = h.alignMemHeapBegin + 16 := rfl
  have hEnd := hFocus.framed.end_lt
  have hSize := rest.span_eq
  cases ys with
  | nil =>
      have hTail : h.memTail = h.place xs := hFocus.tail
      rw [if_neg (by simp [hTail])]
      refine ⟨hFocus.update write_bounds (mem_write_of_ne (by omega)) ?_ ?_ rfl chain_nil, ?_,
        mem_write_self⟩
      · intro x hLow hHigh
        exact mem_write_of_ne (by omega)
      · intro l hNode
        exact hNode.congr (mem_write_of_ne (by omega)) (mem_write_of_ne (by omega))
      · exact hRest.congr (mem_write_of_ne (by omega)) (mem_write_of_ne (by omega))
  | cons c ys =>
      have hTail := hFocus.lt_tail
      rw [if_pos (by omega), hFocus.next_rest hCut hRest hSpan, if_pos (by omega)]
      refine ⟨hFocus.update write_bounds (mem_write_of_ne (by omega)) ?_ ?_ rfl ?_, ?_, ?_⟩
      · intro x hLow hHigh
        exact mem_write_of_ne (by omega)
      · intro l hNode
        exact hNode.congr (mem_write_of_ne (by omega)) (mem_write_of_ne (by omega))
      · refine chain_relink hFocus.back mem_write_self ?_
        intro x hLow hHigh
        exact mem_write_of_ne (by omega)
      · exact hRest.congr (mem_write_of_ne (by omega)) (mem_write_of_ne (by omega))
      · have hEq : cut + rest.span = h.place xs + b.span := by omega
        rw [lastStart_cons, hEq]
        have hOff : h.alignMemHeapBegin + 12 ≠ h.place xs + b.span := by omega
        exact (mem_write_of_ne hOff).trans hFocus.tail

theorem Focus.link_mem (hFocus : h.Focus xs b q ys) {cut x : Nat} {rest : Block}
    (hCut : cut = h.place xs + (8 + n)) (hRest : h.NodeAt (h.place xs) cut rest)
    (hSpan : 8 + n + rest.span = b.span) (hTail : x ≠ h.alignMemHeapBegin + 12)
    (hNext : x ≠ h.place xs + b.span) :
    (if h.place xs ≠ h.memTail then
      if h.dosGetNextNode cut ≠ 0 then h.setPrev (h.dosGetNextNode cut) cut else h
    else h.setMemTail cut).mem x = h.mem x := by
  cases ys with
  | nil =>
      have hLast : h.memTail = h.place xs := hFocus.tail
      rw [if_neg (by simp [hLast])]
      exact mem_write_of_ne hTail
  | cons c ys =>
      rw [hFocus.next_rest hCut hRest hSpan]
      split
      · split
        · exact mem_write_of_ne hNext
        · rfl
      · exact mem_write_of_ne hTail

/-- The node in view gets its new size and is marked. -/
theorem Carved.shrink {cut : Nat} {rest : Block} (hCarved : h.Carved xs b cut rest ys)
    (hCut : cut = h.place xs + c.span) (hSpan : c.span + rest.span = b.span)
    (hSame : h.SameBounds h') (hOff : ∀ x, x ≠ h.place xs + 4 → h'.mem x = h.mem x)
    (hNode : ∀ l, h.NodeAt l (h.place xs) b → h'.NodeAt l (h.place xs) c) :
    h'.Focus xs c (h.place xs) (rest :: ys) := by
  have hBounds := hCarved.bounds
  have hFirst : h.firstNode = h.alignMemHeapBegin + 16 := rfl
  have hSize := c.span_eq
  have hSize' := rest.span_eq
  refine (hCarved.update hSame (hOff _ (by omega)) ?_ hNode ?_ ?_).focus hSame ?_
  · intro x hLow hHigh
    exact hOff x (by omega)
  · rw [total_cons]
    omega
  · rw [← hCut]
    refine ⟨hCarved.inner.congr (hOff _ (by omega)) (hOff _ (by omega)), ?_⟩
    have hEq : cut + rest.span = h.place xs + b.span := by omega
    rw [hEq]
    refine chain_congr hCarved.back ?_
    intro x hLow hHigh
    exact hOff x (by omega)
  · rw [← hCut, ← hCarved.tail, memTail, hSame.heapBegin]
    exact hOff _ (by omega)

theorem cutNode_bounds (node size : Nat) : h.SameBounds (h.cutNode node size) := by
  unfold cutNode
  simp only
  split
  · split <;> exact ⟨rfl, rfl⟩
  · exact ⟨rfl, rfl⟩

theorem Focus.cutNode (hFocus : h.Focus xs b q ys) (hn : n % 4 = 0) (hCut : n + 8 < b.size) :
    (h.cutNode (h.place xs) n).Carved xs b (h.place xs + (8 + n)) (b.rest n hn) ys := by
  have hBounds := hFocus.bounds
  have hEnd := hFocus.framed.end_lt
  have hSpan := b.span_eq
  have hSmall := hFocus.node.size_lt
  have hNode : (userMem (h.place xs) + n) % 2 ^ 32 = h.place xs + (8 + n) := by
    rw [userMem, memNodeSize]
    omega
  have hRest : (b.rest n hn).size = b.size - n - 8 := rfl
  have hSpan' := (b.rest n hn).span_eq
  simp only [Heap.cutNode, hNode, hFocus.node.size, memNodeSize]
  exact (hFocus.write_header hCut).link_rest rfl (nodeAt_header hRest (by omega) rfl) (by omega)

/-- Cutting writes the header of the rest and links the heap to it. -/
theorem Focus.cutNode_mem (hFocus : h.Focus xs b q ys) (hn : n % 4 = 0) (hCut : n + 8 < b.size)
    {x : Nat} (hTail : x ≠ h.alignMemHeapBegin + 12) (hHeader : x ≠ h.place xs + (8 + n))
    (hWord : x ≠ h.place xs + (8 + n) + 4) (hNext : x ≠ h.place xs + b.span) :
    (h.cutNode (h.place xs) n).mem x = h.mem x := by
  have hBounds := hFocus.bounds
  have hEnd := hFocus.framed.end_lt
  have hSpan := b.span_eq
  have hSmall := hFocus.node.size_lt
  have hNode : (userMem (h.place xs) + n) % 2 ^ 32 = h.place xs + (8 + n) := by
    rw [userMem, memNodeSize]
    omega
  have hRest : (b.rest n hn).size = b.size - n - 8 := rfl
  have hSpan' := (b.rest n hn).span_eq
  simp only [Heap.cutNode, hNode, hFocus.node.size, memNodeSize]
  refine ((hFocus.write_header hCut).link_mem rfl (nodeAt_header hRest (by omega) rfl) (by omega)
    hTail hNext).trans ?_
  exact (mem_write_of_ne hHeader).trans ((mem_write_of_ne hWord).trans (mem_write_of_ne hWord))

theorem takeNode_mem {x : Nat} (hHeader : x ≠ best + 4) (hSize : x ≠ h.alignMemHeapBegin + 4) :
    (h.takeNode best n).mem x = h.mem x :=
  (mem_write_of_ne hSize).trans ((mem_write_of_ne hHeader).trans
    ((mem_write_of_ne hHeader).trans (mem_write_of_ne hHeader)))

theorem takeNode_memHeapSize (hBest : h.alignMemHeapBegin + 4 ≠ best + 4) :
    (h.takeNode best n).memHeapSize = (h.memHeapSize + (2 ^ 32 - n)) % 2 ^ 32 := by
  have hSame : (((h.setAlign best 0).setUsed best 1).setNodeSize best n).memHeapSize =
      h.memHeapSize :=
    (mem_write_of_ne hBest).trans ((mem_write_of_ne hBest).trans (mem_write_of_ne hBest))
  rw [← hSame]
  exact mem_write_self

theorem takeNode_word (hBest : h.alignMemHeapBegin ≠ best) : (h.takeNode best n).mem (best + 4) =
    NodeWord.pack n (((h.setAlign best 0).setUsed best 1).used best)
      (((h.setAlign best 0).setUsed best 1).align best) :=
  (mem_write_of_ne (show best + 4 ≠ h.alignMemHeapBegin + 4 by omega)).trans mem_write_self

theorem takeNode_nodeSize (hBest : h.alignMemHeapBegin ≠ best) :
    (h.takeNode best n).nodeSize best = n % 2 ^ 30 := by
  rw [nodeSize, takeNode_word hBest, NodeWord.size_pack]

theorem takeNode_used (hBest : h.alignMemHeapBegin ≠ best) : (h.takeNode best n).used best = 1 := by
  have hMark : ((h.setAlign best 0).setUsed best 1).used best = 1 := by
    rw [Heap.used, setUsed, mem_write_self, NodeWord.used_pack]
  rw [Heap.used, takeNode_word hBest, NodeWord.used_pack, hMark]

/-- The block of the caller is made out of the node that was cut. -/
theorem Carved.takeNode {hn : n % 4 = 0}
    (hCarved : h.Carved xs b (h.place xs + (8 + n)) (b.rest n hn) ys) (hCut : n + 8 < b.size) :
    (h.takeNode (h.place xs) n).Laid (xs ++ Block.taken n hn :: b.rest n hn :: ys) := by
  have hSmall := hCarved.node.size_lt
  have hSize : n < 2 ^ 30 := by omega
  have hFocus : (((h.setAlign (h.place xs) 0).setUsed (h.place xs) 1).setNodeSize (h.place xs) n).Focus
      xs (Block.taken n hn) (h.place xs) (b.rest n hn :: ys) := by
    refine hCarved.shrink rfl (Block.span_rest hCut) ⟨rfl, rfl⟩ ?_ ?_
    · intro x hx
      exact (mem_write_of_ne hx).trans ((mem_write_of_ne hx).trans (mem_write_of_ne hx))
    · intro l hNode
      exact (hNode.setAlign.setUsed true).setNodeSize (c := Block.taken n hn) rfl hSize
  exact (hFocus.setMemHeapSize _).laid

end Cut

theorem dosMemAlloc_of_best (hPos : 0 < h.alignMemHeapBegin)
    (hBest : h.bestNode (dosAlign size) = some best) :
    h.dosMemAlloc size = some (if best = 0 then (h, 0)
      else ((if h.nodeSize best - dosAlign size > memNodeSize then h.cutNode best (dosAlign size)
        else h).takeNode best (dosAlign size), userMem best)) := by
  rw [dosMemAlloc, if_neg (by omega)]
  simp only [hBest, Option.map_some]

theorem Laid.dosMemAlloc_eq (hLaid : h.Laid bs) (hBest : h.bestNode (dosAlign size) = some best) :
    h.dosMemAlloc size = some (if best = 0 then (h, 0)
      else ((if h.nodeSize best - dosAlign size > memNodeSize then h.cutNode best (dosAlign size)
        else h).takeNode best (dosAlign size), userMem best)) :=
  dosMemAlloc_of_best hLaid.framed.begin_pos hBest

/-- An allocation that cuts the best node. It changes headers and the
information block only. -/
theorem Laid.dosMemAlloc_cut (hLaid : h.Laid (xs ++ b :: ys))
    (hBest : h.bestNode (dosAlign size) = some (h.place xs)) (hCut : dosAlign size + 8 < b.size) :
    ∃ h', h.dosMemAlloc size = some (h', userMem (h.place xs)) ∧
      h'.Laid (xs ++ Block.taken (dosAlign size) (dosAlign_mod size) ::
        b.rest (dosAlign size) (dosAlign_mod size) :: ys) ∧ h.SameBounds h' ∧
      (∀ x, h.Aside (xs ++ Block.taken (dosAlign size) (dosAlign_mod size) ::
        b.rest (dosAlign size) (dosAlign_mod size) :: ys) x → x ≠ h.alignMemHeapBegin + 4 →
        h'.mem x = h.mem x) ∧
      h'.memHeapSize = (h.memHeapSize + (2 ^ 32 - dosAlign size)) % 2 ^ 32 := by
  have hFocus := hLaid.focus
  have hPos := hFocus.place_pos
  have hSame := cutNode_bounds (h := h) (h.place xs) (dosAlign size)
  have hCarved := hFocus.cutNode (dosAlign_mod size) hCut
  have hTaken := Carved.takeNode (by rw [hSame.place]; exact hCarved) hCut
  rw [hSame.place] at hTaken
  have hBounds := hFocus.bounds
  have hSpan := b.span_eq
  refine ⟨_, ?_, hTaken, ⟨hSame.heapBegin, hSame.heapEnd⟩, ?_, ?_⟩
  · rw [hLaid.dosMemAlloc_eq hBest, if_neg (by omega), hFocus.node.size,
      if_pos (by rw [memNodeSize]; omega)]
  · rintro x ⟨hTail, hHeaders⟩ hSize
    have hFirst := hHeaders xs _ rfl
    have hRest := hHeaders (xs ++ [Block.taken (dosAlign size) (dosAlign_mod size)])
      (b.rest (dosAlign size) (dosAlign_mod size) :: ys) (by simp)
    have hNext := (hHeaders (xs ++ [Block.taken (dosAlign size) (dosAlign_mod size),
      b.rest (dosAlign size) (dosAlign_mod size)]) ys (by simp)).1
    rw [place_snoc] at hRest
    rw [place_append, total_cons, total_cons, total_nil, Nat.add_zero,
      Block.span_rest (by rw [memNodeSize]; omega)] at hNext
    refine (takeNode_mem hFirst.2 (by rwa [hSame.heapBegin])).trans ?_
    exact hFocus.cutNode_mem (dosAlign_mod size) hCut hTail hRest.1 hRest.2 hNext
  · rw [takeNode_memHeapSize (by rw [hSame.heapBegin]; omega), memHeapSize, hSame.heapBegin,
      hFocus.cutNode_mem (dosAlign_mod size) hCut (by omega) (by omega) (by omega) (by omega),
      memHeapSize]

end Heap

end DoraOS
