import DoraOS.Memory.Owned

/-! Allocations that do not cut their node. `dos_mem_alloc` writes the size of the
request to the node all the same, and the few bytes behind it belong to no node any
more. An allocation never looks at the size of a used node, so that it goes as in the
tiled heap in which the used nodes have kept their bytes. -/
namespace DoraOS

open Segments

namespace Heap

variable {h g v u : Heap} {U U' : Nat → Prop} {a best n p x : Nat} {b c : Block}
  {xs ys bs : List Block} {owned : List (Nat × Nat)} {cut fits : Prop}

section Search

/-- The search looks at `prev` and `mem_used` of every node, and at the size of the
free ones. -/
theorem findBestNode_congr {N : Nat → Prop} {size : Nat}
    (hPrev : ∀ a, N a → g.prev a = h.prev a ∧ (h.prev a = 0 ∨ N (h.prev a)))
    (hUsed : ∀ a, N a → g.used a = h.used a)
    (hSize : ∀ a, N a → h.used a = 0 → g.nodeSize a = h.nodeSize a) (fuel : Nat) :
    ∀ node best, (node = 0 ∨ N node) → (best = 0 ∨ N best ∧ h.used best = 0) →
      g.findBestNode size fuel node best = h.findBestNode size fuel node best := by
  induction fuel with
  | zero => exact fun _ _ _ _ => rfl
  | succ fuel ih =>
      intro node best hNode hBest
      by_cases hEnd : node = 0
      · rw [findBestNode, findBestNode, if_pos hEnd, if_pos hEnd]
      · have hN := hNode.resolve_left hEnd
        obtain ⟨hSame, hNext⟩ := hPrev node hN
        rw [findBestNode, findBestNode, if_neg hEnd, if_neg hEnd, hUsed node hN, hSame,
          ih _ best hNext hBest]
        by_cases hFree : h.used node = 0
        · have hBestSize : (best = 0 ∨ g.nodeSize best > h.nodeSize node) =
              (best = 0 ∨ h.nodeSize best > h.nodeSize node) := by
            rcases hBest with hNull | ⟨hBest, hUnused⟩
            · simp [hNull]
            · rw [hSize best hBest hUnused]
          rw [hSize node hN hFree, ih _ node hNext (Or.inr ⟨hN, hFree⟩)]
          simp only [hBestSize]
        · rw [if_neg fun hTake => hFree hTake.1, if_neg fun hTake => hFree hTake.1]

/-- A block has one place, and its header does not overlap that of another. -/
theorem block_apart {xs' ys' : List Block} (hSplit : xs ++ b :: ys = xs' ++ c :: ys') :
    xs = xs' ∧ b = c ∨ h.place xs + 8 ≤ h.place xs' ∨ h.place xs' + 8 ≤ h.place xs := by
  rcases List.append_eq_append_iff.mp hSplit with ⟨ds, rfl, hTail⟩ | ⟨ds, rfl, hTail⟩
  · cases ds with
    | nil => exact Or.inl ⟨(List.append_nil _).symm, (List.cons.inj hTail).1⟩
    | cons d ds =>
        right
        left
        rw [place_append, total_cons, Block.span_eq]
        omega
  · cases ds with
    | nil => exact Or.inl ⟨List.append_nil _, (List.cons.inj hTail).1.symm⟩
    | cons d ds =>
        right
        right
        rw [place_append, total_cons, Block.span_eq]
        omega

/-- The node in front of a node. -/
theorem Laid.prev_place (hLaid : h.Laid (xs ++ b :: ys)) : h.prev (h.place xs) = 0 ∨
    ∃ pre c post, xs ++ b :: ys = pre ++ c :: post ∧ h.prev (h.place xs) = h.place pre := by
  rw [hLaid.focus.node.prev]
  rcases List.eq_nil_or_concat' xs with rfl | ⟨pre, c, rfl⟩
  · exact Or.inl rfl
  · refine Or.inr ⟨pre, c, b :: ys, List.append_assoc .., ?_⟩
    rw [lastStart_snoc, place]

/-- The answer of the search depends on the nodes only. -/
theorem Laid.bestNode_congr (hLaid : h.Laid bs) (hSame : h.SameBounds g)
    (hTail : g.memTail = h.memTail)
    (hNode : ∀ pre c post, bs = pre ++ c :: post → g.prev (h.place pre) = h.prev (h.place pre) ∧
      g.used (h.place pre) = h.used (h.place pre) ∧
      (c.used = false → g.nodeSize (h.place pre) = h.nodeSize (h.place pre))) (size : Nat) :
    g.bestNode size = h.bestNode size := by
  have hFuel : g.fuel = h.fuel := by rw [fuel, hSame.heapBegin, hSame.heapEnd, fuel]
  rw [Heap.bestNode, Heap.bestNode, hFuel, hTail]
  refine findBestNode_congr (N := fun a => ∃ pre c post, bs = pre ++ c :: post ∧ a = h.place pre)
    ?_ ?_ ?_ _ _ _ (Or.inr ?_) (Or.inl rfl)
  · rintro a ⟨pre, c, post, rfl, rfl⟩
    exact ⟨(hNode pre c post rfl).1, hLaid.prev_place⟩
  · rintro a ⟨pre, c, post, rfl, rfl⟩
    exact (hNode pre c post rfl).2.1
  · rintro a ⟨pre, c, post, rfl, rfl⟩ hUnused
    refine (hNode pre c post rfl).2.2 ?_
    rw [hLaid.focus.node.used] at hUnused
    cases hUsed : c.used with
    | false => rfl
    | true =>
        rw [hUsed] at hUnused
        cases hUnused
  · obtain ⟨pre, c, rfl⟩ : ∃ pre c, bs = pre ++ [c] :=
      ⟨_, _, (List.dropLast_append_getLast hLaid.nonempty).symm⟩
    exact ⟨pre, c, [], rfl, hLaid.focus.tail⟩

/-- Two heaps with the same blocks give the same answer. -/
theorem Laid.bestNode_eq (hLaid : h.Laid bs) (hTwin : g.Laid bs) (hSame : h.SameBounds g)
    (size : Nat) : g.bestNode size = h.bestNode size := by
  refine hLaid.bestNode_congr hSame ?_ ?_ size
  · rw [hTwin.tail, hLaid.tail, hSame.firstNode]
  · rintro pre c post rfl
    have hNode := hTwin.focus.node
    rw [hSame.place, hSame.firstNode] at hNode
    rw [hNode.prev, hNode.used, hNode.size, hLaid.focus.node.prev, hLaid.focus.node.used,
      hLaid.focus.node.size]
    exact ⟨rfl, rfl, fun _ => rfl⟩

end Search

section Blurs

/-- The heaps differ at most in the words `U`, and there not in `mem_used`. -/
structure Blurs (U : Nat → Prop) (h g : Heap) : Prop where
  same : h.SameBounds g
  word : ∀ x, g.mem x = h.mem x ∨ U x ∧ NodeWord.used (g.mem x) = NodeWord.used (h.mem x)

theorem Blurs.mem (hBlurs : Blurs U h g) (hx : ¬U x) : g.mem x = h.mem x :=
  (hBlurs.word x).resolve_right fun hAt => hx hAt.1

theorem Blurs.used (hBlurs : Blurs U h g) (a : Nat) : g.used a = h.used a := by
  rcases hBlurs.word (a + 4) with hSame | hAt
  · rw [Heap.used, hSame, Heap.used]
  · exact hAt.2

theorem Blurs.mono (hBlurs : Blurs U h g) (hSub : ∀ x, U x → U' x) : Blurs U' h g :=
  ⟨hBlurs.same, fun x => (hBlurs.word x).imp_right fun hAt => ⟨hSub x hAt.1, hAt.2⟩⟩

theorem Blurs.write (hBlurs : Blurs U h g) (addr word : Nat) :
    Blurs U (h.write addr word) (g.write addr word) := by
  refine ⟨⟨hBlurs.same.heapBegin, hBlurs.same.heapEnd⟩, ?_⟩
  intro x
  simp only [Heap.write]
  split
  · exact Or.inl rfl
  · exact hBlurs.word x

/-- A word that is the same in both is changed in the same way. -/
theorem Blurs.modify (hBlurs : Blurs U h g) (ha : ¬U a) (f : Nat → Nat) :
    Blurs U (h.write a (f (h.mem a))) (g.write a (f (g.mem a))) := by
  rw [hBlurs.mem ha]
  exact hBlurs.write a _

theorem Blurs.takeNode (hBlurs : Blurs U h g) (hBest : ¬U (best + 4))
    (hInfo : ¬U (h.alignMemHeapBegin + 4)) : Blurs U (h.takeNode best n) (g.takeNode best n) := by
  obtain ⟨mem, heapBegin, heapEnd⟩ := h
  obtain ⟨mem', heapBegin', heapEnd'⟩ := g
  obtain ⟨rfl, rfl⟩ : heapBegin' = heapBegin ∧ heapEnd' = heapEnd :=
    ⟨hBlurs.same.heapBegin, hBlurs.same.heapEnd⟩
  have hAlign := hBlurs.modify hBest fun w => NodeWord.pack (NodeWord.size w) (NodeWord.used w) 0
  have hUsed := hAlign.modify hBest fun w => NodeWord.pack (NodeWord.size w) 1 (NodeWord.align w)
  have hSize := hUsed.modify hBest fun w => NodeWord.pack n (NodeWord.used w) (NodeWord.align w)
  exact hSize.modify hInfo fun w => (w + (2 ^ 32 - n)) % 2 ^ 32

/-- The end of `cutNode`, where the heap is linked to the new node. -/
theorem Blurs.link {node : Nat} (best : Nat) (hBlurs : Blurs U h g) (hNode : ¬U (node + 4))
    (hTail : ¬U (h.alignMemHeapBegin + 12)) :
    Blurs U (if best ≠ h.memTail then
        if h.dosGetNextNode node ≠ 0 then h.setPrev (h.dosGetNextNode node) node else h
      else h.setMemTail node)
      (if best ≠ g.memTail then
        if g.dosGetNextNode node ≠ 0 then g.setPrev (g.dosGetNextNode node) node else g
      else g.setMemTail node) := by
  have hLast : g.memTail = h.memTail := by
    rw [memTail, hBlurs.same.heapBegin, hBlurs.mem hTail, memTail]
  have hNext : g.dosGetNextNode node = h.dosGetNextNode node := by
    rw [dosGetNextNode, hLast, nodeEnd, nodeSize, hBlurs.mem hNode]
    rfl
  rw [hLast, hNext]
  split
  · split
    · exact hBlurs.write _ _
    · exact hBlurs
  · rw [setMemTail, setMemTail, hBlurs.same.heapBegin]
    exact hBlurs.write _ _

theorem Blurs.cutNode (hBlurs : Blurs U h g) (hBest : ¬U (best + 4))
    (hNode : ¬U ((userMem best + n) % 2 ^ 32 + 4)) (hTail : ¬U (h.alignMemHeapBegin + 12)) :
    Blurs U (h.cutNode best n) (g.cutNode best n) := by
  have hSize : g.nodeSize best = h.nodeSize best := by rw [nodeSize, hBlurs.mem hBest, nodeSize]
  have hFields := (hBlurs.modify hNode fun w => NodeWord.pack (NodeWord.size w) 0
    (NodeWord.align w)).modify hNode fun w => NodeWord.pack (h.nodeSize best - n - memNodeSize)
      (NodeWord.used w) (NodeWord.align w)
  have hHeader := (hFields.write ((userMem best + n) % 2 ^ 32) best).link best hNode hTail
  unfold Heap.cutNode
  dsimp only
  rw [hSize]
  exact hHeader

end Blurs

section Held

/-- The word with the bit-fields of a used node. -/
def UsedWord (h : Heap) (bs : List Block) (x : Nat) : Prop :=
  ∃ pre c post, bs = pre ++ c :: post ∧ c.used = true ∧ x = h.place pre + 4

theorem usedWord_info {k : Nat} (hk : k ≤ 12) : ¬h.UsedWord bs (h.alignMemHeapBegin + k) := by
  rintro ⟨pre, c, post, -, -, hx⟩
  have hPlace : h.place pre = h.alignMemHeapBegin + 16 + total Block.span pre := rfl
  omega

theorem usedWord_aside (hx : h.Aside bs x) : ¬h.UsedWord bs x := by
  rintro ⟨pre, c, post, hSplit, -, hWord⟩
  exact (hx.2 pre (c :: post) hSplit).2 hWord

/-- No header word of a free node is one of a used node, nor is a word `prev`. -/
theorem usedWord_place : ¬h.UsedWord (xs ++ b :: ys) (h.place xs) ∧
    (b.used = false → ¬h.UsedWord (xs ++ b :: ys) (h.place xs + 4)) := by
  constructor
  · rintro ⟨pre, c, post, hSplit, -, hx⟩
    rcases block_apart (h := h) hSplit with ⟨rfl, -⟩ | hApart
    · omega
    · omega
  · rintro hFree ⟨pre, c, post, hSplit, hUsed, hx⟩
    rcases block_apart (h := h) hSplit with ⟨-, rfl⟩ | hApart
    · rw [hFree] at hUsed
      cases hUsed
    · omega

theorem Blurs.bestNode (hLaid : v.Laid bs) (hBlurs : Blurs (v.UsedWord bs) v h) (size : Nat) :
    h.bestNode size = v.bestNode size := by
  refine hLaid.bestNode_congr hBlurs.same ?_ ?_ size
  · rw [memTail, hBlurs.same.heapBegin, hBlurs.mem (usedWord_info (by decide)), memTail]
  · rintro pre c post rfl
    refine ⟨hBlurs.mem usedWord_place.1, hBlurs.used _, fun hFree => ?_⟩
    rw [nodeSize, hBlurs.mem (usedWord_place.2 hFree), nodeSize]

/-- The areas `owned` are allocated in a heap whose used nodes may have lost bytes.
With `cut` they have not. -/
def Held (h : Heap) (bs : List Block) (owned : List (Nat × Nat)) (cut : Prop) : Prop :=
  ∃ v : Heap, v.Owns bs owned ∧ Blurs (v.UsedWord bs) v h ∧ (cut → v = h)

theorem Owns.held (hOwns : h.Owns bs owned) : h.Held bs owned cut :=
  ⟨h, hOwns, ⟨.rfl, fun _ => Or.inl rfl⟩, fun _ => rfl⟩

theorem Held.owns (hHeld : h.Held bs owned cut) (hCut : cut) : h.Owns bs owned := by
  obtain ⟨v, hOwns, -, hSame⟩ := hHeld
  exact hSame hCut ▸ hOwns

theorem Held.begin_pos (hHeld : h.Held bs owned cut) : 0 < h.alignMemHeapBegin := by
  obtain ⟨v, hOwns, hBlurs, -⟩ := hHeld
  rw [hBlurs.same.heapBegin]
  exact hOwns.tiled.framed.begin_pos

/-- Writing to an owned area. -/
theorem Held.edit {k : Nat} (hHeld : h.Held bs owned cut) (hMem : (p, k) ∈ owned)
    (hEdits : h.Edits g p k) : g.Held bs owned cut := by
  obtain ⟨v, hOwns, hBlurs, hSame⟩ := hHeld
  let w : Heap := { v with mem := fun x => if p ≤ x ∧ x < p + k then g.mem x else v.mem x }
  have hOff (x : Nat) (hx : x < p ∨ p + k ≤ x) : w.mem x = v.mem x := if_neg (by omega)
  have hBounds : v.SameBounds w := ⟨rfl, rfl⟩
  refine ⟨w, (hOwns.edit hMem ⟨hBounds, hOff⟩).1, ⟨⟨?_, ?_⟩, ?_⟩, ?_⟩
  · exact hEdits.same.heapBegin.trans hBlurs.same.heapBegin
  · exact hEdits.same.heapEnd.trans hBlurs.same.heapEnd
  · intro x
    by_cases hx : p ≤ x ∧ x < p + k
    · exact Or.inl (if_pos hx).symm
    · have hApart : x < p ∨ p + k ≤ x := by omega
      rw [hOff x hApart, hEdits.mem x hApart]
      exact hBlurs.word x
  · intro hCut
    obtain rfl := hSame hCut
    have hWord (x : Nat) : w.mem x = g.mem x := by
      by_cases hx : p ≤ x ∧ x < p + k
      · exact if_pos hx
      · rw [hOff x (by omega), hEdits.mem x (by omega)]
    obtain ⟨mem, heapBegin, heapEnd⟩ := g
    exact Heap.mk.injEq .. ▸ ⟨funext hWord, hEdits.same.heapBegin.symm, hEdits.same.heapEnd.symm⟩

end Held

section Take

/-- A used node stays at its place when a free block is replaced by others. -/
theorem usedWord_replace {zs : List Block} (hSame : h.SameBounds g) (hFree : b.used = false)
    (hTotal : total Block.span zs = b.span) (hx : h.UsedWord (xs ++ b :: ys) x) :
    g.UsedWord (xs ++ (zs ++ ys)) x := by
  obtain ⟨pre, c, post, hSplit, hUsed, rfl⟩ := hx
  have hOther : c ≠ b := by
    rintro rfl
    rw [hUsed] at hFree
    cases hFree
  rcases List.append_eq_append_iff.mp hSplit with ⟨ds, rfl, hTail⟩ | ⟨ds, rfl, hTail⟩
  · cases ds with
    | nil => exact absurd (List.cons.inj hTail).1.symm hOther
    | cons d ds =>
        obtain ⟨rfl, rfl⟩ := List.cons.inj hTail
        refine ⟨xs ++ (zs ++ ds), c, post, by simp, hUsed, ?_⟩
        rw [hSame.place, place_append, place_append, total_append, total_cons, hTotal]
  · cases ds with
    | nil => exact absurd (List.cons.inj hTail).1 hOther
    | cons d ds =>
        obtain ⟨rfl, rfl⟩ := List.cons.inj hTail
        exact ⟨pre, c, ds ++ (zs ++ ys), by simp, hUsed, by rw [hSame.place]⟩

/-- A request for `n` bytes got the area of `k` bytes at `p`. -/
structure Given (h h' : Heap) (bs : List Block) (owned : List (Nat × Nat)) (n p k : Nat)
    (cut : Prop) : Prop where
  alloc : h.dosMemAlloc n = some (h', p)
  same : h.SameBounds h'
  held : h'.Held bs ((p, k) :: owned) cut
  mem : ∀ x, Within ((p, k) :: owned) x → h'.mem x = h.mem x

/-- Only headers and the information block are changed. -/
theorem Given.of_blurs {zs : List Block} {k : Nat} {w : Heap} (hAlloc : h.dosMemAlloc n = some (g, p))
    (hFree : b.used = false) (hTotal : total Block.span zs = b.span)
    (hOld : Blurs (v.UsedWord (xs ++ b :: ys)) v h) (hBounds : v.SameBounds w)
    (hOwns : w.Owns (xs ++ (zs ++ ys)) ((p, k) :: owned))
    (hNew : Blurs (w.UsedWord (xs ++ (zs ++ ys))) w g)
    (hMem : ∀ x, Within ((p, k) :: owned) x → w.mem x = v.mem x) (hSame : cut → w = g) :
    Given h g (xs ++ (zs ++ ys)) owned n p k cut where
  alloc := hAlloc
  same := ⟨by rw [hNew.same.heapBegin, hBounds.heapBegin, hOld.same.heapBegin],
    by rw [hNew.same.heapEnd, hBounds.heapEnd, hOld.same.heapEnd]⟩
  held := ⟨w, hOwns, hNew, hSame⟩
  mem x hx := by
    have hNot := usedWord_aside (hOwns.aside hx).1
    rw [hNew.mem hNot, hMem x hx, hOld.mem fun hUsed => hNot
      (usedWord_replace hBounds hFree hTotal hUsed)]

variable (hOwns : v.Owns (xs ++ b :: ys) owned) (hFree : b.used = false)
  (hBlurs : Blurs (v.UsedWord (xs ++ b :: ys)) v h)
  (hBest : v.bestNode (dosAlign n) = some (v.place xs))

include hOwns hFree hBlurs hBest

theorem Blurs.alloc_eq : h.dosMemAlloc n = some
    ((if b.size - dosAlign n > memNodeSize then h.cutNode (v.place xs) (dosAlign n) else h).takeNode
      (v.place xs) (dosAlign n), userMem (v.place xs)) := by
  have hPos := hOwns.tiled.focus.place_pos
  have hBegin : 0 < h.alignMemHeapBegin := by
    rw [hBlurs.same.heapBegin]
    exact hOwns.tiled.framed.begin_pos
  have hSize : h.nodeSize (v.place xs) = b.size := by
    rw [nodeSize, hBlurs.mem (usedWord_place.2 hFree)]
    exact hOwns.tiled.focus.node.size
  rw [dosMemAlloc_of_best hBegin ((hBlurs.bestNode hOwns.tiled.toLaid _).trans hBest),
    if_neg (by omega), hSize]

/-- The node is cut. -/
theorem Blurs.given_cut (hSame : cut → v = h) (hCut : dosAlign n + 8 < b.size) :
    ∃ h', Given h h' (xs ++ ([.taken (dosAlign n) (dosAlign_mod n),
      b.rest (dosAlign n) (dosAlign_mod n)] ++ ys)) owned n (userMem (v.place xs)) (dosAlign n)
      cut := by
  have hBounds := hOwns.tiled.focus.bounds
  have hEnd := hOwns.tiled.framed.end_lt
  have hSpan := b.span_eq
  have hTake : b.size - dosAlign n > memNodeSize := by
    rw [memNodeSize]
    omega
  have hTotal : total Block.span [.taken (dosAlign n) (dosAlign_mod n),
      b.rest (dosAlign n) (dosAlign_mod n)] = b.span := by
    rw [total_cons, total_cons, total_nil, Nat.add_zero, Block.span_rest (by rw [memNodeSize]; omega)]
  obtain ⟨w, hAlloc, hGranted⟩ := hOwns.granted hFree hBest hCut
  have hOwn := Blurs.alloc_eq hOwns hFree ⟨.rfl, fun _ => Or.inl rfl⟩ hBest
  have hEq := Blurs.alloc_eq hOwns hFree hBlurs hBest
  rw [if_pos hTake] at hOwn hEq
  rw [hOwn, Option.some.injEq, Prod.mk.injEq] at hAlloc
  obtain ⟨rfl, -⟩ := hAlloc
  -- the new header is in the user area of the free node
  have hNode : (userMem (v.place xs) + dosAlign n) % 2 ^ 32 = v.place xs + (8 + dosAlign n) := by
    rw [userMem, memNodeSize]
    omega
  have hInner := usedWord_aside (hOwns.tiled.focus.toSpine.aside_user
    (a := v.place xs + (8 + dosAlign n) + 4) (by omega) (by omega))
  have hWord : ¬v.UsedWord (xs ++ b :: ys) (v.place xs + 4) := usedWord_place.2 hFree
  have hCutNode := hBlurs.cutNode hWord (by rw [hNode]; exact hInner) (usedWord_info (by decide))
  have hTaken := hCutNode.takeNode (n := dosAlign n) hWord
    (by rw [(cutNode_bounds _ _).heapBegin]; exact usedWord_info (by decide))
  refine ⟨_, Given.of_blurs hEq hFree hTotal hBlurs hGranted.same hGranted.owns
    (hTaken.mono fun x => usedWord_replace hGranted.same hFree hTotal) hGranted.mem ?_⟩
  intro hHolds
  rw [hSame hHolds]

/-- The node is not cut. In the tiled heap it keeps its size. -/
theorem Blurs.given_whole (hLess : dosAlign n < b.size) (hWhole : ¬dosAlign n + 8 < b.size)
    (hNot : ¬cut) :
    ∃ h', Given h h' (xs ++ ([{ b with used := true }] ++ ys)) owned n (userMem (v.place xs)) b.size
      cut := by
  let w := (v.setUsed (v.place xs) 1).setMemHeapSize (v.memHeapSize + (2 ^ 32 - dosAlign n))
  have hFocus := hOwns.tiled.focus
  have hBounds := hFocus.bounds
  have hTotal : total Block.span [{ b with used := true }] = b.span := Nat.add_zero _
  have hSame : v.SameBounds w := ⟨rfl, rfl⟩
  have hBegin := hBlurs.same.heapBegin
  have hEq := Blurs.alloc_eq hOwns hFree hBlurs hBest
  rw [if_neg (by rw [memNodeSize]; omega)] at hEq
  have hOff (x : Nat) (hWord : x ≠ v.place xs + 4) (hInfo : x ≠ v.alignMemHeapBegin + 4) :
      w.mem x = v.mem x := (mem_write_of_ne hInfo).trans (mem_write_of_ne hWord)
  have hOwns' : w.Owns (xs ++ ([{ b with used := true }] ++ ys))
      ((userMem (v.place xs), b.size) :: owned) := by
    have hAreas := hOwns.areas
    rw [Block.areas_append, Block.areas_cons_free hFree] at hAreas
    refine ⟨((hFocus.setUsed true).setMemHeapSize _).laid.tiled hOwns.tiled ⟨rfl, rfl⟩, ?_⟩
    rw [show w.firstNode = v.firstNode from rfl, List.singleton_append, Block.areas_append,
      Block.areas_cons_used rfl]
    exact (hAreas.cons _).trans List.perm_middle.symm
  refine ⟨_, Given.of_blurs hEq hFree hTotal hBlurs hSame hOwns'
    ⟨⟨hBegin, hBlurs.same.heapEnd⟩, ?_⟩ ?_ fun hCut => absurd hCut hNot⟩
  · intro x
    by_cases hWord : x = v.place xs + 4
    · -- the size of the node is where the heaps differ
      subst hWord
      refine Or.inr ⟨⟨xs, { b with used := true }, ys, rfl, rfl, rfl⟩, ?_⟩
      have hUsed : w.mem (v.place xs + 4) = (v.setUsed (v.place xs) 1).mem (v.place xs + 4) :=
        mem_write_of_ne (show v.place xs + 4 ≠ v.alignMemHeapBegin + 4 by omega)
      rw [hUsed, setUsed, mem_write_self, NodeWord.used_pack]
      exact takeNode_used (by omega)
    · by_cases hInfo : x = v.alignMemHeapBegin + 4
      · left
        have hCount : (h.takeNode (v.place xs) (dosAlign n)).mem (h.alignMemHeapBegin + 4) =
            (h.mem (h.alignMemHeapBegin + 4) + (2 ^ 32 - dosAlign n)) % 2 ^ 32 :=
          takeNode_memHeapSize (by omega)
        rw [hBegin, hBlurs.mem (usedWord_info (by decide)), ← hInfo] at hCount
        rw [hCount, hInfo]
        exact mem_write_self.symm
      · rw [hOff x hWord hInfo, takeNode_mem hWord (by omega)]
        exact (hBlurs.word x).imp_right fun hAt =>
          ⟨usedWord_replace hSame hFree hTotal hAt.1, hAt.2⟩
  · intro x hx
    obtain ⟨hAside, hInfo⟩ := hOwns'.aside hx
    rw [hSame.heapBegin] at hInfo
    exact hOff x (hAside.2 xs _ rfl).2 (by omega)

end Take

/-- The same request on two heaps with the same blocks has the same answer, and the
heaps have the same blocks again. -/
theorem Held.alloc (hHeld : h.Held bs owned cut) (hTwin : g.Held bs owned cut)
    (hSame : h.SameBounds g) (n : Nat) :
    (h.dosMemAlloc n = some (h, 0) ∧ g.dosMemAlloc n = some (g, 0)) ∨
      ∃ h' g' bs' p k, p ≠ 0 ∧ dosAlign n ≤ k ∧ Given h h' bs' owned n p k (cut ∧ h.Cuts n) ∧
        Given g g' bs' owned n p k (cut ∧ h.Cuts n) := by
  have hBegin := hHeld.begin_pos
  have hBegin' := hTwin.begin_pos
  obtain ⟨v, hOwns, hBlurs, hExact⟩ := hHeld
  obtain ⟨u, hOwns', hBlurs', hExact'⟩ := hTwin
  have hVirtual : v.SameBounds u :=
    ⟨by rw [← hBlurs'.same.heapBegin, hSame.heapBegin, hBlurs.same.heapBegin],
      by rw [← hBlurs'.same.heapEnd, hSame.heapEnd, hBlurs.same.heapEnd]⟩
  obtain ⟨best, hFound, hBest⟩ := hOwns.tiled.bestNode (dosAlign n)
  have hFound' := (hOwns.tiled.bestNode_eq hOwns'.tiled.toLaid hVirtual (dosAlign n)).trans hFound
  have hReal := (hBlurs.bestNode hOwns.tiled.toLaid (dosAlign n)).trans hFound
  cases hBest with
  | null hNull hNone =>
      left
      rw [dosMemAlloc_of_best hBegin hReal, dosMemAlloc_of_best hBegin'
        ((hBlurs'.bestNode hOwns'.tiled.toLaid (dosAlign n)).trans hFound'), if_pos hNull,
        if_pos hNull]
      exact ⟨rfl, rfl⟩
  | found front b back hSplit hAddr hFits hLeast =>
      right
      rw [List.nil_append] at hAddr
      subst hSplit hAddr
      have hPos := hOwns.tiled.focus.place_pos
      have hNonnull : userMem (v.place front) ≠ 0 := by
        rw [userMem, memNodeSize]
        omega
      have hLess := hFits.2
      rw [← hVirtual.place] at hFound'
      by_cases hCut : dosAlign n + 8 < b.size
      · have hLeft : cut ∧ h.Cuts n → v = h := fun hBoth => hExact hBoth.1
        have hRight : cut ∧ h.Cuts n → u = g := fun hBoth => hExact' hBoth.1
        obtain ⟨h', hGiven⟩ := Blurs.given_cut hOwns hFits.1 hBlurs hFound hLeft hCut
        obtain ⟨g', hGiven'⟩ := Blurs.given_cut hOwns' hFits.1 hBlurs' hFound' hRight hCut
        rw [hVirtual.place] at hGiven'
        exact ⟨h', g', _, _, _, hNonnull, Nat.le_refl _, hGiven, hGiven'⟩
      · have hNot : ¬(cut ∧ h.Cuts n) := by
          rintro ⟨-, hCuts⟩
          have hRoom := (hCuts _ hReal).resolve_left (by omega)
          rw [nodeSize, hBlurs.mem (usedWord_place.2 hFits.1)] at hRoom
          have hSize : NodeWord.size (v.mem (v.place front + 4)) = b.size :=
            hOwns.tiled.focus.node.size
          rw [hSize] at hRoom
          exact hCut hRoom
        obtain ⟨h', hGiven⟩ := Blurs.given_whole hOwns hFits.1 hBlurs hFound hLess hCut hNot
        obtain ⟨g', hGiven'⟩ := Blurs.given_whole hOwns' hFits.1 hBlurs' hFound' hLess hCut hNot
        rw [hVirtual.place] at hGiven'
        exact ⟨h', g', _, _, _, hNonnull, Nat.le_of_lt hLess, hGiven, hGiven'⟩

end Heap

end DoraOS
