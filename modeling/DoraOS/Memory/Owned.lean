import DoraOS.Memory.Alloc
import DoraOS.Memory.Free

/-! The heap as its callers see it. A caller owns the user areas that were
allocated for it; allocating and freeing change the set of owned areas and the
count of free bytes, and leave the content of every area alone. -/
namespace DoraOS

open Segments

namespace Block

/-- The user areas of the used blocks from address `a` on, with their sizes. -/
def areas (a : Nat) (bs : List Block) : List (Nat × Nat) :=
  ((located span a bs).filter fun l => l.2.used).map fun l => (Heap.userMem l.1, l.2.size)

variable {a : Nat} {b : Block} {xs ys bs : List Block}

theorem areas_append : areas a (xs ++ ys) = areas a xs ++ areas (a + total span xs) ys := by
  rw [areas, located_append, List.filter_append, List.map_append]
  rfl

theorem areas_cons_used (hUsed : b.used = true) :
    areas a (b :: ys) = (Heap.userMem a, b.size) :: areas (a + b.span) ys := by
  simp [areas, hUsed]

theorem areas_cons_free (hFree : b.used = false) : areas a (b :: ys) = areas (a + b.span) ys := by
  simp [areas, hFree]

theorem areas_absorb (hFree : b.used = false) : areas a (b.absorb ys) = areas a (b :: ys) := by
  induction ys generalizing b with
  | nil => rfl
  | cons c ys ih =>
      rw [absorb]
      split
      · rfl
      next hUsed =>
        have hc : c.used = false := by simpa using hUsed
        have hJoin : (b.join c).used = false := hFree
        rw [ih hJoin, areas_cons_free hJoin, areas_cons_free hFree, areas_cons_free hc, span_join,
          Nat.add_assoc]

theorem areas_absorbAll (hFree : ∀ c ∈ xs.head?, c.used = false) :
    areas a (absorbAll xs) = areas a xs := by
  cases xs with
  | nil => rfl
  | cons b ys => exact areas_absorb (hFree b (by simp))

/-- Freeing a block takes its area from the list and no other one. -/
theorem areas_freed : areas a (freed xs b ys) = areas a (xs ++ b.release :: ys) := by
  have hFree : ∀ c ∈ (xs.rtakeWhile (fun c => !c.used) ++ b.release :: ys).head?,
      c.used = false := by
    intro c hc
    cases hRun : xs.rtakeWhile (fun c => !c.used) with
    | nil =>
        rw [hRun] at hc
        have hEq : b.release = c := by simpa using hc
        rw [← hEq, release]
    | cons d ds =>
        have hMem : d ∈ xs.rtakeWhile (fun c => !c.used) := by simp [hRun]
        rw [hRun] at hc
        have hEq : d = c := by simpa using hc
        simpa [hEq] using List.mem_rtakeWhile_imp hMem
  rw [freed, areas_append, areas_absorbAll hFree, ← areas_append, ← List.append_assoc,
    List.rdropWhile_append_rtakeWhile]

end Block

namespace Heap

variable {h h' g : Heap} {n p k x : Nat} {b : Block} {xs ys bs : List Block}
  {owned : List (Nat × Nat)}

/-- The heap is tiled by `bs`, and `owned` are the user areas of its used blocks. -/
structure Owns (h : Heap) (bs : List Block) (owned : List (Nat × Nat)) : Prop where
  tiled : h.Tiled bs
  areas : owned.Perm (Block.areas h.firstNode bs)

/-- The word at `x` is in one of the areas. -/
def Within (owned : List (Nat × Nat)) (x : Nat) : Prop :=
  ∃ area ∈ owned, area.1 ≤ x ∧ x < area.1 + area.2

/-- An allocation of `n` bytes cuts the node it takes. -/
def Cuts (h : Heap) (n : Nat) : Prop :=
  ∀ best ∈ h.bestNode (dosAlign n), best = 0 ∨ dosAlign n + memNodeSize < h.nodeSize best

instance : Decidable (h.Cuts n) :=
  inferInstanceAs (Decidable (∀ best ∈ h.bestNode (dosAlign n), _))

/-- The area at `p` was allocated in `h` for a request of `n` bytes. -/
structure Granted (h h' : Heap) (bs : List Block) (owned : List (Nat × Nat)) (n p : Nat) :
    Prop where
  nonnull : p ≠ 0
  small : dosAlign n < 2 ^ 30
  owns : h'.Owns bs ((p, dosAlign n) :: owned)
  same : h.SameBounds h'
  mem : ∀ x, Within ((p, dosAlign n) :: owned) x → h'.mem x = h.mem x
  size : h'.memHeapSize = (h.memHeapSize + (2 ^ 32 - dosAlign n)) % 2 ^ 32

/-- The area at `p` of `k` bytes was freed in `h`. -/
structure Released (h h' : Heap) (bs : List Block) (owned : List (Nat × Nat)) (p k : Nat) :
    Prop where
  owns : h'.Owns bs owned
  same : h.SameBounds h'
  mem : ∀ x, Within ((p, k) :: owned) x → h'.mem x = h.mem x
  size : h'.memHeapSize = (h.memHeapSize + k) % 2 ^ 32

/-- Only words of the `k` bytes at `p` were written. -/
structure Edits (h h' : Heap) (p k : Nat) : Prop where
  same : h.SameBounds h'
  mem : ∀ x, x < p ∨ p + k ≤ x → h'.mem x = h.mem x

section Edit

theorem Edits.refl : h.Edits h p k := ⟨.rfl, fun _ _ => rfl⟩

theorem edits_write {addr word : Nat} (hLow : p ≤ addr) (hHigh : addr < p + k) :
    h.Edits (h.write addr word) p k :=
  ⟨write_bounds, fun _ hx => mem_write_of_ne (by omega)⟩

theorem edits_memset (hn : n ≤ k) : h.Edits (h.memset p n) p k := by
  refine ⟨⟨rfl, rfl⟩, ?_⟩
  intro x hx
  simp only [memset]
  rw [if_neg (by omega)]

end Edit

namespace Owns

theorem perm {owned' : List (Nat × Nat)} (hOwns : h.Owns bs owned) (hPerm : owned'.Perm owned) :
    h.Owns bs owned' :=
  ⟨hOwns.tiled, hPerm.trans hOwns.areas⟩

/-- An owned area is that of a used block. -/
theorem split (hOwns : h.Owns bs owned) (hMem : (p, k) ∈ owned) :
    ∃ xs b ys, bs = xs ++ b :: ys ∧ b.used = true ∧ p = userMem (h.place xs) ∧ k = b.size := by
  obtain ⟨l, hl, hArea⟩ := List.mem_map.mp (hOwns.areas.mem_iff.mp hMem)
  obtain ⟨hLocated, hUsed⟩ := List.mem_filter.mp hl
  obtain ⟨xs, ys, hSplit, hAddr⟩ := mem_located.mp hLocated
  obtain ⟨hp, hk⟩ := Prod.mk.inj hArea
  exact ⟨xs, l.2, ys, hSplit, hUsed, by rw [← hp, hAddr, place], hk.symm⟩

theorem aside (hOwns : h.Owns bs owned) (hx : Within owned x) :
    h.Aside bs x ∧ h.alignMemHeapBegin + 16 < x := by
  obtain ⟨⟨q, j⟩, hMem, hLow, hHigh⟩ := hx
  obtain ⟨xs, b, ys, rfl, -, rfl, rfl⟩ := hOwns.split hMem
  have hSpine := hOwns.tiled.focus.toSpine
  have hBounds := hSpine.bounds
  simp only [userMem, memNodeSize] at hLow hHigh
  refine ⟨hSpine.aside_user hLow ?_, by omega⟩
  rw [Block.span_eq]
  omega

/-- Writing to an owned area keeps the blocks. -/
theorem edit (hOwns : h.Owns bs owned) (hMem : (p, k) ∈ owned) (hEdits : h.Edits h' p k) :
    h'.Owns bs owned ∧ h'.memHeapSize = h.memHeapSize := by
  obtain ⟨xs, b, ys, rfl, -, rfl, rfl⟩ := hOwns.split hMem
  have hFocus := hOwns.tiled.focus
  have hBounds := hFocus.bounds
  have hFirst : h.firstNode = h.alignMemHeapBegin + 16 := rfl
  have hSpan := b.span_eq
  have hOff : ∀ x, x < h.place xs + 8 ∨ h.place xs + b.span ≤ x → h'.mem x = h.mem x := by
    intro x hx
    refine hEdits.mem x ?_
    rw [userMem, memNodeSize]
    omega
  refine ⟨⟨?_, ?_⟩, ?_⟩
  · have hEdited : h'.Focus xs b (h.place xs) ys := by
      refine (hFocus.update hEdits.same (hOff _ (by omega)) ?_ ?_ rfl ?_).focus hEdits.same ?_
      · intro x _ hHigh
        exact hOff x (by omega)
      · intro l hNode
        exact hNode.congr (hOff _ (by omega)) (hOff _ (by omega))
      · refine chain_congr hFocus.back ?_
        intro x hLow _
        exact hOff x (by omega)
      · rw [← hFocus.tail, memTail, hEdits.same.heapBegin]
        exact hOff _ (by omega)
    rw [← hEdits.same.place] at hEdited
    exact hEdited.laid.tiled hOwns.tiled hEdits.same
  · rw [hEdits.same.firstNode]
    exact hOwns.areas
  · rw [memHeapSize, hEdits.same.heapBegin]
    exact hOff _ (by omega)

/-- An owned block can be freed. -/
theorem free (hOwns : h.Owns bs ((p, k) :: owned)) :
    ∃ h' bs', h.dosMemFree p = some (h', true) ∧ Released h h' bs' owned p k := by
  obtain ⟨xs, b, ys, rfl, hUsed, rfl, rfl⟩ := hOwns.split List.mem_cons_self
  obtain ⟨h', hFree, hLaid, hSame, hMem, hSize, -⟩ :=
    hOwns.tiled.dosMemFree hUsed hOwns.tiled.joined_fits
  refine ⟨h', _, hFree, ⟨hLaid.tiled hOwns.tiled hSame, ?_⟩, hSame, ?_, hSize⟩
  · have hAreas := hOwns.areas
    rw [Block.areas_append, Block.areas_cons_used hUsed] at hAreas
    rw [hSame.firstNode, Block.areas_freed, Block.areas_append, Block.areas_cons_free rfl]
    exact (hAreas.trans List.perm_middle).cons_inv
  · intro x hx
    obtain ⟨hAside, hInfo⟩ := hOwns.aside hx
    exact hMem x hAside (by omega)

end Owns

section Free

/-- The word at `x` is in the user area of a free block. -/
def InFree (h : Heap) (bs : List Block) (x : Nat) : Prop :=
  ∃ xs b ys, bs = xs ++ b :: ys ∧ b.used = false ∧ userMem (h.place xs) ≤ x ∧
    x < userMem (h.place xs) + b.size

theorem Tiled.aside_free (hTiled : h.Tiled bs) (hx : h.InFree bs x) :
    h.Aside bs x ∧ h.alignMemHeapBegin + 16 < x := by
  obtain ⟨xs, b, ys, rfl, -, hLow, hHigh⟩ := hx
  have hSpine := hTiled.focus.toSpine
  have hBounds := hSpine.bounds
  simp only [userMem, memNodeSize] at hLow hHigh
  refine ⟨hSpine.aside_user hLow ?_, by omega⟩
  rw [Block.span_eq]
  omega

/-- The headers do not depend on the words of free user areas. -/
theorem Tiled.of_free (hTiled : h.Tiled bs) (hSame : h.SameBounds g)
    (hMem : ∀ x, ¬h.InFree bs x → g.mem x = h.mem x) : g.Tiled bs := by
  have hInfo (k : Nat) (hk : k ≤ 16) :
      g.mem (h.alignMemHeapBegin + k) = h.mem (h.alignMemHeapBegin + k) := by
    refine hMem _ fun hFree => ?_
    have hAbove := (hTiled.aside_free hFree).2
    omega
  have hHeader {pre post : List Block} (hSplit : bs = pre ++ post) :
      g.mem (h.place pre) = h.mem (h.place pre) ∧
        g.mem (h.place pre + 4) = h.mem (h.place pre + 4) := by
    constructor
    · exact hMem _ fun hFree => ((hTiled.aside_free hFree).1.2 pre post hSplit).1 rfl
    · exact hMem _ fun hFree => ((hTiled.aside_free hFree).1.2 pre post hSplit).2 rfl
  -- every suffix of the blocks is a chain in the other heap
  have hChain (post : List Block) : ∀ (pre : List Block) (q : Nat), bs = pre ++ post →
      Chain Block.span h.NodeAt q (h.place pre) post →
      Chain Block.span g.NodeAt q (h.place pre) post := by
    induction post with
    | nil => exact fun _ _ _ _ => trivial
    | cons b post ih =>
        intro pre q hSplit hRest
        obtain ⟨hPrev, hWord⟩ := hHeader hSplit
        refine ⟨hRest.1.congr hPrev hWord, ?_⟩
        have hNext := ih (pre ++ [b]) (h.place pre) (by rw [hSplit, List.append_assoc]; rfl)
        rw [place_snoc] at hNext
        exact hNext hRest.2
  refine ⟨⟨?_, hTiled.nonempty, ?_, ?_⟩, hTiled.small⟩
  · obtain ⟨hPos, hAligned, hHead, hFills, hEnd⟩ := hTiled.framed
    have hHead' : g.memHead = h.memHead := by
      rw [memHead, hSame.heapBegin]
      exact hInfo 8 (by decide)
    exact ⟨by rw [hSame.heapBegin]; exact hPos, by rw [hSame.heapBegin]; exact hAligned,
      by rw [hHead', hHead, hSame.firstNode], by rw [hSame.firstNode, hSame.heapEnd]; exact hFills,
      by rw [hSame.heapEnd]; exact hEnd⟩
  · rw [hSame.firstNode]
    exact hChain bs [] 0 rfl hTiled.chain
  · have hTail : g.memTail = h.memTail := by
      rw [memTail, hSame.heapBegin]
      exact hInfo 12 (by decide)
    rw [hTail, hSame.firstNode]
    exact hTiled.tail

/-- What `dos_mem_alloc` returns was free. -/
theorem Tiled.alloc_inFree (hTiled : h.Tiled bs) (hn : 0 < dosAlign n)
    (hAlloc : h.dosMemAlloc n = some (h', p)) (hp : p ≠ 0) : h.InFree bs p := by
  obtain ⟨best, hFound, hBest⟩ := hTiled.bestNode (dosAlign n)
  rw [hTiled.dosMemAlloc_eq hFound, Option.some.injEq] at hAlloc
  cases hBest with
  | null hNull hNone =>
      rw [if_pos hNull] at hAlloc
      exact absurd (congrArg Prod.snd hAlloc).symm hp
  | found front b back hSplit hAddr hFits hLeast =>
      rw [List.nil_append] at hAddr
      have hPlace : best ≠ 0 := by
        rw [hSplit] at hTiled
        have hPos := hTiled.focus.place_pos
        omega
      rw [if_neg hPlace] at hAlloc
      have hUser : userMem best = p := congrArg Prod.snd hAlloc
      refine ⟨front, b, back, hSplit, hFits.1, ?_, ?_⟩
      · rw [← hUser, hAddr]
      · rw [← hUser, hAddr]
        have hSize := hFits.2
        omega

end Free

section Alloc

/-- The best node is cut. -/
theorem Owns.granted (hOwns : h.Owns (xs ++ b :: ys) owned) (hFree : b.used = false)
    (hBest : h.bestNode (dosAlign n) = some (h.place xs)) (hCut : dosAlign n + 8 < b.size) :
    ∃ h', h.dosMemAlloc n = some (h', userMem (h.place xs)) ∧
      Granted h h' (xs ++ Block.taken (dosAlign n) (dosAlign_mod n) ::
        b.rest (dosAlign n) (dosAlign_mod n) :: ys) owned n (userMem (h.place xs)) := by
  have hSmall := hOwns.tiled.focus.node.size_lt
  obtain ⟨h', hAlloc, hLaid, hSame, hMem, hSize⟩ := hOwns.tiled.dosMemAlloc_cut hBest hCut
  have hAreas := hOwns.areas
  rw [Block.areas_append, Block.areas_cons_free hFree] at hAreas
  have hOwns' : h'.Owns (xs ++ Block.taken (dosAlign n) (dosAlign_mod n) ::
      b.rest (dosAlign n) (dosAlign_mod n) :: ys) ((userMem (h.place xs), dosAlign n) :: owned) := by
    refine ⟨hLaid.tiled hOwns.tiled hSame, ?_⟩
    rw [hSame.firstNode, Block.areas_append, Block.areas_cons_used rfl, Block.areas_cons_free rfl,
      Nat.add_assoc, Block.span_rest (by rw [memNodeSize]; omega)]
    exact (hAreas.cons _).trans List.perm_middle.symm
  refine ⟨h', hAlloc, by rw [userMem, memNodeSize]; omega, by omega, hOwns', hSame, ?_, hSize⟩
  intro x hx
  obtain ⟨⟨hTail, hHeaders⟩, hInfo⟩ := hOwns'.aside hx
  rw [hSame.heapBegin] at hTail hInfo
  refine hMem x ⟨hTail, ?_⟩ (by omega)
  intro pre post hSplit
  rw [← hSame.place]
  exact hHeaders pre post hSplit

/-- An allocation that cuts returns null, or an area that was not owned. -/
theorem Owns.alloc (hOwns : h.Owns bs owned) (hCuts : h.Cuts n) :
    h.dosMemAlloc n = some (h, 0) ∨
      ∃ h' bs' p, h.dosMemAlloc n = some (h', p) ∧ Granted h h' bs' owned n p := by
  obtain ⟨best, hFound, hBest⟩ := hOwns.tiled.bestNode (dosAlign n)
  have hCut := hCuts best hFound
  cases hBest with
  | null hNull hNone =>
      left
      rw [hOwns.tiled.dosMemAlloc_eq hFound, if_pos hNull]
  | found front b back hSplit hAddr hFits hLeast =>
      right
      rw [List.nil_append] at hAddr
      subst hSplit hAddr
      have hPos := hOwns.tiled.focus.place_pos
      rw [hOwns.tiled.focus.node.size, memNodeSize] at hCut
      obtain ⟨h', hAlloc, hGranted⟩ := hOwns.granted hFits.1 hFound (hCut.resolve_left (by omega))
      exact ⟨h', _, _, hAlloc, hGranted⟩

end Alloc

end Heap

end DoraOS
