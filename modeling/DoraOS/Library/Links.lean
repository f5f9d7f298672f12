import Mathlib.Data.List.Chain
import Mathlib.Data.List.Nodup

/-! Nodes linked by pointers. The nodes of a structure are given as a list, and
a structure in memory is that list when every node points to the one behind
it. A list that ends in a terminator is the list of nodes with the terminator
as its last member; the pointer to the first node is the pointer of a node in
front of it. A ring ends in the node it starts with, and has pointers back. -/
namespace Links

universe u

variable {α : Type u} {next next' : α → α} {a n z : α} {l : List α}

def Linked (next : α → α) (l : List α) : Prop := l.IsChain fun a b => next a = b

namespace Linked

/-- The pointer of the last node does not matter. -/
theorem congr (h : Linked next (l ++ [z])) (hSame : ∀ a ∈ l, next' a = next a) :
    Linked next' (l ++ [z]) := by
  induction l with
  | nil => exact List.isChain_singleton z
  | cons a rest ih =>
      obtain ⟨hFirst, hRest⟩ := List.isChain_cons.mp h
      refine List.isChain_cons.mpr ⟨?_, ih hRest fun x hx => hSame x (List.mem_cons_of_mem a hx)⟩
      intro y hy
      rw [hSame a List.mem_cons_self]
      exact hFirst y hy

/-- The first pointer leads to the first node behind it. -/
theorem head (h : Linked next (a :: (l ++ [z]))) : next a = (l ++ [z]).head (by simp) :=
  (List.isChain_cons.mp h).1 _ (List.head_mem_head? _)

/-- A node comes in behind the first one. -/
theorem push (h : Linked next (a :: (l ++ [z]))) (hFirst : next' a = n) (hNew : next' n = next a)
    (hSame : ∀ x ∈ l, next' x = next x) : Linked next' (a :: n :: (l ++ [z])) := by
  obtain ⟨hHead, hRest⟩ := List.isChain_cons.mp h
  refine List.isChain_cons_cons.mpr ⟨hFirst, List.isChain_cons.mpr ⟨?_, congr hRest hSame⟩⟩
  intro y hy
  rw [hNew]
  exact hHead y hy

/-- The node behind the first one goes out. -/
theorem pop (h : Linked next (a :: n :: (l ++ [z]))) (hFirst : next' a = next n)
    (hSame : ∀ x ∈ l, next' x = next x) : Linked next' (a :: (l ++ [z])) := by
  obtain ⟨-, hRest⟩ := List.isChain_cons_cons.mp h
  obtain ⟨hHead, hTail⟩ := List.isChain_cons.mp hRest
  refine List.isChain_cons.mpr ⟨?_, congr hTail hSame⟩
  intro y hy
  rw [hFirst]
  exact hHead y hy

/-- Two chains that share a node. -/
theorem split {first : List α} :
    Linked next (first ++ a :: l) ↔ Linked next (first ++ [a]) ∧ Linked next (a :: l) :=
  List.isChain_split

/-- The pointers of a chain are its nodes but the first. -/
theorem map_next (h : Linked next (l ++ [z])) : l.map next = (l ++ [z]).tail := by
  induction l with
  | nil => rfl
  | cons a rest ih =>
      have hRest : Linked next (rest ++ [z]) := (List.isChain_cons.mp h).2
      rw [List.map_cons, head h, ih hRest, List.cons_append, List.tail_cons,
        List.cons_head_tail]

end Linked

/-- Follow the pointers from `a` on as long as the next node passes the test. -/
def seek (next : α → α) (test : α → Bool) : Nat → α → Option α
  | 0, _ => none
  | fuel + 1, a => if test (next a) then seek next test fuel (next a) else some a

/-- The walk ends at the last node that passes the test in an unbroken row, if
the terminator does not pass it. -/
theorem Linked.seek (test : α → Bool) (h : Linked next (a :: (l ++ [z]))) (hStop : test z = false)
    {fuel : Nat} (hFuel : l.length < fuel) : Links.seek next test fuel a =
      some ((a :: l.takeWhile test).getLast (List.cons_ne_nil _ _)) := by
  obtain ⟨fuel, rfl⟩ := Nat.exists_eq_succ_of_ne_zero (Nat.ne_zero_of_lt hFuel)
  induction l generalizing a fuel with
  | nil =>
      have hNext : next a = z := h.head
      simp [Links.seek, hNext, hStop]
  | cons b rest ih =>
      have hNext : next a = b := h.head
      have hRest : Linked next (b :: (rest ++ [z])) := (List.isChain_cons.mp h).2
      have hLess : rest.length < fuel := Nat.lt_of_succ_lt_succ hFuel
      obtain ⟨fuel, rfl⟩ := Nat.exists_eq_succ_of_ne_zero (Nat.ne_zero_of_lt hLess)
      rw [Links.seek, hNext]
      by_cases hTest : test b = true
      · rw [if_pos hTest, ih hRest fuel hLess]
        simp only [List.takeWhile_cons_of_pos hTest, List.getLast_cons_cons]
      · simp only [if_neg hTest, List.takeWhile_cons_of_neg hTest, List.getLast_singleton]

/-- More fuel does not change where a walk ends. -/
theorem seek_mono {test : α → Bool} {fuel more : Nat} (hFuel : fuel ≤ more)
    (h : seek next test fuel a = some n) : seek next test more a = some n := by
  induction fuel generalizing a more with
  | zero => exact absurd h nofun
  | succ fuel ih =>
      obtain ⟨more, rfl⟩ := Nat.exists_eq_succ_of_ne_zero (Nat.ne_of_gt (Nat.lt_of_lt_of_le
        (Nat.succ_pos fuel) hFuel))
      simp only [seek] at h ⊢
      split at h
      next hTest =>
        rw [if_pos hTest]
        exact ih (Nat.le_of_succ_le_succ hFuel) h
      next hTest => rwa [if_neg hTest]

variable {prev prev' : α → α} {head : α} {before behind : List α}

/-- A ring of nodes with its head. Every pointer to the next node is undone by
the pointer back. -/
structure Ring (next prev : α → α) (head : α) (l : List α) : Prop where
  linked : Linked next (head :: (l ++ [head]))
  inverse : ∀ x ∈ head :: l, prev (next x) = x
  nodup : (head :: l).Nodup

namespace Ring

/-- The pointers of the nodes are the nodes again. -/
theorem map_next (h : Ring next prev head l) : (head :: l).map next = l ++ [head] :=
  Linked.map_next (l := head :: l) h.linked

theorem next_mem (h : Ring next prev head l) (hx : n ∈ head :: l) : next n ∈ head :: l := by
  have hMem : next n ∈ l ++ [head] := h.map_next ▸ List.mem_map_of_mem hx
  exact (List.perm_append_singleton head l).mem_iff.mp hMem

theorem next_prev (h : Ring next prev head l) (hx : n ∈ head :: l) :
    prev n ∈ head :: l ∧ next (prev n) = n := by
  have hMem : n ∈ (head :: l).map next :=
    h.map_next ▸ (List.perm_append_singleton head l).mem_iff.mpr hx
  obtain ⟨y, hy, rfl⟩ := List.mem_map.mp hMem
  rw [h.inverse y hy]
  exact ⟨hy, rfl⟩

theorem congr (h : Ring next prev head l) (hNext : ∀ x ∈ head :: l, next' x = next x)
    (hPrev : ∀ x ∈ head :: l, prev' x = prev x) : Ring next' prev' head l := by
  refine ⟨Linked.congr (l := head :: l) h.linked hNext, ?_, h.nodup⟩
  intro x hx
  rw [hNext x hx, hPrev _ (h.next_mem hx), h.inverse x hx]

theorem perm_middle : (head :: (before ++ n :: behind)).Perm (n :: head :: (before ++ behind)) :=
  show ((head :: before) ++ n :: behind).Perm (n :: ((head :: before) ++ behind)) from
    List.perm_middle

/-- The ring cut at a node. -/
theorem linked_middle (h : Ring next prev head (before ++ n :: behind)) :
    Linked next ((head :: before) ++ n :: (behind ++ [head])) := by
  have hLinked := h.linked
  rwa [List.append_assoc, List.cons_append] at hLinked

/-- The node behind `n`. -/
theorem next_middle (h : Ring next prev head (before ++ n :: behind)) :
    next n = (behind ++ [head]).head (by simp) :=
  (Linked.split.mp h.linked_middle).2.head

/-- The node in front of `n`. -/
theorem prev_middle (h : Ring next prev head (before ++ n :: behind)) {first : List α}
    (hItem : head :: before = first ++ [a]) : prev n = a := by
  have hLinked := h.linked_middle
  rw [hItem, List.append_assoc, List.singleton_append] at hLinked
  have hNext : next a = n := (List.isChain_cons_cons.mp (Linked.split.mp hLinked).2).1
  have hMem : a ∈ head :: (before ++ n :: behind) := by
    rw [← List.cons_append, hItem]
    simp
  rw [← hNext, h.inverse a hMem]

/-- A node besides the head does not point to itself. -/
theorem next_ne (h : Ring next prev head (before ++ n :: behind)) : next n ≠ n := by
  have hNew : n ∉ head :: (before ++ behind) :=
    (List.nodup_cons.mp (perm_middle.nodup_iff.mp h.nodup)).1
  rw [h.next_middle]
  intro hEq
  have hMem : n ∈ behind ++ [head] := hEq ▸ List.head_mem _
  rcases List.mem_append.mp hMem with hBehind | hHead
  · exact hNew (List.mem_cons_of_mem head (List.mem_append_right before hBehind))
  · exact hNew (List.mem_singleton.mp hHead ▸ List.mem_cons_self)

theorem prev_ne (h : Ring next prev head (before ++ n :: behind)) : prev n ≠ n := by
  intro hEq
  have hBack := (h.next_prev (perm_middle.mem_iff.mpr List.mem_cons_self)).2
  rw [hEq] at hBack
  exact h.next_ne hBack

/-- The ring cut behind the last node of `head :: before`. -/
theorem cut {first : List α} (hItem : head :: before = first ++ [a]) (rest : List α) :
    head :: (before ++ rest) = first ++ a :: rest := by
  rw [← List.cons_append, hItem, List.append_assoc, List.singleton_append]

/-- The last node is the one in front of the head. -/
theorem exists_last (h : Ring next prev head l) : ∃ first, head :: l = first ++ [prev head] := by
  obtain ⟨first, a, hItem⟩ : ∃ first a, head :: l = first ++ [a] :=
    (List.eq_nil_or_concat' (head :: l)).resolve_left (List.cons_ne_nil _ _)
  have hLinked : Linked next (first ++ a :: [head]) := cut hItem [head] ▸ h.linked
  have hNext : next a = head := (List.isChain_cons_cons.mp (Linked.split.mp hLinked).2).1
  have hMem : a ∈ head :: l := by simp [hItem]
  have hPrev : prev head = a := by rw [← hNext, h.inverse a hMem]
  exact ⟨first, hPrev ▸ hItem⟩

/-- A node comes in behind the node `a`. -/
theorem insert (h : Ring next prev head (before ++ behind)) {first : List α}
    (hItem : head :: before = first ++ [a]) (hNew : n ∉ head :: (before ++ behind))
    (hNextItem : next' a = n) (hNextNew : next' n = next a) (hPrevNew : prev' n = a)
    (hPrevNext : prev' (next a) = n)
    (hNext : ∀ x ∈ head :: (before ++ behind), x ≠ a → next' x = next x)
    (hPrev : ∀ x ∈ head :: (before ++ behind), x ≠ next a → prev' x = prev x) :
    Ring next' prev' head (before ++ n :: behind) := by
  have hCut := cut hItem
  have hNodup : (first ++ a :: behind).Nodup := hCut behind ▸ h.nodup
  have hLinked : Linked next (first ++ a :: (behind ++ [head])) := by
    have hLinked := h.linked
    rwa [List.append_assoc, hCut] at hLinked
  obtain ⟨hFirst, hRest⟩ := Linked.split.mp hLinked
  have hMem : a ∈ head :: (before ++ behind) := by rw [hCut]; simp
  refine ⟨?_, ?_, ?_⟩
  · rw [List.append_assoc, hCut]
    refine Linked.split.mpr ⟨hFirst.congr ?_, hRest.push hNextItem hNextNew ?_⟩
    · intro x hx
      refine hNext x (hCut behind ▸ List.mem_append_left _ hx) ?_
      rintro rfl
      exact List.disjoint_of_nodup_append hNodup hx List.mem_cons_self
    · intro x hx
      refine hNext x (hCut behind ▸ List.mem_append_right _ (List.mem_cons_of_mem a hx)) ?_
      rintro rfl
      exact (List.nodup_cons.mp (List.nodup_append.mp hNodup).2.1).1 hx
  · intro x hx
    rcases List.mem_cons.mp (perm_middle.mem_iff.mp hx) with rfl | hOld
    · rw [hNextNew, hPrevNext]
    · by_cases hEq : x = a
      · rw [hEq, hNextItem, hPrevNew]
      · have hApart : next x ≠ next a := by
          intro hSame
          rw [← h.inverse x hOld, hSame, h.inverse a hMem] at hEq
          exact hEq rfl
        rw [hNext x hOld hEq, hPrev _ (h.next_mem hOld) hApart, h.inverse x hOld]
  · exact perm_middle.nodup_iff.mpr (List.nodup_cons.mpr ⟨hNew, h.nodup⟩)

/-- The node `n` goes out. -/
theorem remove (h : Ring next prev head (before ++ n :: behind))
    (hNextPrev : next' (prev n) = next n) (hPrevNext : prev' (next n) = prev n)
    (hNext : ∀ x ∈ head :: (before ++ behind), x ≠ prev n → next' x = next x)
    (hPrev : ∀ x ∈ head :: (before ++ behind), x ≠ next n → prev' x = prev x) :
    Ring next' prev' head (before ++ behind) := by
  obtain ⟨first, a, hItem⟩ : ∃ first a, head :: before = first ++ [a] :=
    (List.eq_nil_or_concat' (head :: before)).resolve_left (List.cons_ne_nil _ _)
  have hCut := cut hItem
  have hNodup : (first ++ a :: n :: behind).Nodup := hCut (n :: behind) ▸ h.nodup
  have hLinked : Linked next (first ++ a :: n :: (behind ++ [head])) := by
    have hLinked := h.linked
    rwa [List.append_assoc, List.cons_append, hCut] at hLinked
  obtain ⟨hFirst, hRest⟩ := Linked.split.mp hLinked
  have hOld (x : α) (hx : x ∈ head :: (before ++ behind)) : x ∈ head :: (before ++ n :: behind) :=
    perm_middle.mem_iff.mpr (List.mem_cons_of_mem n hx)
  have hMem : a ∈ head :: (before ++ behind) := by rw [hCut]; simp
  have hPrevN : prev n = a := h.prev_middle hItem
  have hNe : ∀ x ∈ head :: (before ++ behind), x ≠ n := by
    rintro x hx rfl
    exact (List.nodup_cons.mp (perm_middle.nodup_iff.mp h.nodup)).1 hx
  rw [hPrevN] at hNextPrev hPrevNext hNext
  refine ⟨?_, ?_, ?_⟩
  · rw [List.append_assoc, hCut]
    refine Linked.split.mpr ⟨hFirst.congr ?_, hRest.pop hNextPrev ?_⟩
    · intro x hx
      refine hNext x (hCut behind ▸ List.mem_append_left _ hx) ?_
      rintro rfl
      exact List.disjoint_of_nodup_append hNodup hx List.mem_cons_self
    · intro x hx
      refine hNext x (hCut behind ▸ List.mem_append_right _ (List.mem_cons_of_mem a hx)) ?_
      rintro rfl
      exact (List.nodup_cons.mp (List.nodup_append.mp hNodup).2.1).1 (List.mem_cons_of_mem n hx)
  · intro x hx
    by_cases hEq : x = a
    · rw [hEq, hNextPrev, hPrevNext]
    · have hApart : next x ≠ next n := by
        intro hSame
        have hBack := h.inverse n (perm_middle.mem_iff.mpr List.mem_cons_self)
        rw [← hSame, h.inverse x (hOld x hx)] at hBack
        exact hNe x hx hBack
      have hIn : next x ∈ head :: (before ++ behind) := by
        have hNext' := perm_middle.mem_iff.mp (h.next_mem (hOld x hx))
        refine (List.mem_cons.mp hNext').resolve_left ?_
        intro hSame
        rw [← h.inverse x (hOld x hx), hSame, hPrevN] at hEq
        exact hEq rfl
      rw [hNext x hx hEq, hPrev _ hIn hApart, h.inverse x (hOld x hx)]
  · exact (List.nodup_cons.mp (perm_middle.nodup_iff.mp h.nodup)).2

end Ring

end Links
