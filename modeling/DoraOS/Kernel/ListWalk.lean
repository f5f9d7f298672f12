import DoraOS.Kernel.TaskList
import Mathlib.Data.List.Induction

/-! Walking a task list with its rotating cursor. `dos_get_next_task` visits
the items behind the cursor, then skips the end item and goes on from the
front. Unlinking the item that the cursor is on moves the cursor back, so that
the walk goes on with the item that was behind. -/
namespace DoraOS.TaskLists

/-- The items in the order in which the cursor will visit them. -/
def rotation (items : List TaskId) : Option TaskId → List TaskId
  | none => items
  | some t => (items.dropWhile (· ≠ t)).tail ++ (items.takeWhile (· ≠ t) ++ [t])

variable {items before behind : List TaskId} {t : TaskId} {ls : TaskLists} {l : ListId}

theorem all_ne (h : t ∉ before) : ∀ x ∈ before, decide (x ≠ t) = true := by
  intro x hx
  rw [decide_eq_true_eq]
  rintro rfl
  exact h hx

theorem takeWhile_split (h : t ∉ before) :
    (before ++ t :: behind).takeWhile (· ≠ t) = before := by
  rw [List.takeWhile_append_of_pos (all_ne h)]
  simp

theorem dropWhile_split (h : t ∉ before) :
    (before ++ t :: behind).dropWhile (· ≠ t) = t :: behind := by
  rw [List.dropWhile_append_of_pos (all_ne h)]
  simp

/-- The cursor visits what is behind it first and comes back to its own item last. -/
theorem rotation_split (h : t ∉ before) :
    rotation (before ++ t :: behind) (some t) = behind ++ (before ++ [t]) := by
  rw [rotation, takeWhile_split h, dropWhile_split h, List.tail_cons]

theorem nextItem_split (h : t ∉ before) :
    nextItem (before ++ t :: behind) (some t) = behind.head? := by
  rw [nextItem, dropWhile_split h, List.tail_cons]

theorem not_mem_before (h : (before ++ t :: behind).Nodup) : t ∉ before := fun hMem =>
  (List.nodup_append.mp h).2.2 t hMem t List.mem_cons_self rfl

/-- One round of the cursor visits every item once. -/
theorem rotation_perm {cursor : Option TaskId} (h : ∀ t, cursor = some t → t ∈ items) :
    (rotation items cursor).Perm items := by
  cases cursor with
  | none => exact List.Perm.refl _
  | some t =>
      obtain ⟨before, behind, rfl, hNew⟩ := List.eq_append_cons_of_mem (h t rfl)
      rw [rotation_split hNew, show before ++ t :: behind = (before ++ [t]) ++ behind by simp]
      exact List.perm_append_comm

def visits (ls : TaskLists) (l : ListId) : List TaskId := rotation (ls.items l) (ls.cursor l)

/-- One round of `dos_get_next_task` visits every task of a list once. -/
theorem Linked.visits_perm (h : ls.Linked) (l : ListId) : (ls.visits l).Perm (ls.items l) :=
  rotation_perm (h.cursor l)

/-- `dos_get_next_task` gives the first task of the order of visits and moves
it to the end of the order. -/
theorem Linked.next_visits (h : ls.Linked) {rest : List TaskId} (hVisits : ls.visits l = t :: rest) :
    (ls.dosGetNextTask l).2 = some t ∧ (ls.dosGetNextTask l).1.visits l = rest ++ [t] ∧
      (ls.dosGetNextTask l).1.cursor l = some t := by
  have hNext : (ls.dosGetNextTask l).2 = some t ∧ rotation (ls.items l) (some t) = rest ++ [t] := by
    unfold dosGetNextTask
    dsimp only
    cases hCursor : ls.cursor l with
    | none =>
        rw [visits, hCursor, rotation] at hVisits
        rw [hVisits]
        exact ⟨rfl, rotation_split List.not_mem_nil⟩
    | some u =>
        obtain ⟨before, behind, hItems, hNew⟩ := List.eq_append_cons_of_mem (h.cursor l u hCursor)
        have hNodup := h.nodup l
        rw [visits, hCursor, hItems, rotation_split hNew] at hVisits
        rw [hItems] at hNodup ⊢
        rw [nextItem_split hNew]
        cases behind with
        | nil =>
            -- the end item is skipped and the walk starts again at the front
            rw [List.nil_append] at hVisits
            rw [hVisits] at hNodup ⊢
            exact ⟨rfl, rotation_split List.not_mem_nil⟩
        | cons v behind =>
            rw [List.cons_append, List.cons.injEq] at hVisits
            obtain ⟨rfl, rfl⟩ := hVisits
            refine ⟨rfl, ?_⟩
            rw [show before ++ u :: v :: behind = (before ++ [u]) ++ v :: behind by simp] at hNodup ⊢
            rw [rotation_split (not_mem_before hNodup), ← List.append_assoc behind]
  have hCursor : (ls.dosGetNextTask l).1.cursor l = some t := by
    rw [← hNext.1]
    simp [dosGetNextTask]
  refine ⟨hNext.1, ?_, hCursor⟩
  rw [visits, hCursor, next_items]
  exact hNext.2

/-- Unlinking the task under the cursor takes it off the end of the order of
visits. -/
theorem Linked.del_visits (h : ls.Linked) {rest : List TaskId} (hCursor : ls.cursor l = some t)
    (hVisits : ls.visits l = rest ++ [t]) :
    (ls.dosTaskItemDel l.kind t).1.visits l = rest := by
  have hMem := h.cursor l t hCursor
  have hOwner := (h.mem_iff l t).mp hMem
  have hNodup := h.nodup l
  obtain ⟨before, behind, hItems, hNew⟩ := List.eq_append_cons_of_mem hMem
  have hRest : rest = behind ++ before := by
    rw [visits, hCursor, hItems, rotation_split hNew, ← List.append_assoc] at hVisits
    exact (List.append_cancel_right hVisits).symm
  rw [visits, del_items, if_pos hOwner, del_cursor, if_pos ⟨hOwner, hCursor⟩, hItems, prevItem,
    takeWhile_split hNew, List.erase_append_right _ hNew, List.erase_cons_head, hRest]
  rw [hItems] at hNodup
  cases before using List.reverseRecOn with
  | nil => simp [rotation]
  | append_singleton before u _ =>
      have hu : u ∉ before := by
        rw [List.append_assoc] at hNodup
        exact not_mem_before hNodup
      rw [List.getLast?_concat, List.append_assoc, List.singleton_append, rotation_split hu]

end DoraOS.TaskLists
