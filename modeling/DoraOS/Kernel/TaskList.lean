import DoraOS.Library.KeyOrder
import Mathlib.Data.List.TakeWhile
import Mathlib.Algebra.Group.Nat.Defs

/-! The task lists of `src/list.c`. Each task control block owns two list
items. Its `status_item` is only ever linked into a ready, sleep or recycle
list and its `pend_item` only into the pend list of an IPC object, so a list
is a sequence of tasks and the kind of the list tells which item is meant. -/
namespace DoraOS

/-- The address of a task control block. -/
abbrev TaskId := Nat

/-- `QUEUE_READ` and `QUEUE_WRITE`, the indices of a queue's paired fields. -/
inductive QueueOp where
  | read
  | write
  deriving DecidableEq, Repr

def QueueOp.other : QueueOp → QueueOp
  | .read => .write
  | .write => .read

/-- The pend lists embedded in IPC objects. -/
inductive PendId where
  | sem (s : Nat)
  | mutex (m : Nat)
  | queue (q : Nat) (op : QueueOp)
  | event (e : Nat)
  deriving DecidableEq, Repr

inductive ListId where
  | priority (p : Nat)
  | sleep1
  | sleep2
  | recycle
  | pend (id : PendId)
  deriving DecidableEq, Repr

inductive ItemKind where
  | status
  | pend
  deriving DecidableEq, Repr

def ListId.kind : ListId → ItemKind
  | .pend _ => .pend
  | _ => .status

/-- `struct task_item`. The links are represented by the position in the
sequence of the list that `dosTaskList` points to. -/
structure TaskItem where
  dosTaskValue : Nat
  dosTaskList : Option ListId
  deriving DecidableEq, Repr

/-- `struct dos_task_list`. The cursor `task_item` is `none` on the end item,
and `Task_ItemValue` is the length of the sequence. -/
structure TaskList where
  items : List TaskId
  taskItem : Option TaskId
  deriving DecidableEq, Repr

structure TaskLists where
  item : ItemKind → TaskId → TaskItem
  list : ListId → TaskList

namespace TaskLists

variable (ls : TaskLists)

def items (l : ListId) : List TaskId := (ls.list l).items

/-- The cursor of a list, `none` being its end item. -/
def cursor (l : ListId) : Option TaskId := (ls.list l).taskItem

def value (c : ItemKind) (t : TaskId) : Nat := (ls.item c t).dosTaskValue

def owner (c : ItemKind) (t : TaskId) : Option ListId := (ls.item c t).dosTaskList

def setItem (c : ItemKind) (t : TaskId) (item : TaskItem) : TaskLists :=
  { ls with item := fun c' t' => if c' = c ∧ t' = t then item else ls.item c' t' }

def setList (l : ListId) (list : TaskList) : TaskLists :=
  { ls with list := fun l' => if l' = l then list else ls.list l' }

@[simp] theorem setItem_owner (c c' : ItemKind) (t x : TaskId) (item : TaskItem) :
    (ls.setItem c t item).owner c' x =
      if c' = c ∧ x = t then item.dosTaskList else ls.owner c' x := by
  simp only [owner, setItem]
  split <;> rfl

@[simp] theorem setItem_value (c c' : ItemKind) (t x : TaskId) (item : TaskItem) :
    (ls.setItem c t item).value c' x =
      if c' = c ∧ x = t then item.dosTaskValue else ls.value c' x := by
  simp only [value, setItem]
  split <;> rfl

@[simp] theorem setItem_items (c : ItemKind) (t : TaskId) (item : TaskItem) (l : ListId) :
    (ls.setItem c t item).items l = ls.items l := rfl

@[simp] theorem setItem_cursor (c : ItemKind) (t : TaskId) (item : TaskItem) (l : ListId) :
    (ls.setItem c t item).cursor l = ls.cursor l := rfl

@[simp] theorem setList_owner (l : ListId) (list : TaskList) (c : ItemKind) (t : TaskId) :
    (ls.setList l list).owner c t = ls.owner c t := rfl

@[simp] theorem setList_value (l : ListId) (list : TaskList) (c : ItemKind) (t : TaskId) :
    (ls.setList l list).value c t = ls.value c t := rfl

@[simp] theorem setList_items (l l' : ListId) (list : TaskList) :
    (ls.setList l list).items l' = if l' = l then list.items else ls.items l' := by
  simp only [items, setList]
  split <;> rfl

@[simp] theorem setList_cursor (l l' : ListId) (list : TaskList) :
    (ls.setList l list).cursor l' = if l' = l then list.taskItem else ls.cursor l' := by
  simp only [cursor, setList]
  split <;> rfl

def dosTaskItemInit (c : ItemKind) (t : TaskId) : TaskLists :=
  ls.setItem c t { dosTaskValue := 0, dosTaskList := none }

def dosTaskListInit (l : ListId) : TaskLists :=
  ls.setList l { items := [], taskItem := none }

/-- `dos_task_item_insert` of the item of `t` that belongs on `l`. The search
loop stops in front of the first larger value; the value of the end item has
a path of its own that appends. -/
def dosTaskItemInsert (l : ListId) (t : TaskId) : TaskLists :=
  let value := ls.value l.kind t
  let items :=
    if value = 0xFFFFFFFF then ls.items l ++ [t]
    else KeyOrder.insert (ls.value l.kind) t (ls.items l)
  (ls.setList l { items := items, taskItem := ls.cursor l }).setItem l.kind t
    { dosTaskValue := value, dosTaskList := some l }

/-- The item physically before `t`, `none` being the end item. -/
def prevItem (items : List TaskId) (t : TaskId) : Option TaskId :=
  (items.takeWhile (· ≠ t)).getLast?

/-- `dos_task_item_del`. The result is the number of items left. An unlinked
item leaves everything as it is, and the final read then goes through a null
list pointer, which is the result `none`. -/
def dosTaskItemDel (c : ItemKind) (t : TaskId) : TaskLists × Option Nat :=
  match ls.owner c t with
  | none => (ls, none)
  | some l =>
      let items := (ls.items l).erase t
      let cursor := if ls.cursor l = some t then prevItem (ls.items l) t else ls.cursor l
      ((ls.setList l { items := items, taskItem := cursor }).setItem c t
        { dosTaskValue := ls.value c t, dosTaskList := none }, some items.length)

def dosTaskListIsEmpty (l : ListId) : Bool := (ls.items l).isEmpty

def dosGetTaskListValue (l : ListId) : Nat := (ls.items l).length

/-- `dos_get_first_task`. On an empty list the cursor stays on the end item,
whose owner is no task. -/
def dosGetFirstTask (l : ListId) : TaskLists × Option TaskId :=
  (ls.setList l { items := ls.items l, taskItem := (ls.items l).head? }, (ls.items l).head?)

/-- The item behind the cursor, `none` being the end item. -/
def nextItem (items : List TaskId) : Option TaskId → Option TaskId
  | none => items.head?
  | some t => (items.dropWhile (· ≠ t)).tail.head?

/-- `dos_get_next_task`: advance the cursor by one item and skip the end item. -/
def dosGetNextTask (l : ListId) : TaskLists × Option TaskId :=
  let next := nextItem (ls.items l) (ls.cursor l)
  let next := if next = none then (ls.items l).head? else next
  (ls.setList l { items := ls.items l, taskItem := next }, next)

section Insert

variable {ls}

@[simp] theorem insert_owner (l : ListId) (t : TaskId) (c : ItemKind) (x : TaskId) :
    (ls.dosTaskItemInsert l t).owner c x =
      if c = l.kind ∧ x = t then some l else ls.owner c x := by
  simp [dosTaskItemInsert]

@[simp] theorem insert_value (l : ListId) (t : TaskId) (c : ItemKind) (x : TaskId) :
    (ls.dosTaskItemInsert l t).value c x = ls.value c x := by
  simp only [dosTaskItemInsert, setItem_value, setList_value]
  split
  · rename_i h
    rw [h.1, h.2]
  · rfl

@[simp] theorem insert_cursor (l l' : ListId) (t : TaskId) :
    (ls.dosTaskItemInsert l t).cursor l' = ls.cursor l' := by
  simp only [dosTaskItemInsert, setItem_cursor, setList_cursor]
  split
  · rename_i h
    rw [h]
  · rfl

/-- A list is sorted by the values of its items, and the largest value goes last. -/
theorem insert_items (l l' : ListId) (t : TaskId) :
    (ls.dosTaskItemInsert l t).items l' =
      if l' = l then
        if ls.value l.kind t = 0xFFFFFFFF then ls.items l ++ [t]
        else KeyOrder.insert (ls.value l.kind) t (ls.items l)
      else ls.items l' := by
  simp [dosTaskItemInsert]

@[simp] theorem mem_insert_items (l : ListId) (t : TaskId) (l' : ListId) (x : TaskId) :
    x ∈ (ls.dosTaskItemInsert l t).items l' ↔ (l' = l ∧ x = t) ∨ x ∈ ls.items l' := by
  rw [insert_items]
  by_cases hl : l' = l
  · subst hl
    by_cases hv : ls.value l'.kind t = 0xFFFFFFFF
    · simp [hv, or_comm]
    · simp [hv]
  · simp [hl]

end Insert

section Delete

variable {ls}

/-- An unlinked item leaves the lists as they are. -/
theorem del_unlinked {c : ItemKind} {t : TaskId} (h : ls.owner c t = none) :
    ls.dosTaskItemDel c t = (ls, none) := by
  simp [dosTaskItemDel, h]

/-- The result of a removal is the number of items left. -/
theorem del_result {c : ItemKind} {t : TaskId} {l : ListId} (h : ls.owner c t = some l) :
    (ls.dosTaskItemDel c t).2 = some ((ls.items l).erase t).length := by
  simp [dosTaskItemDel, h]

@[simp] theorem del_owner (c : ItemKind) (t : TaskId) (c' : ItemKind) (x : TaskId) :
    (ls.dosTaskItemDel c t).1.owner c' x = if c' = c ∧ x = t then none else ls.owner c' x := by
  cases hOwner : ls.owner c t with
  | none =>
      rw [del_unlinked hOwner]
      split
      · rename_i h
        rw [h.1, h.2, hOwner]
      · rfl
  | some l => simp [dosTaskItemDel, hOwner]

@[simp] theorem del_value (c : ItemKind) (t : TaskId) (c' : ItemKind) (x : TaskId) :
    (ls.dosTaskItemDel c t).1.value c' x = ls.value c' x := by
  cases hOwner : ls.owner c t with
  | none => rw [del_unlinked hOwner]
  | some l =>
      simp only [dosTaskItemDel, hOwner, setItem_value, setList_value]
      split
      · rename_i h
        rw [h.1, h.2]
      · rfl

/-- The task leaves the list its item was in. -/
theorem del_items (c : ItemKind) (t : TaskId) (l : ListId) :
    (ls.dosTaskItemDel c t).1.items l =
      if ls.owner c t = some l then (ls.items l).erase t else ls.items l := by
  cases hOwner : ls.owner c t with
  | none => simp [del_unlinked hOwner]
  | some l' =>
      by_cases h : l = l'
      · subst h
        simp [dosTaskItemDel, hOwner]
      · simp [dosTaskItemDel, hOwner, h, Ne.symm h]

/-- A cursor on the removed item falls back by one. -/
theorem del_cursor (c : ItemKind) (t : TaskId) (l : ListId) :
    (ls.dosTaskItemDel c t).1.cursor l =
      if ls.owner c t = some l ∧ ls.cursor l = some t then prevItem (ls.items l) t
      else ls.cursor l := by
  cases hOwner : ls.owner c t with
  | none => simp [del_unlinked hOwner]
  | some l' =>
      by_cases h : l = l'
      · subst h
        simp [dosTaskItemDel, hOwner]
      · simp [dosTaskItemDel, hOwner, h, Ne.symm h]

/-- The predecessor of a linked item is another member. -/
theorem prevItem_mem {items : List TaskId} {t x : TaskId} (h : prevItem items t = some x) :
    x ∈ items ∧ x ≠ t := by
  have hMem : x ∈ items.takeWhile (· ≠ t) := List.mem_of_getLast? h
  have hNe := List.mem_takeWhile_imp hMem
  exact ⟨(List.takeWhile_sublist _).mem hMem, by simpa using hNe⟩

end Delete

/-- The representation invariant of the lists: back pointers and sequences
agree, nothing is linked twice, every sequence is in order of its values and
every cursor is on a member or on the end item. -/
structure Linked (ls : TaskLists) : Prop where
  nodup : ∀ l, (ls.items l).Nodup
  mem_iff : ∀ l t, t ∈ ls.items l ↔ ls.owner l.kind t = some l
  kind : ∀ c t l, ls.owner c t = some l → l.kind = c
  value_lt : ∀ c t, ls.value c t < 2 ^ 32
  sorted : ∀ l, KeyOrder.Sorted (ls.value l.kind) (ls.items l)
  cursor : ∀ l t, ls.cursor l = some t → t ∈ ls.items l

namespace Linked

variable {ls}

theorem not_mem (h : ls.Linked) {l : ListId} {t : TaskId}
    (hOwner : ls.owner l.kind t ≠ some l) : t ∉ ls.items l :=
  fun hMem => hOwner ((h.mem_iff l t).mp hMem)

/-- Linking an unlinked item keeps the invariant. -/
theorem insert (h : ls.Linked) (l : ListId) (t : TaskId) (hFree : ls.owner l.kind t = none) :
    (ls.dosTaskItemInsert l t).Linked := by
  have hNew : t ∉ ls.items l := h.not_mem (by simp [hFree])
  have hKey : ∀ c, (ls.dosTaskItemInsert l t).value c = ls.value c :=
    fun c => funext fun x => insert_value l t c x
  refine ⟨?_, ?_, ?_, ?_, ?_, ?_⟩
  · intro l'
    rw [insert_items]
    split_ifs with hl hv
    · simpa using (h.nodup l).concat hNew
    · exact KeyOrder.insert_nodup (h.nodup l) hNew
    · exact h.nodup l'
  · intro l' x
    rw [mem_insert_items, h.mem_iff, insert_owner]
    by_cases hx : l'.kind = l.kind ∧ x = t
    · obtain ⟨hk, rfl⟩ := hx
      simp [hk, hFree, eq_comm]
    · have hNot : ¬(l' = l ∧ x = t) := fun he => hx ⟨by rw [he.1], he.2⟩
      simp [hx, hNot]
  · intro c x l' hOwner
    rw [insert_owner] at hOwner
    split at hOwner
    · rename_i hx
      rw [← Option.some.inj hOwner, hx.1]
    · exact h.kind c x l' hOwner
  · intro c x
    rw [insert_value]
    exact h.value_lt c x
  · intro l'
    rw [hKey, insert_items]
    split_ifs with hl hv
    · subst hl
      refine (h.sorted l').append_max ?_
      intro b _
      have hb := h.value_lt l'.kind b
      omega
    · subst hl
      exact (h.sorted l').insert
    · exact h.sorted l'
  · intro l' x hCursor
    rw [insert_cursor] at hCursor
    exact (mem_insert_items l t l' x).mpr (Or.inr (h.cursor l' x hCursor))

/-- Unlinking an item keeps the invariant, whether or not it was linked. -/
theorem del (h : ls.Linked) (c : ItemKind) (t : TaskId) : (ls.dosTaskItemDel c t).1.Linked := by
  have hKey : ∀ c', (ls.dosTaskItemDel c t).1.value c' = ls.value c' :=
    fun c' => funext fun x => del_value c t c' x
  refine ⟨?_, ?_, ?_, ?_, ?_, ?_⟩
  · intro l
    rw [del_items]
    split
    · exact (h.nodup l).erase t
    · exact h.nodup l
  · intro l x
    rw [del_items, del_owner]
    by_cases hOwner : ls.owner c t = some l
    · have hk := h.kind c t l hOwner
      rw [if_pos hOwner, (h.nodup l).mem_erase_iff, h.mem_iff, hk]
      by_cases hx : x = t <;> simp [hx]
    · rw [if_neg hOwner, h.mem_iff]
      split
      · rename_i hx
        rw [hx.1, hx.2]
        simp [hOwner]
      · rfl
  · intro c' x l hOwner
    rw [del_owner] at hOwner
    split at hOwner
    · cases hOwner
    · exact h.kind c' x l hOwner
  · intro c' x
    rw [del_value]
    exact h.value_lt c' x
  · intro l
    rw [hKey, del_items]
    split
    · exact (h.sorted l).erase t
    · exact h.sorted l
  · intro l x hCursor
    rw [del_cursor] at hCursor
    rw [del_items]
    split at hCursor
    · rename_i hc
      obtain ⟨hMem, hNe⟩ := prevItem_mem hCursor
      rw [if_pos hc.1]
      exact (List.mem_erase_of_ne hNe).mpr hMem
    · rename_i hc
      have hMem := h.cursor l x hCursor
      split
      · rename_i hOwner
        have hNe : x ≠ t := fun he => hc ⟨hOwner, by rw [hCursor, he]⟩
        exact (List.mem_erase_of_ne hNe).mpr hMem
      · exact hMem

/-- The value of an unlinked item is free to change. -/
theorem setValue (h : ls.Linked) (c : ItemKind) (t : TaskId) (v : Nat) (hFree : ls.owner c t = none)
    (hv : v < 2 ^ 32) :
    (ls.setItem c t { dosTaskValue := v, dosTaskList := none }).Linked := by
  have hOwner : ∀ c' x, (ls.setItem c t { dosTaskValue := v, dosTaskList := none }).owner c' x =
      ls.owner c' x := by
    intro c' x
    rw [setItem_owner]
    split
    · rename_i hx
      rw [hx.1, hx.2, hFree]
    · rfl
  refine ⟨h.nodup, ?_, ?_, ?_, ?_, h.cursor⟩
  · intro l x
    rw [hOwner]
    exact h.mem_iff l x
  · intro c' x l hx
    rw [hOwner] at hx
    exact h.kind c' x l hx
  · intro c' x
    rw [setItem_value]
    split
    · exact hv
    · exact h.value_lt c' x
  · intro l
    refine (h.sorted l).congr ?_
    intro x hx
    have hNe : ¬(l.kind = c ∧ x = t) := by
      rintro ⟨rfl, rfl⟩
      rw [h.mem_iff, hFree] at hx
      cases hx
    rw [setItem_value, if_neg hNe]

/-- Moving a cursor to a member or to the end item keeps the invariant. -/
theorem setCursor (h : ls.Linked) (l : ListId) (c : Option TaskId)
    (hc : ∀ t, c = some t → t ∈ ls.items l) :
    (ls.setList l { items := ls.items l, taskItem := c }).Linked := by
  have hItems : ∀ l', (ls.setList l { items := ls.items l, taskItem := c }).items l' =
      ls.items l' := by
    intro l'
    rw [setList_items]
    split
    · rename_i hl
      rw [hl]
    · rfl
  refine ⟨?_, ?_, h.kind, h.value_lt, ?_, ?_⟩
  · intro l'
    rw [hItems]
    exact h.nodup l'
  · intro l' x
    rw [hItems]
    exact h.mem_iff l' x
  · intro l'
    rw [hItems]
    exact h.sorted l'
  · intro l' x hCursor
    rw [hItems]
    rw [setList_cursor] at hCursor
    split at hCursor
    · rename_i hl
      rw [hl]
      exact hc x hCursor
    · exact h.cursor l' x hCursor

end Linked

section Cursor

variable {ls}

theorem setCursor_items (l l' : ListId) (c : Option TaskId) :
    (ls.setList l { items := ls.items l, taskItem := c }).items l' = ls.items l' := by
  rw [setList_items]
  split
  · rename_i hl
    rw [hl]
  · rfl

@[simp] theorem first_owner (l : ListId) (c : ItemKind) (t : TaskId) :
    (ls.dosGetFirstTask l).1.owner c t = ls.owner c t := rfl

@[simp] theorem first_value (l : ListId) (c : ItemKind) (t : TaskId) :
    (ls.dosGetFirstTask l).1.value c t = ls.value c t := rfl

@[simp] theorem first_items (l l' : ListId) : (ls.dosGetFirstTask l).1.items l' = ls.items l' :=
  setCursor_items l l' _

@[simp] theorem first_result (l : ListId) : (ls.dosGetFirstTask l).2 = (ls.items l).head? := rfl

@[simp] theorem next_owner (l : ListId) (c : ItemKind) (t : TaskId) :
    (ls.dosGetNextTask l).1.owner c t = ls.owner c t := rfl

@[simp] theorem next_value (l : ListId) (c : ItemKind) (t : TaskId) :
    (ls.dosGetNextTask l).1.value c t = ls.value c t := rfl

@[simp] theorem next_items (l l' : ListId) : (ls.dosGetNextTask l).1.items l' = ls.items l' :=
  setCursor_items l l' _

theorem nextItem_mem {items : List TaskId} {c : Option TaskId} {x : TaskId}
    (h : nextItem items c = some x) : x ∈ items := by
  cases c with
  | none => exact List.mem_of_head? h
  | some t =>
      have hTail : x ∈ (items.dropWhile (· ≠ t)).tail := List.mem_of_head? h
      exact (List.dropWhile_sublist _).mem (List.mem_of_mem_tail hTail)

/-- The rotating cursor always lands on a member, never on the end item,
unless the list is empty. -/
theorem next_result_mem {l : ListId} {x : TaskId} (h : (ls.dosGetNextTask l).2 = some x) :
    x ∈ ls.items l := by
  simp only [dosGetNextTask] at h
  split at h
  · exact List.mem_of_head? h
  · exact nextItem_mem h

/-- On a list with tasks `dos_get_next_task` finds one. -/
theorem next_result_isSome {l : ListId} (h : ls.items l ≠ []) :
    ∃ x, (ls.dosGetNextTask l).2 = some x := by
  simp only [dosGetNextTask]
  split
  · exact ⟨(ls.items l).head h, List.head?_eq_some_head h⟩
  · rename_i hNext
    exact Option.ne_none_iff_exists'.mp hNext

theorem Linked.first (h : ls.Linked) (l : ListId) : (ls.dosGetFirstTask l).1.Linked :=
  h.setCursor l _ fun _ hHead => List.mem_of_head? hHead

theorem Linked.next (h : ls.Linked) (l : ListId) : (ls.dosGetNextTask l).1.Linked :=
  h.setCursor l _ fun _ hNext => next_result_mem hNext

end Cursor

end TaskLists

end DoraOS
