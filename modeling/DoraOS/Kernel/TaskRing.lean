import DoraOS.Library.KeyOrder
import DoraOS.Library.Links
import Mathlib.Data.BitVec
import Mathlib.Logic.Function.Basic

/-! The links of the task lists. `src/list.c` keeps the items of a list in a ring
through the `task_end_item` of the list, with a cursor and a count in its head. The
functions here work on these pointers, for any number of lists and items. -/
namespace DoraOS

open Links

/-- A pointer to a `struct task_item`: the end item of a list or an item outside of
the list heads. -/
inductive ItemRef (ι α : Type) where
  | null
  | endItem (l : ι)
  | item (x : α)
  deriving DecidableEq

/-- `struct task_item`. The task is the address of its control block. -/
structure ItemNode (ι α : Type) where
  prev : ItemRef ι α
  next : ItemRef ι α
  dosTaskValue : BitVec 32
  dosTask : Nat
  dosTaskList : Option ι

/-- The items, and the fields `task_item` and `Task_ItemValue` of the lists. -/
@[ext] structure TaskRings (ι α : Type) where
  node : ItemRef ι α → ItemNode ι α
  taskItem : ι → ItemRef ι α
  taskItemValue : ι → BitVec 32

namespace TaskRings

variable {ι α : Type} [DecidableEq ι] [DecidableEq α]

section Functions

variable (m : TaskRings ι α)

def next (p : ItemRef ι α) : ItemRef ι α := (m.node p).next
def prev (p : ItemRef ι α) : ItemRef ι α := (m.node p).prev
def value (p : ItemRef ι α) : BitVec 32 := (m.node p).dosTaskValue
def owner (p : ItemRef ι α) : Option ι := (m.node p).dosTaskList

/-- Assignments to an item, to its fields, and to the fields of a list. -/
def setNode (p : ItemRef ι α) (x : ItemNode ι α) : TaskRings ι α :=
  { m with node := fun p' => if p' = p then x else m.node p' }
def setNext (p q : ItemRef ι α) : TaskRings ι α := m.setNode p { m.node p with next := q }
def setPrev (p q : ItemRef ι α) : TaskRings ι α := m.setNode p { m.node p with prev := q }
def setOwner (p : ItemRef ι α) (l : Option ι) : TaskRings ι α :=
  m.setNode p { m.node p with dosTaskList := l }
def assign (p : ItemRef ι α) (value : BitVec 32) (task : Nat) : TaskRings ι α :=
  m.setNode p { m.node p with dosTaskValue := value, dosTask := task }
def setCursor (l : ι) (p : ItemRef ι α) : TaskRings ι α :=
  { m with taskItem := fun l' => if l' = l then p else m.taskItem l' }
def setCount (l : ι) (n : BitVec 32) : TaskRings ι α :=
  { m with taskItemValue := fun l' => if l' = l then n else m.taskItemValue l' }

def dosTaskItemInit (p : ItemRef ι α) : TaskRings ι α :=
  m.setNode p { prev := p, next := p, dosTaskValue := 0, dosTask := 0, dosTaskList := none }

/-- `dos_task_list_init`. The task of the end item stays as it is. -/
def dosTaskListInit (l : ι) : TaskRings ι α :=
  let m := (m.setCursor l (.endItem l)).setCount l 0
  m.setNode (.endItem l)
    { m.node (.endItem l) with
      prev := .endItem l, next := .endItem l, dosTaskValue := 0xFFFFFFFF, dosTaskList := some l }

/-- The assignments of `dos_task_item_insert` behind its loop. -/
def link (l : ι) (item new : ItemRef ι α) : TaskRings ι α :=
  let m := m.setNext new (m.next item)
  let m := m.setPrev (m.next new) new
  let m := m.setPrev new item
  let m := m.setNext item new
  let m := m.setOwner new (some l)
  m.setCount l (m.taskItemValue l + 1)

/-- `dos_task_item_insert`. Its loop does not return with fewer rounds than it
needs. -/
def dosTaskItemInsert (fuel : Nat) (l : ι) (new : ItemRef ι α) : Option (TaskRings ι α) :=
  let value := m.value new
  let item :=
    if value = 0xFFFFFFFF then some (m.prev (.endItem l))
    else seek m.next (fun p => m.value p ≤ value) fuel (.endItem l)
  item.map fun item => m.link l item new

/-- The assignments of `dos_task_item_del` to a linked item. -/
def unlink (l : ι) (p : ItemRef ι α) : TaskRings ι α :=
  let m := m.setNext (m.prev p) (m.next p)
  let m := m.setPrev (m.next p) (m.prev p)
  let m := m.setOwner p none
  let m := if m.taskItem l = p then m.setCursor l (m.prev p) else m
  let m := m.setNext p p
  let m := m.setPrev p p
  m.setCount l (m.taskItemValue l - 1)

/-- `dos_task_item_del`. The result is read through a null pointer if the item is in
no list. -/
def dosTaskItemDel (p : ItemRef ι α) : TaskRings ι α × Option (BitVec 32) :=
  match m.owner p with
  | none => (m, none)
  | some l => (m.unlink l p, some ((m.unlink l p).taskItemValue l))

/-- The cursor goes to an item and on behind the end item. -/
def moveCursor (l : ι) (p : ItemRef ι α) : TaskRings ι α :=
  let m := m.setCursor l p
  if m.taskItem l = .endItem l then m.setCursor l (m.next (m.taskItem l)) else m

def dosGetFirstTask (l : ι) : TaskRings ι α × Nat :=
  let m := m.moveCursor l (m.next (.endItem l))
  (m, (m.node (m.taskItem l)).dosTask)

def dosGetNextTask (l : ι) : TaskRings ι α × Nat :=
  let m := m.moveCursor l (m.next (m.taskItem l))
  (m, (m.node (m.taskItem l)).dosTask)

def dosTaskListIsEmpty (l : ι) : Bool := m.taskItemValue l = 0

def dosGetTaskListValue (l : ι) : BitVec 32 := m.taskItemValue l

end Functions

section Assignments

variable (m : TaskRings ι α) (p q x : ItemRef ι α) (l : Option ι)

/-- A field that is assigned its own value. -/
theorem field_setNode {β : Type} (f : ItemNode ι α → β) {y : ItemNode ι α}
    (h : f y = f (m.node p)) : f ((m.setNode p y).node x) = f (m.node x) := by
  by_cases hEq : x = p
  · rw [setNode, hEq]
    exact (congrArg f (if_pos rfl)).trans h
  · simp only [setNode, if_neg hEq]

@[simp] theorem prev_setNext : (m.setNext p q).prev x = m.prev x :=
  field_setNode m p x ItemNode.prev rfl

@[simp] theorem value_setNext : (m.setNext p q).value x = m.value x :=
  field_setNode m p x ItemNode.dosTaskValue rfl

@[simp] theorem owner_setNext : (m.setNext p q).owner x = m.owner x :=
  field_setNode m p x ItemNode.dosTaskList rfl

@[simp] theorem next_setPrev : (m.setPrev p q).next x = m.next x :=
  field_setNode m p x ItemNode.next rfl

@[simp] theorem value_setPrev : (m.setPrev p q).value x = m.value x :=
  field_setNode m p x ItemNode.dosTaskValue rfl

@[simp] theorem owner_setPrev : (m.setPrev p q).owner x = m.owner x :=
  field_setNode m p x ItemNode.dosTaskList rfl

@[simp] theorem next_setOwner : (m.setOwner p l).next x = m.next x :=
  field_setNode m p x ItemNode.next rfl

@[simp] theorem prev_setOwner : (m.setOwner p l).prev x = m.prev x :=
  field_setNode m p x ItemNode.prev rfl

@[simp] theorem value_setOwner : (m.setOwner p l).value x = m.value x :=
  field_setNode m p x ItemNode.dosTaskValue rfl

variable (value : BitVec 32) (task : Nat)

@[simp] theorem next_assign : (m.assign p value task).next x = m.next x :=
  field_setNode m p x ItemNode.next rfl

@[simp] theorem prev_assign : (m.assign p value task).prev x = m.prev x :=
  field_setNode m p x ItemNode.prev rfl

@[simp] theorem owner_assign : (m.assign p value task).owner x = m.owner x :=
  field_setNode m p x ItemNode.dosTaskList rfl

theorem value_assign : (m.assign p value task).value x = if x = p then value else m.value x := by
  simp only [TaskRings.value, assign, setNode]
  split <;> rfl

theorem next_setNext : (m.setNext p q).next x = if x = p then q else m.next x := by
  simp only [next, setNext, setNode]
  split <;> rfl

theorem prev_setPrev : (m.setPrev p q).prev x = if x = p then q else m.prev x := by
  simp only [prev, setPrev, setNode]
  split <;> rfl

theorem owner_setOwner : (m.setOwner p l).owner x = if x = p then l else m.owner x := by
  simp only [owner, setOwner, setNode]
  split <;> rfl

end Assignments

section Heads

omit [DecidableEq α]

variable (m : TaskRings ι α) (p x : ItemRef ι α) (i : ι) (n : BitVec 32)

@[simp] theorem next_setCursor : (m.setCursor i p).next x = m.next x := rfl
@[simp] theorem prev_setCursor : (m.setCursor i p).prev x = m.prev x := rfl
@[simp] theorem value_setCursor : (m.setCursor i p).value x = m.value x := rfl
@[simp] theorem owner_setCursor : (m.setCursor i p).owner x = m.owner x := rfl
@[simp] theorem next_setCount : (m.setCount i n).next x = m.next x := rfl
@[simp] theorem prev_setCount : (m.setCount i n).prev x = m.prev x := rfl
@[simp] theorem value_setCount : (m.setCount i n).value x = m.value x := rfl
@[simp] theorem owner_setCount : (m.setCount i n).owner x = m.owner x := rfl

end Heads

section Links

variable {m : TaskRings ι α} {l l' : ι} {p item x : ItemRef ι α}

/-- The new item is between `item` and the one behind it. -/
theorem next_link : (m.link l item p).next x =
    if x = item then p else if x = p then m.next item else m.next x := by
  simp [link, next_setNext]

theorem prev_link : (m.link l item p).prev x =
    if x = p then item else if x = m.next item then p else m.prev x := by
  simp [link, prev_setPrev, next_setNext]

theorem value_link : (m.link l item p).value x = m.value x := by simp [link]

theorem owner_link : (m.link l item p).owner x = if x = p then some l else m.owner x := by
  simp [link, owner_setOwner]

theorem taskItemValue_link : (m.link l item p).taskItemValue l' =
    if l' = l then m.taskItemValue l + 1 else m.taskItemValue l' := rfl

theorem next_unlink : (m.unlink l p).next x =
    if x = p then p else if x = m.prev p then m.next p else m.next x := by
  unfold unlink
  dsimp only
  split <;> simp [next_setNext]

theorem prev_unlink : (m.unlink l p).prev x =
    if x = p then p else if x = m.next p then m.prev p else m.prev x := by
  unfold unlink
  dsimp only
  split <;> simp [prev_setPrev, next_setNext]

theorem value_unlink : (m.unlink l p).value x = m.value x := by
  unfold unlink
  dsimp only
  split <;> simp

theorem owner_unlink : (m.unlink l p).owner x = if x = p then none else m.owner x := by
  unfold unlink
  dsimp only
  split <;> simp [owner_setOwner]

/-- A cursor on the removed item falls back by one. -/
theorem taskItem_unlink : (m.unlink l p).taskItem l' =
    if l' = l ∧ m.taskItem l = p then m.prev p else m.taskItem l' := by
  unfold unlink
  dsimp only
  split
  · rename_i hTest
    have hCursor : m.taskItem l = p := hTest
    rw [prev_setOwner, prev_setPrev, prev_setNext, ite_self]
    simp only [hCursor, and_true]
    rfl
  · rename_i hTest
    have hCursor : ¬ m.taskItem l = p := hTest
    rw [if_neg fun h => hCursor h.2]
    rfl

theorem taskItemValue_unlink : (m.unlink l p).taskItemValue l' =
    if l' = l then m.taskItemValue l - 1 else m.taskItemValue l' := by
  unfold unlink
  dsimp only
  split <;> rfl

theorem node_moveCursor : (m.moveCursor l p).node = m.node := by
  rw [moveCursor]
  split <;> rfl

/-- A cursor that has reached the end item goes on to the first one. -/
theorem taskItem_moveCursor : (m.moveCursor l p).taskItem l' =
    if l' = l then if p = .endItem l then m.next (.endItem l) else p else m.taskItem l' := by
  have hSet (m : TaskRings ι α) (p : ItemRef ι α) :
      (m.setCursor l p).taskItem l' = if l' = l then p else m.taskItem l' := rfl
  have hCursor : (m.setCursor l p).taskItem l = p := if_pos rfl
  rw [moveCursor, hCursor]
  by_cases hEnd : p = .endItem l
  · rw [if_pos hEnd, if_pos hEnd, hSet, hSet, hEnd, next_setCursor]
    split <;> rfl
  · rw [if_neg hEnd, if_neg hEnd, hSet]

end Links

section Members

omit [DecidableEq ι] [DecidableEq α]

variable {l : ι} {p : ItemRef ι α} {x : α} {xs before behind : List α}

def members (l : ι) (xs : List α) : List (ItemRef ι α) := .endItem l :: xs.map .item

theorem item_mem_members : .item x ∈ members l xs ↔ x ∈ xs := by
  simp [members]

theorem mem_members_middle : p ∈ members l (before ++ x :: behind) ↔
    p = .item x ∨ p ∈ members l (before ++ behind) := by
  simp only [members, List.map_append, List.map_cons]
  rw [Ring.perm_middle.mem_iff, List.mem_cons]

theorem length_middle : (before ++ x :: behind).length = (before ++ behind).length + 1 :=
  List.perm_middle.length_eq

end Members

/-- The list of some items with a new one. Behind the items of the largest value there
is no search. -/
def inserted (value : α → BitVec 32) (x : α) (xs : List α) : List α :=
  if value x = 0xFFFFFFFF then xs ++ [x] else KeyOrder.insert (fun y => (value y).toNat) x xs

/-- The pointers hold these lists: closed rings of their items, whose back pointers
are right, with a count of 32 bits and a cursor inside of the ring. -/
structure Shows (m : TaskRings ι α) (items : ι → List α) : Prop where
  ring : ∀ l, Ring m.next m.prev (.endItem l) ((items l).map .item)
  owner : ∀ x l, m.owner (.item x) = some l ↔ x ∈ items l
  endOwner : ∀ l, m.owner (.endItem l) = some l
  endValue : ∀ l, m.value (.endItem l) = 0xFFFFFFFF
  count : ∀ l, m.taskItemValue l = BitVec.ofNat 32 (items l).length
  cursor : ∀ l, m.taskItem l ∈ members l (items l)

namespace Shows

variable {m : TaskRings ι α} {items : ι → List α} {l l' : ι} {p q item : ItemRef ι α} {x : α}
  {before behind : List α} {first : List (ItemRef ι α)}

section

omit [DecidableEq ι] [DecidableEq α]

/-- The back pointer of an item names the list it is in. -/
theorem owner_of_mem (h : m.Shows items) (hp : p ∈ members l (items l)) : m.owner p = some l := by
  rcases List.mem_cons.mp hp with rfl | hItem
  · exact h.endOwner l
  · obtain ⟨x, hx, rfl⟩ := List.mem_map.mp hItem
    exact (h.owner x l).mpr hx

/-- Two lists have no node in common. -/
theorem ne_of_ne (h : m.Shows items) (hp : p ∈ members l' (items l'))
    (hq : q ∈ members l (items l)) (hNe : l' ≠ l) : p ≠ q := by
  rintro rfl
  exact hNe (Option.some.inj ((h.owner_of_mem hp).symm.trans (h.owner_of_mem hq)))

theorem not_mem_of_free (h : m.Shows items) (hFree : m.owner (.item x) = none) (l : ι) :
    .item x ∉ members l (items l) := by
  intro hMem
  exact absurd (hFree.symm.trans (h.owner_of_mem hMem)) (Option.some_ne_none l).symm

theorem nodup (h : m.Shows items) (l : ι) : (items l).Nodup :=
  List.Nodup.of_map _ (List.nodup_cons.mp (h.ring l).nodup).2

end

omit [DecidableEq α] in
/-- One list gets other items, and the others stay as they are. -/
theorem replace (h : m.Shows items) {m' : TaskRings ι α} {xs : List α}
    (hRing : Ring m'.next m'.prev (.endItem l) (xs.map .item))
    (hOther : ∀ l' ≠ l, ∀ p ∈ members l' (items l'), m'.next p = m.next p ∧ m'.prev p = m.prev p)
    (hOwner : ∀ y, m'.owner (.item y) = some l ↔ y ∈ xs)
    (hOwners : ∀ y, ∀ l' ≠ l, m'.owner (.item y) = some l' ↔ m.owner (.item y) = some l')
    (hEnd : ∀ l', m'.owner (.endItem l') = m.owner (.endItem l') ∧
      m'.value (.endItem l') = m.value (.endItem l'))
    (hCount : m'.taskItemValue l = BitVec.ofNat 32 xs.length) (hCursor : m'.taskItem l ∈ members l xs)
    (hHeads : ∀ l' ≠ l, m'.taskItemValue l' = m.taskItemValue l' ∧ m'.taskItem l' = m.taskItem l') :
    m'.Shows (Function.update items l xs) := by
  refine ⟨fun l' => ?_, fun y l' => ?_, fun l' => (hEnd l').1.trans (h.endOwner l'),
    fun l' => (hEnd l').2.trans (h.endValue l'), fun l' => ?_, fun l' => ?_⟩
  all_goals by_cases hl : l' = l
  · subst hl
    rwa [Function.update_self]
  · rw [Function.update_of_ne hl]
    exact (h.ring l').congr (fun p hp => (hOther l' hl p hp).1) fun p hp => (hOther l' hl p hp).2
  · subst hl
    rw [Function.update_self, hOwner]
  · rw [Function.update_of_ne hl, hOwners y l' hl, h.owner]
  · subst hl
    rwa [Function.update_self]
  · rw [Function.update_of_ne hl, (hHeads l' hl).1, h.count]
  · subst hl
    rwa [Function.update_self]
  · rw [Function.update_of_ne hl, (hHeads l' hl).2]
    exact h.cursor l'

/-- An unlinked item comes in behind `item`. -/
theorem link (h : m.Shows items) (hFree : m.owner (.item x) = none)
    (hSplit : items l = before ++ behind) (hItem : members l before = first ++ [item]) :
    (m.link l item (.item x)).Shows (Function.update items l (before ++ x :: behind)) := by
  have hNew := h.not_mem_of_free hFree
  have hIn : item ∈ members l (items l) := by
    have hMem : item ∈ members l before := by simp [hItem]
    rw [hSplit, members, List.map_append]
    exact List.mem_append_left (behind.map .item) hMem
  have hNextIn : m.next item ∈ members l (items l) := (h.ring l).next_mem hIn
  refine h.replace ?_ ?_ ?_ ?_ ?_ ?_ ?_ fun l' hl => ⟨if_neg hl, rfl⟩
  · have hRing := h.ring l
    have hNot := hNew l
    rw [hSplit, List.map_append] at hRing
    rw [hSplit, members, List.map_append] at hNot
    rw [List.map_append, List.map_cons]
    refine hRing.insert hItem hNot ?_ ?_ ?_ ?_ ?_ ?_
    · rw [next_link, if_pos rfl]
    · rw [next_link, if_neg (ne_of_mem_of_not_mem hIn (hNew l)).symm, if_pos rfl]
    · rw [prev_link, if_pos rfl]
    · rw [prev_link, if_neg (ne_of_mem_of_not_mem hNextIn (hNew l)), if_pos rfl]
    · intro y hy hNe
      rw [next_link, if_neg hNe, if_neg (ne_of_mem_of_not_mem hy hNot)]
    · intro y hy hNe
      rw [prev_link, if_neg (ne_of_mem_of_not_mem hy hNot), if_neg hNe]
  · intro l' hl y hy
    have hNe := ne_of_mem_of_not_mem hy (hNew l')
    rw [next_link, if_neg (h.ne_of_ne hy hIn hl), if_neg hNe, prev_link, if_neg hNe,
      if_neg (h.ne_of_ne hy hNextIn hl)]
    exact ⟨rfl, rfl⟩
  · intro y
    rw [owner_link]
    by_cases hy : y = x
    · simp [hy]
    · rw [if_neg fun hEq => hy (ItemRef.item.inj hEq), h.owner, hSplit]
      simp [hy]
  · intro y l' hl
    rw [owner_link]
    split
    · rename_i hy
      simp [hy, hFree, Ne.symm hl]
    · rfl
  · intro l'
    rw [owner_link, if_neg (by simp), value_link]
    exact ⟨rfl, rfl⟩
  · rw [taskItemValue_link, if_pos rfl, h.count, hSplit, length_middle, BitVec.ofNat_add]
    rfl
  · rw [mem_members_middle, ← hSplit]
    exact .inr (h.cursor l)

/-- A linked item goes out. -/
theorem unlink (h : m.Shows items) (hSplit : items l = before ++ x :: behind) :
    (m.unlink l (.item x)).Shows (Function.update items l (before ++ behind)) := by
  have hRing := h.ring l
  rw [hSplit, List.map_append, List.map_cons] at hRing
  have hIn : .item x ∈ members l (items l) := by
    rw [hSplit]
    exact mem_members_middle.mpr (.inl rfl)
  have hPrevIn : m.prev (.item x) ∈ members l (items l) := ((h.ring l).next_prev hIn).1
  have hNextIn : m.next (.item x) ∈ members l (items l) := (h.ring l).next_mem hIn
  have hNot : .item x ∉ members l (before ++ behind) := by
    have hNodup := (List.nodup_cons.mp (Ring.perm_middle.nodup_iff.mp hRing.nodup)).1
    rwa [members, List.map_append]
  -- a node of the list that is not the item stays in it
  have hRest {q : ItemRef ι α} (hq : q ∈ members l (items l)) (hNe : q ≠ .item x) :
      q ∈ members l (before ++ behind) := by
    rw [hSplit] at hq
    exact (mem_members_middle.mp hq).resolve_left hNe
  refine h.replace ?_ ?_ ?_ ?_ ?_ ?_ ?_ fun l' hl => ⟨?_, ?_⟩
  · rw [members, List.map_append] at hNot
    rw [List.map_append]
    refine hRing.remove ?_ ?_ ?_ ?_
    · rw [next_unlink, if_neg hRing.prev_ne, if_pos rfl]
    · rw [prev_unlink, if_neg hRing.next_ne, if_pos rfl]
    · intro y hy hNe
      rw [next_unlink, if_neg (ne_of_mem_of_not_mem hy hNot), if_neg hNe]
    · intro y hy hNe
      rw [prev_unlink, if_neg (ne_of_mem_of_not_mem hy hNot), if_neg hNe]
  · intro l' hl y hy
    have hNe := h.ne_of_ne hy hIn hl
    rw [next_unlink, if_neg hNe, if_neg (h.ne_of_ne hy hPrevIn hl), prev_unlink, if_neg hNe,
      if_neg (h.ne_of_ne hy hNextIn hl)]
    exact ⟨rfl, rfl⟩
  · intro y
    rw [owner_unlink]
    by_cases hy : y = x
    · have hGone : x ∉ before ++ behind := fun hMem => hNot (item_mem_members.mpr hMem)
      simp [hy, hGone]
    · rw [if_neg fun hEq => hy (ItemRef.item.inj hEq), h.owner, hSplit]
      simp [hy]
  · intro y l' hl
    rw [owner_unlink]
    split
    · rename_i hy
      simp [hy, h.owner_of_mem hIn, Ne.symm hl]
    · rfl
  · intro l'
    rw [owner_unlink, if_neg (by simp), value_unlink]
    exact ⟨rfl, rfl⟩
  · rw [taskItemValue_unlink, if_pos rfl, h.count, hSplit, length_middle, BitVec.ofNat_add]
    exact BitVec.add_sub_cancel _ _
  · rw [taskItem_unlink]
    split
    · exact hRest hPrevIn hRing.prev_ne
    · rename_i hCursor
      exact hRest (h.cursor l) fun hEq => hCursor ⟨rfl, hEq⟩
  · rw [taskItemValue_unlink, if_neg hl]
  · rw [taskItem_unlink, if_neg fun hBoth => hl hBoth.1]

/-- `dos_task_item_insert` ends and puts an unlinked item in the order of the values.
The end item has the largest value, and it is not passed. -/
theorem insert (h : m.Shows items) (hFree : m.owner (.item x) = none) (l : ι) :
    ∃ item, (m.link l item (.item x)).Shows
        (Function.update items l (inserted (fun y => m.value (.item y)) x (items l))) ∧
      ∀ fuel > (items l).length,
        m.dosTaskItemInsert fuel l (.item x) = some (m.link l item (.item x)) := by
  unfold dosTaskItemInsert inserted
  by_cases hMax : m.value (.item x) = 0xFFFFFFFF
  · simp only [if_pos hMax]
    obtain ⟨first, hItem⟩ := (h.ring l).exists_last
    refine ⟨m.prev (.endItem l), ?_, fun fuel _ => rfl⟩
    exact h.link hFree (List.append_nil _).symm hItem
  · simp only [if_neg hMax]
    have hStop : decide (m.value (.endItem l) ≤ m.value (.item x)) = false := by
      apply decide_eq_false
      rw [h.endValue, BitVec.le_def]
      have hLt := (m.value (.item x)).isLt
      have hNe : (m.value (.item x)).toNat ≠ 0xFFFFFFFF := fun hEq => hMax (BitVec.eq_of_toNat_eq hEq)
      show ¬ 0xFFFFFFFF ≤ (m.value (.item x)).toNat
      omega
    have hSeek (fuel : Nat) (hFuel : fuel > (items l).length) :=
      (h.ring l).linked.seek (fun p => decide (m.value p ≤ m.value (.item x))) hStop
        (by rwa [List.length_map] : _ < fuel)
    rw [List.takeWhile_map] at hSeek
    refine ⟨_, ?_, fun fuel hFuel => by rw [hSeek fuel hFuel, Option.map_some]⟩
    rw [KeyOrder.insert_eq]
    exact h.link hFree List.takeWhile_append_dropWhile.symm (List.dropLast_append_getLast _).symm

/-- `dos_task_item_del` of a linked item. -/
theorem del (h : m.Shows items) (hOwner : m.owner (.item x) = some l) :
    (m.dosTaskItemDel (.item x)).1.Shows (Function.update items l ((items l).erase x)) ∧
      (m.dosTaskItemDel (.item x)).2 = some (BitVec.ofNat 32 ((items l).erase x).length) := by
  have hDel : m.dosTaskItemDel (.item x) =
      (m.unlink l (.item x), some ((m.unlink l (.item x)).taskItemValue l)) := by
    rw [dosTaskItemDel, hOwner]
  obtain ⟨before, behind, hSplit, hBefore⟩ :=
    List.eq_append_cons_of_mem ((h.owner x l).mp hOwner)
  have hErase : (items l).erase x = before ++ behind := by
    rw [hSplit, List.erase_append_right _ hBefore, List.erase_cons_head]
  have hShows := h.unlink hSplit
  rw [hDel, hErase]
  refine ⟨hShows, ?_⟩
  have hCount := hShows.count l
  rw [Function.update_self] at hCount
  rw [hCount]

/-- An item gets another value and another task. -/
theorem assign (h : m.Shows items) (x : α) (value : BitVec 32) (task : Nat) :
    (m.assign (.item x) value task).Shows items where
  ring l := (h.ring l).congr (fun _ _ => next_assign ..) fun _ _ => prev_assign ..
  owner y l := by rw [owner_assign, h.owner]
  endOwner l := by rw [owner_assign, h.endOwner]
  endValue l := by rw [value_assign, if_neg (by simp), h.endValue]
  count := h.count
  cursor := h.cursor

omit [DecidableEq α] in
/-- The cursor may go to any node of the ring. -/
theorem setCursor (h : m.Shows items) (hp : p ∈ members l (items l)) :
    (m.setCursor l p).Shows items := by
  refine ⟨h.ring, h.owner, h.endOwner, h.endValue, h.count, ?_⟩
  intro l'
  simp only [TaskRings.setCursor]
  split
  next hl => exact hl ▸ hp
  next => exact h.cursor l'

theorem moveCursor (h : m.Shows items) (hp : p ∈ members l (items l)) :
    (m.moveCursor l p).Shows items := by
  have hSet := h.setCursor hp
  unfold TaskRings.moveCursor
  dsimp only
  split
  · exact hSet.setCursor ((hSet.ring l).next_mem (hSet.cursor l))
  · exact hSet

theorem getFirst (h : m.Shows items) (l : ι) : (m.dosGetFirstTask l).1.Shows items :=
  h.moveCursor ((h.ring l).next_mem List.mem_cons_self)

theorem getNext (h : m.Shows items) (l : ι) : (m.dosGetNextTask l).1.Shows items :=
  h.moveCursor ((h.ring l).next_mem (h.cursor l))

end Shows

end TaskRings

end DoraOS
