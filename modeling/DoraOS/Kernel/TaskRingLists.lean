import DoraOS.Kernel.TaskRingRun
import DoraOS.Kernel.ListWalk
import DoraOS.Kernel.Task

/-! The rings of `src/list.c` are the sequences of `TaskLists`. Every function of the
task lists does to the pointers what the function of the same name does to the
sequences, so that what the kernel does to its lists can be said of the sequences. -/
namespace DoraOS

open Links Transition

/-- The items of the task control blocks: the `status_item` and the `pend_item` of each
task. -/
structure TcbItem where
  kind : ItemKind
  task : TaskId
  deriving DecidableEq

namespace TaskRings

def task {ι α : Type} (m : TaskRings ι α) (p : ItemRef ι α) : Nat := (m.node p).dosTask

section Task

variable {ι α : Type} [DecidableEq ι] [DecidableEq α] {m : TaskRings ι α} {l : ι}
  {p q x : ItemRef ι α}

theorem task_setNext : (m.setNext p q).task x = m.task x :=
  field_setNode m p x ItemNode.dosTask rfl

theorem task_setPrev : (m.setPrev p q).task x = m.task x :=
  field_setNode m p x ItemNode.dosTask rfl

theorem task_setOwner {o : Option ι} : (m.setOwner p o).task x = m.task x :=
  field_setNode m p x ItemNode.dosTask rfl

theorem task_link : (m.link l p q).task x = m.task x := by
  have hCount (m : TaskRings ι α) (n : BitVec 32) : (m.setCount l n).task x = m.task x := rfl
  simp only [link, hCount, task_setOwner, task_setNext, task_setPrev]

theorem task_unlink : (m.unlink l p).task x = m.task x := by
  have hCount (m : TaskRings ι α) (n : BitVec 32) : (m.setCount l n).task x = m.task x := rfl
  have hCursor (m : TaskRings ι α) (p : ItemRef ι α) : (m.setCursor l p).task x = m.task x := rfl
  unfold unlink
  dsimp only
  split
  · simp only [hCount, hCursor, task_setOwner, task_setNext, task_setPrev]
  · simp only [hCount, task_setOwner, task_setNext, task_setPrev]

theorem task_assign {value : BitVec 32} {task : Nat} :
    (m.assign p value task).task x = if x = p then task else m.task x := by
  simp only [TaskRings.task, assign, setNode]
  split <;> rfl

end Task

/-- The node that a cursor of `TaskLists` stands for. -/
def cursorRef (l : ListId) : Option TaskId → ItemRef ListId TcbItem
  | none => .endItem l
  | some t => .item ⟨l.kind, t⟩

def tcbItems (ls : TaskLists) (l : ListId) : List TcbItem := (ls.items l).map (TcbItem.mk l.kind)

/-- The pointers hold these sequences, and the items have their values and owners. An
item in a list leads to its task. -/
structure Holds (m : TaskRings ListId TcbItem) (ls : TaskLists) : Prop where
  shows : m.Shows (tcbItems ls)
  value : ∀ c t, (m.value (.item ⟨c, t⟩)).toNat = ls.value c t
  owner : ∀ c t, m.owner (.item ⟨c, t⟩) = ls.owner c t
  task : ∀ l, ∀ t ∈ ls.items l, m.task (.item ⟨l.kind, t⟩) = t
  cursor : ∀ l, m.taskItem l = cursorRef l (ls.cursor l)

variable {m m' : TaskRings ListId TcbItem} {ls : TaskLists} {l l' : ListId} {c : ItemKind}
  {t : TaskId} {xs before behind : List TaskId}

theorem mk_mem_tcbItems : ⟨c, t⟩ ∈ tcbItems ls l ↔ l.kind = c ∧ t ∈ ls.items l := by
  simp only [tcbItems, List.mem_map, TcbItem.mk.injEq]
  constructor
  · rintro ⟨_, hMem, hKind, rfl⟩
    exact ⟨hKind, hMem⟩
  · rintro ⟨hKind, hMem⟩
    exact ⟨t, hMem, hKind, rfl⟩

theorem item_eq_item {c' : ItemKind} {x : TaskId} :
    (ItemRef.item ⟨c', x⟩ : ItemRef ListId TcbItem) = .item ⟨c, t⟩ ↔ c' = c ∧ x = t := by
  rw [ItemRef.item.injEq, TcbItem.mk.injEq]

theorem cursorRef_eq_item {o : Option TaskId} : cursorRef l o = .item ⟨l.kind, t⟩ ↔ o = some t := by
  cases o <;> simp [cursorRef]

theorem cursorRef_eq_endItem {o : Option TaskId} : cursorRef l o = .endItem l ↔ o = none := by
  cases o <;> simp [cursorRef]

/-- The first node behind the head, and the last node in front of a place. -/
theorem cursorRef_head (l : ListId) (xs : List TaskId) : cursorRef l xs.head? =
    ((xs.map (TcbItem.mk l.kind)).map ItemRef.item ++ [ItemRef.endItem l]).head (by simp) := by
  cases xs <;> rfl

/-- The last node of a ring is that of its last task, or the end item. -/
theorem cursorRef_getLast (l : ListId) (xs : List TaskId) :
    ∃ first, ItemRef.endItem l :: (xs.map (TcbItem.mk l.kind)).map .item =
      first ++ [cursorRef l xs.getLast?] := by
  rcases List.eq_nil_or_concat' xs with rfl | ⟨first, t, rfl⟩
  · exact ⟨[], rfl⟩
  · refine ⟨.endItem l :: (first.map (TcbItem.mk l.kind)).map .item, ?_⟩
    simp [cursorRef]

namespace Holds

section Walk

variable (h : m.Holds ls)

include h

theorem kind (hOwner : ls.owner c t = some l) : l.kind = c ∧ t ∈ ls.items l :=
  mk_mem_tcbItems.mp ((h.shows.owner ⟨c, t⟩ l).mp ((h.owner c t).trans hOwner))

theorem nodup (l : ListId) : (ls.items l).Nodup := List.Nodup.of_map _ (h.shows.nodup l)

theorem cursor_mem (hCursor : ls.cursor l = some t) : t ∈ ls.items l := by
  have hMem := h.shows.cursor l
  rw [h.cursor, hCursor] at hMem
  exact (mk_mem_tcbItems.mp (item_mem_members.mp hMem)).2

/-- A cursor on an item leads to its task. -/
theorem task_of_cursor (hCursor : ls.cursor l = some t) : m.task (m.taskItem l) = t := by
  rw [h.cursor, hCursor]
  exact h.task l t (h.cursor_mem hCursor)

/-- The ring cut at an item. -/
theorem ring_middle (hSplit : ls.items l = before ++ t :: behind) :
    Ring m.next m.prev (.endItem l) ((before.map (TcbItem.mk l.kind)).map .item ++
      .item ⟨l.kind, t⟩ :: (behind.map (TcbItem.mk l.kind)).map .item) := by
  have hRing := h.shows.ring l
  rwa [tcbItems, hSplit, List.map_append, List.map_cons, List.map_append, List.map_cons] at hRing

/-- The end item points to the first task. -/
theorem next_endItem (l : ListId) : m.next (.endItem l) = cursorRef l (ls.items l).head? := by
  rw [cursorRef_head]
  exact (h.shows.ring l).linked.head

/-- The pointer to the next item. -/
theorem next_eq {o : Option TaskId} (hMem : ∀ t, o = some t → t ∈ ls.items l) :
    m.next (cursorRef l o) = cursorRef l (TaskLists.nextItem (ls.items l) o) := by
  cases o with
  | none => exact h.next_endItem l
  | some t =>
      obtain ⟨before, behind, hSplit, hBefore⟩ := List.eq_append_cons_of_mem (hMem t rfl)
      rw [hSplit, TaskLists.nextItem_split hBefore, cursorRef_head]
      exact (h.ring_middle hSplit).next_middle

/-- The pointer to the item in front. -/
theorem prev_eq (hMem : t ∈ ls.items l) :
    m.prev (.item ⟨l.kind, t⟩) = cursorRef l (TaskLists.prevItem (ls.items l) t) := by
  obtain ⟨before, behind, hSplit, hBefore⟩ := List.eq_append_cons_of_mem hMem
  obtain ⟨first, hItem⟩ := cursorRef_getLast l before
  rw [hSplit, TaskLists.prevItem, TaskLists.takeWhile_split hBefore]
  exact (h.ring_middle hSplit).prev_middle hItem

/-- A list has fewer items than the count can hold. -/
theorem dosGetTaskListValue (hLength : (ls.items l).length < 2 ^ 32) :
    (m.dosGetTaskListValue l).toNat = ls.dosGetTaskListValue l := by
  rw [TaskRings.dosGetTaskListValue, h.shows.count, BitVec.toNat_ofNat, tcbItems, List.length_map,
    Nat.mod_eq_of_lt hLength, TaskLists.dosGetTaskListValue]

theorem dosTaskListIsEmpty (hLength : (ls.items l).length < 2 ^ 32) :
    m.dosTaskListIsEmpty l = ls.dosTaskListIsEmpty l := by
  have hCount : m.taskItemValue l = 0 ↔ ls.items l = [] := by
    rw [← BitVec.toNat_inj, ← List.length_eq_zero_iff]
    exact (h.dosGetTaskListValue hLength).congr_left
  rw [TaskRings.dosTaskListIsEmpty, TaskLists.dosTaskListIsEmpty, Bool.eq_iff_iff,
    decide_eq_true_iff, List.isEmpty_iff, hCount]

end Walk

/-- The new sequence of an insertion. -/
theorem inserted_eq (h : m.Holds ls) (l : ListId) (t : TaskId) :
    inserted (fun y => m.value (.item y)) ⟨l.kind, t⟩ (tcbItems ls l) =
      tcbItems (ls.dosTaskItemInsert l t) l := by
  have hMax : m.value (.item ⟨l.kind, t⟩) = 0xFFFFFFFF ↔ ls.value l.kind t = 0xFFFFFFFF := by
    rw [← h.value, ← BitVec.toNat_inj]
    rfl
  have hKey : (fun y : TcbItem => (m.value (.item y)).toNat) ∘ TcbItem.mk l.kind = ls.value l.kind :=
    funext (h.value l.kind)
  rw [inserted, tcbItems, tcbItems, TaskLists.insert_items, if_pos rfl]
  simp only [hMax]
  split
  · rw [List.map_append, List.map_singleton]
  · rw [KeyOrder.insert_map, hKey]

/-- `dos_task_item_insert` of an unlinked item. -/
theorem insert (h : m.Holds ls) (hFree : ls.owner l.kind t = none)
    (hTask : m.task (.item ⟨l.kind, t⟩) = t) :
    ∃ m', m'.Holds (ls.dosTaskItemInsert l t) ∧ ∀ fuel > (ls.items l).length,
      m.dosTaskItemInsert fuel l (.item ⟨l.kind, t⟩) = some m' := by
  obtain ⟨item, hShows, hRun⟩ := h.shows.insert ((h.owner l.kind t).trans hFree) l
  have hItems : tcbItems (ls.dosTaskItemInsert l t) = Function.update (tcbItems ls) l
      (inserted (fun y => m.value (.item y)) ⟨l.kind, t⟩ (tcbItems ls l)) := by
    rw [h.inserted_eq, Function.eq_update_iff]
    refine ⟨rfl, fun l' hl => ?_⟩
    rw [tcbItems, TaskLists.insert_items, if_neg hl, tcbItems]
  refine ⟨m.link l item (.item ⟨l.kind, t⟩), ⟨hItems ▸ hShows, ?_, ?_, ?_, ?_⟩, ?_⟩
  · intro c x
    rw [value_link, h.value, TaskLists.insert_value]
  · intro c x
    simp only [owner_link, TaskLists.insert_owner, item_eq_item, h.owner]
  · intro l' x hx
    rw [task_link]
    rcases (TaskLists.mem_insert_items l t l' x).mp hx with ⟨rfl, rfl⟩ | hOld
    · exact hTask
    · exact h.task l' x hOld
  · intro l'
    rw [TaskLists.insert_cursor]
    exact h.cursor l'
  · intro fuel hFuel
    exact hRun fuel (by rwa [tcbItems, List.length_map])

/-- `dos_task_item_del` of a linked item. -/
theorem del (h : m.Holds ls) (hOwner : ls.owner c t = some l) :
    (m.dosTaskItemDel (.item ⟨c, t⟩)).1.Holds (ls.dosTaskItemDel c t).1 ∧
      (m.dosTaskItemDel (.item ⟨c, t⟩)).2 =
        ((ls.dosTaskItemDel c t).2.map fun n => BitVec.ofNat 32 n) := by
  obtain ⟨rfl, hMem⟩ := h.kind hOwner
  have hOwner' : m.owner (.item ⟨l.kind, t⟩) = some l := (h.owner l.kind t).trans hOwner
  obtain ⟨hShows, hResult⟩ := h.shows.del hOwner'
  have hErase : (tcbItems ls l).erase ⟨l.kind, t⟩ = ((ls.items l).erase t).map (TcbItem.mk l.kind) :=
    (List.map_erase (fun _ _ h => (TcbItem.mk.inj h).2) (ls.items l)).symm
  have hItems : tcbItems (ls.dosTaskItemDel l.kind t).1 =
      Function.update (tcbItems ls) l ((tcbItems ls l).erase ⟨l.kind, t⟩) := by
    rw [hErase, Function.eq_update_iff]
    refine ⟨?_, fun l' hl => ?_⟩
    · rw [tcbItems, TaskLists.del_items, if_pos hOwner]
    · rw [tcbItems, TaskLists.del_items, hOwner, if_neg fun hSome => hl (Option.some.inj hSome).symm,
        tcbItems]
  have hDel : (m.dosTaskItemDel (.item ⟨l.kind, t⟩)).1 = m.unlink l (.item ⟨l.kind, t⟩) := by
    rw [dosTaskItemDel, hOwner']
  refine ⟨⟨hItems ▸ hShows, ?_, ?_, ?_, ?_⟩, ?_⟩
  · intro c x
    rw [hDel, value_unlink, h.value, TaskLists.del_value]
  · intro c x
    simp only [hDel, owner_unlink, TaskLists.del_owner, item_eq_item, h.owner]
  · intro l' x hx
    rw [hDel, task_unlink]
    rw [TaskLists.del_items] at hx
    split at hx
    · exact h.task l' x (List.mem_of_mem_erase hx)
    · exact h.task l' x hx
  · intro l'
    have hCursor : m.taskItem l = .item ⟨l.kind, t⟩ ↔ ls.cursor l = some t := by
      rw [h.cursor, cursorRef_eq_item]
    rw [hDel, taskItem_unlink, TaskLists.del_cursor, hOwner]
    by_cases hl : l' = l
    · subst hl
      simp only [hCursor, true_and]
      split
      · exact h.prev_eq hMem
      · exact h.cursor l'
    · rw [if_neg fun hBoth => hl hBoth.1,
        if_neg fun hBoth => hl (Option.some.inj hBoth.1).symm]
      exact h.cursor l'
  · rw [hResult, hErase, List.length_map, TaskLists.del_result hOwner, Option.map_some]

/-- The cursor goes to an item, or from the end item on to the first one. -/
theorem moveCursor (h : m.Holds ls) {o : Option TaskId} (hMem : ∀ t, o = some t → t ∈ ls.items l) :
    (m.moveCursor l (cursorRef l o)).Holds
      (ls.setList l
        { items := ls.items l, taskItem := if o = none then (ls.items l).head? else o }) := by
  have hIn : cursorRef l o ∈ members l (tcbItems ls l) := by
    cases o with
    | none => exact List.mem_cons_self
    | some t => exact item_mem_members.mpr (mk_mem_tcbItems.mpr ⟨rfl, hMem t rfl⟩)
  have hItems (o' : Option TaskId) :
      tcbItems (ls.setList l { items := ls.items l, taskItem := o' }) = tcbItems ls := by
    funext l'
    rw [tcbItems, TaskLists.setCursor_items, tcbItems]
  refine ⟨?_, ?_, ?_, ?_, ?_⟩
  · rw [hItems]
    exact h.shows.moveCursor hIn
  · intro c x
    rw [TaskRings.value, node_moveCursor]
    exact h.value c x
  · intro c x
    rw [TaskRings.owner, node_moveCursor]
    exact h.owner c x
  · intro l' x hx
    rw [TaskLists.setCursor_items] at hx
    rw [TaskRings.task, node_moveCursor]
    exact h.task l' x hx
  · intro l'
    rw [taskItem_moveCursor, TaskLists.setList_cursor, h.next_endItem]
    by_cases hl : l' = l
    · simp only [if_pos hl, cursorRef_eq_endItem]
      rw [hl]
      split <;> rfl
    · simp only [if_neg hl]
      exact h.cursor l'

/-- `dos_get_first_task`. The result is a task unless the list is empty. -/
theorem first (h : m.Holds ls) (l : ListId) :
    (m.dosGetFirstTask l).1.Holds (ls.dosGetFirstTask l).1 ∧
      ∀ t, (ls.dosGetFirstTask l).2 = some t → (m.dosGetFirstTask l).2 = t := by
  have hMove := h.moveCursor (l := l) (o := (ls.items l).head?) fun _ => List.mem_of_head?
  rw [ite_self, ← h.next_endItem] at hMove
  refine ⟨hMove, fun t hHead => hMove.task_of_cursor (l := l) ?_⟩
  rw [TaskLists.setList_cursor, if_pos rfl]
  exact hHead

/-- `dos_get_next_task`. -/
theorem next (h : m.Holds ls) (l : ListId) :
    (m.dosGetNextTask l).1.Holds (ls.dosGetNextTask l).1 ∧
      ∀ t, (ls.dosGetNextTask l).2 = some t → (m.dosGetNextTask l).2 = t := by
  have hMove := h.moveCursor (l := l) (o := TaskLists.nextItem (ls.items l) (ls.cursor l))
    fun _ => TaskLists.nextItem_mem
  rw [← h.next_eq fun _ => h.cursor_mem, ← h.cursor] at hMove
  refine ⟨hMove, fun t hNext => hMove.task_of_cursor (l := l) ?_⟩
  rw [TaskLists.setList_cursor, if_pos rfl]
  exact hNext

/-- The value and the task of an unlinked item are free to change. -/
theorem assign (h : m.Holds ls) (hFree : ls.owner c t = none) (value : BitVec 32) (task : Nat) :
    (m.assign (.item ⟨c, t⟩) value task).Holds
      (ls.setItem c t { dosTaskValue := value.toNat, dosTaskList := none }) := by
  refine ⟨h.shows.assign _ value task, ?_, ?_, ?_, h.cursor⟩
  · intro c' x
    simp only [value_assign, TaskLists.setItem_value, item_eq_item]
    split
    · rfl
    · exact h.value c' x
  · intro c' x
    rw [owner_assign, TaskLists.setItem_owner, h.owner]
    split
    · rename_i hx
      rw [hx.1, hx.2, hFree]
    · rfl
  · intro l x hx
    have hNe : ¬ (l.kind = c ∧ x = t) := by
      rintro ⟨rfl, rfl⟩
      have hOwner : m.owner (.item ⟨l.kind, x⟩) = some l :=
        (h.shows.owner ⟨l.kind, x⟩ l).mpr (mk_mem_tcbItems.mpr ⟨rfl, hx⟩)
      rw [h.owner, hFree] at hOwner
      exact Option.some_ne_none l hOwner.symm
    rw [task_assign, if_neg (mt item_eq_item.mp hNe)]
    exact h.task l x hx

end Holds

end TaskRings

def TaskLists.perform (ls : TaskLists) : TaskListEvent ListId TcbItem → TaskLists
  | .assign x value _ => ls.setItem x.kind x.task { dosTaskValue := value.toNat, dosTaskList := none }
  | .insert l x => ls.dosTaskItemInsert l x.task
  | .del x => (ls.dosTaskItemDel x.kind x.task).1
  | .first l => (ls.dosGetFirstTask l).1
  | .next l => (ls.dosGetNextTask l).1

namespace TaskRings

/-- What the kernel inserts: an item of the kind of the list, which leads to its task. -/
def Proper (m : TaskRings ListId TcbItem) : TaskListEvent ListId TcbItem → Prop
  | .insert l x => x.kind = l.kind ∧ m.task (.item x) = x.task
  | _ => True

variable {m m' : TaskRings ListId TcbItem} {ls : TaskLists} {fuel : Nat}
  {event : TaskListEvent ListId TcbItem} {events : List (TaskListEvent ListId TcbItem)}

/-- A step on the pointers is the event on the sequences. -/
theorem Holds.step (h : m.Holds ls) (hProper : m.Proper event)
    (hStep : m.step fuel event = some m') : m'.Holds (ls.perform event) := by
  rw [TaskRings.step, Option.ite_none_right_eq_some] at hStep
  obtain ⟨hReady, hStep⟩ := hStep
  cases event with
  | assign x value task =>
      cases hStep
      exact h.assign ((h.owner x.kind x.task).symm.trans hReady) value task
  | insert l x =>
      obtain ⟨kind, t⟩ := x
      obtain ⟨rfl, hTask⟩ : kind = l.kind ∧ m.task (.item ⟨kind, t⟩) = t := hProper
      obtain ⟨made, hMade, hReturn⟩ :=
        h.insert ((h.owner l.kind t).symm.trans hReady) hTask
      -- the loop of the step ended, so that more rounds give the same pointers
      have hMore := perform_mono (Nat.le_max_left fuel ((ls.items l).length + 1)) hStep
      have hSame : some made = some m' :=
        (hReturn _ (Nat.lt_of_succ_le (Nat.le_max_right ..))).symm.trans hMore
      exact Option.some.inj hSame ▸ hMade
  | del x =>
      cases hStep
      obtain ⟨l, hOwner⟩ := Option.ne_none_iff_exists'.mp hReady
      exact (h.del ((h.owner x.kind x.task).symm.trans hOwner)).1
  | first l =>
      cases hStep
      exact (h.first l).1
  | next l =>
      cases hStep
      exact (h.next l).1

/-- After any events the rings are the sequences that the same events make. -/
theorem Holds.run (h : m.Holds ls)
    (hRun : RunsIf (TaskRings.step fuel) TaskRings.Proper m events m') :
    m'.Holds (events.foldl TaskLists.perform ls) := by
  refine hRun.trace_invariant (fun events m => m.Holds (events.foldl TaskLists.perform ls)) h ?_
  intro past s event s' hPast hProper hStep
  rw [List.foldl_append]
  exact hPast.step hProper hStep

end TaskRings

end DoraOS
