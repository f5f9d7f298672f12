import DoraOS.Kernel.TaskRing
import DoraOS.Library.Runs
import DoraOS.Library.History

/-! Runs of the functions of `src/list.c` and of the two cursor functions of
`src/task.c` on any number of lists. -/
namespace DoraOS

open Links Transition

/-- What is done to the items and the lists. `assign` is a write to the value and
the task of an item by its owner. -/
inductive TaskListEvent (ι α : Type) where
  | assign (x : α) (value : BitVec 32) (task : Nat)
  | insert (l : ι) (x : α)
  | del (x : α)
  | first (l : ι)
  | next (l : ι)

def TaskListEvent.inserts {ι α : Type} [DecidableEq α] (x : α) : TaskListEvent ι α → Bool
  | .insert _ y => y = x
  | _ => false

namespace TaskRings

variable {ι α : Type} [DecidableEq ι] [DecidableEq α]

/-- An item is assigned and inserted while it is in no list, and deleted while it is
in one. -/
def Ready (m : TaskRings ι α) : TaskListEvent ι α → Prop
  | .assign x _ _ => m.owner (.item x) = none
  | .insert _ x => m.owner (.item x) = none
  | .del x => m.owner (.item x) ≠ none
  | .first _ => True
  | .next _ => True

instance (m : TaskRings ι α) : ∀ event, Decidable (m.Ready event)
  | .assign _ _ _ => inferInstanceAs (Decidable (_ = _))
  | .insert _ _ => inferInstanceAs (Decidable (_ = _))
  | .del _ => inferInstanceAs (Decidable (_ ≠ _))
  | .first _ => inferInstanceAs (Decidable True)
  | .next _ => inferInstanceAs (Decidable True)

/-- The effect of an event, if the loop of an insertion ends within `fuel` rounds. -/
def perform (fuel : Nat) (m : TaskRings ι α) : TaskListEvent ι α → Option (TaskRings ι α)
  | .assign x value task => some (m.assign (.item x) value task)
  | .insert l x => m.dosTaskItemInsert fuel l (.item x)
  | .del x => some (m.dosTaskItemDel (.item x)).1
  | .first l => some (m.dosGetFirstTask l).1
  | .next l => some (m.dosGetNextTask l).1

def step (fuel : Nat) (m : TaskRings ι α) (event : TaskListEvent ι α) : Option (TaskRings ι α) :=
  if m.Ready event then m.perform fuel event else none

/-- Every list is as `dos_task_list_init` leaves it, and no item is in a list. -/
structure Initial (m : TaskRings ι α) : Prop where
  list : ∀ l, m.dosTaskListInit l = m
  item : ∀ x, m.owner (.item x) = none

/-- The memory behind `dos_task_list_init` of all lists and `dos_task_item_init` of all
items. -/
def fresh : TaskRings ι α where
  node p :=
    { prev := p
      next := p
      dosTaskValue := match p with
        | .endItem _ => 0xFFFFFFFF
        | _ => 0
      dosTask := 0
      dosTaskList := match p with
        | .endItem l => some l
        | _ => none }
  taskItem l := .endItem l
  taskItemValue _ := 0

/-- Freshly initialised memory has empty lists. -/
theorem fresh_initial : (fresh : TaskRings ι α).Initial where
  list l := by
    refine TaskRings.ext (funext fun p => ite_eq_right_iff.mpr ?_)
      (funext fun l' => ite_eq_right_iff.mpr ?_) (funext fun l' => ite_eq_right_iff.mpr ?_)
    · rintro rfl
      rfl
    · rintro rfl
      rfl
    · rintro rfl
      rfl
  item _ := rfl

/-- The order of the items: by their values, and for equal values by the place of
their insertion among the events. -/
def Ordered (m : TaskRings ι α) (events : List (TaskListEvent ι α)) (xs : List α) : Prop :=
  KeyOrder.Queued (fun x => (m.value (.item x)).toNat)
    (fun x => History.lastPlace (TaskListEvent.inserts x) events) xs

variable {m m' : TaskRings ι α} {events : List (TaskListEvent ι α)} {event : TaskListEvent ι α}
  {items : ι → List α} {l : ι} {x : α} {xs : List α}

section Order

omit [DecidableEq ι]

/-- An event that inserts none of the items and leaves their values. -/
theorem Ordered.keep (h : m.Ordered events xs)
    (hValue : ∀ x ∈ xs, m'.value (.item x) = m.value (.item x))
    (hEvent : ∀ x ∈ xs, event.inserts x = false) : m'.Ordered (events ++ [event]) xs := by
  refine KeyOrder.Queued.congr h ?_ ?_
  · intro x hx
    rw [hValue x hx]
  · exact fun x hx => History.lastPlace_snoc_of_false (hEvent x hx) events

theorem inserts_of_ne {y : α} (h : y ≠ x) : TaskListEvent.inserts y (.insert l x) = false :=
  decide_eq_false h.symm

/-- The item that was inserted last goes behind the items with its value. -/
theorem Ordered.insert (h : m.Ordered events xs) (hNew : x ∉ xs)
    (hValue : ∀ p, m'.value p = m.value p) :
    m'.Ordered (events ++ [.insert l x]) (inserted (fun y => m.value (.item y)) x xs) := by
  have hOther (y : α) (hy : y ∈ xs) : TaskListEvent.inserts y (.insert l x) = false :=
    inserts_of_ne (ne_of_mem_of_not_mem hy hNew)
  have hOld : m'.Ordered (events ++ [.insert l x]) xs := h.keep (fun y _ => hValue _) hOther
  have hLast : ∀ y ∈ xs, History.lastPlace (TaskListEvent.inserts y) (events ++ [.insert l x]) <
      History.lastPlace (TaskListEvent.inserts x) (events ++ [.insert l x]) := by
    intro y hy
    have hSelf : TaskListEvent.inserts x (.insert l x) = true := decide_eq_true rfl
    have hLe := History.lastPlace_le (TaskListEvent.inserts y) events
    rw [History.lastPlace_snoc_of_false (hOther y hy), History.lastPlace_snoc hSelf]
    omega
  have hKey : (fun y => (m.value (.item y)).toNat) = fun y => (m'.value (.item y)).toNat := by
    funext y
    rw [hValue]
  unfold inserted
  split
  next hMax =>
    refine KeyOrder.Queued.append_max hOld hLast ?_
    intro y _
    rw [hValue (.item x), show m.value (.item x) = _ from hMax]
    exact Nat.le_of_lt_succ (m'.value (.item y)).isLt
  next =>
    rw [hKey]
    exact KeyOrder.Queued.insert hOld hLast

end Order

structure Sound (m : TaskRings ι α) (events : List (TaskListEvent ι α)) (items : ι → List α) :
    Prop where
  shows : m.Shows items
  order : ∀ l, m.Ordered events (items l)

theorem value_moveCursor (m : TaskRings ι α) (l : ι) (p q : ItemRef ι α) :
    (m.moveCursor l p).value q = m.value q := by
  unfold moveCursor
  dsimp only
  split <;> rfl

/-- More rounds do not change a result. -/
theorem perform_mono {fuel more : Nat} (hFuel : fuel ≤ more)
    (h : m.perform fuel event = some m') : m.perform more event = some m' := by
  cases event with
  | insert l x =>
      obtain ⟨item, hItem, hLink⟩ := Option.map_eq_some_iff.mp h
      refine Option.map_eq_some_iff.mpr ⟨item, ?_, hLink⟩
      by_cases hMax : m.value (.item x) = 0xFFFFFFFF
      · rw [if_pos hMax] at hItem ⊢
        exact hItem
      · rw [if_neg hMax] at hItem ⊢
        exact seek_mono hFuel hItem
  | _ => exact h

namespace Sound

theorem init (h : m.Initial) : m.Sound [] fun _ => [] := by
  have hField {β : Type} (f : TaskRings ι α → β) (l : ι) : f m = f (m.dosTaskListInit l) :=
    congrArg f (h.list l).symm
  have hNode (l : ι) : m.node (.endItem l) =
      { m.node (.endItem l) with
        prev := .endItem l, next := .endItem l, dosTaskValue := 0xFFFFFFFF,
        dosTaskList := some l } :=
    (hField (fun m => m.node (.endItem l)) l).trans (if_pos rfl)
  have hNext (l : ι) : m.next (.endItem l) = .endItem l := by rw [TaskRings.next, hNode]
  have hPrev (l : ι) : m.prev (.endItem l) = .endItem l := by rw [TaskRings.prev, hNode]
  refine ⟨⟨?_, ?_, ?_, ?_, ?_, ?_⟩, fun l => List.Pairwise.nil⟩
  · intro l
    refine ⟨List.isChain_cons_cons.mpr ⟨hNext l, List.isChain_singleton _⟩, ?_,
      List.nodup_singleton _⟩
    intro p hp
    rw [List.mem_singleton.mp hp, hNext, hPrev]
  · intro x l
    simp [h.item x]
  · intro l
    rw [owner, hNode]
  · intro l
    rw [value, hNode]
  · intro l
    exact (hField (fun m => m.taskItemValue l) l).trans (if_pos rfl)
  · intro l
    have hCursor : m.taskItem l = .endItem l :=
      (hField (fun m => m.taskItem l) l).trans (if_pos rfl)
    rw [hCursor]
    exact List.mem_cons_self

/-- Every call returns with enough rounds, and leaves the lists in order. -/
theorem perform (h : m.Sound events items) (hReady : m.Ready event) :
    ∃ m' items', m'.Sound (events ++ [event]) items' ∧
      ∃ n, ∀ fuel ≥ n, m.perform fuel event = some m' := by
  cases event with
  | assign x value task =>
      refine ⟨_, items, ⟨h.shows.assign x value task, fun l => ?_⟩, 0, fun _ _ => rfl⟩
      refine (h.order l).keep ?_ fun _ _ => rfl
      intro y hy
      rw [value_assign, if_neg]
      exact ne_of_mem_of_not_mem (item_mem_members.mpr hy) (h.shows.not_mem_of_free hReady l)
  | insert l x =>
      have hNew (l : ι) : x ∉ items l := fun hMem =>
        h.shows.not_mem_of_free hReady l (item_mem_members.mpr hMem)
      obtain ⟨item, hShows, hReturn⟩ := h.shows.insert hReady l
      refine ⟨_, _, ⟨hShows, ?_⟩, _, hReturn⟩
      intro l'
      by_cases hl : l' = l
      · rw [hl, Function.update_self]
        exact (h.order l).insert (hNew l) fun p => value_link
      · rw [Function.update_of_ne hl]
        exact (h.order l').keep (fun y _ => value_link) fun y hy =>
          inserts_of_ne (ne_of_mem_of_not_mem hy (hNew l'))
  | del x =>
      obtain ⟨l, hOwner⟩ := Option.ne_none_iff_exists'.mp hReady
      have hDel : (m.dosTaskItemDel (.item x)).1 = m.unlink l (.item x) := by
        rw [dosTaskItemDel, hOwner]
      refine ⟨_, _, ⟨(h.shows.del hOwner).1, ?_⟩, 0, fun _ _ => rfl⟩
      intro l'
      have hKeep : (m.dosTaskItemDel (.item x)).1.Ordered (events ++ [.del x]) (items l') :=
        (h.order l').keep (fun y _ => by rw [hDel, value_unlink]) fun _ _ => rfl
      by_cases hl : l' = l
      · rw [hl, Function.update_self]
        rw [hl] at hKeep
        exact List.Pairwise.sublist List.erase_sublist hKeep
      · rw [Function.update_of_ne hl]
        exact hKeep
  | first l =>
      refine ⟨_, items, ⟨h.shows.getFirst l, fun l' => ?_⟩, 0, fun _ _ => rfl⟩
      exact (h.order l').keep (fun y _ => value_moveCursor ..) fun _ _ => rfl
  | next l =>
      refine ⟨_, items, ⟨h.shows.getNext l, fun l' => ?_⟩, 0, fun _ _ => rfl⟩
      exact (h.order l').keep (fun y _ => value_moveCursor ..) fun _ _ => rfl

/-- One call or assignment keeps the lists in order. -/
theorem step {fuel : Nat} (h : m.Sound events items) (hStep : m.step fuel event = some m') :
    ∃ items', m'.Sound (events ++ [event]) items' := by
  rw [TaskRings.step, Option.ite_none_right_eq_some] at hStep
  obtain ⟨hReady, hPerform⟩ := hStep
  obtain ⟨m₁, items', hSound, n, hReturn⟩ := h.perform hReady
  have hSame := perform_mono (Nat.le_max_left fuel n) hPerform
  rw [hReturn _ (Nat.le_max_right fuel n), Option.some.injEq] at hSame
  exact ⟨items', hSame ▸ hSound⟩

end Sound

end TaskRings

abbrev ItemAddr := { a : BitVec 32 // a ≠ 0 }

/-- There are fewer addresses than the count has values. -/
theorem length_lt_of_nodup {xs : List ItemAddr} (h : xs.Nodup) : xs.length < 2 ^ 32 := by
  have hNodup : (xs.map fun x => x.1.toNat).Nodup :=
    h.map fun x y hEq => Subtype.ext (BitVec.eq_of_toNat_eq hEq)
  have hRange : ∀ a ∈ xs.map fun x => x.1.toNat, a ∈ List.range' 1 (2 ^ 32 - 1) := by
    intro a ha
    obtain ⟨x, -, rfl⟩ := List.mem_map.mp ha
    have hLt := x.1.isLt
    have hNe : x.1.toNat ≠ 0 := fun hZero => x.2 (BitVec.eq_of_toNat_eq hZero)
    rw [List.mem_range'_1]
    omega
  have hLength := (List.subperm_of_subset hNodup hRange).length_le
  rw [List.length_map, List.length_range'] at hLength
  omega

/-- The list `l` in the memory: a ring of the items `xs`, ordered by value and by
insertion, with its count, its back pointers and its cursor. -/
structure TaskRings.ListAt {ι : Type} [DecidableEq ι] (m : TaskRings ι ItemAddr)
    (events : List (TaskListEvent ι ItemAddr)) (l : ι) (xs : List ItemAddr) : Prop where
  ring : Ring m.next m.prev (.endItem l) (xs.map .item)
  order : m.Ordered events xs
  count : (m.taskItemValue l).toNat = xs.length
  owner : ∀ x, m.owner (.item x) = some l ↔ x ∈ xs
  cursor : m.taskItem l = .endItem l ∨ ∃ x ∈ xs, m.taskItem l = .item x

/-- Every list in every run from initialised lists, and every call that is made as it
should be ends. -/
theorem task_rings_linked {ι : Type} [DecidableEq ι] {start m : TaskRings ι ItemAddr}
    (hInit : start.Initial) {fuel : Nat} {events : List (TaskListEvent ι ItemAddr)}
    (hRun : Runs (TaskRings.step fuel) start events m) :
    (∀ l, ∃ xs, m.ListAt events l xs) ∧
      ∀ event, m.Ready event → ∃ n, ∀ fuel ≥ n, (m.step fuel event).isSome = true := by
  obtain ⟨items, hSound⟩ : ∃ items, m.Sound events items := by
    refine hRun.trace_invariant (fun events m => ∃ items, m.Sound events items)
      ⟨_, TaskRings.Sound.init hInit⟩ ?_
    rintro past s event s' ⟨items, hSound⟩ - hStep
    exact hSound.step hStep
  constructor
  · intro l
    refine ⟨items l, hSound.shows.ring l, hSound.order l, ?_, fun x => hSound.shows.owner x l, ?_⟩
    · rw [hSound.shows.count, BitVec.toNat_ofNat,
        Nat.mod_eq_of_lt (length_lt_of_nodup (hSound.shows.nodup l))]
    · rcases List.mem_cons.mp (hSound.shows.cursor l) with hEnd | hItem
      · exact .inl hEnd
      · obtain ⟨x, hx, hEq⟩ := List.mem_map.mp hItem
        exact .inr ⟨x, hx, hEq.symm⟩
  · intro event hReady
    obtain ⟨m', -, -, n, hReturn⟩ := hSound.perform hReady
    refine ⟨n, fun fuel hFuel => ?_⟩
    rw [TaskRings.step, if_pos hReady, hReturn fuel hFuel]
    rfl

/-- Three items, one of them of the largest value, of which the first one is deleted
while the cursor is on it. -/
theorem task_rings_linked_three :
    let a : ItemAddr := ⟨0x100, by decide⟩
    let b : ItemAddr := ⟨0x200, by decide⟩
    let c : ItemAddr := ⟨0x300, by decide⟩
    let events : List (TaskListEvent Unit ItemAddr) :=
      [.assign a 0xFFFFFFFF 1, .insert () a, .assign b 7 2, .insert () b, .assign c 7 3,
       .insert () c, .first (), .del b]
    ∃ m, Runs (TaskRings.step 3) TaskRings.fresh events m ∧ m.next (.endItem ()) = .item c ∧
      m.taskItem () = .endItem () ∧ ∀ l, ∃ xs, m.ListAt events l xs := by
  intro a b c events
  have hEnd : (exec (TaskRings.step 3) TaskRings.fresh events).map
      (fun m => (m.next (.endItem ()), m.taskItem ())) = some (.item c, .endItem ()) := by
    decide +kernel
  obtain ⟨m, hExec, hFacts⟩ := Option.map_eq_some_iff.mp hEnd
  rw [Prod.mk.injEq] at hFacts
  have hRun := runs_of_exec hExec
  exact ⟨m, hRun, hFacts.1, hFacts.2, (task_rings_linked TaskRings.fresh_initial hRun).1⟩

end DoraOS
