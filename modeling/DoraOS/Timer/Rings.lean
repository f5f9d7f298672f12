import DoraOS.Library.Links
import DoraOS.Timer.Swtmr

/-! The links of the software timers. `src/swtmr.c` keeps the running timers in
two rings of doubly linked structures; `Timers` has them as two lists. Here the
functions of the timer task work on the pointers. Blocks of memory that are not
an existing timer may hold and become anything. -/
namespace DoraOS

open Links Transition

inductive SwtmrRef where
  | null
  | list1
  | list2
  | timer (t : SwtmrId)
  deriving DecidableEq

/-- `struct dos_swtmr` without the parameter of the callback. `swtmrCallBacke`
tells whether there is a callback. The default values are those of `memset`. -/
structure SwtmrNode where
  swtmrPrev : SwtmrRef := .null
  swtmrNext : SwtmrRef := .null
  swtmrCallBacke : Bool := false
  swtmrStatus : SwtmrStatus := .unused
  swtmrMode : Nat := 0
  swtmrTimeout : Nat := 0
  swtmrWakeTime : Nat := 0
  deriving DecidableEq

/-- Where the timer task is in its loop, with its local `wake_swtmr`: in front of
`_dos_get_swtmr`, in `dos_queue_read`, or in front of the test of the expiry
loop. -/
inductive SwtmrStage where
  | top
  | read (wake : SwtmrRef)
  | expire (wake : SwtmrRef)
  deriving DecidableEq

/-- The timer structures, the two static pointers, and the timer task. `alloc`
marks the blocks of the existing timers. -/
structure SwtmrRings where
  node : SwtmrRef → SwtmrNode
  swtmrPtr : SwtmrRef
  swtmrOverflowPtr : SwtmrRef
  alloc : SwtmrId → Bool
  stage : SwtmrStage

namespace SwtmrRings

variable (m : SwtmrRings)

def next (p : SwtmrRef) : SwtmrRef := (m.node p).swtmrNext
def prev (p : SwtmrRef) : SwtmrRef := (m.node p).swtmrPrev
def wakeTime (p : SwtmrRef) : Nat := (m.node p).swtmrWakeTime

def setNode (p : SwtmrRef) (x : SwtmrNode) : SwtmrRings :=
  { m with node := fun p' => if p' = p then x else m.node p' }
def setNext (p q : SwtmrRef) : SwtmrRings := m.setNode p { m.node p with swtmrNext := q }
def setPrev (p q : SwtmrRef) : SwtmrRings := m.setNode p { m.node p with swtmrPrev := q }
def setStatus (p : SwtmrRef) (status : SwtmrStatus) : SwtmrRings :=
  m.setNode p { m.node p with swtmrStatus := status }
def setWakeTime (p : SwtmrRef) (wake : Nat) : SwtmrRings :=
  m.setNode p { m.node p with swtmrWakeTime := wake }

def dosGetSwtmr : SwtmrRef := m.next m.swtmrPtr

def dosSwtmrSwitchPtr : SwtmrRings :=
  { m with swtmrPtr := m.swtmrOverflowPtr, swtmrOverflowPtr := m.swtmrPtr }

/-- The loop of `_dos_swtmr_start` from a list head on. It does not return with
fewer rounds than it needs. -/
def seekItem (fuel wake : Nat) (item : SwtmrRef) : Option SwtmrRef :=
  seek m.next (fun p => m.wakeTime p ≤ wake) fuel item

/-- The assignments of `_dos_swtmr_start` behind the loops. -/
def link (item swtmr : SwtmrRef) : SwtmrRings :=
  let m := m.setNext swtmr (m.next item)
  let m := m.setPrev (m.next swtmr) swtmr
  let m := m.setPrev swtmr item
  let m := m.setNext item swtmr
  m.setStatus swtmr .running

/-- `_dos_swtmr_start` at the tick `curTime`. -/
def dosSwtmrStart (fuel curTime : Nat) (swtmr : SwtmrRef) : Option SwtmrRings :=
  let wake := (curTime + (m.node swtmr).swtmrTimeout) % 2 ^ 32
  let m := m.setWakeTime swtmr wake
  let item :=
    if wake < curTime then m.seekItem fuel wake m.swtmrOverflowPtr
    else if wake = 0xFFFFFFFF then some (m.prev m.swtmrPtr)
    else m.seekItem fuel wake m.swtmrPtr
  item.map fun item => m.link item swtmr

def dosSwtmrStop (swtmr : SwtmrRef) : SwtmrRings :=
  let m := if m.next m.swtmrPtr = swtmr then m.setNext m.swtmrPtr (m.next swtmr) else m
  let m := m.setNext (m.prev swtmr) (m.next swtmr)
  let m := m.setPrev (m.next swtmr) (m.prev swtmr)
  let m := m.setStatus swtmr .stop
  let m := m.setPrev swtmr swtmr
  m.setNext swtmr swtmr

/-- `dos_mem_free` of the block and the `memset` behind it. -/
def freeSwtmr (swtmr : SwtmrRef) : SwtmrRings :=
  { m.setNode swtmr {} with alloc := fun t => if .timer t = swtmr then false else m.alloc t }

def dosSwtmrDelete (swtmr : SwtmrRef) : SwtmrRings :=
  if swtmr = .null then m
  else
    match (m.node swtmr).swtmrStatus with
    | .unused => m
    | .create => m.freeSwtmr swtmr
    | .stop => m.freeSwtmr swtmr
    | .running => (m.dosSwtmrStop swtmr).freeSwtmr swtmr

/-- `_dos_swtmr_timeout_handle` behind the callback, with the tick that
`_dos_swtmr_start` reads. A list head has no callback. -/
def dosSwtmrTimeoutHandle (fuel tick : Nat) (swtmr : SwtmrRef) : Option SwtmrRings :=
  if (m.node swtmr).swtmrCallBacke then
    let m := m.dosSwtmrStop swtmr
    if (m.node swtmr).swtmrMode = 2 then m.dosSwtmrStart fuel tick swtmr
    else some (m.dosSwtmrDelete swtmr)
  else some m

def target (msg : SwtmrMsg) : SwtmrRef :=
  match msg.swtmr with
  | none => .null
  | some t => .timer t

/-- `_dos_swtmr_cmd_handle`. The status is read even through the null pointer of
an overflow. -/
def dosSwtmrCmdHandle (fuel tick : Nat) (msg : SwtmrMsg) : Option SwtmrRings :=
  let swtmr := target msg
  if (m.node swtmr).swtmrStatus = .unused then some m
  else
    match msg.swtmrOpt with
    | .start =>
        if (m.node swtmr).swtmrStatus = .running then
          (m.dosSwtmrStop swtmr).dosSwtmrStart fuel tick swtmr
        else m.dosSwtmrStart fuel tick swtmr
    | .stop =>
        if (m.node swtmr).swtmrStatus = .running then some (m.dosSwtmrStop swtmr) else some m
    | .overflow => some m.dosSwtmrSwitchPtr
    | .delete => some (m.dosSwtmrDelete swtmr)

def dosSwtmrItemInit (swtmr : SwtmrRef) : SwtmrRings :=
  m.setNode swtmr
    { swtmrStatus := .unused, swtmrPrev := swtmr, swtmrNext := swtmr, swtmrWakeTime := 0xFFFFFFFF }

/-- `dos_swtmr_create` in the block `t` that `dos_mem_alloc` returned. -/
def dosSwtmrCreate (t : SwtmrId) (timeout mode : Nat) : SwtmrRings :=
  { m.setNode (.timer t)
      { swtmrStatus := .create, swtmrPrev := .timer t, swtmrNext := .timer t, swtmrWakeTime := 0,
        swtmrTimeout := timeout, swtmrMode := mode, swtmrCallBacke := true } with
    alloc := fun t' => if t' = t then true else m.alloc t' }

end SwtmrRings

/-- The end of `dos_swtmr_init`, in memory that holds anything. -/
def SwtmrRings.dosSwtmrInit (node : SwtmrRef → SwtmrNode) : SwtmrRings :=
  let m : SwtmrRings :=
    { node := node, swtmrPtr := .list1, swtmrOverflowPtr := .list2, alloc := fun _ => false,
      stage := .top }
  (m.dosSwtmrItemInit .list1).dosSwtmrItemInit .list2

/-- What the timer task and the others do to the timers. `foreign` is a write to
memory that is not an existing timer. A command is handled at the tick `tick`;
the expiry loop tests the tick `curTime` and may start the timer again at the
tick `tick`. -/
inductive RingEvent where
  | create (t : SwtmrId) (timeout mode : Nat)
  | foreign (p : SwtmrRef) (x : SwtmrNode)
  | sample
  | command (msg : SwtmrMsg) (tick : Nat)
  | timeout
  | expire (curTime tick : Nat)

def SwtmrStage.reading : SwtmrStage → Bool
  | .read _ => true
  | _ => false

def SwtmrStage.expiring : SwtmrStage → Bool
  | .expire _ => true
  | _ => false

namespace SwtmrRings

/-- The memory behind a pointer is not that of a list head or of an existing
timer. -/
def Foreign (m : SwtmrRings) : SwtmrRef → Prop
  | .null => True
  | .list1 => False
  | .list2 => False
  | .timer t => m.alloc t = false

/-- Commands are given on existing timers, and the overflow has no timer. -/
def Addressed (m : SwtmrRings) (msg : SwtmrMsg) : Prop :=
  match msg.swtmr with
  | none => msg.swtmrOpt = .overflow
  | some t => m.alloc t = true

/-- The events that can come. -/
def Ready (m : SwtmrRings) : RingEvent → Prop
  | .create t timeout mode =>
      m.alloc t = false ∧ 0 < timeout ∧ timeout < 2 ^ 32 ∧ mode < 2 ^ 16 ∧
        (mode % 4 = 1 ∨ mode % 4 = 2)
  | .foreign p _ => m.Foreign p
  | .sample => m.stage = .top
  | .command msg tick => m.stage.reading = true ∧ tick < 2 ^ 32 ∧ m.Addressed msg
  | .timeout => m.stage.reading = true
  | .expire curTime tick => m.stage.expiring = true ∧ curTime < 2 ^ 32 ∧ tick < 2 ^ 32

instance (m : SwtmrRings) : ∀ p, Decidable (m.Foreign p)
  | .null => inferInstanceAs (Decidable True)
  | .list1 => inferInstanceAs (Decidable False)
  | .list2 => inferInstanceAs (Decidable False)
  | .timer t => inferInstanceAs (Decidable (m.alloc t = false))

instance (m : SwtmrRings) : ∀ msg, Decidable (m.Addressed msg)
  | ⟨op, none⟩ => inferInstanceAs (Decidable (op = .overflow))
  | ⟨_, some t⟩ => inferInstanceAs (Decidable (m.alloc t = true))

instance (m : SwtmrRings) : ∀ event, Decidable (m.Ready event)
  | .create _ _ _ => inferInstanceAs (Decidable (_ ∧ _))
  | .foreign p _ => inferInstanceAs (Decidable (m.Foreign p))
  | .sample => inferInstanceAs (Decidable (_ = _))
  | .command _ _ => inferInstanceAs (Decidable (_ ∧ _))
  | .timeout => inferInstanceAs (Decidable (_ = _))
  | .expire _ _ => inferInstanceAs (Decidable (_ ∧ _))

/-- The effect of an event. The rounds of the insertion loops are bounded by
`fuel`, and there is no effect if a loop does not end within them. -/
def perform (fuel : Nat) (m : SwtmrRings) : RingEvent → Option SwtmrRings
  | .create t timeout mode => some (m.dosSwtmrCreate t timeout mode)
  | .foreign p x => some (m.setNode p x)
  | .sample => some { m with stage := .read m.dosGetSwtmr }
  | .command msg tick =>
      (m.dosSwtmrCmdHandle fuel tick msg).map fun m => { m with stage := .top }
  | .timeout =>
      match m.stage with
      | .read wake => some { m with stage := .expire wake }
      | _ => none
  | .expire curTime tick =>
      match m.stage with
      | .expire wake =>
          if curTime ≥ m.wakeTime wake then
            (m.dosSwtmrTimeoutHandle fuel tick wake).map fun m =>
              { m with stage := .expire m.dosGetSwtmr }
          else some { m with stage := .top }
      | _ => none

end SwtmrRings

def ringStep (fuel : Nat) (m : SwtmrRings) (event : RingEvent) : Option SwtmrRings :=
  if m.Ready event then m.perform fuel event else none

/-- What a structure holds besides its links. -/
def SwtmrNode.data (x : SwtmrNode) : Swtmr × Bool :=
  ({ swtmrStatus := x.swtmrStatus, swtmrMode := x.swtmrMode, swtmrTimeout := x.swtmrTimeout,
     swtmrWakeTime := x.swtmrWakeTime }, x.swtmrCallBacke)

namespace SwtmrRings

section Assignments

variable (m : SwtmrRings) (p q x : SwtmrRef)

/-- A field that is assigned its own value. -/
theorem field_setNode {β : Type} (f : SwtmrNode → β) {y : SwtmrNode} (h : f y = f (m.node p)) :
    f ((m.setNode p y).node x) = f (m.node x) := by
  by_cases hEq : x = p
  · rw [setNode, hEq]
    exact (congrArg f (if_pos rfl)).trans h
  · simp only [setNode, if_neg hEq]

@[simp] theorem prev_setNext : (m.setNext p q).prev x = m.prev x :=
  field_setNode m p x SwtmrNode.swtmrPrev rfl

@[simp] theorem data_setNext : ((m.setNext p q).node x).data = (m.node x).data :=
  field_setNode m p x SwtmrNode.data rfl

@[simp] theorem next_setPrev : (m.setPrev p q).next x = m.next x :=
  field_setNode m p x SwtmrNode.swtmrNext rfl

@[simp] theorem data_setPrev : ((m.setPrev p q).node x).data = (m.node x).data :=
  field_setNode m p x SwtmrNode.data rfl

variable (status : SwtmrStatus) (wake : Nat)

@[simp] theorem next_setStatus : (m.setStatus p status).next x = m.next x :=
  field_setNode m p x SwtmrNode.swtmrNext rfl

@[simp] theorem prev_setStatus : (m.setStatus p status).prev x = m.prev x :=
  field_setNode m p x SwtmrNode.swtmrPrev rfl

@[simp] theorem next_setWakeTime : (m.setWakeTime p wake).next x = m.next x :=
  field_setNode m p x SwtmrNode.swtmrNext rfl

@[simp] theorem prev_setWakeTime : (m.setWakeTime p wake).prev x = m.prev x :=
  field_setNode m p x SwtmrNode.swtmrPrev rfl

theorem next_setNext : (m.setNext p q).next x = if x = p then q else m.next x := by
  simp only [next, setNext, setNode]
  split <;> rfl

theorem prev_setPrev : (m.setPrev p q).prev x = if x = p then q else m.prev x := by
  simp only [prev, setPrev, setNode]
  split <;> rfl

theorem wakeTime_setWakeTime : (m.setWakeTime p wake).wakeTime x =
    if x = p then wake else m.wakeTime x := by
  simp only [wakeTime, setWakeTime, setNode]
  split <;> rfl

theorem data_setStatus : ((m.setStatus p status).node x).data =
    if x = p then ({ (m.node p).data.1 with swtmrStatus := status }, (m.node p).data.2)
    else (m.node x).data := by
  simp only [setStatus, setNode]
  split <;> rfl

theorem data_setWakeTime : ((m.setWakeTime p wake).node x).data =
    if x = p then ({ (m.node p).data.1 with swtmrWakeTime := wake }, (m.node p).data.2)
    else (m.node x).data := by
  simp only [setWakeTime, setNode]
  split <;> rfl

end Assignments

variable {m : SwtmrRings} {p x item head head' : SwtmrRef} {t : SwtmrId}
  {l l' before behind : List SwtmrId} {first : List SwtmrRef}

theorem next_link : (m.link item p).next x =
    if x = item then p else if x = p then m.next item else m.next x := by
  simp [link, next_setNext]

theorem prev_link : (m.link item p).prev x =
    if x = p then item else if x = m.next item then p else m.prev x := by
  simp [link, prev_setPrev, next_setNext]

theorem data_link : ((m.link item p).node x).data =
    if x = p then ({ (m.node p).data.1 with swtmrStatus := .running }, (m.node p).data.2)
    else (m.node x).data := by
  simp [link, data_setStatus]

section Stop

variable (hPtr : m.swtmrPtr ≠ p) (hFirst : m.next m.swtmrPtr = p → m.prev p = m.swtmrPtr)

include hPtr hFirst

theorem next_stop : (m.dosSwtmrStop p).next x =
    if x = p then p else if x = m.prev p then m.next p else m.next x := by
  by_cases hTest : m.next m.swtmrPtr = p
  · simp only [dosSwtmrStop, if_pos hTest, next_setNext, next_setStatus, next_setPrev,
      prev_setNext, hFirst hTest, if_neg hPtr.symm]
    by_cases hx : x = m.swtmrPtr
    · rw [if_pos hx, if_pos hx]
    · rw [if_neg hx, if_neg hx]
  · simp [dosSwtmrStop, hTest, next_setNext]

theorem prev_stop : (m.dosSwtmrStop p).prev x =
    if x = p then p else if x = m.next p then m.prev p else m.prev x := by
  by_cases hTest : m.next m.swtmrPtr = p
  · simp [dosSwtmrStop, hTest, prev_setPrev, next_setNext, hFirst hTest, hPtr.symm]
  · simp [dosSwtmrStop, hTest, prev_setPrev, next_setNext]

end Stop

theorem data_stop : ((m.dosSwtmrStop p).node x).data =
    if x = p then ({ (m.node p).data.1 with swtmrStatus := .stop }, (m.node p).data.2)
    else (m.node x).data := by
  by_cases hTest : m.next m.swtmrPtr = p
  · simp [dosSwtmrStop, hTest, data_setStatus]
  · simp [dosSwtmrStop, hTest, data_setStatus]

/-- A ring of timers with its head. -/
def RingOf (m : SwtmrRings) (head : SwtmrRef) (l : List SwtmrId) : Prop :=
  Ring m.next m.prev head (l.map .timer)

def members (head : SwtmrRef) (l : List SwtmrId) : List SwtmrRef := head :: l.map .timer

/-- Two rings without a common node. -/
structure Pair (m : SwtmrRings) (head head' : SwtmrRef) (l l' : List SwtmrId) : Prop where
  ring : m.RingOf head l
  other : m.RingOf head' l'
  apart : ∀ x ∈ members head l, x ∉ members head' l'

theorem Pair.symm (h : m.Pair head head' l l') : m.Pair head' head l' l :=
  ⟨h.other, h.ring, fun x hx hx' => h.apart x hx' hx⟩

theorem mem_members_split {x : SwtmrRef} : x ∈ members head (before ++ t :: behind) ↔
    x = .timer t ∨ x ∈ members head (before ++ behind) := by
  simp only [members, List.map_append, List.map_cons]
  rw [Ring.perm_middle.mem_iff, List.mem_cons]

/-- Rings on other nodes with the same links. -/
theorem Pair.congr {m' : SwtmrRings} (h : m.Pair head head' l l')
    (hSame : ∀ x, x ∈ members head l ∨ x ∈ members head' l' →
      m'.next x = m.next x ∧ m'.prev x = m.prev x) : m'.Pair head head' l l' where
  ring := h.ring.congr (fun x hx => (hSame x (.inl hx)).1) fun x hx => (hSame x (.inl hx)).2
  other := h.other.congr (fun x hx => (hSame x (.inr hx)).1) fun x hx => (hSame x (.inr hx)).2
  apart := h.apart

theorem Pair.link (h : m.Pair head head' (before ++ behind) l')
    (hItem : members head before = first ++ [item])
    (hNew : .timer t ∉ members head (before ++ behind)) (hNew' : .timer t ∉ members head' l') :
    (m.link item (.timer t)).Pair head head' (before ++ t :: behind) l' := by
  have hIn : item ∈ members head (before ++ behind) := by
    have hMem : item ∈ members head before := by simp [hItem]
    rw [members, List.map_append]
    exact List.mem_append_left (behind.map .timer) hMem
  have hNext : m.next item ∈ members head (before ++ behind) := h.ring.next_mem hIn
  have hNeItem : .timer t ≠ item := fun hEq => hNew (hEq ▸ hIn)
  have hNeNext : m.next item ≠ .timer t := fun hEq => hNew (hEq ▸ hNext)
  have hRing := h.ring
  rw [RingOf, List.map_append] at hRing
  rw [members, List.map_append] at hNew
  constructor
  · rw [RingOf, List.map_append, List.map_cons]
    refine hRing.insert hItem hNew ?_ ?_ ?_ ?_ ?_ ?_
    · rw [next_link, if_pos rfl]
    · rw [next_link, if_neg hNeItem, if_pos rfl]
    · rw [prev_link, if_pos rfl]
    · rw [prev_link, if_neg hNeNext, if_pos rfl]
    · intro x hx hNe
      rw [next_link, if_neg hNe, if_neg (ne_of_mem_of_not_mem hx hNew)]
    · intro x hx hNe
      rw [prev_link, if_neg (ne_of_mem_of_not_mem hx hNew), if_neg hNe]
  · refine h.other.congr ?_ ?_
    · intro x hx
      rw [next_link, if_neg (ne_of_mem_of_not_mem hx (h.apart item hIn)),
        if_neg (ne_of_mem_of_not_mem hx hNew')]
    · intro x hx
      rw [prev_link, if_neg (ne_of_mem_of_not_mem hx hNew'),
        if_neg (ne_of_mem_of_not_mem hx (h.apart _ hNext))]
  · intro x hx
    rcases mem_members_split.mp hx with rfl | hx
    · exact hNew'
    · exact h.apart x hx

theorem Pair.stop (h : m.Pair head head' (before ++ t :: behind) l')
    (hPtr : m.swtmrPtr = head ∨ m.swtmrPtr = head') (hHead : head ≠ .timer t)
    (hHead' : head' ≠ .timer t) :
    (m.dosSwtmrStop (.timer t)).Pair head head' (before ++ behind) l' := by
  have hIn : .timer t ∈ members head (before ++ t :: behind) := mem_members_split.mpr (.inl rfl)
  have hNeed : m.swtmrPtr ≠ .timer t := by
    rcases hPtr with hPtr | hPtr
    · rw [hPtr]
      exact hHead
    · rw [hPtr]
      exact hHead'
  -- The test of the first timer finds the node in front of it.
  have hFirst : m.next m.swtmrPtr = .timer t → m.prev (.timer t) = m.swtmrPtr := by
    intro hNext
    rcases hPtr with hPtr | hPtr
    · rw [← hNext, hPtr]
      exact h.ring.inverse head List.mem_cons_self
    · have hMem : m.next head' ∈ members head' l' := h.other.next_mem List.mem_cons_self
      rw [← hPtr, hNext, hPtr] at hMem
      exact absurd hMem (h.apart _ hIn)
  have hRing := h.ring
  rw [RingOf, List.map_append, List.map_cons] at hRing
  have hPrevIn : m.prev (.timer t) ∈ members head (before ++ t :: behind) := (h.ring.next_prev hIn).1
  have hNextIn : m.next (.timer t) ∈ members head (before ++ t :: behind) := h.ring.next_mem hIn
  have hNodup := (List.nodup_cons.mp (Ring.perm_middle.nodup_iff.mp hRing.nodup)).1
  constructor
  · rw [RingOf, List.map_append]
    refine hRing.remove ?_ ?_ ?_ ?_
    · rw [next_stop hNeed hFirst, if_neg hRing.prev_ne, if_pos rfl]
    · rw [prev_stop hNeed hFirst, if_neg hRing.next_ne, if_pos rfl]
    · intro x hx hNe
      rw [next_stop hNeed hFirst, if_neg (ne_of_mem_of_not_mem hx hNodup), if_neg hNe]
    · intro x hx hNe
      rw [prev_stop hNeed hFirst, if_neg (ne_of_mem_of_not_mem hx hNodup), if_neg hNe]
  · refine h.other.congr ?_ ?_
    · intro x hx
      rw [next_stop hNeed hFirst, if_neg (ne_of_mem_of_not_mem hx (h.apart _ hIn)),
        if_neg (ne_of_mem_of_not_mem hx (h.apart _ hPrevIn))]
    · intro x hx
      rw [prev_stop hNeed hFirst, if_neg (ne_of_mem_of_not_mem hx (h.apart _ hIn)),
        if_neg (ne_of_mem_of_not_mem hx (h.apart _ hNextIn))]
  · intro x hx
    exact h.apart x (mem_members_split.mpr (.inr hx))

/-- A timer of one ring is taken out of it; it is not in the other one. -/
theorem Pair.erase (h : m.Pair head head' l l') (ht : t ∈ l)
    (hPtr : m.swtmrPtr = head ∨ m.swtmrPtr = head') (hHead : head ≠ .timer t)
    (hHead' : head' ≠ .timer t) :
    (m.dosSwtmrStop (.timer t)).Pair head head' (l.erase t) (l'.erase t) := by
  have hNodup : l.Nodup := List.Nodup.of_map _ (List.nodup_cons.mp h.ring.nodup).2
  have hOther : t ∉ l' := fun ht' => h.apart (.timer t)
    (List.mem_cons_of_mem head (List.mem_map_of_mem ht))
    (List.mem_cons_of_mem head' (List.mem_map_of_mem ht'))
  obtain ⟨before, behind, rfl⟩ := List.append_of_mem ht
  have hBefore : t ∉ before := fun ht' =>
    List.disjoint_of_nodup_append hNodup ht' List.mem_cons_self
  rw [List.erase_of_not_mem hOther, List.erase_append_right _ hBefore, List.erase_cons_head]
  exact h.stop hPtr hHead hHead'

/-- The loop finds the place of a timer in the order of the wake times. The list
head has the largest one, and it is not passed. -/
theorem Pair.seek (h : m.Pair head head' l l') (hHead : m.wakeTime (.timer t) < m.wakeTime head)
    (hNew : .timer t ∉ members head l) (hNew' : .timer t ∉ members head' l') :
    ∃ item, (m.link item (.timer t)).Pair head head'
        (KeyOrder.insert (fun x => m.wakeTime (.timer x)) t l) l' ∧
      ∀ fuel > l.length, m.seekItem fuel (m.wakeTime (.timer t)) head = some item := by
  have hSeek (fuel : Nat) (hFuel : fuel > l.length) :=
    h.ring.linked.seek (fun p => decide (m.wakeTime p ≤ m.wakeTime (.timer t)))
      (decide_eq_false (Nat.not_le.mpr hHead)) (by rwa [List.length_map] : _ < fuel)
  rw [List.takeWhile_map] at hSeek
  refine ⟨_, ?_, hSeek⟩
  rw [KeyOrder.insert_eq]
  have hCut := List.takeWhile_append_dropWhile
    (p := fun x => decide (m.wakeTime (.timer x) ≤ m.wakeTime (.timer t))) (l := l)
  refine Pair.link (hCut.symm ▸ h) (List.dropLast_append_getLast _).symm ?_ hNew'
  rw [hCut]
  exact hNew

/-- The node in front of the list head is the last one. -/
theorem Pair.last (h : m.Pair head head' l l') (hNew : .timer t ∉ members head l)
    (hNew' : .timer t ∉ members head' l') :
    (m.link (m.prev head) (.timer t)).Pair head head' (l ++ [t]) l' := by
  obtain ⟨first, hItem⟩ := h.ring.exists_last
  have hAll : l ++ [] = l := List.append_nil l
  exact Pair.link (hAll.symm ▸ h) hItem (hAll.symm ▸ hNew) hNew'

end SwtmrRings

end DoraOS
