import DoraOS.Creation.Creators
import DoraOS.Creation.Unread
import DoraOS.Fifo.Stream

/-! The life of a created object: all that tasks, interrupts, the timer task and
the fifos do, the deletion of the object, and the return of its memory. Two
machines whose objects hold different stale bytes cannot be told apart by what
these operations show. An object is not deleted twice; a delete function runs
without being interrupted. -/
namespace DoraOS

open Lockstep

namespace FifoRun

def withBuffer (s : FifoRun) (buffer : Nat → UInt8) : FifoRun :=
  { s with fifo := { s.fifo with buffer := buffer } }

/-- `y` is `x`, or differs from it in bytes of the buffer that are not part of
the stream. -/
def Twin (x y : FifoRun) : Prop := y = x ∨ FifoOk x ∧ FifoOk y ∧ ∃ buffer, y = x.withBuffer buffer

variable {x y : FifoRun} {buffer : Nat → UInt8}

/-- What a reader has got is determined by the stream. -/
theorem reader_eq {r r' : Reader} {x' : FifoRun} (hOk : FifoOk { x' with reader := r })
    (hOk' : FifoOk ({ x' with reader := r' }.withBuffer buffer))
    (hShape : (∃ len l got got', r = .copySecond len l got ∧ r' = .copySecond len l got') ∨
      ∃ len got got', r = .publish len got ∧ r' = .publish len got') : r = r' := by
  rcases hShape with ⟨len, l, got, got', rfl, rfl⟩ | ⟨len, got, got', rfl, rfl⟩
  · have hGot : got = x'.unread.take l.toNat := hOk.reader.2.2
    have hGot' : got' = x'.unread.take l.toNat := hOk'.reader.2.2
    rw [hGot, hGot']
  · have hGot : got = x'.unread.take len.toNat := hOk.reader.2
    have hGot' : got' = x'.unread.take len.toNat := hOk'.reader.2
    rw [hGot, hGot']

/-- A step of a fifo with other stale bytes. -/
theorem step_withBuffer (h : FifoOk x) (h' : FifoOk (x.withBuffer buffer)) (event : FifoEvent) :
    (fifoStep x event = none ∧ fifoStep (x.withBuffer buffer) event = none) ∨
      ∃ x' buffer', fifoStep x event = some x' ∧
        fifoStep (x.withBuffer buffer) event = some (x'.withBuffer buffer') := by
  cases event with
  | write buff pended =>
      by_cases hIdle : x.writer = .idle ∧ buff.length < 2 ^ 32
      · right
        refine ⟨_, buffer, if_pos hIdle, (if_pos hIdle).trans ?_⟩
        unfold dosFifoWrite
        rw [apply_ite (withBuffer · buffer)]
        rfl
      · exact Or.inl ⟨if_neg hIdle, if_neg hIdle⟩
  | writer =>
      have hSame : (x.withBuffer buffer).writer = x.writer := rfl
      simp only [fifoStep, writerStep, hSame]
      cases x.writer with
      | idle => exact Or.inl ⟨rfl, rfl⟩
      | copyFirst buff len => exact Or.inr ⟨_, _, rfl, rfl⟩
      | copySecond buff len l => exact Or.inr ⟨_, _, rfl, rfl⟩
      | publish buff len => exact Or.inr ⟨_, _, rfl, rfl⟩
  | read len pended =>
      by_cases hIdle : x.reader = .idle
      · right
        refine ⟨_, buffer, if_pos hIdle, (if_pos hIdle).trans ?_⟩
        unfold dosFifoRead
        rw [apply_ite (withBuffer · buffer)]
        rfl
      · exact Or.inl ⟨if_neg hIdle, if_neg hIdle⟩
  | reader =>
      cases hReader : x.reader with
      | idle =>
          left
          simp only [fifoStep, readerStep, hReader]
          exact ⟨trivial, by simp [withBuffer, hReader]⟩
      | copyFirst len =>
          have hStep : fifoStep x .reader = some { x with
              reader := .copySecond len (x.fifo.firstLen x.fifo.fifoOut len)
                (Circular.copyOut x.fifo.buffer (x.fifo.offset x.fifo.fifoOut).toNat
                  (x.fifo.firstLen x.fifo.fifoOut len).toNat) } := by
            simp only [fifoStep, readerStep, hReader]
          have hStep' : fifoStep (x.withBuffer buffer) .reader = some ({ x with
              reader := .copySecond len (x.fifo.firstLen x.fifo.fifoOut len)
                (Circular.copyOut buffer (x.fifo.offset x.fifo.fifoOut).toNat
                  (x.fifo.firstLen x.fifo.fifoOut len).toNat) }.withBuffer buffer) := by
            simp only [fifoStep, readerStep, withBuffer, hReader]
            rfl
          have hSame := reader_eq (h.step hStep) (h'.step hStep')
            (Or.inl ⟨len, _, _, _, rfl, rfl⟩)
          rw [← hSame] at hStep'
          exact Or.inr ⟨_, buffer, hStep, hStep'⟩
      | copySecond len l got =>
          have hStep : fifoStep x .reader = some { x with
              reader := .publish len (got ++ Circular.copyOut x.fifo.buffer 0 (len - l).toNat) } := by
            simp only [fifoStep, readerStep, hReader]
          have hStep' : fifoStep (x.withBuffer buffer) .reader = some ({ x with
              reader := .publish len
                (got ++ Circular.copyOut buffer 0 (len - l).toNat) }.withBuffer buffer) := by
            simp only [fifoStep, readerStep, withBuffer, hReader]
          have hSame := reader_eq (h.step hStep) (h'.step hStep') (Or.inr ⟨len, _, _, rfl, rfl⟩)
          rw [← hSame] at hStep'
          exact Or.inr ⟨_, buffer, hStep, hStep'⟩
      | publish len got =>
          right
          refine ⟨_, buffer, by simp only [fifoStep, readerStep, hReader]; rfl, ?_⟩
          simp only [fifoStep, readerStep, withBuffer, hReader]

/-- Both fifos go on alike, with the same bytes accepted and returned. -/
theorem Twin.agree (hTwin : x.Twin y) (event : FifoEvent) :
    Agree Twin ((fifoStep x event).map fun x' => (x', x'.accepted, x'.returned))
      ((fifoStep y event).map fun y' => (y', y'.accepted, y'.returned)) := by
  rcases hTwin with rfl | ⟨hOk, hOk', buffer, rfl⟩
  · cases fifoStep y event with
    | none => exact .stop
    | some y' => exact .go _ (Or.inl rfl)
  · rcases step_withBuffer hOk hOk' event with ⟨hNone, hNone'⟩ | ⟨x', buffer', hStep, hStep'⟩
    · rw [hNone, hNone']
      exact .stop
    · rw [hStep, hStep']
      exact .go (x'.accepted, x'.returned)
        (Or.inr ⟨hOk.step hStep, hOk'.step hStep', buffer', rfl⟩)

end FifoRun

/-- An operation on the objects of a machine: a step of its tasks, of the timer
module, or on the fifo at an address. -/
inductive MachineEvent where
  | sys (event : SysEvent)
  | timer (event : TimerEvent)
  | fifo (p : Nat) (event : FifoEvent)

/-- What an operation shows: the labels of the step with the current task, the
most urgent priority and the request for a context switch; the position of the
timer task and the writers of its queue; the bytes that a fifo has accepted and
returned; the result of a delete function, or that the idle task is done. -/
inductive Observation where
  | sys (labels : List Label) (current : Option TaskId) (priority : Nat) (yield : Bool)
  | timer (pc : SwtmrPc) (writers : List SwtmrWriter)
  | fifo (accepted returned : List UInt8)
  | deleted (result : Result)
  | recycled
  deriving DecidableEq

namespace Machine

variable {m n : Machine} {t : TaskId} {I : System → Prop} {H : Heap → Heap → Prop}

def step (m : Machine) : MachineEvent → Option (Machine × Observation)
  | .sys event =>
      (m.sys.exec event).map fun r =>
        ({ m with sys := r.1 },
          .sys r.2 r.1.k.dosCurrentTask r.1.k.dosCurPriority r.1.k.yieldPending)
  | .timer event =>
      (timerStep m.timers event).map fun timers =>
        ({ m with timers := timers }, .timer timers.pc timers.writers)
  | .fifo p event =>
      (fifoStep (m.fifo p) event).map fun x =>
        ({ m with fifo := fun p' => if p' = p then x else m.fifo p' },
          .fifo x.accepted x.returned)

/-- The machines differ in words that no operation reads, and their heaps are
related. -/
structure Twin (t : TaskId) (I : System → Prop) (H : Heap → Heap → Prop) (m n : Machine) : Prop where
  sys : m.sys.Twin t I n.sys
  timers : n.timers = m.timers
  fifo : ∀ p, (m.fifo p).Twin (n.fifo p)
  heap : H m.heap n.heap

theorem Twin.agree (hVeil : System.Veil t I) (hTwin : m.Twin t I H n) (event : MachineEvent) :
    Agree (Twin t I H) (m.step event) (n.step event) := by
  cases event with
  | sys event =>
      refine (hTwin.sys.agree hVeil event).map (S := Twin t I H) (fun s => { m with sys := s })
        (fun s => { n with sys := s })
        (fun s ls => Observation.sys ls s.k.dosCurrentTask s.k.dosCurPriority s.k.yieldPending)
        (fun s ls => Observation.sys ls s.k.dosCurrentTask s.k.dosCurPriority s.k.yieldPending) ?_ ?_
      · exact fun s u hSys => ⟨hSys, hTwin.timers, hTwin.fifo, hTwin.heap⟩
      · rintro s u ls ⟨g, mem, rfl, -⟩
        rfl
  | timer event =>
      simp only [step, hTwin.timers]
      cases timerStep m.timers event with
      | none => exact .stop
      | some timers => exact .go _ ⟨hTwin.sys, rfl, hTwin.fifo, hTwin.heap⟩
  | fifo p event =>
      have hAgree := ((hTwin.fifo p).agree event).map (S := Twin t I H)
        (fun x => { m with fifo := fun p' => if p' = p then x else m.fifo p' })
        (fun x => { n with fifo := fun p' => if p' = p then x else n.fifo p' })
        (fun _ bytes => Observation.fifo bytes.1 bytes.2) (fun _ bytes => .fifo bytes.1 bytes.2) ?_
        fun _ _ _ _ => rfl
      · rw [Option.map_map, Option.map_map] at hAgree
        exact hAgree
      · intro x y hFifo
        refine ⟨hTwin.sys, hTwin.timers, ?_, hTwin.heap⟩
        intro p'
        dsimp only
        split
        · exact hFifo
        · exact hTwin.fifo p'

theorem Twin.setSys {s u : System} {I' : System → Prop} (hTwin : m.Twin t I H n)
    (hSys : s.Twin t I' u) : Twin t I' H { m with sys := s } { n with sys := u } :=
  ⟨hSys, hTwin.timers, hTwin.fifo, hTwin.heap⟩

end Machine

namespace Creator

/-- The pend lists of an object that others may wait for. -/
def pendIds (p : Nat) : Creator → List PendId
  | .sem _ _ => [.sem p]
  | .mutex => [.mutex p]
  | .event => [.event p]
  | .queue _ _ => [.queue p .read, .queue p .write]
  | _ => []

/-- The bytes of the single block of an object. `queue_len` and `queue_size` keep
what they were created with. -/
def size : Creator → Nat
  | .sem _ _ => sizeofSem
  | .mutex => sizeofMutex
  | .event => sizeofEvent
  | .queue len size => (Queue.sizeofQueue + len * size % 2 ^ 32) % 2 ^ 32
  | .swtmr _ _ _ => sizeofSwtmr
  | _ => 0

def isTimer : Creator → Bool
  | .swtmr _ _ _ => true
  | _ => false

end Creator

/-- The `memset` of a delete function on the fields of an object. -/
def System.clear (s : System) (p : Nat) : Creator → System
  | .sem _ _ => s.setSem p ⟨0, 0⟩
  | .mutex => s.setMutex p {}
  | .event => s.setEvent p {}
  | .queue len size => { s.setQueue p ⟨0, 0, 0, 0, fun _ => 0, fun _ => 0⟩ with
      mem := s.mem.memzero p (Creator.queue len size).size }
  | _ => s

/-- The end of a delete function: the `memset` on the block of the object and
`dos_mem_free`. `_dos_swtmr_delete` clears the block behind that. -/
def Heap.release (h : Heap) (p : Nat) : Creator → Option Heap
  | .task _ _ _ => h.releaseTask p
  | .swtmr _ _ _ => (h.dosMemFree p).map fun r => r.1.memset p sizeofSwtmr
  | .memp _ _ _ | .fifo _ => some h
  | c => ((h.memset p c.size).dosMemFree p).map Prod.fst

/-- The object is in use, it is deleted but its memory is not free yet, or the
memory is free. -/
inductive Phase where
  | live
  | deleted
  | freed
  deriving DecidableEq

structure Session where
  machine : Machine
  phase : Phase

/-- An operation, the call of the delete function of the object, or the turn in
which the idle task frees the object. -/
inductive SessionEvent where
  | op (event : MachineEvent)
  | delete
  | recycle

namespace Session

variable (c : Creator) (p : Nat) (frees : Bool) (x : Session)

/-- The memory of the object is freed, if the session is one in which that may
happen. -/
def release : Option Session :=
  if frees = true then (x.machine.heap.release p c).map fun h =>
    ⟨{ x.machine with heap := h }, .freed⟩
  else none

def setSys (s : System) : Session := { x with machine := { x.machine with sys := s } }

/-- `dos_task_delete`. A task that deletes itself is left to the idle task. -/
def deleteTask : Option (Session × Observation) :=
  let deleted := x.setSys (x.machine.sys.dosTaskDelete p)
  if (x.machine.sys.k.dosTaskDelete p).2 = false then some (deleted, .deleted .nok)
  else if x.machine.sys.k.dosCurrentTask = some p then
    some ({ deleted with phase := .deleted }, .deleted .ok)
  else (deleted.release c p frees).map fun y => (y, .deleted .ok)

/-- `dos_sem_delete`, `dos_mutex_delete`, `dos_event_delete` or `dos_queue_delete`. -/
def deleteObject : Option (Session × Observation) :=
  if ∀ id ∈ c.pendIds p, x.machine.sys.pending id = [] then
    ((x.setSys (x.machine.sys.clear p c)).release c p frees).map fun y => (y, .deleted .ok)
  else some (x, .deleted .nok)

/-- The delete function of the object. Pools and fifos cannot be deleted, and a
timer is deleted by the timer task. -/
def delete : Option (Session × Observation) :=
  match c with
  | .task _ _ _ => x.deleteTask c p frees
  | .sem _ _ | .mutex | .event | .queue _ _ => x.deleteObject c p frees
  | .memp _ _ _ | .swtmr _ _ _ | .fifo _ => none

/-- One event. When the timer task lets go of a timer, its block is freed. -/
def step : SessionEvent → Option (Session × Observation)
  | .op event =>
      (x.machine.step event).bind fun r =>
        if x.phase = .live ∧ c.isTimer = true ∧ x.machine.timers.alloc p = true ∧
            r.1.timers.alloc p = false then
          (release c p frees ⟨r.1, x.phase⟩).map fun y => (y, r.2)
        else some (⟨r.1, x.phase⟩, r.2)
  | .delete => if x.phase = .live then x.delete c p frees else none
  | .recycle =>
      if x.phase = .deleted ∧ (x.machine.sys.k.dosGetFirstTask .recycle).2 = some p then
        ((x.setSys (x.machine.sys.setKernel x.machine.sys.k.dosIdleRecycle)).release c p frees).map
          fun y => (y, .recycled)
      else none

end Session

/-- Why the stale `event_get` of a new task is not read. Other objects have no
such field. -/
def Creator.veil (c : Creator) (p : Nat) (phase : Phase) : System → Prop :=
  match c, phase with
  | .task _ _ _, .live => System.Unread p
  | .task _ _ _, _ => System.Gone p
  | _, _ => fun _ => False

/-- The object can be freed in both heaps, as long as it was not. -/
def Creator.Frees (c : Creator) (p : Nat) (frees : Bool) (phase : Phase) (h g : Heap) : Prop :=
  frees = true → phase ≠ .freed → (h.release p c).isSome = true ∧ (g.release p c).isSome = true

namespace Session

variable {c : Creator} {p : Nat} {frees : Bool} {x y : Session} {m n : Machine} {phase : Phase}

/-- The sessions cannot be told apart. -/
structure Twin (c : Creator) (p : Nat) (frees : Bool) (x y : Session) : Prop where
  phase : y.phase = x.phase
  machine : x.machine.Twin p (c.veil p x.phase) (c.Frees p frees x.phase) y.machine

theorem veil_ok (c : Creator) (p : Nat) (phase : Phase) : System.Veil p (c.veil p phase) := by
  have hNone : System.Veil p fun _ => False :=
    ⟨fun _ h => h.elim, fun _ _ _ h => h.elim, fun _ _ _ h => h⟩
  cases c with
  | task stackSize prio tick =>
      cases phase with
      | live => exact System.veil_unread p
      | deleted | freed => exact System.veil_gone p
  | _ => exact hNone

/-- The memory of the object is freed in both. -/
theorem agree_release (hTwin : m.Twin p (c.veil p .freed) (c.Frees p frees phase) n)
    (hPhase : phase ≠ .freed) (out : Observation) :
    Agree (Twin c p frees) ((release c p frees ⟨m, phase⟩).map fun y => (y, out))
      ((release c p frees ⟨n, phase⟩).map fun y => (y, out)) := by
  cases frees with
  | false => exact .stop
  | true =>
      obtain ⟨hSome, hSome'⟩ := hTwin.heap rfl hPhase
      obtain ⟨h, hFree⟩ := Option.isSome_iff_exists.mp hSome
      obtain ⟨g, hFree'⟩ := Option.isSome_iff_exists.mp hSome'
      simp only [release, if_true, hFree, hFree', Option.map_some]
      exact .go out ⟨rfl, hTwin.sys, hTwin.timers, hTwin.fifo, fun _ hNot => absurd rfl hNot⟩

theorem agree_deleteObject (hTwin : m.Twin p (c.veil p .live) (c.Frees p frees .live) n)
    (hVeil : ∀ phase, c.veil p phase = fun _ => False) :
    Agree (Twin c p frees) (deleteObject c p frees ⟨m, .live⟩)
      (deleteObject c p frees ⟨n, .live⟩) := by
  have hPend : n.sys.pending = m.sys.pending := by
    obtain ⟨g, mem, hEq, -⟩ := hTwin.sys
    rw [hEq]
    rfl
  simp only [deleteObject, hPend]
  split
  · refine agree_release (hTwin.setSys (hTwin.sys.map (f := fun s => s.clear p c) ?_ ?_)) (by simp) _
    · intro s g mem
      cases c <;> exact ⟨_, rfl⟩
    · rw [hVeil, hVeil]
      exact id
  · exact .go _ ⟨rfl, hTwin⟩

theorem agree_deleteTask {stackSize prio tick : Nat}
    (hTwin : m.Twin p (System.Unread p) ((Creator.task stackSize prio tick).Frees p frees .live) n) :
    Agree (Twin (.task stackSize prio tick) p frees) (deleteTask (.task stackSize prio tick) p frees
      ⟨m, .live⟩) (deleteTask (.task stackSize prio tick) p frees ⟨n, .live⟩) := by
  have hSame : (n.sys.k.dosTaskDelete p).2 = (m.sys.k.dosTaskDelete p).2 ∧
      n.sys.k.dosCurrentTask = m.sys.k.dosCurrentTask := by
    obtain ⟨g, mem, hEq, -⟩ := hTwin.sys
    rw [hEq, System.disguise_k, Kernel.taskDelete_withGets]
    exact ⟨rfl, rfl⟩
  have hMap (s : System) (g : TaskId → BitVec 32) (mem : Memory) :
      ∃ mem', (s.disguise g mem).dosTaskDelete p = (s.dosTaskDelete p).disguise g mem' := by
    refine ⟨mem, ?_⟩
    simp only [System.dosTaskDelete, System.disguise_k, Kernel.taskDelete_withGets]
    split <;> rfl
  simp only [deleteTask, hSame.1, hSame.2]
  split
  · rename_i hRefused
    rw [System.dosTaskDelete_refused hRefused, System.dosTaskDelete_refused (hSame.1.trans hRefused)]
    exact .go _ ⟨rfl, hTwin⟩
  · rename_i hDone
    rw [Bool.not_eq_false] at hDone
    have hGone := hTwin.sys.map (f := fun s => s.dosTaskDelete p) hMap
      fun hUnread => System.gone_delete hUnread.sound.pair hDone
    split
    · exact .go _ ⟨rfl, hGone, hTwin.timers, hTwin.fifo, fun hFrees _ => hTwin.heap hFrees (by simp)⟩
    · exact agree_release (hTwin.setSys hGone) (by simp) _

theorem agree_recycle (hTwin : m.Twin p (c.veil p .deleted) (c.Frees p frees .deleted) n) :
    Agree (Twin c p frees) (step c p frees ⟨m, .deleted⟩ .recycle)
      (step c p frees ⟨n, .deleted⟩ .recycle) := by
  have hFirst : (n.sys.k.dosGetFirstTask .recycle).2 = (m.sys.k.dosGetFirstTask .recycle).2 := by
    obtain ⟨g, mem, hEq, -⟩ := hTwin.sys
    rw [hEq]
    rfl
  simp only [step, hFirst]
  split
  · refine agree_release (hTwin.setSys (hTwin.sys.map
      (f := fun s => s.setKernel s.k.dosIdleRecycle) ?_ ?_)) (by simp) _
    · intro s g mem
      refine ⟨mem, ?_⟩
      simp only [System.disguise_k, Kernel.idleRecycle_withGets]
      rfl
    · cases c with
      | task => exact System.gone_recycle
      | _ => exact id
  · exact .stop

/-- Sessions that cannot be told apart stay so. -/
theorem Twin.agree (hTwin : Twin c p frees x y) (event : SessionEvent) :
    Agree (Twin c p frees) (x.step c p frees event) (y.step c p frees event) := by
  obtain ⟨m, phase⟩ := x
  obtain ⟨n, phase'⟩ := y
  obtain ⟨hPhase, hMachine⟩ := hTwin
  dsimp only at hPhase hMachine
  subst hPhase
  cases event with
  | op event =>
      have hAgree := hMachine.agree (veil_ok c p phase') event
      simp only [step, hMachine.timers]
      generalize m.step event = a at hAgree
      generalize n.step event = b at hAgree
      cases hAgree with
      | stop => exact .stop
      | go output hRel =>
          simp only [Option.bind_some, hRel.timers]
          split
          · rename_i hDropped
            have hVeil : c.veil p phase' = c.veil p .freed := by
              cases c with
              | swtmr => rfl
              | _ => cases hDropped.2.1
            rw [hVeil] at hRel
            exact agree_release hRel (by simp [hDropped.1]) output
          · exact .go output ⟨rfl, hRel⟩
  | delete =>
      cases phase' with
      | live =>
          cases c with
          | task => exact agree_deleteTask hMachine
          | sem | mutex | event | queue => exact agree_deleteObject hMachine fun _ => rfl
          | memp | swtmr | fifo => exact .stop
      | deleted | freed => exact .stop
  | recycle =>
      cases phase' with
      | deleted => exact agree_recycle hMachine
      | live | freed => exact .stop

end Session

end DoraOS
