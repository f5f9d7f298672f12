import DoraOS.Ipc.Objects
import DoraOS.Kernel.Run

/-! The IPC calls as an interleaved system. A task inside a call is at one of
a few points, and between two points it performs one interrupt-disabled
section or one unprotected statement. Any ready task may be switched to
between two steps unless the scheduler is locked, and interrupts may come at
any point. No step deletes a task (`dos_task_delete`, `dos_task_exit`), and an
interrupt does not call `dos_event_set`. -/
namespace DoraOS

/-- The call a task is blocked in, with the arguments it needs afterwards. -/
inductive Wait where
  | sem (i : Nat)
  | mutex (m : Nat)
  | queue (q : Nat) (op : QueueOp) (buff size : Nat)
  | event (e : Nat) (waitEvent : BitVec 32)
  deriving DecidableEq

def Wait.pendId : Wait → PendId
  | .sem i => .sem i
  | .mutex m => .mutex m
  | .queue q op _ _ => .queue q op
  | .event e _ => .event e

def Wait.isQueue : Wait → Bool
  | .queue _ _ _ _ => true
  | _ => false

/-- The point a task has reached. `wait` lasts from `dos_task_wait` to the test
of the timeout flag. `cleanUp` is behind a test that found the flag set, and
`unlink` is in the clean-up of `_dos_queue_handler`, which no section protects,
in front of its `dos_task_item_del`. The queue handler goes on through `copy`
and `test` to `wake` or `credit`; `dos_event_set` goes through `setTest`,
`setLock` and `setLoop`, with `setWake` behind a successful check of a waiter.
A task that uses the owner of an end item as a task is at `fault`. -/
inductive Pc where
  | user
  | wait (w : Wait)
  | cleanUp (w : Wait)
  | unlink (w : Wait)
  | copy (q : Nat) (op : QueueOp) (buff size : Nat)
  | test (q : Nat) (op : QueueOp)
  | wake (q : Nat) (op : QueueOp)
  | credit (q : Nat) (op : QueueOp)
  | setTest (e : Nat)
  | setLock (e : Nat)
  | setLoop (e value : Nat)
  | setWake (e value : Nat) (t : TaskId)
  | fault
  deriving DecidableEq

/-- What a call returns: a `dos_err`, or event bits. -/
inductive Result where
  | ok
  | nok
  | events (bits : BitVec 32)
  deriving DecidableEq

/-- What can be observed of a step. `granted` is the selection of a waiter by a
poster, `timedOut` the return of a wait that failed because of its timeout,
and `queueWake` the task that the wake step of a queue takes from a pend list.
A call from an interrupt has no calling task. -/
inductive Label where
  | created (t : TaskId) (prio : Nat)
  | returned (caller : Option TaskId) (result : Result)
  | waiting (t : TaskId) (id : PendId)
  | granted (t : TaskId)
  | timedOut (t : TaskId)
  | mutexGranted (m : Nat) (t : TaskId) (prio : Nat)
  | mutexNested (m : Nat) (t : TaskId)
  | mutexReleased (m : Nat) (t : TaskId)
  | queueWake (q : Nat) (op : QueueOp) (t : Option TaskId)
  deriving DecidableEq

/-- The kernel, the IPC objects, the memory that queues copy, and the point of
every task. `swtmrQueue` is the queue of the timer task, if it was created,
and `swtmrMsg` the address of the message that a tick overflow sends to it. -/
structure System where
  k : Kernel
  sem : Nat → Sem
  mutex : Nat → Mutex
  queue : Nat → Queue
  event : Nat → Event
  mem : Memory
  swtmrQueue : Option Nat
  swtmrMsg : Nat
  pc : TaskId → Pc

inductive Call where
  | semPend (i timeout : Nat)
  | semPost (i : Nat)
  | mutexPend (m timeout : Nat)
  | mutexPost (m : Nat)
  | queue (q : Nat) (op : QueueOp) (buff size timeout : Nat)
  | eventWait (e : Nat) (waitEvent op : BitVec 32) (timeout : Nat)
  | eventSet (e : Nat) (setEvent : BitVec 32)
  | sleep (sleepTick : Nat)
  | lock
  | unlock
  deriving DecidableEq

/-- A step of the system: a call or a further step of the current task, a
context switch, or an interrupt. -/
inductive SysEvent where
  | create (t : TaskId) (prio tick : Nat)
  | start
  | switch (t : TaskId)
  | tick
  | isrSemPost (i : Nat)
  | isrQueue (q : Nat) (op : QueueOp) (buff size : Nat)
  | call (a : Call)
  | next
  deriving DecidableEq

/-- `dos_get_first_task` and `dos_task_wake` of its result `t`, with the call
of the scheduler behind them. -/
def Kernel.wakeFirst (k : Kernel) (l : ListId) (t : TaskId) : Kernel :=
  ((k.dosGetFirstTask l).1.dosTaskWake t).dosScheduler

/-- The return to the priority a mutex saved, in `dos_mutex_post`. -/
def Kernel.restorePriority (k : Kernel) (t : TaskId) (prio : Nat) : Kernel :=
  if k.priority t ≠ prio then k.dosSetTaskPriority t prio else k

namespace System

variable (s : System)

def setKernel (k : Kernel) : System := { s with k := k }

def setPc (t : TaskId) (pc : Pc) : System :=
  { s with pc := fun t' => if t' = t then pc else s.pc t' }

def setSem (i : Nat) (x : Sem) : System :=
  { s with sem := fun i' => if i' = i then x else s.sem i' }

def setMutex (m : Nat) (x : Mutex) : System :=
  { s with mutex := fun m' => if m' = m then x else s.mutex m' }

def setQueue (q : Nat) (x : Queue) : System :=
  { s with queue := fun q' => if q' = q then x else s.queue q' }

def setEvent (e : Nat) (x : Event) : System :=
  { s with event := fun e' => if e' = e then x else s.event e' }

def pending (id : PendId) : List TaskId := s.k.lists.items (.pend id)

def isLocked : Prop := s.k.schedulerLock ≠ 0

instance : Decidable s.isLocked := inferInstanceAs (Decidable (_ ≠ _))

/-- `dos_task_wait` of the current task and the scheduling behind it. -/
def block (c : TaskId) (w : Wait) (timeout : Nat) : System × List Label :=
  ((s.setKernel (s.k.dosTaskWait c w.pendId timeout).dosScheduler).setPc c (.wait w),
    [.waiting c w.pendId])

def dosSemPend (c : TaskId) (i timeout : Nat) : System × List Label :=
  if (s.sem i).semCount > 0 then
    (s.setSem i { s.sem i with semCount := (s.sem i).semCount - 1 }, [.returned (some c) .ok])
  else if timeout = 0 ∨ s.isLocked then (s, [.returned (some c) .nok])
  else s.block c (.sem i) timeout

def dosSemPost (caller : Option TaskId) (i : Nat) : System × List Label :=
  if (s.sem i).semCount = (s.sem i).semMaxCount then (s, [.returned caller .nok])
  else
    match s.pending (.sem i) with
    | [] =>
        (s.setSem i { s.sem i with semCount := ((s.sem i).semCount + 1) % 2 ^ 32 },
          [.returned caller .ok])
    | t :: _ =>
        (s.setKernel (s.k.wakeFirst (.pend (.sem i)) t), [.granted t, .returned caller .ok])

def inherit (c : TaskId) (m : Nat) : System :=
  if (s.mutex m).mutexPriority > s.k.priority c then
    match (s.mutex m).mutexOwner with
    | some o => s.setKernel (s.k.dosSetTaskPriority o (s.k.priority c))
    | none => s
  else s

def dosMutexPend (c : TaskId) (m timeout : Nat) : System × List Label :=
  if (s.mutex m).mutexCount = 0 then
    (s.setMutex m { (s.mutex m).mutexCountInc with
        mutexPriority := s.k.priority c
        mutexOwner := some c },
      [.mutexGranted m c (s.k.priority c), .returned (some c) .ok])
  else if (s.mutex m).mutexOwner = some c then
    (s.setMutex m (s.mutex m).mutexCountInc, [.mutexNested m c, .returned (some c) .ok])
  else if timeout = 0 ∨ s.isLocked then (s, [.returned (some c) .nok])
  else (s.inherit c m).block c (.mutex m) timeout

/-- The end of `dos_mutex_post`: the mutex goes to the first waiter or is free. -/
def handOff (m : Nat) : System × List Label :=
  match s.pending (.mutex m) with
  | [] => (s.setMutex m {}, [])
  | t :: _ =>
      ((s.setKernel (s.k.wakeFirst (.pend (.mutex m)) t)).setMutex m
        { ({} : Mutex).mutexCountInc with
          mutexPriority := s.k.priority t
          mutexOwner := some t },
        [.granted t, .mutexGranted m t (s.k.priority t)])

def dosMutexPost (c : TaskId) (m : Nat) : System × List Label :=
  if (s.mutex m).mutexCount = 0 ∨ (s.mutex m).mutexOwner ≠ some c then
    (s, [.returned (some c) .nok])
  else if (s.mutex m).mutexCount - 1 ≠ 0 then
    (s.setMutex m { s.mutex m with mutexCount := (s.mutex m).mutexCount - 1 },
      [.mutexReleased m c, .returned (some c) .ok])
  else
    let r := (s.setKernel (s.k.restorePriority c (s.mutex m).mutexPriority)).handOff m
    (r.1, .mutexReleased m c :: r.2 ++ [.returned (some c) .ok])

def queueTake (q : Nat) (op : QueueOp) : System :=
  s.setQueue q ((s.queue q).setRwCount op ((s.queue q).queueRwCount op - 1))

def queueCredit (q : Nat) (op : QueueOp) : System :=
  s.setQueue q ((s.queue q).setRwCount op.other ((s.queue q).queueRwCount op.other + 1))

def queueCopy (q : Nat) (op : QueueOp) (buff size : Nat) : System :=
  let r := (s.queue q).dosQueueCopy s.mem buff size op
  { s.setQueue q r.1 with mem := r.2 }

/-- `_dos_queue_handler` up to the copy, or up to the wait. -/
def dosQueueHandler (c : TaskId) (q : Nat) (op : QueueOp) (buff size timeout : Nat) :
    System × List Label :=
  let size' := min size (s.queue q).queueSize
  if buff = 0 ∨ size = 0 then (s, [.returned (some c) .nok])
  else if (s.queue q).queueRwCount op = 0 then
    if timeout = 0 ∨ s.isLocked then (s, [.returned (some c) .nok])
    else s.block c (.queue q op buff size') timeout
  else ((s.queueTake q op).setPc c (.copy q op buff size'), [])

/-- `_dos_queue_handler` with timeout 0 when nothing comes between its
sections, as in an interrupt. -/
def dosQueueHandlerNow (caller : Option TaskId) (q : Nat) (op : QueueOp) (buff size : Nat) :
    System × List Label :=
  if buff = 0 ∨ size = 0 then (s, [.returned caller .nok])
  else if (s.queue q).queueRwCount op = 0 then (s, [.returned caller .nok])
  else
    let s₁ := (s.queueTake q op).queueCopy q op buff (min size (s.queue q).queueSize)
    match s₁.pending (.queue q op.other) with
    | [] => (s₁.queueCredit q op, [.returned caller .ok])
    | t :: _ =>
        (s₁.setKernel (s₁.k.wakeFirst (.pend (.queue q op.other)) t),
          [.queueWake q op.other (some t), .granted t, .returned caller .ok])

def setWaitEvent (c : TaskId) (waitEvent op : BitVec 32) : System :=
  s.setKernel (s.k.mapTcb c fun tcb => { tcb with waitEvent := waitEvent, waitEventOpt := op })

def dosEventWait (c : TaskId) (e : Nat) (waitEvent op : BitVec 32) (timeout : Nat) :
    System × List Label :=
  if waitEvent = 0 ∨ op &&& Event.waitEventOp = Event.waitEventOp then
    (s, [.returned (some c) (.events 0)])
  else
    let r := (s.event e).dosCheckEvent waitEvent op
    if r.2 then (s.setEvent e r.1, [.returned (some c) (.events waitEvent)])
    else if timeout = 0 ∨ s.isLocked then (s, [.returned (some c) (.events 0)])
    else (s.setWaitEvent c waitEvent op).block c (.event e waitEvent) timeout

/-- `dos_event_set` up to the end of its section. -/
def dosEventSet (c : TaskId) (e : Nat) (setEvent : BitVec 32) : System × List Label :=
  if setEvent = 0 then (s, [.returned (some c) (.events 0)])
  else
    ((s.setEvent e { eventFlag := (s.event e).eventFlag ||| setEvent }).setPc c (.setTest e), [])

def call (c : TaskId) : Call → System × List Label
  | .semPend i timeout => s.dosSemPend c i timeout
  | .semPost i => s.dosSemPost (some c) i
  | .mutexPend m timeout => s.dosMutexPend c m timeout
  | .mutexPost m => s.dosMutexPost c m
  | .queue q op buff size timeout => s.dosQueueHandler c q op buff size timeout
  | .eventWait e waitEvent op timeout => s.dosEventWait c e waitEvent op timeout
  | .eventSet e setEvent => s.dosEventSet c e setEvent
  | .sleep sleepTick => (s.setKernel (s.k.dosTaskSleep c sleepTick), [])
  | .lock => (s.setKernel s.k.dosSchedulerLock, [])
  | .unlock => (s.setKernel s.k.dosSchedulerUnlock, [])

inductive SemPosts (caller : Option TaskId) (i : Nat) : System × List Label → Prop where
  | full : SemPosts caller i (s, [.returned caller .nok])
  | credit (hRoom : (s.sem i).semCount ≠ (s.sem i).semMaxCount) (hEmpty : s.pending (.sem i) = []) :
      SemPosts caller i
        (s.setSem i { s.sem i with semCount := ((s.sem i).semCount + 1) % 2 ^ 32 },
          [.returned caller .ok])
  | wake (t : TaskId) (rest : List TaskId) (hRoom : (s.sem i).semCount ≠ (s.sem i).semMaxCount)
      (hHead : s.pending (.sem i) = t :: rest) :
      SemPosts caller i
        (s.setKernel (s.k.wakeFirst (.pend (.sem i)) t), [.granted t, .returned caller .ok])

inductive QueueNow (caller : Option TaskId) (q : Nat) (op : QueueOp) (buff size : Nat) :
    System × List Label → Prop where
  | fails : QueueNow caller q op buff size (s, [.returned caller .nok])
  | credit (hCount : (s.queue q).queueRwCount op ≠ 0)
      (hEmpty : s.pending (.queue q op.other) = []) :
      QueueNow caller q op buff size
        (((s.queueTake q op).queueCopy q op buff (min size (s.queue q).queueSize)).queueCredit q op,
          [.returned caller .ok])
  | wake (t : TaskId) (rest : List TaskId) (hCount : (s.queue q).queueRwCount op ≠ 0)
      (hHead : s.pending (.queue q op.other) = t :: rest) (hArgs : ¬(buff = 0 ∨ size = 0)) :
      QueueNow caller q op buff size
        (((s.queueTake q op).queueCopy q op buff (min size (s.queue q).queueSize)).setKernel
          (s.k.wakeFirst (.pend (.queue q op.other)) t),
          [.queueWake q op.other (some t), .granted t, .returned caller .ok])

/-- The system in which `c` has the priority back that the mutex saved. -/
def released (c : TaskId) (m : Nat) : System :=
  s.setKernel (s.k.restorePriority c (s.mutex m).mutexPriority)

/-- What a call of the task `c` does, one constructor for each way through the
code. A call that fails, or that finds its arguments wrong, changes nothing. -/
inductive Calls (c : TaskId) : Call → System × List Label → Prop where
  | fails (a : Call) (result : Result) (hResult : result ≠ .ok) :
      Calls c a (s, [.returned (some c) result])
  | semTake (i timeout : Nat) (hSome : 0 < (s.sem i).semCount) :
      Calls c (.semPend i timeout) (s.setSem i { s.sem i with semCount := (s.sem i).semCount - 1 },
        [.returned (some c) .ok])
  | semBlock (i timeout : Nat) (hNone : (s.sem i).semCount = 0) :
      Calls c (.semPend i timeout) (s.block c (.sem i) timeout)
  | semPost (i : Nat) {r : System × List Label} (hPost : s.SemPosts (some c) i r) :
      Calls c (.semPost i) r
  | mutexTake (m timeout : Nat) (hFree : (s.mutex m).mutexCount = 0) :
      Calls c (.mutexPend m timeout) (s.setMutex m { (s.mutex m).mutexCountInc with
          mutexPriority := s.k.priority c
          mutexOwner := some c },
        [.mutexGranted m c (s.k.priority c), .returned (some c) .ok])
  | mutexNest (m timeout : Nat) (hHeld : (s.mutex m).mutexCount ≠ 0)
      (hOwner : (s.mutex m).mutexOwner = some c) :
      Calls c (.mutexPend m timeout) (s.setMutex m (s.mutex m).mutexCountInc,
        [.mutexNested m c, .returned (some c) .ok])
  | mutexBlock (m timeout : Nat) (hHeld : (s.mutex m).mutexCount ≠ 0)
      (hOwner : (s.mutex m).mutexOwner ≠ some c) (hWait : ¬(timeout = 0 ∨ s.isLocked)) :
      Calls c (.mutexPend m timeout) ((s.inherit c m).block c (.mutex m) timeout)
  | mutexUnnest (m : Nat) (hOwner : (s.mutex m).mutexOwner = some c)
      (hNested : 1 < (s.mutex m).mutexCount) :
      Calls c (.mutexPost m)
        (s.setMutex m { s.mutex m with mutexCount := (s.mutex m).mutexCount - 1 },
          [.mutexReleased m c, .returned (some c) .ok])
  | mutexFree (m : Nat) (hOwner : (s.mutex m).mutexOwner = some c)
      (hLast : (s.mutex m).mutexCount = 1) (hEmpty : (s.released c m).pending (.mutex m) = []) :
      Calls c (.mutexPost m)
        ((s.released c m).setMutex m {}, [.mutexReleased m c, .returned (some c) .ok])
  | mutexHand (m : Nat) (t : TaskId) (rest : List TaskId)
      (hOwner : (s.mutex m).mutexOwner = some c) (hLast : (s.mutex m).mutexCount = 1)
      (hHead : (s.released c m).pending (.mutex m) = t :: rest) :
      Calls c (.mutexPost m)
        (((s.released c m).setKernel ((s.released c m).k.wakeFirst (.pend (.mutex m)) t)).setMutex m
          { ({} : Mutex).mutexCountInc with
            mutexPriority := (s.released c m).k.priority t
            mutexOwner := some t },
          [.mutexReleased m c, .granted t, .mutexGranted m t ((s.released c m).k.priority t),
            .returned (some c) .ok])
  | queueTake (q : Nat) (op : QueueOp) (buff size size' timeout : Nat)
      (hCount : (s.queue q).queueRwCount op ≠ 0) :
      Calls c (.queue q op buff size timeout)
        ((s.queueTake q op).setPc c (.copy q op buff size'), [])
  | queueBlock (q : Nat) (op : QueueOp) (buff size size' timeout : Nat)
      (hCount : (s.queue q).queueRwCount op = 0) (hArgs : ¬(buff = 0 ∨ size = 0))
      (hWait : ¬(timeout = 0 ∨ s.isLocked)) :
      Calls c (.queue q op buff size timeout) (s.block c (.queue q op buff size') timeout)
  | eventTake (e : Nat) (waitEvent op : BitVec 32) (timeout : Nat) (event : Event) :
      Calls c (.eventWait e waitEvent op timeout)
        (s.setEvent e event, [.returned (some c) (.events waitEvent)])
  | eventBlock (e : Nat) (waitEvent op : BitVec 32) (timeout : Nat) :
      Calls c (.eventWait e waitEvent op timeout)
        ((s.setWaitEvent c waitEvent op).block c (.event e waitEvent) timeout)
  | eventSet (e : Nat) (setEvent : BitVec 32) (event : Event) :
      Calls c (.eventSet e setEvent) ((s.setEvent e event).setPc c (.setTest e), [])
  | sleep (sleepTick : Nat) :
      Calls c (.sleep sleepTick) (s.setKernel (s.k.dosTaskSleep c sleepTick), [])
  | lock : Calls c .lock (s.setKernel s.k.dosSchedulerLock, [])
  | unlock : Calls c .unlock (s.setKernel s.k.dosSchedulerUnlock, [])

/-- The test of the timeout flag when a waiter runs again. -/
def resumeWait (c : TaskId) (w : Wait) : System × List Label :=
  if s.k.is c .timeout then (s.setPc c (.cleanUp w), [])
  else
    match w with
    | .queue q op buff size => (s.setPc c (.copy q op buff size), [])
    | .event _ _ => (s.setPc c .user, [.returned (some c) (.events (s.k.tcb c).eventGet)])
    | _ => (s.setPc c .user, [.returned (some c) .ok])

def cleanUpWait (c : TaskId) (w : Wait) : System × List Label :=
  match w with
  | .queue _ _ _ _ =>
      ((s.setKernel ((s.k.dosResetTaskStatus c
        (Flag.timeout.mask ||| Flag.suspend.mask)).dosSetTaskStatus
        c Flag.ready.mask)).setPc c (.unlink w), [])
  | .event _ waitEvent =>
      let s₁ := s.setKernel (s.k.dosTimeoutCleanUp c)
      ((s₁.setWaitEvent c ((s₁.k.tcb c).waitEvent &&& ~~~waitEvent) 0).setPc c .user, [.timedOut c])
  | _ => ((s.setKernel (s.k.dosTimeoutCleanUp c)).setPc c .user, [.timedOut c])

/-- The wake step of the queue handler. -/
def queueWake (c : TaskId) (q : Nat) (op : QueueOp) : System × List Label :=
  match s.pending (.queue q op.other) with
  | [] => (s.setPc c .fault, [.queueWake q op.other none])
  | t :: _ =>
      ((s.setKernel (s.k.wakeFirst (.pend (.queue q op.other)) t)).setPc c .user,
        [.queueWake q op.other (some t), .granted t, .returned (some c) .ok])

/-- One turn of the loop of `dos_event_set`, up to the wake. -/
def eventSetTurn (c : TaskId) (e value : Nat) : System × List Label :=
  let r := s.k.lists.dosGetNextTask (.pend (.event e))
  match r.2 with
  | none => (s.setPc c .fault, [])
  | some t =>
      let s₁ := s.setKernel { s.k with lists := r.1 }
      let check := (s.event e).dosCheckEvent (s.k.tcb t).waitEvent (s.k.tcb t).waitEventOpt
      if check.2 then
        (((s₁.setEvent e check.1).setKernel
            (s₁.k.mapTcb t fun tcb => { tcb with eventGet := tcb.waitEvent })).setPc c
          (.setWake e value t), [.granted t])
      else (s₁.setPc c (.setLoop e value), [])

def resume (c : TaskId) : Pc → Option (System × List Label)
  | .user => none
  | .wait w => some (s.resumeWait c w)
  | .cleanUp w => some (s.cleanUpWait c w)
  | .unlink _ => some ((s.setKernel (s.k.dosTaskItemDel .pend c)).setPc c .user, [.timedOut c])
  | .copy q op buff size => some ((s.queueCopy q op buff size).setPc c (.test q op), [])
  | .test q op =>
      if s.pending (.queue q op.other) = [] then some (s.setPc c (.credit q op), [])
      else some (s.setPc c (.wake q op), [])
  | .wake q op => some (s.queueWake c q op)
  | .credit q op => some ((s.queueCredit q op).setPc c .user, [.returned (some c) .ok])
  | .setTest e =>
      if s.pending (.event e) = [] then
        some (s.setPc c .user, [.returned (some c) (.events (s.event e).eventFlag)])
      else some (s.setPc c (.setLock e), [])
  | .setLock e =>
      some ((s.setKernel s.k.dosSchedulerLock).setPc c
        (.setLoop e (s.pending (.event e)).length), [])
  | .setLoop e 0 =>
      some ((s.setKernel s.k.dosSchedulerUnlock).setPc c .user,
        [.returned (some c) (.events (s.event e).eventFlag)])
  | .setLoop e (value + 1) => some (s.eventSetTurn c e value)
  | .setWake e value t =>
      some ((s.setKernel (s.k.dosTaskWake t).dosScheduler).setPc c (.setLoop e value), [])
  | .fault => none

/-- What the next step of a task inside a call does, one constructor for each
way through the code. -/
inductive Resumes (c : TaskId) : Pc → System × List Label → Prop where
  | giveUp (w : Wait) (hTimeout : s.k.is c .timeout = true) :
      Resumes c (.wait w) (s.setPc c (.cleanUp w), [])
  | message (q : Nat) (op : QueueOp) (buff size : Nat) (hNot : s.k.is c .timeout = false) :
      Resumes c (.wait (.queue q op buff size)) (s.setPc c (.copy q op buff size), [])
  | returned (w : Wait) (result : Result) (hNot : s.k.is c .timeout = false) :
      Resumes c (.wait w) (s.setPc c .user, [.returned (some c) result])
  | reset (w : Wait) :
      Resumes c (.cleanUp w) ((s.setKernel ((s.k.dosResetTaskStatus c
        (Flag.timeout.mask ||| Flag.suspend.mask)).dosSetTaskStatus c Flag.ready.mask)).setPc c
          (.unlink w), [])
  | cleanUpEvent (w : Wait) (waitEvent : BitVec 32) (hNot : w.isQueue = false) :
      Resumes c (.cleanUp w) (((s.setKernel (s.k.dosTimeoutCleanUp c)).setWaitEvent c waitEvent
        0).setPc c .user, [.timedOut c])
  | cleanUp (w : Wait) (hNot : w.isQueue = false) :
      Resumes c (.cleanUp w) ((s.setKernel (s.k.dosTimeoutCleanUp c)).setPc c .user, [.timedOut c])
  | unlink (w : Wait) :
      Resumes c (.unlink w) ((s.setKernel (s.k.dosTaskItemDel .pend c)).setPc c .user, [.timedOut c])
  | copy (q : Nat) (op : QueueOp) (buff size : Nat) :
      Resumes c (.copy q op buff size) ((s.queueCopy q op buff size).setPc c (.test q op), [])
  | empty (q : Nat) (op : QueueOp) (hEmpty : s.pending (.queue q op.other) = []) :
      Resumes c (.test q op) (s.setPc c (.credit q op), [])
  | waiter (q : Nat) (op : QueueOp) (hWaiter : s.pending (.queue q op.other) ≠ []) :
      Resumes c (.test q op) (s.setPc c (.wake q op), [])
  | noWaiter (q : Nat) (op : QueueOp) (hEmpty : s.pending (.queue q op.other) = []) :
      Resumes c (.wake q op) (s.setPc c .fault, [.queueWake q op.other none])
  | woken (q : Nat) (op : QueueOp) (t : TaskId) (rest : List TaskId)
      (hHead : s.pending (.queue q op.other) = t :: rest) :
      Resumes c (.wake q op) ((s.setKernel (s.k.wakeFirst (.pend (.queue q op.other)) t)).setPc c
        .user, [.queueWake q op.other (some t), .granted t, .returned (some c) .ok])
  | credit (q : Nat) (op : QueueOp) :
      Resumes c (.credit q op) ((s.queueCredit q op).setPc c .user, [.returned (some c) .ok])
  | setEmpty (e : Nat) (hEmpty : s.pending (.event e) = []) :
      Resumes c (.setTest e)
        (s.setPc c .user, [.returned (some c) (.events (s.event e).eventFlag)])
  | setWaiters (e : Nat) (hWaiter : s.pending (.event e) ≠ []) :
      Resumes c (.setTest e) (s.setPc c (.setLock e), [])
  | setLock (e : Nat) :
      Resumes c (.setLock e) ((s.setKernel s.k.dosSchedulerLock).setPc c
        (.setLoop e (s.pending (.event e)).length), [])
  | setDone (e : Nat) :
      Resumes c (.setLoop e 0) ((s.setKernel s.k.dosSchedulerUnlock).setPc c .user,
        [.returned (some c) (.events (s.event e).eventFlag)])
  | setLost (e value : Nat) (hNone : (s.k.lists.dosGetNextTask (.pend (.event e))).2 = none) :
      Resumes c (.setLoop e (value + 1)) (s.setPc c .fault, [])
  | setSelect (e value : Nat) (t : TaskId) (event : Event)
      (hNext : (s.k.lists.dosGetNextTask (.pend (.event e))).2 = some t)
      (hCheck : ((s.event e).dosCheckEvent (s.k.tcb t).waitEvent (s.k.tcb t).waitEventOpt).2 = true) :
      Resumes c (.setLoop e (value + 1)) (((s.setEvent e event).setKernel
        (Kernel.mapTcb { s.k with lists := (s.k.lists.dosGetNextTask (.pend (.event e))).1 } t
          fun tcb => { tcb with eventGet := tcb.waitEvent })).setPc c (.setWake e value t),
        [.granted t])
  | setTurn (e value : Nat) :
      Resumes c (.setLoop e (value + 1)) ((s.setKernel { s.k with
        lists := (s.k.lists.dosGetNextTask (.pend (.event e))).1 }).setPc c (.setLoop e value), [])
  | setWake (e value : Nat) (t : TaskId) :
      Resumes c (.setWake e value t)
        ((s.setKernel (s.k.dosTaskWake t).dosScheduler).setPc c (.setLoop e value), [])

/-- `dos_swtmr_overflow`. A `struct dos_swtmr_msg` has 8 bytes. -/
def dosSwtmrOverflow : System × List Label :=
  match s.swtmrQueue with
  | some q => s.dosQueueHandlerNow none q .write s.swtmrMsg 8
  | none => (s, [])

def dosTickUpdate : System × List Label :=
  let s₁ := s.setKernel s.k.dosTickAdvance
  let r := if s₁.k.dosTickCount = 0 then s₁.dosSwtmrOverflow else (s₁, [])
  (r.1.setKernel r.1.k.dosTickTimeouts.dosScheduler, r.2)

/-- A task other than the idle task that is the current one and ready. -/
def Running (c : TaskId) : Prop :=
  s.k.systemIsRun = true ∧ s.k.dosCurrentTask = some c ∧ s.k.Live c ∧ s.k.is c .ready = true ∧
    s.k.dosIdleTask ≠ some c

instance (c : TaskId) : Decidable (s.Running c) := inferInstanceAs (Decidable (_ ∧ _))

def byCurrent (f : TaskId → Option (System × List Label)) : Option (System × List Label) :=
  match s.k.dosCurrentTask with
  | some c => if s.Running c then f c else none
  | none => none

def exec : SysEvent → Option (System × List Label)
  | .create t prio tick =>
      (kernelStep s.k (.create t prio tick)).map fun k => (s.setKernel k, [.created t prio])
  | .start => (kernelStep s.k .start).map fun k => (s.setKernel k, [])
  | .switch t =>
      if s.isLocked then none else (kernelStep s.k (.switch t)).map fun k => (s.setKernel k, [])
  | .tick => if s.k.systemIsRun = true then some s.dosTickUpdate else none
  | .isrSemPost i => if s.k.systemIsRun = true then some (s.dosSemPost none i) else none
  | .isrQueue q op buff size =>
      if s.k.systemIsRun = true then some (s.dosQueueHandlerNow none q op buff size) else none
  | .call a => s.byCurrent fun c => if s.pc c = .user then some (s.call c a) else none
  | .next => s.byCurrent fun c => s.resume c (s.pc c)

/-- The system behind the count of a tick, and behind its timeouts. -/
def advanced : System := s.setKernel s.k.dosTickAdvance

def expired : System := s.setKernel s.k.dosTickTimeouts.dosScheduler

inductive Steps : SysEvent → System × List Label → Prop where
  | create (t : TaskId) (prio tick : Nat) {k : Kernel}
      (hCreate : kernelStep s.k (.create t prio tick) = some k) :
      Steps (.create t prio tick) (s.setKernel k, [.created t prio])
  | start : Steps .start (s.setKernel s.k.dosSystemStartRun, [])
  | switch (t : TaskId) (hFree : ¬s.isLocked)
      (hSwitch : kernelStep s.k (.switch t) = some (s.k.switchTo t)) :
      Steps (.switch t) (s.setKernel (s.k.switchTo t), [])
  | tick : Steps .tick (s.advanced.expired, [])
  | overflow (q : Nat) (sent : System × List Label) (hQueue : s.swtmrQueue = some q)
      (hSend : s.advanced.QueueNow none q .write s.swtmrMsg 8 sent)
      (hOverflow : s.advanced.k.dosTickCount = 0) :
      Steps .tick (sent.1.expired, sent.2)
  | isrSemPost (i : Nat) {r : System × List Label} (hPost : s.SemPosts none i r) :
      Steps (.isrSemPost i) r
  | isrQueue (q : Nat) (op : QueueOp) (buff size : Nat) {r : System × List Label}
      (hSend : s.QueueNow none q op buff size r) : Steps (.isrQueue q op buff size) r
  | call (c : TaskId) (a : Call) {r : System × List Label} (hRun : s.Running c)
      (hUser : s.pc c = .user) (hCall : s.Calls c a r) : Steps (.call a) r
  | next (c : TaskId) {pc : Pc} {r : System × List Label} (hRun : s.Running c) (hPc : s.pc c = pc)
      (hNext : s.Resumes c pc r) : Steps .next r

/-- The system after `dos_task_init` and the creation of the objects. -/
structure Initial (cfg : Config) (idle : TaskId) : Prop where
  kernel : Kernel.dosTaskInit cfg idle = some s.k
  mutex : ∀ m, s.mutex m = {}
  pc : ∀ t, s.pc t = .user

/-- The system with new objects, without a timer task. -/
def boot (k : Kernel) (sem : Nat → Sem) (queue : Nat → Queue) : System where
  k := k
  sem := sem
  mutex _ := {}
  queue := queue
  event _ := {}
  mem _ := 0
  swtmrQueue := none
  swtmrMsg := 0
  pc _ := .user

theorem initial_boot {cfg : Config} {idle : TaskId} {k : Kernel}
    (h : Kernel.dosTaskInit cfg idle = some k) (sem : Nat → Sem) (queue : Nat → Queue) :
    (boot k sem queue).Initial cfg idle :=
  ⟨h, fun _ => rfl, fun _ => rfl⟩

/-- The shipped configuration with empty binary semaphores and with queues of
one message of four bytes. -/
def small : System :=
  boot ((Kernel.dosTaskInit shippedConfig 0).get (by decide)) (fun _ => ⟨0, 1⟩) fun q =>
    { queueLen := 1
      queueSize := 4
      queueHeadPtr := 0x20000054 + 88 * q
      queueTailPtr := 0x20000058 + 88 * q
      queueRwCount := fun op => match op with
        | .read => 0
        | .write => 1
      queueRwPtr := fun _ => 0x20000054 + 88 * q }

theorem initial_small : small.Initial shippedConfig 0 :=
  initial_boot (Option.some_get _).symm _ _

section Branches

variable {s} {c : TaskId}

theorem semPosts_semPost (caller : Option TaskId) (i : Nat) :
    s.SemPosts caller i (s.dosSemPost caller i) := by
  unfold dosSemPost
  split
  · exact SemPosts.full
  · rename_i hRoom
    split
    · rename_i hEmpty
      exact SemPosts.credit hRoom hEmpty
    · rename_i t rest hHead
      exact SemPosts.wake t rest hRoom hHead

theorem queueNow_queueHandlerNow (caller : Option TaskId) (q : Nat) (op : QueueOp)
    (buff size : Nat) :
    s.QueueNow caller q op buff size (s.dosQueueHandlerNow caller q op buff size) := by
  unfold dosQueueHandlerNow
  dsimp only
  split
  · exact QueueNow.fails
  · rename_i hArgs
    split
    · exact QueueNow.fails
    · rename_i hCount
      split
      · rename_i hEmpty
        exact QueueNow.credit hCount hEmpty
      · rename_i t rest hHead
        exact QueueNow.wake t rest hCount hHead hArgs

theorem calls_mutexPost (m : Nat) : s.Calls c (.mutexPost m) (s.dosMutexPost c m) := by
  unfold dosMutexPost
  split
  · exact Calls.fails _ _ (by simp)
  · rename_i hHeld
    obtain ⟨hCount, hOwner⟩ := not_or.mp hHeld
    replace hOwner := not_not.mp hOwner
    split
    · exact Calls.mutexUnnest m hOwner (by omega)
    · have hLast : (s.mutex m).mutexCount = 1 := by omega
      dsimp only
      unfold handOff
      split
      · rename_i hEmpty
        exact Calls.mutexFree m hOwner hLast hEmpty
      · rename_i t rest hHead
        exact Calls.mutexHand m t rest hOwner hLast hHead

theorem calls_call (a : Call) : s.Calls c a (s.call c a) := by
  cases a with
  | semPend i timeout =>
      simp only [call, dosSemPend]
      split
      · rename_i hSome
        exact Calls.semTake i timeout hSome
      · rename_i hNone
        split
        · exact Calls.fails _ _ (by simp)
        · exact Calls.semBlock i timeout (Nat.eq_zero_of_not_pos hNone)
  | semPost i => exact Calls.semPost i (semPosts_semPost (some c) i)
  | mutexPend m timeout =>
      simp only [call, dosMutexPend]
      split
      · rename_i hFree
        exact Calls.mutexTake m timeout hFree
      · rename_i hHeld
        split
        · rename_i hOwner
          exact Calls.mutexNest m timeout hHeld hOwner
        · rename_i hOwner
          split
          · exact Calls.fails _ _ (by simp)
          · rename_i hWait
            exact Calls.mutexBlock m timeout hHeld hOwner hWait
  | mutexPost m => exact calls_mutexPost m
  | queue q op buff size timeout =>
      simp only [call, dosQueueHandler]
      split
      · exact Calls.fails _ _ (by simp)
      · rename_i hArgs
        split
        · rename_i hCount
          split
          · exact Calls.fails _ _ (by simp)
          · rename_i hWait
            exact Calls.queueBlock q op buff size _ timeout hCount hArgs hWait
        · rename_i hCount
          exact Calls.queueTake q op buff size _ timeout hCount
  | eventWait e waitEvent op timeout =>
      simp only [call, dosEventWait]
      split
      · exact Calls.fails _ _ (by simp)
      · split
        · exact Calls.eventTake e waitEvent op timeout _
        · split
          · exact Calls.fails _ _ (by simp)
          · exact Calls.eventBlock e waitEvent op timeout
  | eventSet e setEvent =>
      simp only [call, dosEventSet]
      split
      · exact Calls.fails _ _ (by simp)
      · exact Calls.eventSet e setEvent _
  | sleep sleepTick => exact Calls.sleep sleepTick
  | lock => exact Calls.lock
  | unlock => exact Calls.unlock

theorem resumes_wait (w : Wait) : s.Resumes c (.wait w) (s.resumeWait c w) := by
  unfold resumeWait
  split
  · rename_i hTimeout
    exact Resumes.giveUp w hTimeout
  · rename_i hTimeout
    have hNot : s.k.is c .timeout = false := by simpa using hTimeout
    split
    · exact Resumes.message _ _ _ _ hNot
    · exact Resumes.returned _ _ hNot
    · exact Resumes.returned _ _ hNot

theorem resumes_cleanUp (w : Wait) : s.Resumes c (.cleanUp w) (s.cleanUpWait c w) := by
  unfold cleanUpWait
  split
  · exact Resumes.reset _
  · exact Resumes.cleanUpEvent _ _ rfl
  · rename_i hQueue _
    refine Resumes.cleanUp _ ?_
    cases w with
    | queue q op buff size => exact absurd rfl (hQueue q op buff size)
    | _ => rfl

theorem resumes_wake (q : Nat) (op : QueueOp) :
    s.Resumes c (.wake q op) (s.queueWake c q op) := by
  unfold queueWake
  split
  · rename_i hEmpty
    exact Resumes.noWaiter q op hEmpty
  · rename_i t rest hHead
    exact Resumes.woken q op t rest hHead

theorem resumes_setTurn (e value : Nat) :
    s.Resumes c (.setLoop e (value + 1)) (s.eventSetTurn c e value) := by
  unfold eventSetTurn
  dsimp only
  split
  · rename_i hNone
    exact Resumes.setLost e value hNone
  · rename_i t hNext
    split
    · rename_i hCheck
      exact Resumes.setSelect e value t _ hNext hCheck
    · exact Resumes.setTurn e value

theorem resumes_of_resume {pc : Pc} {r : System × List Label} (hStep : s.resume c pc = some r) :
    s.Resumes c pc r := by
  cases pc with
  | user => cases hStep
  | wait w =>
      cases hStep
      exact resumes_wait w
  | cleanUp w =>
      cases hStep
      exact resumes_cleanUp w
  | unlink w =>
      cases hStep
      exact Resumes.unlink w
  | copy q op buff size =>
      cases hStep
      exact Resumes.copy q op buff size
  | test q op =>
      simp only [resume] at hStep
      split at hStep
      · rename_i hEmpty
        cases hStep
        exact Resumes.empty q op hEmpty
      · rename_i hWaiter
        cases hStep
        exact Resumes.waiter q op hWaiter
  | wake q op =>
      cases hStep
      exact resumes_wake q op
  | credit q op =>
      cases hStep
      exact Resumes.credit q op
  | setTest e =>
      simp only [resume] at hStep
      split at hStep
      · rename_i hEmpty
        cases hStep
        exact Resumes.setEmpty e hEmpty
      · rename_i hWaiter
        cases hStep
        exact Resumes.setWaiters e hWaiter
  | setLock e =>
      cases hStep
      exact Resumes.setLock e
  | setLoop e value =>
      cases value with
      | zero =>
          cases hStep
          exact Resumes.setDone e
      | succ value =>
          cases hStep
          exact resumes_setTurn e value
  | setWake e value t =>
      cases hStep
      exact Resumes.setWake e value t
  | fault => cases hStep

theorem byCurrent_some {f : TaskId → Option (System × List Label)} {r : System × List Label}
    (h : s.byCurrent f = some r) : ∃ c, s.Running c ∧ f c = some r := by
  unfold byCurrent at h
  split at h
  · rename_i c _
    split at h
    · rename_i hRun
      exact ⟨c, hRun, h⟩
    · cases h
  · cases h

theorem call_some {a : Call} {r : System × List Label} (h : s.exec (.call a) = some r) :
    ∃ c, s.Running c ∧ s.pc c = .user ∧ s.call c a = r := by
  obtain ⟨c, hRun, hCall⟩ := byCurrent_some h
  replace hCall := Transition.guard_some hCall
  exact ⟨c, hRun, hCall.1, hCall.2⟩

theorem next_some {r : System × List Label} (h : s.exec .next = some r) :
    ∃ c, s.Running c ∧ s.resume c (s.pc c) = some r :=
  byCurrent_some h

theorem steps_tickUpdate : s.Steps .tick s.dosTickUpdate := by
  unfold dosTickUpdate dosSwtmrOverflow
  dsimp only
  split
  · rename_i hOverflow
    split
    · rename_i q hQueue
      exact Steps.overflow q _ hQueue (queueNow_queueHandlerNow none q .write _ 8) hOverflow
    · exact Steps.tick
  · exact Steps.tick

/-- Every step is one of those ways. -/
theorem steps_of_exec {event : SysEvent} {r : System × List Label} (hStep : s.exec event = some r) :
    s.Steps event r := by
  cases event with
  | create t prio tick =>
      simp only [exec, Option.map_eq_some_iff] at hStep
      obtain ⟨k, hCreate, rfl⟩ := hStep
      exact Steps.create t prio tick hCreate
  | start =>
      simp only [exec, kernelStep, Option.map_eq_some_iff, Option.ite_none_right_eq_some,
        Option.some.injEq] at hStep
      obtain ⟨k, ⟨_, rfl⟩, rfl⟩ := hStep
      exact Steps.start
  | switch t =>
      simp only [exec, Option.ite_none_left_eq_some, Option.map_eq_some_iff] at hStep
      obtain ⟨hFree, k, hSwitch, rfl⟩ := hStep
      have hk := (Transition.guard_some hSwitch).2
      subst hk
      exact Steps.switch t hFree hSwitch
  | tick =>
      replace hStep := Transition.guard_some hStep
      rw [← hStep.2]
      exact steps_tickUpdate
  | isrSemPost i =>
      replace hStep := Transition.guard_some hStep
      rw [← hStep.2]
      exact Steps.isrSemPost i (semPosts_semPost none i)
  | isrQueue q op buff size =>
      replace hStep := Transition.guard_some hStep
      rw [← hStep.2]
      exact Steps.isrQueue q op buff size (queueNow_queueHandlerNow none q op buff size)
  | call a =>
      obtain ⟨c, hRun, hUser, rfl⟩ := call_some hStep
      exact Steps.call c a hRun hUser (calls_call a)
  | next =>
      obtain ⟨c, hRun, hResume⟩ := next_some hStep
      exact Steps.next c hRun rfl (resumes_of_resume hResume)

end Branches

end System

structure Trace where
  sys : System
  past : List Label

def traceStep (tr : Trace) (event : SysEvent) : Option Trace :=
  (tr.sys.exec event).map fun r => { sys := r.1, past := tr.past ++ r.2 }

end DoraOS
