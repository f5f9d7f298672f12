import DoraOS.Library.KeyOrder
import DoraOS.Library.Runs
import Mathlib.Algebra.Group.Nat.Defs

/-! Software timers. Commands and the notice of a tick overflow reach the timer
task through a bounded queue. The task keeps the running timers in two lists
that are ordered by the wake time, and sleeps in `dos_queue_read` until the
first timer of the list `_dos_swtmr_ptr` is due. Between two of its steps any
number of ticks may come, and the calls of other tasks go on. Nothing else
writes into the block of a freed timer. -/
namespace DoraOS

abbrev SwtmrId := Nat

inductive SwtmrStatus where
  | unused
  | create
  | running
  | stop
  deriving DecidableEq

/-- `enum dos_swtmr_option` without the reserved reset. -/
inductive SwtmrOption where
  | start
  | stop
  | delete
  | overflow
  deriving DecidableEq

/-- `struct dos_swtmr` without its links and the callback. `due` is the wake
time as it would be if the tick counter did not wrap; no function reads it. -/
structure Swtmr where
  swtmrStatus : SwtmrStatus := .unused
  swtmrMode : Nat := 0
  swtmrTimeout : Nat := 0
  swtmrWakeTime : Nat := 0
  due : Nat := 0
  deriving DecidableEq

/-- `struct dos_swtmr_msg`. The message of a tick overflow has no timer. -/
structure SwtmrMsg where
  swtmrOpt : SwtmrOption
  swtmr : Option SwtmrId
  deriving DecidableEq

def dosWaitForever : Nat := 0xFFFFFFFF

/-- Where a call of `dos_queue_write` is that has taken a place of the queue:
in front of the copy, of the test of the pend list, of the wake or of the
credit. At `fault` it has taken a task from an empty pend list. -/
inductive SwtmrWriter where
  | copy (msg : SwtmrMsg)
  | test
  | wake
  | credit
  | fault
  deriving DecidableEq

/-- Where the timer task is in its loop. `wake` is the local `wake_swtmr`, with
`none` for the list head itself. `read` has sampled the tick into `cur` and is
about to call `dos_queue_read`; `blocked` is inside that call until the time
`deadline`; a task at `timedOut` has been made ready with its timeout flag, and
`linked` tells whether it is still on the pend list. `fetch` is going to copy a
message, `credit` has it and gives the place back, and `handle` is in front of
`_dos_swtmr_cmd_handle`. `expire` is in front of the test of the expiry loop,
and `callback` in the callback of a timer. -/
inductive SwtmrPc where
  | top
  | read (wake : Option SwtmrId) (cur wait : Nat)
  | blocked (wake : Option SwtmrId) (deadline : Option Nat)
  | timedOut (wake : Option SwtmrId) (linked : Bool)
  | fetch
  | credit (msg : SwtmrMsg)
  | handle (msg : SwtmrMsg)
  | expire (wake : Option SwtmrId)
  | callback (t : SwtmrId)
  deriving DecidableEq

/-- The timer task is on the pend list of its queue. -/
def SwtmrPc.linked : SwtmrPc → Bool
  | .blocked _ _ => true
  | .timedOut _ linked => linked
  | _ => false

/-- The effect of a wake on a task of that pend list. One that has timed out
keeps its timeout flag. -/
def SwtmrPc.woken : SwtmrPc → SwtmrPc
  | .blocked _ _ => .fetch
  | .timedOut wake _ => .timedOut wake false
  | p => p

/-- The timer module. `now` counts the ticks since the start and
`dos_tick_count` is its remainder. `swtmrPtr` and `swtmrOverflowPtr` are the
lists that the two pointers name. The queue has `msgs` in its buffer and the
two counts; `writers` are the calls that write to it. `made` marks the handles
that `dos_swtmr_create` has returned, and `nullUnused` tells whether a
read of `swtmr_status` through the null pointer gives `DOS_SWTMR_STATUS_UNUSED`. -/
structure Timers where
  now : Nat
  swtmr : SwtmrId → Swtmr
  alloc : SwtmrId → Bool
  made : SwtmrId → Bool
  swtmrPtr : List SwtmrId
  swtmrOverflowPtr : List SwtmrId
  msgs : List SwtmrMsg
  readCount : Nat
  writeCount : Nat
  writers : List SwtmrWriter
  pc : SwtmrPc
  nullUnused : Bool

namespace Timers

variable (s : Timers)

def dosGetTick : Nat := s.now % 2 ^ 32

/-- `_dos_get_swtmr`, with `none` for the list head. -/
def dosGetSwtmr : Option SwtmrId := s.swtmrPtr.head?

/-- `swtmr_wake_time` behind a pointer that may be the list head. -/
def wakeTimeOf : Option SwtmrId → Nat
  | some t => (s.swtmr t).swtmrWakeTime
  | none => 0xFFFFFFFF

def setSwtmr (t : SwtmrId) (x : Swtmr) : Timers :=
  { s with swtmr := fun t' => if t' = t then x else s.swtmr t' }

def dosSwtmrSwitchPtr : Timers :=
  { s with swtmrPtr := s.swtmrOverflowPtr, swtmrOverflowPtr := s.swtmrPtr }

/-- The assignments of `_dos_swtmr_start` to the timer. -/
def started (t : SwtmrId) : Swtmr :=
  { s.swtmr t with
    swtmrStatus := .running
    swtmrWakeTime := (s.dosGetTick + (s.swtmr t).swtmrTimeout) % 2 ^ 32
    due := s.now + (s.swtmr t).swtmrTimeout }

/-- `_dos_swtmr_start`. The loops stop behind the last timer whose wake time is
not larger; the list head has the wake time `0xFFFFFFFF`. -/
def dosSwtmrStart (t : SwtmrId) : Timers :=
  let s₁ := s.setSwtmr t (s.started t)
  let wake := (s.started t).swtmrWakeTime
  let key := fun x => (s₁.swtmr x).swtmrWakeTime
  if wake < s.dosGetTick then
    { s₁ with swtmrOverflowPtr := KeyOrder.insert key t s.swtmrOverflowPtr }
  else if wake = 0xFFFFFFFF then { s₁ with swtmrPtr := s.swtmrPtr ++ [t] }
  else { s₁ with swtmrPtr := KeyOrder.insert key t s.swtmrPtr }

/-- `_dos_swtmr_stop`: the timer leaves the list it is linked in. -/
def dosSwtmrStop (t : SwtmrId) : Timers :=
  { s.setSwtmr t { s.swtmr t with swtmrStatus := .stop } with
    swtmrPtr := s.swtmrPtr.erase t
    swtmrOverflowPtr := s.swtmrOverflowPtr.erase t }

/-- `dos_mem_free` of the block and the `memset` behind it. -/
def freeSwtmr (t : SwtmrId) : Timers :=
  { s.setSwtmr t {} with alloc := fun t' => if t' = t then false else s.alloc t' }

def dosSwtmrDelete (t : SwtmrId) : Timers :=
  match (s.swtmr t).swtmrStatus with
  | .unused => s
  | .create => s.freeSwtmr t
  | .stop => s.freeSwtmr t
  | .running => (s.dosSwtmrStop t).freeSwtmr t

/-- `dos_task_wake` of the timer task. -/
def wakeReader : Timers := { s with pc := s.pc.woken }

/-- `_dos_swtmr_make_msg` of a task, up to the end of the first section of
`dos_queue_write`. Its timeout is 0, so a message that finds the queue full is
dropped. -/
def dosSwtmrMakeMsg (msg : SwtmrMsg) : Timers :=
  if s.writeCount = 0 then s
  else { s with writeCount := s.writeCount - 1, writers := s.writers ++ [.copy msg] }

/-- The same in an interrupt, where nothing comes between the sections. -/
def dosSwtmrMakeMsgNow (msg : SwtmrMsg) : Timers :=
  if s.writeCount = 0 then s
  else
    let s := { s with writeCount := s.writeCount - 1, msgs := s.msgs ++ [msg] }
    if s.pc.linked then s.wakeReader else { s with readCount := s.readCount + 1 }

def writerStep (i : Nat) : Option Timers :=
  match s.writers[i]? with
  | some (.copy msg) =>
      some { s with msgs := s.msgs ++ [msg], writers := s.writers.set i .test }
  | some .test =>
      if s.pc.linked then some { s with writers := s.writers.set i .wake }
      else some { s with writers := s.writers.set i .credit }
  | some .wake =>
      if s.pc.linked then some { s.wakeReader with writers := s.writers.eraseIdx i }
      else some { s with writers := s.writers.set i .fault }
  | some .credit =>
      some { s with readCount := s.readCount + 1, writers := s.writers.eraseIdx i }
  | some .fault => none
  | none => none

def dosSwtmrCmdHandle (msg : SwtmrMsg) : Timers :=
  match msg.swtmr with
  | none =>
      if s.nullUnused then s
      else
        match msg.swtmrOpt with
        | .overflow => s.dosSwtmrSwitchPtr
        | _ => s
  | some t =>
      if (s.swtmr t).swtmrStatus = .unused then s
      else
        match msg.swtmrOpt with
        | .start =>
            if (s.swtmr t).swtmrStatus = .running then (s.dosSwtmrStop t).dosSwtmrStart t
            else s.dosSwtmrStart t
        | .stop => if (s.swtmr t).swtmrStatus = .running then s.dosSwtmrStop t else s
        | .overflow => s.dosSwtmrSwitchPtr
        | .delete => s.dosSwtmrDelete t

/-- The end of `_dos_swtmr_timeout_handle`, behind the callback. The mode of a
periodic timer is compared as a whole. -/
def dosSwtmrTimeoutHandle (t : SwtmrId) : Timers :=
  if (s.swtmr t).swtmrMode = 2 then (s.dosSwtmrStop t).dosSwtmrStart t
  else (s.dosSwtmrStop t).dosSwtmrDelete t

/-- The waiting time of `_dos_swtmr_task`, an unsigned difference. -/
def waitTime (wake : Option SwtmrId) (cur : Nat) : Nat :=
  match wake with
  | none => dosWaitForever
  | some t => ((s.swtmr t).swtmrWakeTime + (2 ^ 32 - cur)) % 2 ^ 32

/-- The next step of `_dos_swtmr_task`. No writer waits for a place, so `credit`
finds no one to wake. -/
def dosSwtmrTask : Option Timers :=
  match s.pc with
  | .top =>
      some { s with
        pc := .read s.dosGetSwtmr s.dosGetTick (s.waitTime s.dosGetSwtmr s.dosGetTick) }
  | .read wake _ wait =>
      if s.readCount = 0 then
        if wait = 0 then some { s with pc := .expire wake }
        else if wait = dosWaitForever then some { s with pc := .blocked wake none }
        else some { s with pc := .blocked wake (some (s.now + wait)) }
      else some { s with readCount := s.readCount - 1, pc := .fetch }
  | .blocked _ _ => none
  | .timedOut wake _ => some { s with pc := .expire wake }
  | .fetch =>
      match s.msgs with
      | [] => none
      | msg :: rest =>
          some { s with msgs := rest, pc := .credit msg }
  | .credit msg => some { s with writeCount := s.writeCount + 1, pc := .handle msg }
  | .handle msg => some { s.dosSwtmrCmdHandle msg with pc := .top }
  | .expire wake =>
      if s.dosGetTick ≥ s.wakeTimeOf wake then
        match wake with
        | some t => some { s with pc := .callback t }
        | none => some { s with pc := .expire s.dosGetSwtmr }
      else some { s with pc := .top }
  | .callback t =>
      let s := s.dosSwtmrTimeoutHandle t
      some { s with pc := .expire s.dosGetSwtmr }

/-- The part of `dos_tick_update` that concerns the timer task: the message of
an overflow, then its timeout. -/
def dosTickUpdate : Timers :=
  let s := { s with now := s.now + 1 }
  let s := if s.dosGetTick = 0 then s.dosSwtmrMakeMsgNow ⟨.overflow, none⟩ else s
  match s.pc with
  | .blocked wake (some deadline) =>
      if deadline ≤ s.now then { s with pc := .timedOut wake true } else s
  | _ => s

/-- `dos_swtmr_create` in the block `t` that `dos_mem_alloc` returned. -/
def dosSwtmrCreate (t : SwtmrId) (timeout mode : Nat) : Timers :=
  { s.setSwtmr t { swtmrStatus := .create, swtmrMode := mode, swtmrTimeout := timeout } with
    alloc := fun t' => if t' = t then true else s.alloc t'
    made := fun t' => if t' = t then true else s.made t' }

/-- The timer module after `dos_swtmr_init`, with a queue of `len` messages. -/
def dosSwtmrInit (len : Nat) (nullUnused : Bool) : Timers where
  now := 0
  swtmr _ := {}
  alloc _ := false
  made _ := false
  swtmrPtr := []
  swtmrOverflowPtr := []
  msgs := []
  readCount := 0
  writeCount := len
  writers := []
  pc := .top
  nullUnused := nullUnused

end Timers

/-- Calls of the interface, the steps of those that write to the queue, ticks,
and steps of the timer task. -/
inductive TimerEvent where
  | create (t : SwtmrId) (timeout mode : Nat)
  | api (op : SwtmrOption) (t : SwtmrId)
  | writer (i : Nat)
  | tick
  | task
  deriving DecidableEq

/-- One step of the timer module. A timer is created with valid parameters in a
free block, and commands are given on handles that were returned once. -/
def timerStep (s : Timers) : TimerEvent → Option Timers
  | .create t timeout mode =>
      if s.alloc t = false ∧ 0 < timeout ∧ timeout < 2 ^ 32 ∧ mode < 2 ^ 16 ∧
          (mode % 4 = 1 ∨ mode % 4 = 2) then
        some (s.dosSwtmrCreate t timeout mode)
      else none
  | .api op t =>
      if s.made t = true ∧ op ≠ .overflow then some (s.dosSwtmrMakeMsg ⟨op, some t⟩) else none
  | .writer i => s.writerStep i
  | .tick => some s.dosTickUpdate
  | .task => s.dosSwtmrTask

end DoraOS
