import DoraOS.Kernel.Task
import DoraOS.Port.Frames

/-! The processor, the kernel and the stacks of the tasks together. Between
two context switches the running task may do anything with the registers and
with its own memory. The states are those in which a handler is entered or
left, so the link register holds an exception return word in them. -/
namespace DoraOS

open Thumb

/-- The memory that `dos_task_create` takes for a task. -/
structure Thread where
  id : TaskId
  tcb : Nat
  stackAddr : Nat
  stackSize : Nat
deriving DecidableEq

namespace Thread

/-- `top_of_stack`, as `_dos_task_init` computes it. -/
def topOfStack (t : Thread) : Nat :=
  (t.stackAddr + (t.stackSize + (2 ^ 32 - 1))) % 2 ^ 32 / 8 * 8

/-- The words that belong to the task: `stack_point` at the head of its
control block, and its stack. -/
def Owns (t : Thread) (x : Nat) : Prop := x = t.tcb ∨ t.stackAddr ≤ x ∧ x < t.topOfStack

/-- The words in which its context is kept while it does not run. -/
def Keeps (t : Thread) (mem : Nat → Nat) (x : Nat) : Prop :=
  x = t.tcb ∨ mem t.tcb ≤ x ∧ x < t.topOfStack

def dosTaskInit (t : Thread) (core : Core) (code : TaskCode) (mem : Nat → Nat) : Nat → Nat :=
  let r := dosStackInit mem t.topOfStack code core
  Function.update r.1 t.tcb r.2

/-- The context of the task while it does not run. -/
def parked (t : Thread) (core : Core) (mem : Nat → Nat) : Context :=
  core.parked t.topOfStack mem (mem t.tcb)

end Thread

/-- Addresses that are fixed when the kernel is linked: the variable
`dos_current_task` and the main stack. -/
structure Layout where
  dosCurrentTask : Nat
  mainLow : Nat
  mainTop : Nat

def Layout.Owns (l : Layout) (x : Nat) : Prop :=
  x = l.dosCurrentTask ∨ l.mainLow ≤ x ∧ x < l.mainTop

structure Board where
  cpu : Cpu
  k : Kernel
  threads : List Thread

namespace Board

/-- The task whose context is in the registers. -/
def running (b : Board) : Option TaskId := if b.k.systemIsRun then b.k.dosCurrentTask else none

/-- The context of a task, wherever it is. -/
def context (b : Board) (core : Core) (t : Thread) : Context :=
  if b.running = some t.id then core.running t.topOfStack b.cpu else t.parked core b.cpu.mem

end Board

/-- A task is created or deleted, the first task is started, the code between
two switches is executed, or a context switch is taken. `entry` is the state
in which `svc` is taken, `next` the state in which the next handler is entered,
and `callee` is the compiled `dos_choose_task`. -/
inductive BoardEvent where
  | create (t : Thread) (code : TaskCode) (k : Kernel)
  | delete (t : Thread) (k : Kernel)
  | start (entry : Cpu)
  | run (next : Cpu) (k : Kernel)
  | pendSV (callee : Cpu → Cpu)

section Step

variable (core : Core) (l : Layout)

def boardStep (b : Board) : BoardEvent → Option Board
  | .create t code k =>
      some ⟨{ b.cpu with mem := t.dosTaskInit core code b.cpu.mem }, k, t :: b.threads⟩
  | .delete t k => some { b with k := k, threads := b.threads.erase t }
  | .start entry =>
      (entry.run (fun _ _ => none) (svcHandler l.dosCurrentTask core)).map fun cpu =>
        { b with cpu := cpu, k := b.k.dosSystemStartRun }
  | .run next k => some { b with cpu := next, k := k }
  | .pendSV callee =>
      (b.cpu.run (fun _ c => some (callee c)) (pendSVHandler l.dosCurrentTask core)).map fun cpu =>
        { b with cpu := cpu, k := b.k.dosChooseTask }

/-- The memory of the tasks and of the kernel is disjoint and aligned. -/
structure Placed (threads : List Thread) : Prop where
  current : l.dosCurrentTask % 4 = 0
  main : ¬(l.mainLow ≤ l.dosCurrentTask ∧ l.dosCurrentTask < l.mainTop)
  mainTop : l.mainTop < 2 ^ 32
  aligned : ∀ t ∈ threads, t.tcb % 4 = 0
  ids : ∀ t ∈ threads, ∀ u ∈ threads, t.id = u.id → t = u
  own : ∀ t ∈ threads, ¬(t.stackAddr ≤ t.tcb ∧ t.tcb < t.topOfStack)
  apart : ∀ t ∈ threads, ∀ u ∈ threads, t ≠ u → ∀ x, t.Owns x → ¬u.Owns x
  kernel : ∀ t ∈ threads, ∀ x, t.Owns x → ¬l.Owns x

/-- A frame on the stack of a task, behind its `stack_point`. -/
structure Parks (t : Thread) (mem : Nat → Nat) : Prop where
  aligned : mem t.tcb % 4 = 0
  low : t.stackAddr ≤ mem t.tcb
  high : (t.parked core mem).psp ≤ t.topOfStack
  exc : (t.parked core mem).excReturn ∈ core.excReturns

/-- The task runs: the kernel points to it, and the stack pointers are in its
stack and in the main stack. -/
structure OnCpu (t : Thread) (c : Cpu) : Prop where
  current : c.mem l.dosCurrentTask = t.tcb
  aligned : c.psp % 4 = 0
  low : t.stackAddr ≤ c.psp
  high : c.psp ≤ t.topOfStack
  exc : c.reg lr ∈ core.excReturns
  main : c.reg sp % 4 = 0
  mainLow : l.mainLow ≤ c.reg sp
  mainTop : c.reg sp ≤ l.mainTop

/-- What the rest of the system does with the kernel between two switches. -/
def SameTask (b : Board) (k : Kernel) : Prop :=
  k.dosCurrentTask = b.k.dosCurrentTask ∧ k.systemIsRun = b.k.systemIsRun

/-- `dos_choose_task` returns to the handler in `c'`. It has run on the main
stack below `sp`, has written no task's stack or `stack_point`, and has made
`dos_current_task` point to the task that the kernel chooses. -/
structure Chooses (b : Board) (c c' : Cpu) : Prop where
  main : c'.reg sp = c.reg sp
  handler : ∀ x, c.reg sp ≤ x → x < l.mainTop → c'.mem x = c.mem x
  owned : ∀ t ∈ b.threads, ∀ x, t.Owns x → c'.mem x = c.mem x
  chosen : ∃ t ∈ b.threads, b.k.dosChooseTask.dosCurrentTask = some t.id ∧
    c'.mem l.dosCurrentTask = t.tcb

/-- The stack of the running task has room for its frame, and the main stack
for what the handler keeps there. -/
structure Room (t : Thread) (c : Cpu) : Prop where
  frame : t.stackAddr + 4 * (frameWords core c).length ≤ c.psp
  main : l.mainLow + 4 * (handlerWords core l.dosCurrentTask c).length ≤ c.reg sp

/-- The conditions under which the events are considered: a new task has
memory of its own and room for its first frame, the running task is not
deleted, and a task writes no memory in which the context of another is kept. -/
def BoardOk (b : Board) : BoardEvent → Prop
  | .create t _ k => Placed l (t :: b.threads) ∧ t ∉ b.threads ∧ b.running ≠ some t.id ∧
      t.stackAddr + firstFrame core ≤ t.topOfStack ∧ SameTask b k
  | .delete t k => b.running ≠ some t.id ∧ SameTask b k
  | .start entry => b.k.systemIsRun = false ∧ entry.reg lr = excReturnMain ∧
      entry.reg sp % 4 = 0 ∧ l.mainLow ≤ entry.reg sp ∧ entry.reg sp ≤ l.mainTop ∧
      (∀ t ∈ b.threads, ∀ x, t.Keeps b.cpu.mem x → entry.mem x = b.cpu.mem x) ∧
      ∃ t ∈ b.threads, b.k.dosSystemStartRun.dosCurrentTask = some t.id ∧
        entry.mem l.dosCurrentTask = t.tcb
  | .run next k => SameTask b k ∧
      (∀ t ∈ b.threads, b.running = some t.id → OnCpu core l t next) ∧
      ∀ t ∈ b.threads, b.running ≠ some t.id → ∀ x, t.Keeps b.cpu.mem x →
        next.mem x = b.cpu.mem x
  | .pendSV callee => ∃ t ∈ b.threads, b.running = some t.id ∧ Room core l t b.cpu ∧
      ∀ c, b.cpu.run (fun _ c => some (callee c)) (pendSVSave l.dosCurrentTask core) = some c →
        Chooses l b c (callee c)

/-- The event is no step of the task `t` itself. -/
def Spares (t : Thread) (b : Board) : BoardEvent → Prop
  | .run _ _ => b.running ≠ some t.id
  | .delete u _ => u ≠ t
  | _ => True

end Step

/-- The invariant of the system. -/
structure Board.Sound (core : Core) (l : Layout) (b : Board) : Prop where
  placed : Placed l b.threads
  live : b.k.systemIsRun = true → ∃ t ∈ b.threads, b.running = some t.id
  running : ∀ t ∈ b.threads, b.running = some t.id → OnCpu core l t b.cpu
  parked : ∀ t ∈ b.threads, b.running ≠ some t.id → Parks core t b.cpu.mem
  fresh : b.k.systemIsRun = false →
    ∀ t ∈ b.threads, (t.parked core b.cpu.mem).excReturn = excReturnThread

section Parked

variable {core : Core} {l : Layout} {t : Thread} {mem mem' : Nat → Nat}

/-- A frame is inside the stack up to the process stack pointer it stands for. -/
theorem Core.frameEnd_ge (core : Core) (mem : Nat → Nat) (a : Nat) : a + 32 ≤ core.frameEnd mem a := by
  unfold Core.frameEnd
  split
  · exact Nat.le_refl _
  · split <;> omega

theorem Core.frameEnd_mod (core : Core) {mem : Nat → Nat} {a : Nat} (h : a % 4 = 0) :
    core.frameEnd mem a % 4 = 0 := by
  unfold Core.frameEnd
  split
  · omega
  · split <;> omega

theorem Core.running_congr {top : Nat} {c : Cpu}
    (h : ∀ x, c.psp ≤ x → x < top → mem x = c.mem x) :
    core.running top { c with mem := mem } = core.running top c := by
  have hStack : Core.stackWords top mem c.psp = Core.stackWords top c.mem c.psp :=
    stackWords_congr h
  simp only [Core.running, Cpu.psp] at hStack ⊢
  rw [hStack]

/-- A parked context depends on the words from its frame to the top only. -/
theorem Core.parked_congr {top a : Nat} (hHigh : core.frameEnd mem a ≤ top)
    (hSame : ∀ x, a ≤ x → x < top → mem' x = mem x) :
    core.parked top mem' a = core.parked top mem a := by
  have hFrame := core.frameEnd_ge mem a
  have hLow : getWords mem' a 8 = getWords mem a 8 :=
    getWords_congr fun x hx hTop => hSame x hx (by omega)
  have hStack : Core.stackWords top mem' (core.frameEnd mem a) =
      Core.stackWords top mem (core.frameEnd mem a) :=
    stackWords_congr fun x hx hTop => hSame x (by omega) hTop
  cases core with
  | cortexM3 =>
      have hEnd : Core.cortexM3.frameEnd mem' a = Core.cortexM3.frameEnd mem a := rfl
      simp [Core.parked, hLow, hEnd, hStack]
  | cortexM4 =>
      have hExc : mem' (a + 32) = mem (a + 32) := by
        apply hSame _ (by omega)
        unfold Core.frameEnd at hHigh
        dsimp only at hHigh
        split at hHigh <;> omega
      have hEnd : Core.cortexM4.frameEnd mem' a = Core.cortexM4.frameEnd mem a := by
        simp only [Core.frameEnd, hExc]
      by_cases hFp : mem (a + 32) &&& 0x10 = 0
      · have hWide : getWords mem' (a + 36) 16 = getWords mem (a + 36) 16 := by
          simp only [Core.frameEnd, hFp, if_true] at hHigh
          exact getWords_congr fun x hx hTop => hSame x (by omega) (by omega)
        simp [Core.parked, hLow, hEnd, hExc, hStack, hFp, hWide]
      · simp [Core.parked, hLow, hEnd, hExc, hStack, hFp]

theorem Parks.congr (h : Parks core t mem) (hSame : ∀ x, t.Keeps mem x → mem' x = mem x) :
    Parks core t mem' ∧ t.parked core mem' = t.parked core mem := by
  have hPoint : mem' t.tcb = mem t.tcb := hSame _ (Or.inl rfl)
  have hParked : t.parked core mem' = t.parked core mem := by
    rw [Thread.parked, hPoint]
    exact Core.parked_congr h.high fun x hLow hTop => hSame x (Or.inr ⟨hLow, hTop⟩)
  refine ⟨⟨?_, ?_, ?_, ?_⟩, hParked⟩
  · exact hPoint ▸ h.aligned
  · exact hPoint ▸ h.low
  · exact hParked ▸ h.high
  · exact hParked ▸ h.exc

theorem Parks.owns (h : Parks core t mem) {x : Nat} (hx : t.Keeps mem x) : t.Owns x :=
  hx.imp id fun hx => ⟨Nat.le_trans h.low hx.1, hx.2⟩

end Parked

section Switch

variable {core : Core} {l : Layout} {b : Board} {t u : Thread}

def AllParked (core : Core) (b : Board) (mem : Nat → Nat) : Prop :=
  ∀ t ∈ b.threads, Parks core t mem ∧ t.parked core mem = b.context core t

theorem AllParked.congr {mem mem' : Nat → Nat} (h : AllParked core b mem)
    (hSame : ∀ t ∈ b.threads, ∀ x, t.Keeps mem x → mem' x = mem x) : AllParked core b mem' := by
  intro t ht
  obtain ⟨hParks, hContext⟩ := h t ht
  obtain ⟨hParks', hSame'⟩ := hParks.congr (hSame t ht)
  exact ⟨hParks', hSame'.trans hContext⟩

theorem Board.context_of_running (hRunning : b.running = some t.id) :
    b.context core t = core.running t.topOfStack b.cpu :=
  if_pos hRunning

theorem Board.context_of_parked (hRunning : b.running ≠ some t.id) :
    b.context core t = t.parked core b.cpu.mem :=
  if_neg hRunning

theorem apart_of_points {a n b m : Nat} (h : ∀ x, a ≤ x → x < n → ¬(b ≤ x ∧ x < m))
    (hLeft : a < n) (hRight : b < m) : n ≤ b ∨ m ≤ a := by
  by_contra hBoth
  rw [not_or] at hBoth
  rcases Nat.le_total a b with hLe | hLe
  · exact h b hLe (by omega) ⟨Nat.le_refl b, by omega⟩
  · exact h a (Nat.le_refl a) (by omega) ⟨hLe, by omega⟩

theorem frameWords_length (core : Core) (c : Cpu) :
    0 < (frameWords core c).length ∧ (frameWords core c).length ≤ 25 := by
  cases core with
  | cortexM3 => simp [frameWords, lowRegs]
  | cortexM4 =>
      simp only [frameWords]
      split <;> simp [lowRegs, highFpRegs]

theorem handlerWords_length (core : Core) (cur : Nat) (c : Cpu) :
    0 < (handlerWords core cur c).length ∧ (handlerWords core cur c).length ≤ 3 := by
  cases core <;> simp [handlerWords]

/-- The handler can save the context of the running task. -/
theorem OnCpu.canSave (h : OnCpu core l t b.cpu) (hPlaced : Placed l b.threads)
    (ht : t ∈ b.threads) (hRoom : Room core l t b.cpu) : CanSave core l.dosCurrentTask b.cpu := by
  have hHigh := h.high
  have hTop := h.mainTop
  have hFrame := hRoom.frame
  have hMain := hRoom.main
  have hStack : ∀ x, t.stackAddr ≤ x → x < t.topOfStack → ¬l.Owns x :=
    fun x hx hTop => hPlaced.kernel t ht x (Or.inr ⟨hx, hTop⟩)
  refine ⟨hPlaced.current, ?_, h.aligned, by omega, h.main, by omega, ?_, ?_, ?_⟩
  · rw [h.current]
    exact hPlaced.aligned t ht
  · rw [h.current]
    have hOwn := hPlaced.own t ht
    unfold frameBase
    omega
  · rw [h.current]
    have hOff : ¬l.Owns t.tcb := hPlaced.kernel t ht _ (Or.inl rfl)
    simp only [Layout.Owns, not_or] at hOff
    unfold handlerBase
    omega
  · have hWords := frameWords_length core b.cpu
    have hKept := handlerWords_length core l.dosCurrentTask b.cpu
    refine (apart_of_points (fun x hLow hPsp hBoth => ?_) ?_ ?_).symm
    · unfold frameBase at hLow
      unfold handlerBase at hBoth
      exact hStack x (by omega) (by omega) (Or.inr (by omega))
    · unfold frameBase
      omega
    · unfold handlerBase
      omega

/-- Once the first half of the handler has run, all contexts are in memory. -/
theorem Board.Sound.allParked_saved (h : b.Sound core l) (ht : t ∈ b.threads)
    (hRunning : b.running = some t.id) (hRoom : Room core l t b.cpu) {c : Cpu}
    (hSaved : Saved core l.dosCurrentTask b.cpu c) : AllParked core b c.mem := by
  have hCpu := h.running t ht hRunning
  have hCan := hCpu.canSave h.placed ht hRoom
  have hFrame := hRoom.frame
  have hMain := hRoom.main
  have hTop := hCpu.mainTop
  have hHigh := hCpu.high
  have hAligned := hCpu.aligned
  have hBase : frameBase core b.cpu + 4 * (frameWords core b.cpu).length = b.cpu.psp :=
    Nat.sub_add_cancel hCan.frame
  -- What belongs to a task is not on the main stack.
  have hOff : ∀ u ∈ b.threads, ∀ x, u.Owns x →
      x < handlerBase core l.dosCurrentTask b.cpu ∨ b.cpu.reg sp ≤ x := by
    intro u hu x hx
    have hKernel := h.placed.kernel u hu x hx
    simp only [Layout.Owns, not_or] at hKernel
    unfold handlerBase
    omega
  intro u hu
  by_cases hEq : u = t
  · subst hEq
    have hPoint : c.mem u.tcb = frameBase core b.cpu := hCpu.current ▸ hSaved.point
    have hStack : ∀ x, b.cpu.psp ≤ x → x < u.topOfStack → c.mem x = b.cpu.mem x := by
      intro x hLow hx
      have hOwn := h.placed.own u hu
      refine hSaved.off x (Or.inr hLow) ?_ (hOff u hu x (Or.inr (by omega)))
      rw [hCpu.current]
      omega
    have hContext : u.parked core c.mem = b.context core u := by
      rw [Thread.parked, hPoint, Board.context_of_running hRunning,
        parked_eq_running hSaved.frame hBase hCpu.exc hStack]
    refine ⟨⟨?_, ?_, ?_, ?_⟩, hContext⟩
    · rw [hPoint]
      omega
    · rw [hPoint]
      omega
    · rw [hContext, Board.context_of_running hRunning]
      exact hCpu.high
    · rw [hContext, Board.context_of_running hRunning]
      exact hCpu.exc
  · have hNot : b.running ≠ some u.id := by
      rw [hRunning]
      exact fun hId => hEq (h.placed.ids u hu t ht (Option.some.inj hId).symm)
    rw [Board.context_of_parked hNot]
    apply (h.parked u hu hNot).congr
    intro x hx
    have hOwns := (h.parked u hu hNot).owns hx
    have hOther := h.placed.apart u hu t ht hEq x hOwns
    simp only [Thread.Owns, not_or] at hOther
    refine hSaved.off x (by omega) ?_ (hOff u hu x hOwns)
    rw [hCpu.current]
    exact hOther.1

theorem Thread.topOfStack_lt (t : Thread) : t.topOfStack < 2 ^ 32 := by
  unfold Thread.topOfStack
  omega

/-- The context of the task that `dos_current_task` points to can be loaded. -/
theorem AllParked.canLoad {mem : Nat → Nat} (h : AllParked core b mem) (hPlaced : Placed l b.threads)
    (hu : u ∈ b.threads) (hCurrent : mem l.dosCurrentTask = u.tcb) :
    CanLoad core mem l.dosCurrentTask := by
  obtain ⟨hParks, -⟩ := h u hu
  refine ⟨hPlaced.current, ?_, ?_, ?_, ?_⟩ <;> rw [hCurrent]
  · exact hPlaced.aligned u hu
  · exact hParks.aligned
  · exact Nat.lt_of_le_of_lt hParks.high u.topOfStack_lt
  · intro hCore
    subst hCore
    exact hParks.exc

/-- The processor has gone to the task `next`, and no context has changed. -/
structure Board.GoesTo (core : Core) (l : Layout) (b b' : Board) (next : Option TaskId) : Prop where
  sound : b'.Sound core l
  threads : b'.threads = b.threads
  running : b'.running = next
  context : ∀ t ∈ b.threads, b'.context core t = b.context core t

/-- The context of `u` is loaded. -/
theorem AllParked.resume {mem : Nat → Nat} {c : Cpu} {k : Kernel} (h : AllParked core b mem)
    (hPlaced : Placed l b.threads) (hu : u ∈ b.threads) (hCurrent : mem l.dosCurrentTask = u.tcb)
    (hLoaded : Loaded core mem (mem u.tcb) c) (hMain : c.reg sp % 4 = 0)
    (hLow : l.mainLow ≤ c.reg sp) (hTop : c.reg sp ≤ l.mainTop) (hRun : k.systemIsRun = true)
    (hTask : k.dosCurrentTask = some u.id) :
    b.GoesTo core l { b with cpu := c, k := k } k.dosCurrentTask := by
  have hRunning : ({ b with cpu := c, k := k } : Board).running = some u.id := by
    simp only [Board.running, hRun, hTask, if_true]
  have hPsp := hLoaded.psp
  have hEnd := core.frameEnd_ge mem (mem u.tcb)
  refine ⟨⟨hPlaced, fun _ => ⟨u, hu, hRunning⟩, fun t ht hThis => ?_, fun t ht _ => ?_, ?_⟩,
    rfl, hRunning.trans hTask.symm, fun t ht => ?_⟩
  · have hEq : t = u :=
      hPlaced.ids t ht u hu (Option.some.inj (hThis.symm.trans hRunning))
    subst hEq
    obtain ⟨hParks, -⟩ := h t ht
    refine ⟨?_, ?_, ?_, ?_, hLoaded.exc, hMain, hLow, hTop⟩
    · exact (congrFun hLoaded.mem _).trans hCurrent
    · rw [hPsp]
      exact core.frameEnd_mod hParks.aligned
    · exact Nat.le_trans hParks.low (by rw [hPsp]; omega)
    · rw [hPsp]
      exact hParks.high
  · rw [hLoaded.mem]
    exact (h t ht).1
  · intro hStopped
    exact absurd (hStopped.symm.trans hRun) (by decide)
  · by_cases hThis : t = u
    · subst hThis
      rw [Board.context_of_running hRunning, hLoaded.running_eq_parked]
      exact (h t ht).2
    · have hNot : ({ b with cpu := c, k := k } : Board).running ≠ some t.id := by
        rw [hRunning]
        exact fun hId => hThis (hPlaced.ids t ht u hu (Option.some.inj hId).symm)
      rw [Board.context_of_parked hNot, hLoaded.mem]
      exact (h t ht).2

theorem Board.systemIsRun_of_running {id : TaskId} (h : b.running = some id) :
    b.k.systemIsRun = true := by
  unfold Board.running at h
  split at h
  · assumption
  · cases h

theorem Board.running_ne_of_stopped {id : TaskId} (h : b.k.systemIsRun = false) :
    b.running ≠ some id := by
  simp [Board.running, h]

/-- A context switch does not fault. It resumes the task that the kernel has
chosen, changes no context and leaves the interrupt mask. -/
theorem Board.Sound.pendSV {callee : Cpu → Cpu} (h : b.Sound core l)
    (hOk : BoardOk core l b (.pendSV callee)) :
    ∃ b', boardStep core l b (.pendSV callee) = some b' ∧
      b.GoesTo core l b' b.k.dosChooseTask.dosCurrentTask ∧
      b'.cpu.special .primask = b.cpu.special .primask := by
  obtain ⟨t, ht, hRunning, hRoom, hCallee⟩ := hOk
  have hCpu := h.running t ht hRunning
  have hCan := hCpu.canSave h.placed ht hRoom
  obtain ⟨c, hSave, hSaved⟩ := pendSVSave_run (fun _ c => some (callee c)) hCan
  have hChooses := hCallee c hSave
  obtain ⟨u, hu, hChosen, hCurrent⟩ := hChooses.chosen
  have hTop := hCpu.mainTop
  have hMain := hRoom.main
  have hBase : handlerBase core l.dosCurrentTask b.cpu +
      4 * (handlerWords core l.dosCurrentTask b.cpu).length = b.cpu.reg sp :=
    Nat.sub_add_cancel hCan.handler
  -- The call keeps what is in memory: the contexts and the words of the handler.
  have hAll : AllParked core b (callee c).mem := by
    have hSavedAll := h.allParked_saved ht hRunning hRoom hSaved
    apply hSavedAll.congr
    intro v hv x hx
    exact hChooses.owned v hv x ((hSavedAll v hv).1.owns hx)
  have hSp : (callee c).reg sp = handlerBase core l.dosCurrentTask b.cpu :=
    hChooses.main.trans hSaved.main
  have hWords : getWords (callee c).mem ((callee c).reg sp)
      (handlerWords core l.dosCurrentTask b.cpu).length = handlerWords core l.dosCurrentTask b.cpu := by
    rw [hChooses.main, ← hSaved.handler, length_getWords]
    apply getWords_congr
    intro x hLow hHigh
    have hPlace := hSaved.main
    exact hChooses.handler x hLow (by omega)
  obtain ⟨c', hRestore, hLoaded, hSp', hMask⟩ := pendSVRestore_run
    (fun _ c => some (callee c)) (hAll.canLoad h.placed hu hCurrent)
    (by have := hCan.main; omega) (by have := h.placed.mainTop; omega) hWords hCpu.exc
  rw [hCurrent] at hLoaded
  refine ⟨_, ?_, hAll.resume (k := b.k.dosChooseTask) h.placed hu hCurrent hLoaded
    (by have := hCan.main; omega) (by omega) (by omega) (Board.systemIsRun_of_running hRunning)
    hChosen, hMask⟩
  rw [boardStep, pendSVHandler, Cpu.run_append, hSave, Option.bind_some, Cpu.run_cons]
  exact congrArg (Option.map _) hRestore

/-- The start of the first task does not fault, and it changes no context. -/
theorem Board.Sound.start {entry : Cpu} (h : b.Sound core l)
    (hOk : BoardOk core l b (.start entry)) :
    ∃ b', boardStep core l b (.start entry) = some b' ∧
      b.GoesTo core l b' b.k.dosSystemStartRun.dosCurrentTask := by
  obtain ⟨hStopped, hLr, hMain, hLow, hTop, hKept, u, hu, hChosen, hCurrent⟩ := hOk
  have hNone : ∀ t : Thread, b.running ≠ some t.id := fun t => Board.running_ne_of_stopped hStopped
  have hParked : AllParked core b b.cpu.mem := fun t ht =>
    ⟨h.parked t ht (hNone t), (Board.context_of_parked (hNone t)).symm⟩
  have hAll : AllParked core b entry.mem := hParked.congr hKept
  have hFirst : core = .cortexM4 →
      entry.mem (entry.mem (entry.mem l.dosCurrentTask) + 32) = excReturnThread := by
    intro hCore
    subst hCore
    have hExc := h.fresh hStopped u hu
    rw [← Board.context_of_parked (hNone u), ← (hAll u hu).2] at hExc
    rw [hCurrent]
    exact hExc
  obtain ⟨c, hSvc, hLoaded, hSp⟩ := svcHandler_run (fun _ _ => none)
    (hAll.canLoad h.placed hu hCurrent) hLr hFirst
  rw [hCurrent] at hLoaded
  refine ⟨_, ?_, hAll.resume (k := b.k.dosSystemStartRun) h.placed hu hCurrent hLoaded
    (hSp ▸ hMain) (hSp ▸ hLow) (hSp ▸ hTop) rfl hChosen⟩
  rw [boardStep, hSvc]
  rfl

end Switch

end DoraOS
