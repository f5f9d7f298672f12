import DoraOS.Library.Thumb

/-! The exception handlers of `port.s` and the first frame of a task from
`port.c`, for the Cortex-M3 and the Cortex-M4. The words that the processor
itself stacks at an exception are part of the task's stack here. -/
namespace DoraOS

open Thumb

inductive Core where
  | cortexM3
  | cortexM4
deriving DecidableEq

/-- The functions that the handlers call. -/
inductive PortFn where
  | dosChooseTask

def lowRegs : List Reg := [4, 5, 6, 7, 8, 9, 10, 11]

def highFpRegs : List FpReg := [16, 17, 18, 19, 20, 21, 22, 23, 24, 25, 26, 27, 28, 29, 30, 31]

/-- The return to thread mode on the process stack, without floating-point state. -/
def excReturnThread : Nat := 0xfffffffd

section Code

/-- `PendSV_Handler` up to the call, with the address of `dos_current_task`. -/
def pendSVSave (dosCurrentTask : Nat) : Core → List (Instr PortFn)
  | .cortexM3 =>
    [.mrs 1 .primask,
     .cpsid,
     .mrs 0 .psp,
     .const 2 dosCurrentTask,
     .ldr 3 2,
     .stmdb 0 lowRegs,
     .str 0 3,
     .stmdb sp [1, 2, lr]]
  | .cortexM4 =>
    [.mrs 1 .primask,
     .cpsid,
     .mrs 0 .psp,
     .const 2 dosCurrentTask,
     .ldr 3 2,
     .tst lr 0x10,
     .vstmdbeq 0 highFpRegs,
     .stmdb 0 (lowRegs ++ [lr]),
     .str 0 3,
     .stmdb sp [1, 2]]

/-- `PendSV_Handler` from the call's return on. -/
def pendSVRestore : Core → List (Instr PortFn)
  | .cortexM3 =>
    [.ldmia sp [1, 2, lr],
     .ldr 3 2,
     .ldr 0 3,
     .ldmia 0 lowRegs,
     .msr .psp 0,
     .msr .primask 1,
     .orr lr lr 0x04,
     .bx lr]
  | .cortexM4 =>
    [.ldmia sp [1, 2],
     .ldr 3 2,
     .ldr 0 3,
     .ldmia 0 (lowRegs ++ [lr]),
     .tst lr 0x10,
     .vldmiaeq 0 highFpRegs,
     .msr .psp 0,
     .msr .primask 1,
     .orr lr lr 0x04,
     .bx lr]

def pendSVHandler (dosCurrentTask : Nat) (core : Core) : List (Instr PortFn) :=
  pendSVSave dosCurrentTask core ++ .bl .dosChooseTask :: pendSVRestore core

def svcHandler (dosCurrentTask : Nat) (core : Core) : List (Instr PortFn) :=
  [.const 2 dosCurrentTask,
   .ldr 3 2,
   .ldr 0 3,
   .ldmia 0 (match core with | .cortexM3 => lowRegs | .cortexM4 => lowRegs ++ [lr]),
   .msr .psp 0,
   .const 0 0,
   .msr .basepri 0,
   .orr lr lr 0xd,
   .bx lr]

end Code

/-- The addresses that task code is entered and left by. -/
structure TaskCode where
  taskEntry : Nat
  parameter : Nat
  dosTaskExit : Nat

/-- `sp - n` for a pointer to words. -/
def below (sp n : Nat) : Nat := (sp + (2 ^ 32 - 4 * n)) % 2 ^ 32

/-- `dos_stack_init`: the memory, and the value of `sp` it returns. The words
for `r12`, `r3` to `r1` and `r11` to `r4` are not written. -/
def dosStackInit (mem : Nat → Nat) (sp : Nat) (code : TaskCode) (core : Core) : (Nat → Nat) × Nat :=
  let sp := below sp 1
  let mem := Function.update mem sp 0x01000000
  let sp := below sp 1
  let mem := Function.update mem sp code.taskEntry
  let sp := below sp 1
  let mem := Function.update mem sp code.dosTaskExit
  let sp := below sp 4
  let sp := below sp 1
  let mem := Function.update mem sp code.parameter
  match core with
  | .cortexM3 => (mem, below sp 8)
  | .cortexM4 =>
      let sp := below sp 1
      (Function.update mem sp 0xfffffffd, below sp 8)

/-- What a task can tell its execution by at an exception: `r4` to `r11`, the
exception return word, `s16` to `s31` if the exception return word asks for
them, the process stack pointer and the words on the stack from there to its
top, which begin with those stacked by the processor. -/
structure Context where
  low : List Nat
  excReturn : Nat
  high : List Nat
  psp : Nat
  stack : List Nat
deriving DecidableEq

namespace Core

/-- The words of a stack from `psp` to its top. -/
def stackWords (top : Nat) (mem : Nat → Nat) (psp : Nat) : List Nat :=
  getWords mem psp ((top - psp) / 4)

/-- The context in the registers. -/
def running (core : Core) (top : Nat) (c : Cpu) : Context where
  low := lowRegs.map c.reg
  excReturn := c.reg lr
  high := if core = .cortexM4 ∧ c.reg lr &&& 0x10 = 0 then highFpRegs.map c.fp else []
  psp := c.psp
  stack := stackWords top c.mem c.psp

/-- The address behind a frame at `a`, where the process stack pointer was. -/
def frameEnd (core : Core) (mem : Nat → Nat) (a : Nat) : Nat :=
  match core with
  | .cortexM3 => a + 32
  | .cortexM4 => if mem (a + 32) &&& 0x10 = 0 then a + 100 else a + 36

/-- The context in a frame at `a`. -/
def parked (core : Core) (top : Nat) (mem : Nat → Nat) (a : Nat) : Context where
  low := getWords mem a 8
  excReturn :=
    match core with
    | .cortexM3 => excReturnThread
    | .cortexM4 => mem (a + 32)
  high := if core = .cortexM4 ∧ mem (a + 32) &&& 0x10 = 0 then getWords mem (a + 36) 16 else []
  psp := core.frameEnd mem a
  stack := stackWords top mem (core.frameEnd mem a)

/-- The exception return words of a preempted task. -/
def excReturns : Core → List Nat
  | .cortexM3 => [excReturnThread]
  | .cortexM4 => [excReturnThread, 0xffffffed]

end Core

end DoraOS
