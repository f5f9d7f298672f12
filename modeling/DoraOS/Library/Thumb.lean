import DoraOS.Library.Runs
import Mathlib.Algebra.Group.Nat.Defs
import Mathlib.Logic.Function.Basic

/-! Straight-line code of an exception handler in a subset of the Thumb-2
instructions. Memory is read and written in words at word-aligned addresses.
An access the subset does not describe, one that is not aligned or that reaches
the end of the address space, has no successor. -/
namespace Thumb

section Words

/-- Memory with words at ascending addresses from `a` on. -/
def putWords (mem : Nat → Nat) (a : Nat) : List Nat → Nat → Nat
  | [] => mem
  | w :: ws => putWords (Function.update mem a w) (a + 4) ws

/-- The `n` words from `a` on. -/
def getWords (mem : Nat → Nat) (a : Nat) : Nat → List Nat
  | 0 => []
  | n + 1 => mem a :: getWords mem (a + 4) n

variable {mem mem' : Nat → Nat} {a m n x : Nat} {ws : List Nat}

@[simp] theorem length_getWords : (getWords mem a n).length = n := by
  induction n generalizing a with
  | zero => rfl
  | succ n ih => simp [getWords, ih]

theorem getElem?_getWords {i : Nat} (hi : i < n) : (getWords mem a n)[i]? = some (mem (a + 4 * i)) := by
  induction n generalizing a i with
  | zero => omega
  | succ n ih =>
      cases i with
      | zero => rfl
      | succ i =>
          rw [getWords, List.getElem?_cons_succ, ih (by omega)]
          congr 2
          omega

theorem getWords_congr (h : ∀ x, a ≤ x → x < a + 4 * n → mem' x = mem x) :
    getWords mem' a n = getWords mem a n := by
  induction n generalizing a with
  | zero => rfl
  | succ n ih =>
      have hRest : ∀ x, a + 4 ≤ x → x < a + 4 + 4 * n → mem' x = mem x := by
        intro x hLow hHigh
        exact h x (by omega) (by omega)
      rw [getWords, getWords, h a (Nat.le_refl a) (by omega), ih hRest]

theorem getWords_add : getWords mem a (m + n) = getWords mem a m ++ getWords mem (a + 4 * m) n := by
  induction m generalizing a with
  | zero => simp [getWords]
  | succ m ih =>
      have hNext : a + 4 + 4 * m = a + 4 * (m + 1) := by omega
      rw [Nat.succ_add, getWords, getWords, ih, hNext, List.cons_append]

/-- A block of words leaves the rest of the memory. -/
theorem putWords_off (h : x < a ∨ a + 4 * ws.length ≤ x) : putWords mem a ws x = mem x := by
  induction ws generalizing mem a with
  | nil => rfl
  | cons w ws ih =>
      rw [List.length_cons] at h
      have hRest : x < a + 4 ∨ a + 4 + 4 * ws.length ≤ x := by omega
      have hNe : x ≠ a := by omega
      rw [putWords, ih hRest, Function.update_of_ne hNe]

theorem getWords_putWords : getWords (putWords mem a ws) a ws.length = ws := by
  induction ws generalizing mem a with
  | nil => rfl
  | cons w ws ih =>
      have hFirst : putWords (Function.update mem a w) (a + 4) ws a = w := by
        rw [putWords_off (Or.inl (by omega)), Function.update_self]
      rw [List.length_cons, getWords, putWords, ih, hFirst]

end Words

section Files

variable {ι : Type} [DecidableEq ι]

/-- A register file with the words loaded into the listed registers. -/
def loadRegs (file : ι → Nat) : List ι → List Nat → ι → Nat
  | r :: rs, w :: ws => loadRegs (Function.update file r w) rs ws
  | _, _ => file

variable {file : ι → Nat} {rs : List ι} {ws : List Nat} {r : ι}

theorem loadRegs_of_notMem (h : r ∉ rs) : loadRegs file rs ws r = file r := by
  induction rs generalizing file ws with
  | nil => rfl
  | cons q rs ih =>
      rw [List.mem_cons, not_or] at h
      cases ws with
      | nil => rfl
      | cons w ws => rw [loadRegs, ih h.2, Function.update_of_ne h.1]

/-- Distinct registers hold what was loaded into them. -/
theorem map_loadRegs (hNodup : rs.Nodup) (hLength : ws.length = rs.length) :
    rs.map (loadRegs file rs ws) = ws := by
  induction rs generalizing file ws with
  | nil => exact (List.length_eq_zero_iff.mp hLength).symm
  | cons q rs ih =>
      cases ws with
      | nil => simp at hLength
      | cons w ws =>
          rw [List.nodup_cons] at hNodup
          rw [List.length_cons, List.length_cons, Nat.add_right_cancel_iff] at hLength
          rw [List.map_cons, loadRegs, loadRegs_of_notMem hNodup.1, Function.update_self,
            ih hNodup.2 hLength]

end Files

/-- `r0` to `r12`, the stack pointer and the link register. -/
abbrev Reg := Fin 15

/-- The single-precision registers `s0` to `s31`. -/
abbrev FpReg := Fin 32

def sp : Reg := ⟨13, by decide⟩
def lr : Reg := ⟨14, by decide⟩

theorem sp_eq : sp = 13 := rfl

theorem lr_eq : lr = 14 := rfl

inductive Special where
  | psp
  | primask
  | basepri
deriving DecidableEq

structure Cpu where
  reg : Reg → Nat
  fp : FpReg → Nat
  special : Special → Nat
  /-- The zero flag. -/
  zero : Bool
  mem : Nat → Nat

/-- The instructions, over the names of the functions that can be called. A
register list is in ascending order, as a block transfer takes it. The
instructions `vstmdbeq` and `vldmiaeq` are in an `it eq` block. -/
inductive Instr (F : Type) where
  | mrs (d : Reg) (s : Special)
  | msr (s : Special) (n : Reg)
  | cpsid
  | const (d : Reg) (word : Nat)
  | ldr (d n : Reg)
  | str (d n : Reg)
  | stmdb (n : Reg) (rs : List Reg)
  | ldmia (n : Reg) (rs : List Reg)
  | tst (n : Reg) (mask : Nat)
  | vstmdbeq (n : Reg) (rs : List FpReg)
  | vldmiaeq (n : Reg) (rs : List FpReg)
  | orr (d n : Reg) (mask : Nat)
  | bl (f : F)
  | bx (n : Reg)

namespace Cpu

variable (c : Cpu)

def psp : Nat := c.special .psp

def setReg (d : Reg) (word : Nat) : Cpu := { c with reg := Function.update c.reg d word }

/-- Words below the address in `n`, which is left at the lowest of them. -/
def push (n : Reg) (ws : List Nat) : Option Cpu :=
  if c.reg n % 4 = 0 ∧ 4 * ws.length ≤ c.reg n then
    some { c.setReg n (c.reg n - 4 * ws.length) with
      mem := putWords c.mem (c.reg n - 4 * ws.length) ws }
  else none

/-- Words from the address in `n` on, which is left behind the highest of them. -/
def pop (n : Reg) (k : Nat) : Option (Cpu × List Nat) :=
  if c.reg n % 4 = 0 ∧ c.reg n + 4 * k < 2 ^ 32 then
    some (c.setReg n (c.reg n + 4 * k), getWords c.mem (c.reg n) k)
  else none

def exec {F : Type} (call : F → Cpu → Option Cpu) : Instr F → Option Cpu
  | .mrs d s => some (c.setReg d (c.special s))
  | .msr s n => some { c with special := Function.update c.special s (c.reg n) }
  | .cpsid => some { c with special := Function.update c.special .primask 1 }
  | .const d word => some (c.setReg d word)
  | .ldr d n => if c.reg n % 4 = 0 then some (c.setReg d (c.mem (c.reg n))) else none
  | .str d n =>
      if c.reg n % 4 = 0 then some { c with mem := Function.update c.mem (c.reg n) (c.reg d) }
      else none
  | .stmdb n rs => c.push n (rs.map c.reg)
  | .ldmia n rs => (c.pop n rs.length).map fun r => { r.1 with reg := loadRegs r.1.reg rs r.2 }
  | .tst n mask => some { c with zero := decide (c.reg n &&& mask = 0) }
  | .vstmdbeq n rs => if c.zero then c.push n (rs.map c.fp) else some c
  | .vldmiaeq n rs =>
      if c.zero then
        (c.pop n rs.length).map fun r => { r.1 with fp := loadRegs r.1.fp rs r.2 }
      else some c
  | .orr d n mask => some (c.setReg d (c.reg n ||| mask))
  | .bl f => call f c
  -- The last instruction of a handler: its caller is found in the register.
  | .bx _ => some c

/-- Straight-line code. -/
def run {F : Type} (call : F → Cpu → Option Cpu) (code : List (Instr F)) : Option Cpu :=
  Transition.exec (fun c i => c.exec call i) c code

variable {c} {F : Type} {call : F → Cpu → Option Cpu}

theorem run_cons {i : Instr F} {code : List (Instr F)} :
    c.run call (i :: code) = (c.exec call i).bind fun c' => c'.run call code := rfl

theorem run_append {first second : List (Instr F)} :
    c.run call (first ++ second) = (c.run call first).bind fun c' => c'.run call second := by
  induction first generalizing c with
  | nil => rfl
  | cons i first ih =>
      rw [List.cons_append, run_cons, run_cons, Option.bind_assoc]
      exact Option.bind_congr fun c' _ => ih

end Cpu

end Thumb
