import Mathlib.Data.BitVec

/-! The status word of a task. Each flag is one bit of a 16-bit word, set with
`DOS_SET_TASK_STATUS` and cleared with `DOS_RESET_TASK_STATUS`. -/
namespace DoraOS

/-- The flags `DOS_TASK_STATUS_UNUSED` to `DOS_TASK_STATUS_READ`. -/
inductive Flag where
  | unused
  | ready
  | running
  | delay
  | timeout
  | suspend
  | event
  | read
  deriving DecidableEq, Repr

namespace Flag

def mask : Flag → BitVec 16
  | .unused => 0x01
  | .ready => 0x02
  | .running => 0x04
  | .delay => 0x08
  | .timeout => 0x10
  | .suspend => 0x20
  | .event => 0x40
  | .read => 0x80

def all : BitVec 16 := 0xFF

/-- The test `status & flag` of the source. -/
def test (status : BitVec 16) (f : Flag) : Bool := status &&& f.mask != 0

private def bit : Flag → Nat
  | .unused => 0
  | .ready => 1
  | .running => 2
  | .delay => 3
  | .timeout => 4
  | .suspend => 5
  | .event => 6
  | .read => 7

private theorem mask_eq (f : Flag) : f.mask = BitVec.twoPow 16 f.bit := by
  cases f <;> rfl

private theorem test_eq (status : BitVec 16) (f : Flag) : test status f = status.getLsbD f.bit := by
  have hNonzero : BitVec.twoPow 16 f.bit ≠ 0#16 := by cases f <;> decide
  unfold test
  rw [mask_eq, BitVec.and_twoPow]
  cases status.getLsbD f.bit with
  | false => simp
  | true => simpa using hNonzero

/-- A flag is set after `status |= m` if it was, or if `m` has it. -/
@[simp] theorem test_or (status m : BitVec 16) (f : Flag) :
    test (status ||| m) f = (test status f || test m f) := by
  simp [test_eq]

/-- A flag is set after `status &= ~m` if it was and `m` lacks it. -/
@[simp] theorem test_and_not (status m : BitVec 16) (f : Flag) :
    test (status &&& ~~~m) f = (test status f && !test m f) := by
  have hBit : f.bit < 16 := by cases f <;> decide
  simp [test_eq, hBit]

@[simp] theorem test_mask (f g : Flag) : test f.mask g = decide (f = g) := by
  cases f <;> cases g <;> decide

@[simp] theorem test_zero (f : Flag) : test 0 f = false := by
  simp [test]

/-- A status word without bits outside `DOS_TASK_STATUS_MASK`. -/
def Clean (status : BitVec 16) : Prop := status &&& ~~~all = 0

theorem clean_zero : Clean 0 := rfl

theorem clean_mask (f : Flag) : Clean f.mask := by
  cases f <;> rfl

theorem Clean.or {a b : BitVec 16} (ha : Clean a) (hb : Clean b) : Clean (a ||| b) := by
  have hSplit : (a ||| b) &&& ~~~all = (a &&& ~~~all) ||| (b &&& ~~~all) := by
    ext i
    simp [Bool.and_or_distrib_right]
  unfold Clean at *
  rw [hSplit, ha, hb]
  rfl

theorem Clean.reset {a : BitVec 16} (ha : Clean a) (m : BitVec 16) : Clean (a &&& ~~~m) := by
  have hSwap : (a &&& ~~~m) &&& ~~~all = (a &&& ~~~all) &&& ~~~m := by
    rw [BitVec.and_assoc, BitVec.and_comm (~~~m), BitVec.and_assoc]
  unfold Clean at *
  rw [hSwap, ha]
  simp

/-- Deletion leaves exactly the flag that says so. -/
theorem Clean.unused {a : BitVec 16} (ha : Clean a) :
    (a &&& ~~~all) ||| Flag.unused.mask = Flag.unused.mask := by
  unfold Clean at ha
  rw [ha]
  rfl

end Flag

end DoraOS
