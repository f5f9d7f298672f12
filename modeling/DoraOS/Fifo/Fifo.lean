import DoraOS.Library.Runs
import DoraOS.Library.Circular
import Mathlib.Data.BitVec

/-! The byte fifo of `common/salof/fifo.c`. The counters `in` and `out` run
freely modulo `2^32` and are masked to an offset in a buffer whose size is a
power of two. -/
namespace DoraOS

def dosMin (a b : BitVec 32) : BitVec 32 := if a < b then a else b

theorem toNat_dosMin (a b : BitVec 32) : (dosMin a b).toNat = min a.toNat b.toNat := by
  unfold dosMin
  split
  · rename_i h
    have hLt := BitVec.lt_def.mp h
    omega
  · rename_i h
    have hGe := mt BitVec.lt_def.mpr h
    omega

section Size

/-- One test of `_dos_find_last_bit_set`: when the masked high bits are clear
the word is shifted up over them. -/
def dosShiftUp (mask : BitVec 32) (n : Nat) (xr : BitVec 32 × Nat) : BitVec 32 × Nat :=
  if xr.1 &&& mask = 0 then (xr.1 <<< n, xr.2 - n) else xr

def dosFindLastBitSet (x : BitVec 32) : Nat :=
  if x = 0 then 0
  else
    (dosShiftUp 0x80000000 1 (dosShiftUp 0xc0000000 2 (dosShiftUp 0xf0000000 4
      (dosShiftUp 0xff000000 8 (dosShiftUp 0xffff0000 16 (x, 32)))))).2

def dosFifoAlign (x : BitVec 32) : BitVec 32 := 1#32 <<< (dosFindLastBitSet (x - 1) - 1)

/-- The size that `dos_fifo_create` allocates for a requested size. -/
def dosFifoSize (size : BitVec 32) : BitVec 32 :=
  if size &&& (size - 1) ≠ 0 then dosFifoAlign size else size

/-- The word has been shifted up by `32 - r` without losing a bit, and one of
its `n` highest bits is set. -/
structure ShiftedUp (x : BitVec 32) (n : Nat) (xr : BitVec 32 × Nat) : Prop where
  bound : xr.2 ≤ 32
  left : n ≤ xr.2
  value : xr.1.toNat = x.toNat * 2 ^ (32 - xr.2)
  high : 2 ^ (32 - n) ≤ xr.1.toNat

/-- The `n` highest bits of a word. -/
def highMask (n : Nat) : BitVec 32 := BitVec.allOnes 32 <<< (32 - n)

theorem and_highMask_eq_zero {x : BitVec 32} {n : Nat} (h : x &&& highMask n = 0) :
    x.toNat < 2 ^ (32 - n) := by
  apply Nat.lt_pow_two_of_testBit
  intro i hi
  by_cases hWidth : i < 32
  · have hBit : (x &&& highMask n).getLsbD i = (0#32).getLsbD i := congrArg (·.getLsbD i) h
    have hIn : i - (32 - n) < 32 := by omega
    rw [BitVec.getLsbD_and, highMask, BitVec.getLsbD_shiftLeft, BitVec.getLsbD_allOnes] at hBit
    simpa [hWidth, Nat.not_lt.mpr hi, hIn, BitVec.getLsbD] using hBit
  · exact BitVec.getLsbD_of_ge x i (by omega)

theorem and_highMask_ne_zero {x : BitVec 32} {n : Nat} (h : x &&& highMask n ≠ 0) :
    2 ^ (32 - n) ≤ x.toNat := by
  by_contra hLess
  apply h
  apply BitVec.eq_of_getLsbD_eq
  intro i hi
  rw [BitVec.getLsbD_and, highMask, BitVec.getLsbD_shiftLeft]
  by_cases hLow : i < 32 - n
  · simp [hLow]
  · have hClear : x.getLsbD i = false :=
      Nat.testBit_lt_two_pow (Nat.lt_of_lt_of_le (Nat.not_le.mp hLess)
        (Nat.pow_le_pow_right (by decide) (Nat.not_lt.mp hLow)))
    simp [hClear]

/-- One test halves the number of high bits among which one is set. -/
theorem ShiftedUp.shiftUp {x : BitVec 32} {n : Nat} {xr : BitVec 32 × Nat}
    (h : ShiftedUp x (2 * n) xr) (hn : 2 * n ≤ 32) :
    ShiftedUp x n (dosShiftUp (highMask n) n xr) := by
  have hBound := h.bound
  have hLeft := h.left
  unfold dosShiftUp
  split
  · rename_i hClear
    have hLess := and_highMask_eq_zero hClear
    have hSplit : 2 ^ (32 - n) * 2 ^ n = 2 ^ 32 := by rw [← Nat.pow_add, Nat.sub_add_cancel (by omega)]
    have hFits : xr.1.toNat * 2 ^ n < 2 ^ 32 := by
      rw [← hSplit]
      exact Nat.mul_lt_mul_of_pos_right hLess (Nat.two_pow_pos n)
    have hShift : (xr.1 <<< n).toNat = xr.1.toNat * 2 ^ n := by
      rw [BitVec.toNat_shiftLeft, Nat.shiftLeft_eq, Nat.mod_eq_of_lt hFits]
    refine ⟨by dsimp only; omega, by dsimp only; omega, ?_, ?_⟩
    · dsimp only
      rw [hShift, h.value, Nat.mul_assoc, ← Nat.pow_add]
      congr 2
      omega
    · dsimp only
      rw [hShift, show 32 - n = 32 - 2 * n + n by omega, Nat.pow_add]
      exact Nat.mul_le_mul_right _ h.high
  · rename_i hSet
    exact ⟨hBound, by omega, h.value, and_highMask_ne_zero hSet⟩

/-- The number of the highest set bit, counted from one. -/
theorem findLastBitSet_eq {x : BitVec 32} (hx : x ≠ 0) :
    dosFindLastBitSet x = x.toNat.log2 + 1 := by
  have hPos : 0 < x.toNat := Nat.pos_of_ne_zero fun h => hx (BitVec.eq_of_toNat_eq h)
  have hStart : ShiftedUp x (2 * 16) (x, 32) := ⟨Nat.le_refl _, Nat.le_refl _, by simp, hPos⟩
  obtain ⟨xr, hEnd, hResult⟩ : ∃ xr, ShiftedUp x 1 xr ∧ dosFindLastBitSet x = xr.2 := by
    refine ⟨_, ((((hStart.shiftUp (by decide)).shiftUp (n := 8) (by decide)).shiftUp (n := 4)
      (by decide)).shiftUp (n := 2) (by decide)).shiftUp (n := 1) (by decide), ?_⟩
    rw [dosFindLastBitSet, if_neg hx]
    rfl
  have hBound := hEnd.bound
  have hLeft := hEnd.left
  have hLow : 2 ^ (xr.2 - 1) ≤ x.toNat := by
    apply Nat.le_of_mul_le_mul_right _ (Nat.two_pow_pos (32 - xr.2))
    rw [← Nat.pow_add, show xr.2 - 1 + (32 - xr.2) = 32 - 1 by omega, ← hEnd.value]
    exact hEnd.high
  have hHigh : x.toNat < 2 ^ (xr.2 - 1 + 1) := by
    apply Nat.lt_of_mul_lt_mul_right (a := 2 ^ (32 - xr.2))
    rw [← Nat.pow_add, show xr.2 - 1 + 1 + (32 - xr.2) = 32 by omega, ← hEnd.value]
    exact xr.1.isLt
  rw [hResult, (Nat.log2_eq_iff hPos.ne').mpr ⟨hLow, hHigh⟩]
  omega

/-- A word without its lowest set bit is zero for powers of two only. -/
theorem two_pow_of_and_sub_one {x : Nat} (hx : 0 < x) (h : x &&& (x - 1) = 0) :
    x = 2 ^ x.log2 := by
  by_contra hNot
  have hLow : 2 ^ x.log2 ≤ x := Nat.log2_self_le (by omega)
  have hHigh : x < 2 ^ (x.log2 + 1) := Nat.lt_log2_self
  have hBit : (x &&& (x - 1)).testBit x.log2 = true := by
    rw [Nat.testBit_and, Nat.testBit_of_two_pow_le_and_two_pow_add_one_gt hLow hHigh,
      Nat.testBit_of_two_pow_le_and_two_pow_add_one_gt (n := x - 1) (by omega) (by omega)]
    rfl
  rw [h, Nat.zero_testBit] at hBit
  cases hBit

/-- Masking with one less than a power of two is reduction modulo that power. -/
theorem toNat_and_sub_one {size : BitVec 32} {n : Nat} (h : size.toNat = 2 ^ n) (x : BitVec 32) :
    (x &&& (size - 1)).toNat = x.toNat % size.toNat := by
  have hPred : (size - 1).toNat = 2 ^ n - 1 := by
    rw [BitVec.toNat_sub_of_le (BitVec.le_def.mpr (by rw [h]; exact Nat.two_pow_pos n)), h]
    rfl
  rw [BitVec.toNat_and, hPred, Nat.and_two_pow_sub_one_eq_mod, h]

/-- The size that is used for a requested size. -/
theorem toNat_dosFifoSize {size : BitVec 32} (hSize : size ≠ 0) :
    (dosFifoSize size).toNat = 2 ^ size.toNat.log2 := by
  have hPos : 0 < size.toNat := Nat.pos_of_ne_zero fun h => hSize (BitVec.eq_of_toNat_eq h)
  have hPred : (size - 1).toNat = size.toNat - 1 :=
    BitVec.toNat_sub_of_le (BitVec.le_def.mpr hPos)
  have hLow : 2 ^ size.toNat.log2 ≤ size.toNat := Nat.log2_self_le hPos.ne'
  have hHigh : size.toNat < 2 ^ (size.toNat.log2 + 1) := Nat.lt_log2_self
  unfold dosFifoSize
  split
  · rename_i hRound
    have hOne : size - 1 ≠ 0 := by
      intro hZero
      rw [hZero] at hRound
      exact hRound BitVec.and_zero
    have hNot : size.toNat ≠ 2 ^ size.toNat.log2 := by
      intro hPow
      apply hRound
      apply BitVec.eq_of_toNat_eq
      rw [toNat_and_sub_one hPow, Nat.mod_self]
      rfl
    -- the word below is at least the same power of two
    have hLog : (size - 1).toNat.log2 = size.toNat.log2 :=
      (Nat.log2_eq_iff fun h => hOne (BitVec.eq_of_toNat_eq h)).mpr (by omega)
    have hWord : size.toNat.log2 < 32 := (Nat.log2_lt hPos.ne').mpr size.isLt
    rw [dosFifoAlign, findLastBitSet_eq hOne, hLog, BitVec.toNat_shiftLeft, Nat.shiftLeft_eq]
    show 1 * _ % _ = _
    rw [Nat.one_mul, Nat.add_sub_cancel, Nat.mod_eq_of_lt (Nat.pow_lt_pow_right (by decide) hWord)]
  · rename_i hExact
    have hZero : size.toNat &&& (size.toNat - 1) = 0 := by
      rw [← hPred, ← BitVec.toNat_and, not_not.mp hExact]
      rfl
    exact two_pow_of_and_sub_one hPos hZero

/-- The allocated size is a power of two and at most the requested one. -/
theorem fifoSize_pow {size : BitVec 32} (hSize : size ≠ 0) :
    (∃ n, n < 32 ∧ (dosFifoSize size).toNat = 2 ^ n) ∧
      (dosFifoSize size).toNat ≤ size.toNat := by
  have hPos : size.toNat ≠ 0 := fun h => hSize (BitVec.eq_of_toNat_eq h)
  rw [toNat_dosFifoSize hSize]
  exact ⟨⟨_, (Nat.log2_lt hPos).mpr size.isLt, rfl⟩, Nat.log2_self_le hPos⟩

end Size

/-- `struct dos_fifo` without its mutexes, with the bytes of its buffer. -/
structure Fifo where
  size : BitVec 32
  fifoIn : BitVec 32
  fifoOut : BitVec 32
  buffer : Nat → UInt8

/-- `dos_fifo_create` when its allocations succeed. The buffer holds whatever
the heap block held. -/
def dosFifoCreate (size : BitVec 32) (stale : Nat → UInt8) : Option Fifo :=
  if size = 0 then none
  else some { size := dosFifoSize size, fifoIn := 0, fifoOut := 0, buffer := stale }

/-- `dos_fifo_create` uses the largest power of two that is not above the requested
size. Masking with the size less one reduces a counter modulo the size, and the
size divides the range of the counters. -/
theorem fifoCreate_size {size : BitVec 32} (hSize : size ≠ 0) (stale : Nat → UInt8) :
    ∃ fifo, dosFifoCreate size stale = some fifo ∧
      (∃ n, fifo.size.toNat = 2 ^ n ∧ 2 ^ n ≤ size.toNat ∧
        ∀ m, 2 ^ m ≤ size.toNat → 2 ^ m ≤ 2 ^ n) ∧
      (∀ x : BitVec 32, (x &&& (fifo.size - 1)).toNat = x.toNat % fifo.size.toNat) ∧
      fifo.size.toNat ∣ 2 ^ 32 := by
  have hPos : size.toNat ≠ 0 := fun h => hSize (BitVec.eq_of_toNat_eq h)
  have hPow := toNat_dosFifoSize hSize
  have hWord : size.toNat.log2 < 32 := (Nat.log2_lt hPos).mpr size.isLt
  refine ⟨_, if_neg hSize, ⟨_, hPow, Nat.log2_self_le hPos, ?_⟩, toNat_and_sub_one hPow, ?_⟩
  · intro m hm
    exact Nat.pow_le_pow_right (by decide) ((Nat.le_log2 hPos).mpr hm)
  · dsimp only
    rw [hPow]
    exact Nat.pow_dvd_pow 2 hWord.le

/-- A request of 2000 bytes is a fifo of 1024. -/
theorem fifoCreate_size_2000 : dosFifoSize 2000 = 1024 ∧
    ∃ fifo, dosFifoCreate 2000 (fun _ => 0) = some fifo ∧
      (∃ n, fifo.size.toNat = 2 ^ n ∧ 2 ^ n ≤ (2000 : BitVec 32).toNat ∧
        ∀ m, 2 ^ m ≤ (2000 : BitVec 32).toNat → 2 ^ m ≤ 2 ^ n) ∧
      (∀ x : BitVec 32, (x &&& (fifo.size - 1)).toNat = x.toNat % fifo.size.toNat) ∧
      fifo.size.toNat ∣ 2 ^ 32 :=
  ⟨by decide, fifoCreate_size (by decide) fun _ => 0⟩

namespace Fifo

variable (fifo : Fifo)

def writeLen (len : BitVec 32) : BitVec 32 :=
  dosMin len (fifo.size - fifo.fifoIn + fifo.fifoOut)

def readLen (len : BitVec 32) : BitVec 32 := dosMin len (fifo.fifoIn - fifo.fifoOut)

def offset (counter : BitVec 32) : BitVec 32 := counter &&& (fifo.size - 1)

/-- The length `l` of the segment in front of the end of the buffer. -/
def firstLen (counter len : BitVec 32) : BitVec 32 :=
  dosMin len (fifo.size - fifo.offset counter)

/-- `memcpy` of a segment into the buffer. -/
def copyTo (offset : Nat) (bytes : List UInt8) : Fifo :=
  { fifo with buffer := Circular.copyIn fifo.buffer offset bytes }

end Fifo

/-- Where `dos_fifo_write` is, with the caller's bytes and its locals. -/
inductive Writer where
  | idle
  | copyFirst (buff : List UInt8) (len : BitVec 32)
  | copySecond (buff : List UInt8) (len l : BitVec 32)
  | publish (buff : List UInt8) (len : BitVec 32)
deriving DecidableEq

/-- Where `dos_fifo_read` is, with its locals and the bytes copied so far. -/
inductive Reader where
  | idle
  | copyFirst (len : BitVec 32)
  | copySecond (len l : BitVec 32) (got : List UInt8)
  | publish (len : BitVec 32) (got : List UInt8)
deriving DecidableEq

/-- One writer and one reader on a fifo. `accepted` and `returned` record the
bytes of the completed calls. -/
structure FifoRun where
  fifo : Fifo
  writer : Writer
  reader : Reader
  accepted : List UInt8
  returned : List UInt8

/-- The calls, each with the result of its `dos_mutex_pend`, and the steps of
the two parties. Nobody else takes the mutex of a party. -/
inductive FifoEvent where
  | write (buff : List UInt8) (pended : Bool)
  | writer
  | read (len : BitVec 32) (pended : Bool)
  | reader
deriving DecidableEq

def FifoRun.start (fifo : Fifo) : FifoRun where
  fifo := fifo
  writer := .idle
  reader := .idle
  accepted := []
  returned := []

namespace FifoRun

variable (s : FifoRun)

/-- `dos_fifo_write` up to the computation of `len`. A call with no bytes or
without the mutex returns 0. -/
def dosFifoWrite (buff : List UInt8) (pended : Bool) : FifoRun :=
  if buff = [] ∨ pended = false then s
  else { s with writer := .copyFirst buff (s.fifo.writeLen (BitVec.ofNat 32 buff.length)) }

def writerStep : Option FifoRun :=
  match s.writer with
  | .idle => none
  | .copyFirst buff len =>
      let l := s.fifo.firstLen s.fifo.fifoIn len
      some { s with
        fifo := s.fifo.copyTo (s.fifo.offset s.fifo.fifoIn).toNat (buff.take l.toNat)
        writer := .copySecond buff len l }
  | .copySecond buff len l =>
      some { s with
        fifo := s.fifo.copyTo 0 ((buff.drop l.toNat).take (len - l).toNat)
        writer := .publish buff len }
  | .publish buff len =>
      some { s with
        fifo := { s.fifo with fifoIn := s.fifo.fifoIn + len }
        writer := .idle
        accepted := s.accepted ++ buff.take len.toNat }

/-- `dos_fifo_read` up to the computation of `len`. -/
def dosFifoRead (len : BitVec 32) (pended : Bool) : FifoRun :=
  if len = 0 ∨ pended = false then s
  else { s with reader := .copyFirst (s.fifo.readLen len) }

def readerStep : Option FifoRun :=
  match s.reader with
  | .idle => none
  | .copyFirst len =>
      let l := s.fifo.firstLen s.fifo.fifoOut len
      some { s with
        reader := .copySecond len l
          (Circular.copyOut s.fifo.buffer (s.fifo.offset s.fifo.fifoOut).toNat l.toNat) }
  | .copySecond len l got =>
      some { s with
        reader := .publish len (got ++ Circular.copyOut s.fifo.buffer 0 (len - l).toNat) }
  | .publish len got =>
      some { s with
        fifo := { s.fifo with fifoOut := s.fifo.fifoOut + len }
        reader := .idle
        returned := s.returned ++ got }

end FifoRun

/-- A call starts when its party is idle. The length of a write is an
unsigned word. -/
def fifoStep (s : FifoRun) : FifoEvent → Option FifoRun
  | .write buff pended =>
      if s.writer = .idle ∧ buff.length < 2 ^ 32 then some (s.dosFifoWrite buff pended) else none
  | .writer => s.writerStep
  | .read len pended => if s.reader = .idle then some (s.dosFifoRead len pended) else none
  | .reader => s.readerStep

end DoraOS
