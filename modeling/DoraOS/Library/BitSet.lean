import Mathlib.Data.BitVec

/-! Finite sets of small numbers stored as the bits of one machine word, and
the least element of such a set. -/
namespace BitSet

variable {w : Nat}

/-- Setting one bit adds exactly its index. -/
theorem getLsbD_set (x : BitVec w) {p : Nat} (hp : p < w) (q : Nat) :
    (x ||| 1#w <<< p).getLsbD q = (x.getLsbD q || decide (q = p)) := by
  rw [← BitVec.twoPow_eq, BitVec.getLsbD_or, BitVec.getLsbD_twoPow]
  by_cases h : q = p
  · simp [h, hp]
  · simp [h, Ne.symm h]

/-- Clearing one bit removes exactly its index. -/
theorem getLsbD_clear (x : BitVec w) (p q : Nat) :
    (x &&& ~~~(1#w <<< p)).getLsbD q = (x.getLsbD q && decide (q ≠ p)) := by
  rw [← BitVec.twoPow_eq]
  by_cases hq : q < w
  · by_cases h : q = p
    · subst h
      simp [hq]
    · simp [hq, h]
  · simp [BitVec.getLsbD_of_ge x q (by omega)]

def IsLowest (x : BitVec w) (i : Nat) : Prop :=
  x.getLsbD i = true ∧ ∀ j, j < i → x.getLsbD j = false

theorem IsLowest.unique {x : BitVec w} {i j : Nat} (hi : IsLowest x i) (hj : IsLowest x j) :
    i = j := by
  rcases Nat.lt_trichotomy i j with h | h | h
  · have hFalse := hj.2 i h
    rw [hi.1] at hFalse
    cases hFalse
  · exact h
  · have hFalse := hi.2 j h
    rw [hj.1] at hFalse
    cases hFalse

theorem IsLowest.le {x : BitVec w} {i j : Nat} (hi : IsLowest x i) (hj : x.getLsbD j = true) :
    i ≤ j := by
  by_contra h
  have hFalse := hi.2 j (by omega)
  rw [hj] at hFalse
  cases hFalse

theorem IsLowest.ctz {x : BitVec w} (hx : x ≠ 0#w) : IsLowest x x.ctz.toNat :=
  ⟨BitVec.getLsbD_true_ctz_of_ne_zero hx, fun _ hj => BitVec.getLsbD_false_of_lt_ctz hj⟩

/-- A word with a set bit is not zero. -/
theorem ne_zero_of_getLsbD {x : BitVec w} {i : Nat} (h : x.getLsbD i = true) : x ≠ 0#w := by
  rintro rfl
  simp at h

/-- The bits of a byte-wide mask at offset `s`. -/
theorem getLsbD_byteMask (s j : Nat) :
    (0xff#w <<< s).getLsbD j = (decide (j < w) && decide (s ≤ j ∧ j < s + 8)) := by
  have hByte : (255 : Nat).testBit (j - s) = decide (j - s < 8) :=
    Nat.testBit_two_pow_sub_one 8 (j - s)
  rw [BitVec.getLsbD_shiftLeft, BitVec.getLsbD_ofNat, hByte, Bool.eq_iff_iff]
  simp only [Bool.and_eq_true, decide_eq_true_eq, Bool.not_eq_true', decide_eq_false_iff_not]
  omega

/-- A byte of a word is zero exactly when its eight bits are clear. -/
theorem byte_eq_zero {x : BitVec w} {s : Nat} (hZero : x &&& 0xff#w <<< s = 0#w) {j : Nat}
    (hLow : s ≤ j) (hHigh : j < s + 8) : x.getLsbD j = false := by
  by_cases hj : j < w
  · have hBit : (x &&& 0xff#w <<< s).getLsbD j = (0#w).getLsbD j := by rw [hZero]
    rw [BitVec.getLsbD_and, getLsbD_byteMask, BitVec.getLsbD_zero, decide_eq_true hj,
      decide_eq_true ⟨hLow, hHigh⟩, Bool.true_and, Bool.and_true] at hBit
    exact hBit
  · exact BitVec.getLsbD_of_ge x j (by omega)

/-- The value of a byte cut out of a word has the bits of the word. -/
theorem testBit_byte (x : BitVec w) {s j : Nat} (hj : j < 8) :
    ((x &&& 0xff#w <<< s) >>> s).toNat.testBit j = x.getLsbD (s + j) := by
  rw [← BitVec.getLsbD, BitVec.getLsbD_ushiftRight, BitVec.getLsbD_and, getLsbD_byteMask]
  by_cases hw : s + j < w
  · have hIn : s ≤ s + j ∧ s + j < s + 8 := ⟨by omega, by omega⟩
    simp [hw, hIn]
  · simp [BitVec.getLsbD_of_ge x (s + j) (by omega)]

theorem byte_lt (x : BitVec w) (s : Nat) : ((x &&& 0xff#w <<< s) >>> s).toNat < 2 ^ 8 := by
  apply Nat.lt_pow_two_of_testBit
  intro i hi
  have hOut : ¬(s ≤ s + i ∧ s + i < s + 8) := by omega
  rw [← BitVec.getLsbD, BitVec.getLsbD_ushiftRight, BitVec.getLsbD_and, getLsbD_byteMask,
    decide_eq_false hOut, Bool.and_false, Bool.and_false]

theorem byte_ne_zero {x : BitVec w} {s : Nat} (h : x &&& 0xff#w <<< s ≠ 0#w) :
    ((x &&& 0xff#w <<< s) >>> s).toNat ≠ 0 := by
  intro hZero
  apply h
  apply BitVec.eq_of_getLsbD_eq
  intro j hj
  rw [BitVec.getLsbD_and, getLsbD_byteMask, BitVec.getLsbD_zero]
  by_cases hIn : s ≤ j ∧ j < s + 8
  · have hBit := testBit_byte x (s := s) (j := j - s) (by omega)
    rw [hZero, Nat.zero_testBit, Nat.add_sub_cancel' hIn.1] at hBit
    rw [← hBit, Bool.false_and]
  · rw [decide_eq_false hIn, Bool.and_false, Bool.and_false]

/-- The least bit of a word is the least bit of its lowest non-zero byte. -/
theorem IsLowest.of_byte {x : BitVec w} {s i : Nat} (hBelow : ∀ j, j < s → x.getLsbD j = false)
    (hi : i < 8) (hSet : ((x &&& 0xff#w <<< s) >>> s).toNat.testBit i = true)
    (hLeast : ∀ j, j < i → ((x &&& 0xff#w <<< s) >>> s).toNat.testBit j = false) :
    IsLowest x (i + s) := by
  constructor
  · rw [testBit_byte x hi, Nat.add_comm] at hSet
    exact hSet
  · intro j hj
    by_cases hs : j < s
    · exact hBelow j hs
    · have hBit := hLeast (j - s) (by omega)
      rw [testBit_byte x (by omega), Nat.add_sub_cancel' (by omega)] at hBit
      exact hBit

end BitSet
