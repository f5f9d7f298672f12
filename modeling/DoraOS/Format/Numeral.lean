import DoraOS.Format.Follow
import DoraOS.Library.Numeral

/-! The integer conversions without flags and width. The number passes through a
variable of 32 signed bits, and the loop over its digits takes remainders of that. -/
namespace DoraOS

inductive NumeralConv where
  | d
  | i
  | u
  | x
  | X
  | o
  | b
  deriving DecidableEq

namespace NumeralConv

variable (conv : NumeralConv)

def char : UInt8 :=
  match conv with
  | d => 'd'.toUInt8
  | i => 'i'.toUInt8
  | u => 'u'.toUInt8
  | x => 'x'.toUInt8
  | X => 'X'.toUInt8
  | o => 'o'.toUInt8
  | b => 'b'.toUInt8

def signed : Bool := conv = d || conv = i

def base : Nat :=
  match conv with
  | d | i | u => 10
  | x | X => 16
  | o => 8
  | b => 2

def value (w : BitVec 32) : Int := if conv.signed then w.toInt else w.toNat

/-- The numbers whose absolute value has 31 bits. -/
def Fits (w : BitVec 32) : Prop :=
  if conv.signed then w ≠ BitVec.intMin 32 else w.toNat < 2 ^ 31

def digitChar (small : Bool) (d : Nat) : UInt8 :=
  if d < 10 then '0'.toUInt8 + UInt8.ofNat d
  else (if small then 'a'.toUInt8 else 'A'.toUInt8) + UInt8.ofNat (d - 10)

def digitValue (c : UInt8) : Option Nat :=
  if '0'.toUInt8 ≤ c ∧ c ≤ '9'.toUInt8 then some (c.toNat - '0'.toNat)
  else if 'a'.toUInt8 ≤ c ∧ c ≤ 'f'.toUInt8 then some (c.toNat - 'a'.toNat + 10)
  else if 'A'.toUInt8 ≤ c ∧ c ≤ 'F'.toUInt8 then some (c.toNat - 'A'.toNat + 10)
  else none

def numeral (v : Int) : List UInt8 :=
  Numeral.text conv.base (digitChar (conv = x)) '-'.toUInt8 v

def read : List UInt8 → Option Int := Numeral.read conv.base digitValue '-'.toUInt8

/-- The characters put are the numeral of the argument and the terminator, the
argument can be read back from them, and the digit table is read at digits only. -/
structure Printed (w : BitVec 32) (r : Formatted) : Prop where
  text : r.last.out.text = conv.numeral (conv.value w) ++ [0]
  read : conv.read r.last.out.text.dropLast = some (conv.value w)
  indexed : ∀ p ∈ r.last.out.indexed, 0 ≤ p.1 ∧ p.1 < conv.base

theorem base_ok : 1 < conv.base ∧ conv.base ≤ 16 := by cases conv <;> decide

theorem digitValue_digitChar (small : Bool) :
    ∀ d < 16, digitValue (digitChar small d) = some d := by
  cases small <;> decide

theorem digitChar_ne_minus (small : Bool) : ∀ d < 16, digitChar small d ≠ '-'.toUInt8 := by
  cases small <;> decide

theorem read_numeral (v : Int) : conv.read (conv.numeral v) = some v := by
  obtain ⟨hLow, hHigh⟩ := conv.base_ok
  exact Numeral.read_text hLow
    (fun d hd => digitValue_digitChar _ d (Nat.lt_of_lt_of_le hd hHigh))
    (fun d hd => digitChar_ne_minus _ d (Nat.lt_of_lt_of_le hd hHigh)) v

theorem digit_eq (env : FormatEnv) (small : Bool) {d : Nat} (h : d < 16) :
    env.digit small d = digitChar small d := by
  by_cases hDecimal : d < 10
  · rw [FormatEnv.digit, if_pos (by omega), digitChar, if_pos hDecimal, Int.toNat_natCast]
  · rw [FormatEnv.digit, if_neg (by omega), if_pos (by omega), digitChar, if_neg hDecimal,
      Int.toNat_natCast]

end NumeralConv

section Loop

variable {base : Nat}

theorem digitLoop_succ (room n : Nat) :
    digitLoop base (room + 1) n = ((n % base : Nat) : Int) ::
      if ((n / base : Nat) : Int) > 0 then digitLoop base room (n / base : Nat) else [] := rfl

theorem digitLoop_of_lt {n : Nat} (h : n < base) (room : Nat) :
    digitLoop base (room + 1) n = [(n : Int)] := by
  rw [digitLoop_succ, Nat.div_eq_of_lt h, Nat.mod_eq_of_lt h]
  rfl

/-- The loop finds the digits of a number that is not negative. -/
theorem digitLoop_eq (hBase : 1 < base) {room n : Nat} (h : n < base ^ (room + 1)) :
    (digitLoop base (room + 1) n).reverse =
      (Numeral.digits base n).map fun d : Nat => (d : Int) := by
  induction room generalizing n with
  | zero =>
      rw [Nat.zero_add, Nat.pow_one] at h
      rw [digitLoop_of_lt h, Numeral.digits_of_lt h]
      rfl
  | succ room ih =>
      rcases Nat.lt_or_ge n base with hLt | hGe
      · rw [digitLoop_of_lt hLt, Numeral.digits_of_lt hLt]
        rfl
      · have hQuotient : 0 < n / base := Nat.div_pos hGe (by omega)
        have hNext : n / base < base ^ (room + 1) := by
          rw [Nat.div_lt_iff_lt_mul (by omega), ← Nat.pow_succ]
          exact h
        rw [digitLoop_succ, if_pos (Int.natCast_pos.mpr hQuotient), List.reverse_cons, ih hNext,
          Numeral.digits_of_le hBase hGe, List.map_append]
        rfl

/-- With a number that is not positive the loop has one round. -/
theorem digitLoop_of_nonpos {n : Int} (h : n ≤ 0) (room : Nat) :
    digitLoop base (room + 1) n = [n.tmod base] := by
  obtain ⟨k, rfl⟩ : ∃ k : Nat, n = -k := ⟨n.natAbs, by omega⟩
  have hQuotient : ¬ (-(k : Int)).tdiv base > 0 := by
    rw [Int.neg_tdiv, ← Int.ofNat_tdiv]
    exact not_lt.mpr (Int.neg_nonpos_of_nonneg (Int.natCast_nonneg _))
  rw [digitLoop, if_neg hQuotient]

/-- The number has 31 bits. -/
theorem intValue_lt (num : Int) (flags : FormatFlags) : intValue num flags < 2 ^ 31 := by
  unfold intValue
  split <;> exact toInt32_lt _

variable {num : Int} {flags : FormatFlags} {n : Nat}

theorem reverse_intIndices (hBase : BaseOk base) (hValue : intValue num flags = n) :
    (intIndices num base flags).reverse = (Numeral.digits base n).map fun d : Nat => (d : Int) := by
  have hFits := intValue_lt num flags
  rw [hValue] at hFits
  have hRoom : n < base ^ 64 :=
    calc n < 2 ^ 31 := by omega
      _ ≤ 2 ^ 64 := by decide
      _ ≤ base ^ 64 := Nat.pow_le_pow_left hBase.1 64
  rw [intIndices, hValue]
  exact digitLoop_eq hBase.1 hRoom

theorem intDigits_eq (env : FormatEnv) (hBase : BaseOk base) (hValue : intValue num flags = n) :
    intDigits env num base flags =
      (Numeral.digits base n).map (NumeralConv.digitChar flags.small) := by
  rw [intDigits, ← List.map_reverse, reverse_intIndices hBase hValue, List.map_map]
  refine List.map_congr_left fun d hd => ?_
  have hDigit := Numeral.lt_of_mem_digits hBase.1 hd
  exact NumeralConv.digit_eq env _ (Nat.lt_of_lt_of_le hDigit hBase.2)

end Loop

namespace NumeralConv

variable (conv : NumeralConv) (env : FormatEnv)

def flags : FormatFlags := integerFlags {} conv.char

/-- What the scanner finds in `"%d"` and the like. -/
theorem scan_char :
    ({} : Scan).scanUntil env ['%'.toUInt8, conv.char] =
      ({ phase := .flags } : Scan).convert env conv.char := by
  cases conv <;> rfl

theorem isInteger_char : isInteger conv.char = true := by cases conv <;> rfl

theorem integerBase_char : integerBase conv.char = conv.base := by cases conv <;> rfl

theorem integer_eq : env.integer 0 conv.char 0 = conv.value (env.args 0) := by
  cases conv <;> rfl

theorem flags_eq : conv.flags = { signed := conv.signed, small := conv = x } := by
  cases conv <;> rfl

theorem intPrefix_flags (w : BitVec 32) : intPrefix (conv.value w) conv.base conv.flags =
    if conv.value w < 0 then ['-'.toUInt8] else [] := by
  rw [flags_eq]
  cases hSigned : conv.signed with
  | true => simp [intPrefix]
  | false =>
      have hNot : ¬ conv.value w < 0 := by simp [value, hSigned]
      simp [intPrefix, hNot]

theorem convText_char : convText env {} 0 0 0 conv.char =
    (if conv.value (env.args 0) < 0 then ['-'.toUInt8] else []) ++
      intDigits env (conv.value (env.args 0)) conv.base conv.flags := by
  have hNoPad (len : Nat) : ((0 : Int) - len).toNat = 0 := by omega
  rw [convText, if_pos conv.isInteger_char, integer_eq, integerBase_char, ← intPrefix_flags]
  show fieldOfInt _ (intPrefix _ _ conv.flags) (intDigits env _ _ conv.flags) conv.flags = _
  have hFlags : conv.flags.left = false ∧ conv.flags.zeropad = false := by
    rw [flags_eq]
    exact ⟨rfl, rfl⟩
  rw [hNoPad, fieldOfInt, hFlags.1, hFlags.2]
  rfl

theorem convIndexed_char : convIndexed env {} 0 0 conv.char =
    (intIndices (conv.value (env.args 0)) conv.base conv.flags).map fun i => (i, conv.base) := by
  rw [convIndexed, if_pos conv.isInteger_char, integer_eq, integerBase_char]
  rfl

theorem intValue_of_fits {w : BitVec 32} (h : conv.Fits w) :
    intValue (conv.value w) conv.flags = (conv.value w).natAbs := by
  rw [flags_eq]
  cases hSigned : conv.signed with
  | true =>
      have hMin : w.toInt ≠ -2 ^ 31 := by
        intro hMin
        simp only [Fits, hSigned, if_true] at h
        exact h (BitVec.eq_of_toInt_eq (by rw [hMin]; rfl))
      have hLow := BitVec.le_toInt w
      have hHigh := BitVec.toInt_lt (x := w)
      simp only [intValue, value, hSigned, if_true, true_and, toInt32, Int.bmod_def]
      split <;> split <;> omega
  | false =>
      simp only [Fits, hSigned, Bool.false_eq_true, if_false] at h
      simp only [intValue, value, hSigned, Bool.false_eq_true, if_false, false_and,
        Int.natAbs_natCast]
      exact toInt32_of_lt h

theorem intValue_of_not_fits {w : BitVec 32} (h : ¬ conv.Fits w) :
    intValue (conv.value w) conv.flags ≤ 0 ∧ conv.base ≤ (conv.value w).natAbs := by
  obtain ⟨_, hBase⟩ := conv.base_ok
  rw [flags_eq]
  cases hSigned : conv.signed with
  | true =>
      simp only [Fits, hSigned, if_true, ne_eq, not_not] at h
      have hMin : w.toInt = -2147483648 := by
        rw [h]
        rfl
      simp only [intValue, value, hSigned, if_true, true_and, hMin]
      exact ⟨by decide, by omega⟩
  | false =>
      have hHigh := w.isLt
      simp only [Fits, hSigned, Bool.false_eq_true, if_false] at h
      simp only [intValue, value, hSigned, Bool.false_eq_true, if_false, false_and, toInt32,
        Int.bmod_def]
      constructor
      · split <;> omega
      · omega

/-- What is left behind `"%d"` and the like. -/
theorem exists_returns_char (buf : Option (Nat → UInt8)) (size : Nat) :
    ∃ r, FormatReturns env buf size ['%'.toUInt8, conv.char] r ∧
      r.last.out.text = (if conv.value (env.args 0) < 0 then ['-'.toUInt8] else []) ++
        intDigits env (conv.value (env.args 0)) conv.base conv.flags ++ [0] ∧
      r.last.out.indexed = (intIndices (conv.value (env.args 0)) conv.base conv.flags).map
        fun i => (i, conv.base) := by
  have hFmt : 0 ∉ ['%'.toUInt8, conv.char] := by cases conv <;> decide
  obtain ⟨m, hReturns, hShows, -, -⟩ := exists_formatReturns env buf size hFmt
  rw [scan_char] at hShows
  refine ⟨m.finish, hReturns, ?_, ?_⟩
  · have hZero : convZero env 0 conv.char = false := by cases conv <;> rfl
    have hText := hShows.text
    rw [if_pos ⟨hZero, rfl⟩] at hText
    rw [← convText_char]
    exact hText
  · rw [← convIndexed_char]
    exact hShows.indexed

theorem intIndices_of_fits {w : BitVec 32} (h : conv.Fits w) :
    (intIndices (conv.value w) conv.base conv.flags).reverse =
      (Numeral.digits conv.base (conv.value w).natAbs).map fun d : Nat => (d : Int) :=
  reverse_intIndices conv.base_ok (conv.intValue_of_fits h)

theorem intDigits_of_fits {w : BitVec 32} (h : conv.Fits w) :
    intDigits env (conv.value w) conv.base conv.flags =
      (Numeral.digits conv.base (conv.value w).natAbs).map (digitChar (conv = x)) := by
  have hSmall : conv.flags.small = decide (conv = x) := by rw [flags_eq]
  rw [intDigits_eq env conv.base_ok (conv.intValue_of_fits h), hSmall]

theorem length_intDigits_of_not_fits {w : BitVec 32} (h : ¬ conv.Fits w) :
    (intDigits env (conv.value w) conv.base conv.flags).length = 1 := by
  rw [intDigits, List.length_reverse, List.length_map, intIndices,
    digitLoop_of_nonpos (conv.intValue_of_not_fits h).1]
  rfl

end NumeralConv

/-- The right numeral is printed exactly if the absolute value has 31 bits. -/
theorem format_numeral_iff (env : FormatEnv) (buf : Option (Nat → UInt8)) (size : Nat)
    (conv : NumeralConv) :
    (∃ r, FormatReturns env buf size ['%'.toUInt8, conv.char] r ∧
      conv.Printed (env.args 0) r) ↔ conv.Fits (env.args 0) := by
  obtain ⟨r, hReturns, hText, hIndexed⟩ := conv.exists_returns_char env buf size
  rw [hReturns.exists_iff]
  constructor
  · intro hPrinted
    by_contra hNot
    have hLong := Numeral.two_le_length_digits conv.base_ok.1 (conv.intValue_of_not_fits hNot).2
    have hLength := congrArg List.length (hText.symm.trans hPrinted.text)
    rw [NumeralConv.numeral, Numeral.text] at hLength
    simp only [List.length_append, List.length_map, List.length_singleton,
      conv.length_intDigits_of_not_fits env hNot] at hLength
    omega
  · intro hFits
    rw [conv.intDigits_of_fits env hFits] at hText
    refine ⟨hText, ?_, ?_⟩
    · rw [hText, List.dropLast_concat]
      exact conv.read_numeral _
    · intro p hp
      rw [hIndexed, List.mem_map] at hp
      obtain ⟨i, hi, rfl⟩ := hp
      rw [← List.mem_reverse, conv.intIndices_of_fits hFits, List.mem_map] at hi
      obtain ⟨d, hd, rfl⟩ := hi
      exact ⟨Int.natCast_nonneg d,
        Int.ofNat_lt.mpr (Numeral.lt_of_mem_digits conv.base_ok.1 hd)⟩

/-- `"%x"` of `0x80000000` prints `0`, and `"%d"` of it reads the digit table in
front of its start. -/
theorem format_numeral_wrong :
    (¬ ∃ r, FormatReturns (.ofWords [0x80000000]) (some fun _ => 255) 16
        ['%'.toUInt8, NumeralConv.x.char] r ∧ NumeralConv.x.Printed 0x80000000 r) ∧
    ¬ ∃ r, FormatReturns (.ofWords [0x80000000]) (some fun _ => 255) 16
        ['%'.toUInt8, NumeralConv.d.char] r ∧ NumeralConv.d.Printed 0x80000000 r := by
  constructor
  · refine not_exists_formatReturns 12 (f := fun r => r.last.out.text) (x := ['0'.toUInt8, 0])
      (by decide +kernel) ?_
    intro r hText hPrinted
    have hRead := hPrinted.read
    rw [hText] at hRead
    exact absurd hRead (by decide +kernel)
  · refine not_exists_formatReturns 12 (f := fun r => r.last.out.indexed) (x := [(-8, 10)])
      (by decide +kernel) ?_
    intro r hIndexed hPrinted
    have hDigit := hPrinted.indexed (-8, 10) (by rw [hIndexed]; exact List.mem_cons_self ..)
    exact absurd hDigit.1 (by decide)

end DoraOS
