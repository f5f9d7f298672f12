import Mathlib.Data.Nat.Digits.Lemmas

/-! Numerals in a base over an arbitrary alphabet, and reading them back. -/
namespace Numeral

variable {α : Type*} {base n : Nat}

/-- The digits of a number, the first digit first. The number 0 has one digit. -/
def digits (base n : Nat) : List Nat := if n = 0 then [0] else (Nat.digits base n).reverse

theorem digits_of_lt (h : n < base) : digits base n = [n] := by
  by_cases hZero : n = 0
  · rw [digits, if_pos hZero, hZero]
  · rw [digits, if_neg hZero, Nat.digits_of_lt base n hZero h, List.reverse_singleton]

theorem digits_of_le (hBase : 1 < base) (h : base ≤ n) :
    digits base n = digits base (n / base) ++ [n % base] := by
  have hQuotient : n / base ≠ 0 := (Nat.div_pos h (by omega)).ne'
  rw [digits, if_neg (by omega), digits, if_neg hQuotient, Nat.digits_def' hBase (by omega),
    List.reverse_cons]

theorem digits_ne_nil (base n : Nat) : digits base n ≠ [] := by
  by_cases hZero : n = 0
  · simp [digits, hZero]
  · rw [digits, if_neg hZero, ne_eq, List.reverse_eq_nil_iff, Nat.digits_eq_nil_iff_eq_zero]
    exact hZero

theorem two_le_length_digits (hBase : 1 < base) (h : base ≤ n) : 2 ≤ (digits base n).length := by
  have hSome := List.length_pos_of_ne_nil (digits_ne_nil base (n / base))
  rw [digits_of_le hBase h, List.length_append, List.length_singleton]
  omega

theorem lt_of_mem_digits (hBase : 1 < base) {d : Nat} (h : d ∈ digits base n) : d < base := by
  by_cases hZero : n = 0
  · rw [digits, if_pos hZero, List.mem_singleton] at h
    omega
  · rw [digits, if_neg hZero, List.mem_reverse] at h
    exact Nat.digits_lt_base hBase h

def number (base : Nat) (ds : List Nat) : Nat := ds.foldl (fun n d => n * base + d) 0

theorem number_digits (base n : Nat) : number base (digits base n) = n := by
  by_cases hZero : n = 0
  · simp [number, digits, hZero]
  · have hHorner : (fun d n => n * base + d) = fun d n : Nat => d + base * n := by
      funext d n
      rw [Nat.add_comm, Nat.mul_comm]
    rw [number, digits, if_neg hZero, List.foldl_reverse, hHorner]
    exact (Nat.ofDigits_eq_foldr base _).symm.trans (Nat.ofDigits_digits base n)

section Text

variable (base) (digit : Nat → α) (value : α → Option Nat) (minus : α)

def text (v : Int) : List α :=
  (if v < 0 then [minus] else []) ++ (digits base v.natAbs).map digit

/-- The number of some characters. All of them have to be digits of the base. -/
def readNat (cs : List α) : Option Nat :=
  (cs.mapM value).bind fun ds =>
    if ds ≠ [] ∧ ∀ d ∈ ds, d < base then some (number base ds) else none

/-- The integer of a numeral. -/
def read [DecidableEq α] : List α → Option Int
  | [] => none
  | c :: cs =>
      if c = minus then (readNat base value cs).map fun n : Nat => -(n : Int)
      else (readNat base value (c :: cs)).map fun n : Nat => (n : Int)

variable {base digit value minus}

theorem mapM_map (hValue : ∀ d < base, value (digit d) = some d) {ds : List Nat}
    (hDigits : ∀ d ∈ ds, d < base) : (ds.map digit).mapM value = some ds := by
  induction ds with
  | nil => rfl
  | cons d ds ih =>
      rw [List.forall_mem_cons] at hDigits
      rw [List.map_cons, List.mapM_cons, hValue d hDigits.1, ih hDigits.2]
      rfl

theorem readNat_digits (hBase : 1 < base) (hValue : ∀ d < base, value (digit d) = some d)
    (n : Nat) : readNat base value ((digits base n).map digit) = some n := by
  have hDigits : ∀ d ∈ digits base n, d < base := fun d => lt_of_mem_digits hBase
  rw [readNat, mapM_map hValue hDigits, Option.bind_some,
    if_pos ⟨digits_ne_nil base n, hDigits⟩, number_digits]

/-- Reading a numeral gives its number. -/
theorem read_text [DecidableEq α] (hBase : 1 < base)
    (hValue : ∀ d < base, value (digit d) = some d) (hMinus : ∀ d < base, digit d ≠ minus)
    (v : Int) : read base value minus (text base digit minus v) = some v := by
  have hNat := readNat_digits hBase hValue v.natAbs
  by_cases hNegative : v < 0
  · have hRead : read base value minus (text base digit minus v) =
        (readNat base value ((digits base v.natAbs).map digit)).map fun n : Nat => -(n : Int) := by
      simp only [text, if_pos hNegative, List.singleton_append, read, if_true]
    have hValue : -(v.natAbs : Int) = v := by omega
    rw [hRead, hNat, Option.map_some, hValue]
  · cases hDigits : digits base v.natAbs with
    | nil => exact absurd hDigits (digits_ne_nil base _)
    | cons d ds =>
        have hFirst : digit d ≠ minus :=
          hMinus d (lt_of_mem_digits hBase (hDigits ▸ List.mem_cons_self ..))
        have hRead : read base value minus (text base digit minus v) =
            (readNat base value ((digits base v.natAbs).map digit)).map
              fun n : Nat => (n : Int) := by
          simp only [text, if_neg hNegative, hDigits, List.map_cons, List.nil_append, read,
            if_neg hFirst]
        have hValue : (v.natAbs : Int) = v := by omega
        rw [hRead, hNat, Option.map_some, hValue]

end Text

end Numeral
