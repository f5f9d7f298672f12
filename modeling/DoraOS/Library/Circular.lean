import Mathlib.Data.Nat.ModEq

/-! Streams kept in a ring of slots. The value at position `n` of the stream
is in slot `n % size`, and values are copied in and out in contiguous
segments. -/
namespace Circular

universe u

variable {α : Type u}

/-- The values `xs` at the positions from `start` on are in their slots. -/
def Stored (size : Nat) (slot : Nat → α) (start : Nat) (xs : List α) : Prop :=
  ∀ i x, xs[i]? = some x → slot ((start + i) % size) = x

def copyIn (slot : Nat → α) (pos : Nat) (xs : List α) : Nat → α :=
  fun a => if pos ≤ a then xs[a - pos]?.getD (slot a) else slot a

def copyOut (slot : Nat → α) (pos len : Nat) : List α :=
  (List.range len).map fun i => slot (pos + i)

variable {size start s pos len : Nat} {slot : Nat → α} {xs ys : List α}

/-- Positions less than one turn apart have different slots. -/
theorem slot_inj {a b : Nat} (hLe : a ≤ b) (hLt : b < a + size) (h : a % size = b % size) :
    a = b := by
  have hDvd : size ∣ b - a := (Nat.modEq_iff_dvd' hLe).mp h
  have hZero : b - a = 0 := Nat.eq_zero_of_dvd_of_lt hDvd (by omega)
  omega

/-- A segment that ends inside the ring is contiguous. -/
theorem slot_segment {i : Nat} (h : s % size + i < size) : (s + i) % size = s % size + i := by
  rw [← Nat.mod_add_mod, Nat.mod_eq_of_lt h]

theorem copyIn_nil (slot : Nat → α) (pos : Nat) : copyIn slot pos [] = slot := by
  funext a
  simp [copyIn]

theorem copyIn_inside {i : Nat} {x : α} (h : xs[i]? = some x) :
    copyIn slot pos xs (pos + i) = x := by
  simp [copyIn, h]

theorem copyIn_outside {a : Nat} (h : a < pos ∨ pos + xs.length ≤ a) :
    copyIn slot pos xs a = slot a := by
  unfold copyIn
  split
  · rw [List.getElem?_eq_none (by omega)]
    rfl
  · rfl

/-- Where nothing is copied the position does not matter, as for the part of a
segment behind the end of the ring when there is none. -/
theorem copyIn_at (h : xs ≠ [] → pos = s) : copyIn slot pos xs = copyIn slot s xs := by
  by_cases hEmpty : xs = []
  · rw [hEmpty, copyIn_nil, copyIn_nil]
  · rw [h hEmpty]

theorem copyOut_at (h : len ≠ 0 → pos = s) : copyOut slot pos len = copyOut slot s len := by
  by_cases hEmpty : len = 0
  · rw [hEmpty]
    rfl
  · rw [h hEmpty]

theorem length_copyOut (slot : Nat → α) (pos len : Nat) : (copyOut slot pos len).length = len := by
  simp [copyOut]

namespace Stored

theorem nil : Stored size slot start [] := by
  intro i x hx
  simp at hx

theorem append (h : Stored size slot start xs) (h' : Stored size slot (start + xs.length) ys) :
    Stored size slot start (xs ++ ys) := by
  intro i x hx
  rcases Nat.lt_or_ge i xs.length with hi | hi
  · rw [List.getElem?_append_left hi] at hx
    exact h i x hx
  · rw [List.getElem?_append_right hi] at hx
    have hSlot := h' (i - xs.length) x hx
    rwa [show start + xs.length + (i - xs.length) = start + i by omega] at hSlot

/-- The oldest values are given up. -/
theorem drop (h : Stored size slot start xs) (k : Nat) :
    Stored size slot (start + k) (xs.drop k) := by
  intro i x hx
  rw [List.getElem?_drop] at hx
  rw [Nat.add_assoc]
  exact h (k + i) x hx

/-- A copied segment is stored. -/
theorem copyIn_new (hFit : s % size + ys.length ≤ size) :
    Stored size (copyIn slot (s % size) ys) s ys := by
  intro i x hx
  have hi : i < ys.length := (List.getElem?_eq_some_iff.mp hx).1
  rw [slot_segment (by omega)]
  exact copyIn_inside hx

/-- What is stored less than one turn before a copied segment stays. -/
theorem copyIn_old (h : Stored size slot start xs) (hFit : s % size + ys.length ≤ size)
    (hBefore : start + xs.length ≤ s) (hRoom : s + ys.length ≤ start + size) :
    Stored size (copyIn slot (s % size) ys) start xs := by
  intro i x hx
  have hi : i < xs.length := (List.getElem?_eq_some_iff.mp hx).1
  rw [copyIn_outside]
  · exact h i x hx
  · by_contra hInside
    rw [not_or, Nat.not_lt, Nat.not_le] at hInside
    obtain ⟨j, hj⟩ := Nat.exists_eq_add_of_le hInside.1
    have hSlot : (s + j) % size = s % size + j := slot_segment (by omega)
    have hSame : start + i = s + j := slot_inj (by omega) (by omega) (hj.trans hSlot.symm)
    omega

/-- Reading a contiguous segment gives the oldest values. -/
theorem copyOut (h : Stored size slot start xs) (hFit : start % size + len ≤ size)
    (hLen : len ≤ xs.length) : copyOut slot (start % size) len = xs.take len := by
  apply List.ext_getElem?
  intro i
  rcases Nat.lt_or_ge i len with hi | hi
  · have hx : xs[i]? = some xs[i] := List.getElem?_eq_getElem (by omega)
    rw [List.getElem?_take_of_lt hi, hx, Circular.copyOut, List.getElem?_map,
      List.getElem?_range hi, Option.map_some, ← slot_segment (by omega), h i _ hx]
  · rw [List.getElem?_eq_none (by rw [length_copyOut]; exact hi),
      List.getElem?_eq_none (by rw [List.length_take]; omega)]

end Stored

end Circular
