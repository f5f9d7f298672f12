import Mathlib.Data.List.Basic

/-! Rings of `cap` slots. What a slot holds is a relation between its index and
a value, so that values may be stored in any representation. -/
namespace Ring

universe u

variable {α : Type u}

/-- The index `a` brought back into the ring, for `a` below twice `cap`. -/
def wrap (cap a : Nat) : Nat := if a < cap then a else a - cap

def next (cap i : Nat) : Nat := wrap cap (i + 1)

/-- The ring holds `xs` from slot `first` on, and the next value goes to slot
`last`. -/
structure Holds (cap : Nat) (slot : Nat → α → Prop) (first last : Nat) (xs : List α) : Prop where
  first_lt : first < cap
  length : xs.length ≤ cap
  last_eq : last = wrap cap (first + xs.length)
  value : ∀ i x, xs[i]? = some x → slot (wrap cap (first + i)) x

variable {cap first last : Nat} {slot slot' : Nat → α → Prop} {x : α} {xs : List α}

theorem wrap_lt {a : Nat} (h : a < 2 * cap) : wrap cap a < cap := by
  unfold wrap
  split <;> omega

theorem holds_nil (h : 0 < cap) : Holds cap slot 0 0 [] := by
  refine ⟨h, Nat.zero_le _, ?_, ?_⟩
  · simp [wrap, h]
  · intro i x hx
    simp at hx

namespace Holds

theorem last_lt (h : Holds cap slot first last xs) : last < cap := by
  have hFirst := h.first_lt
  have hLength := h.length
  rw [h.last_eq]
  exact wrap_lt (by omega)

/-- Values may change their representation. -/
theorem mono (h : Holds cap slot first last xs) (hSlot : ∀ i < cap, ∀ x, slot i x → slot' i x) :
    Holds cap slot' first last xs := by
  refine ⟨h.first_lt, h.length, h.last_eq, ?_⟩
  intro i x hx
  have hFirst := h.first_lt
  have hLength := h.length
  have hi : i < xs.length := (List.getElem?_eq_some_iff.mp hx).1
  exact hSlot _ (wrap_lt (by omega)) x (h.value i x hx)

/-- A value goes into the slot `last`, and the others stay. -/
theorem push (h : Holds cap slot first last xs) (hRoom : xs.length < cap)
    (hKeep : ∀ i < cap, i ≠ last → ∀ x, slot i x → slot' i x) (hNew : slot' last x) :
    Holds cap slot' first (next cap last) (xs ++ [x]) := by
  have hFirst := h.first_lt
  refine ⟨hFirst, ?_, ?_, ?_⟩
  · simp only [List.length_append, List.length_singleton]
    omega
  · rw [h.last_eq]
    simp only [next, wrap, List.length_append, List.length_singleton]
    split <;> split <;> split <;> omega
  · intro i y hy
    rcases Nat.lt_or_ge i xs.length with hi | hi
    · rw [List.getElem?_append_left hi] at hy
      refine hKeep _ (wrap_lt (by omega)) ?_ y (h.value i y hy)
      rw [h.last_eq]
      simp only [wrap]
      split <;> split <;> omega
    · rw [List.getElem?_append_right hi] at hy
      have hIndex : i = xs.length := by
        have hLt := (List.getElem?_eq_some_iff.mp hy).1
        simp only [List.length_singleton] at hLt
        omega
      subst hIndex
      simp only [Nat.sub_self, List.getElem?_cons_zero, Option.some.injEq] at hy
      rw [← h.last_eq, ← hy]
      exact hNew

theorem head (h : Holds cap slot first last (x :: xs)) : slot first x := by
  have hFirst := h.first_lt
  have hValue := h.value 0 x rfl
  simpa [wrap, hFirst] using hValue

/-- The oldest value leaves its slot. -/
theorem pop (h : Holds cap slot first last (x :: xs)) :
    Holds cap slot (next cap first) last xs := by
  have hFirst := h.first_lt
  have hLength := h.length
  rw [List.length_cons] at hLength
  refine ⟨wrap_lt (by omega), by omega, ?_, ?_⟩
  · rw [h.last_eq]
    simp only [next, wrap, List.length_cons]
    split <;> split <;> split <;> omega
  · intro i y hy
    have hi : i < xs.length := (List.getElem?_eq_some_iff.mp hy).1
    have hValue := h.value (i + 1) y (by simpa using hy)
    have hSlot : wrap cap (first + (i + 1)) = wrap cap (next cap first + i) := by
      simp only [next, wrap]
      split <;> split <;> split <;> omega
    rw [← hSlot]
    exact hValue

end Holds

end Ring
