import Mathlib.Dynamics.PeriodicPts.Defs
import Mathlib.Logic.Function.Basic
import Mathlib.Algebra.GroupWithZero.Nat

/-! Time slicing by rotation. The head of a ring of runners has the resource;
each tick takes one unit of its slice, and a runner that has used up its slice
gets a new one and goes to the end of the ring. -/

/-- The runners in the order of their turns, and what is left of their slices. -/
structure Rota (α : Type*) where
  ring : List α
  left : α → Nat

namespace Rota

variable {α : Type*} [DecidableEq α] (slice : α → Nat)

def tick (r : Rota α) : Rota α :=
  match r.ring with
  | [] => r
  | a :: rest =>
      if r.left a ≤ 1 then { ring := rest ++ [a], left := Function.update r.left a (slice a) }
      else { ring := a :: rest, left := Function.update r.left a (r.left a - 1) }

/-- Who has the resource at each unit of one cycle. -/
def timetable (ring : List α) : List α := ring.flatMap fun a => List.replicate (slice a) a

def cycle (ring : List α) : Nat := (ring.map slice).sum

variable {slice} {a : α} {rest ring : List α} {left : α → Nat}

theorem tick_last (h : left a ≤ 1) :
    tick slice ⟨a :: rest, left⟩ = ⟨rest ++ [a], Function.update left a (slice a)⟩ :=
  if_pos h

theorem tick_within (h : 1 < left a) :
    tick slice ⟨a :: rest, left⟩ = ⟨a :: rest, Function.update left a (left a - 1)⟩ :=
  if_neg (Nat.not_le.mpr h)

/-- Before its last unit a runner keeps the resource. -/
theorem ticks_within {n : Nat} (h : n < left a) :
    (tick slice)^[n] ⟨a :: rest, left⟩ = ⟨a :: rest, Function.update left a (left a - n)⟩ := by
  induction n with
  | zero => rw [Function.iterate_zero_apply, Nat.sub_zero, Function.update_eq_self]
  | succ n ih =>
      rw [Function.iterate_succ_apply', ih (by omega), tick_within]
      · rw [Function.update_self, Function.update_idem, Nat.sub_sub]
      · rw [Function.update_self]
        omega

/-- A full slice ends with the runner at the end of the ring. -/
theorem ticks_slice (hFull : left a = slice a) (hPos : 1 ≤ slice a) :
    (tick slice)^[slice a] ⟨a :: rest, left⟩ = ⟨rest ++ [a], left⟩ := by
  obtain ⟨n, hn⟩ := Nat.exists_eq_add_of_le' hPos
  rw [hn, Function.iterate_succ_apply', ticks_within (by omega), tick_last]
  · rw [Function.update_idem, ← hFull, Function.update_eq_self]
  · rw [Function.update_self]
    omega

/-- The slices of the first runners bring the later ones to the front. -/
theorem ticks_segment (hFull : ∀ a ∈ ring, left a = slice a ∧ 1 ≤ slice a) (later : List α) :
    (tick slice)^[cycle slice ring] ⟨ring ++ later, left⟩ = ⟨later ++ ring, left⟩ := by
  induction ring generalizing later with
  | nil =>
      rw [List.append_nil, List.nil_append]
      rfl
  | cons a rest ih =>
      have hHead := hFull a List.mem_cons_self
      have hCycle : cycle slice (a :: rest) = cycle slice rest + slice a := by
        rw [cycle, List.map_cons, List.sum_cons, Nat.add_comm]
        rfl
      rw [hCycle, Function.iterate_add_apply, List.cons_append, ticks_slice hHead.1 hHead.2,
        List.append_assoc, ih (fun b hb => hFull b (List.mem_cons_of_mem _ hb)) (later ++ [a])]
      rw [List.append_assoc, List.singleton_append]

/-- After a cycle everything is as at its start. -/
theorem ticks_cycle (hFull : ∀ a ∈ ring, left a = slice a ∧ 1 ≤ slice a) :
    Function.IsPeriodicPt (tick slice) (cycle slice ring) ⟨ring, left⟩ := by
  have hSegment := ticks_segment hFull []
  rwa [List.append_nil, List.nil_append] at hSegment

/-- Within a cycle the resource follows the timetable. -/
theorem head_segment (hFull : ∀ a ∈ ring, left a = slice a ∧ 1 ≤ slice a) (later : List α)
    {n : Nat} (hn : n < cycle slice ring) :
    ((tick slice)^[n] ⟨ring ++ later, left⟩).ring.head? = (timetable slice ring)[n]? := by
  induction ring generalizing later n with
  | nil => exact absurd hn (Nat.not_lt_zero n)
  | cons a rest ih =>
      have hHead := hFull a List.mem_cons_self
      have hTable : timetable slice (a :: rest) =
          List.replicate (slice a) a ++ timetable slice rest := rfl
      rw [hTable]
      by_cases hSlice : n < slice a
      · rw [List.cons_append, ticks_within (hHead.1 ▸ hSlice), List.getElem?_append_left (by simpa),
          List.getElem?_replicate_of_lt hSlice]
        rfl
      · obtain ⟨m, rfl⟩ := Nat.exists_eq_add_of_le' (Nat.not_lt.mp hSlice)
        have hRest : m < cycle slice rest := by
          rw [cycle, List.map_cons, List.sum_cons] at hn
          rw [cycle]
          omega
        rw [Function.iterate_add_apply, List.cons_append, ticks_slice hHead.1 hHead.2,
          List.append_assoc, ih (fun b hb => hFull b (List.mem_cons_of_mem _ hb)) _ hRest,
          List.getElem?_append_right (by simp), List.length_replicate, Nat.add_sub_cancel]

/-- The resource follows the timetable, cycle after cycle. -/
theorem head_ticks (hFull : ∀ a ∈ ring, left a = slice a ∧ 1 ≤ slice a) (hSome : ring ≠ [])
    (n : Nat) : ((tick slice)^[n] ⟨ring, left⟩).ring.head? =
      (timetable slice ring)[n % cycle slice ring]? := by
  have hPos : 0 < cycle slice ring := by
    obtain ⟨a, rest, rfl⟩ := List.exists_cons_of_ne_nil hSome
    have hHead := (hFull a List.mem_cons_self).2
    rw [cycle, List.map_cons, List.sum_cons]
    omega
  have hSegment := head_segment hFull [] (Nat.mod_lt n hPos)
  rw [List.append_nil, (ticks_cycle hFull).iterate_mod_apply] at hSegment
  exact hSegment

/-- Everybody in the ring has at least one unit left and at most a slice. -/
def InSlice (slice : α → Nat) (r : Rota α) : Prop :=
  ∀ a ∈ r.ring, 1 ≤ r.left a ∧ r.left a ≤ slice a

theorem mem_tick {r : Rota α} {b : α} : b ∈ (tick slice r).ring ↔ b ∈ r.ring := by
  obtain ⟨ring, left⟩ := r
  cases ring with
  | nil => rfl
  | cons a rest =>
      by_cases h : left a ≤ 1
      · rw [tick_last h]
        simp [or_comm]
      · rw [tick_within (Nat.not_le.mp h)]

theorem InSlice.tick {r : Rota α} (h : r.InSlice slice) (hPos : ∀ a ∈ r.ring, 1 ≤ slice a) :
    (r.tick slice).InSlice slice := by
  intro b hb
  have hMem : b ∈ r.ring := mem_tick.mp hb
  obtain ⟨ring, left⟩ := r
  cases ring with
  | nil => cases hMem
  | cons a rest =>
      have hOld := h b hMem
      have hSlice := hPos b hMem
      by_cases hLast : left a ≤ 1
      · rw [tick_last hLast]
        dsimp only at hOld ⊢
        by_cases hEq : b = a
        · rw [hEq, Function.update_self]
          rw [hEq] at hSlice
          exact ⟨hSlice, Nat.le_refl _⟩
        · rw [Function.update_of_ne hEq]
          exact hOld
      · rw [tick_within (Nat.not_le.mp hLast)]
        dsimp only at hOld ⊢
        by_cases hEq : b = a
        · rw [hEq, Function.update_self]
          rw [hEq] at hOld
          omega
        · rw [Function.update_of_ne hEq]
          exact hOld

end Rota
