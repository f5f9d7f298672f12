import Mathlib.Algebra.BigOperators.Group.List.Basic
import Mathlib.Data.List.Basic
import Mathlib.Data.List.DropRight
import Mathlib.Algebra.GroupWithZero.Nat

/-! Adjacent segments. A list of segments is laid out from an address on, each
right behind the one before it; a relation is asked of every segment, its
address and the address of its predecessor. -/
namespace Segments

universe u

variable {α : Type u} (span : α → Nat)

/-- The space that the segments take. -/
def total (xs : List α) : Nat := (xs.map span).sum

/-- The address of the last segment, or `p` if there is none. -/
def lastStart (p a : Nat) : List α → Nat
  | [] => p
  | x :: xs => lastStart a (a + span x) xs

/-- Every segment from `a` on is related to its address and its predecessor's,
where `p` precedes the first one. -/
def Chain (R : Nat → Nat → α → Prop) (p a : Nat) : List α → Prop
  | [] => True
  | x :: xs => R p a x ∧ Chain R a (a + span x) xs

def located (a : Nat) : List α → List (Nat × α)
  | [] => []
  | x :: xs => (a, x) :: located (a + span x) xs

variable {span} {R R' : Nat → Nat → α → Prop} {p a : Nat} {x : α} {xs ys : List α}

@[simp] theorem total_nil : total span ([] : List α) = 0 := rfl

@[simp] theorem total_cons : total span (x :: xs) = span x + total span xs := by
  simp [total]

@[simp] theorem total_append : total span (xs ++ ys) = total span xs + total span ys := by
  simp [total]

theorem length_le_total {k : Nat} (hSpan : ∀ x, k ≤ span x) : k * xs.length ≤ total span xs := by
  induction xs with
  | nil => simp
  | cons x xs ih =>
      have hHead := hSpan x
      rw [List.length_cons, Nat.mul_succ, total_cons]
      omega

theorem total_takeWhile_add (span : α → Nat) (f : α → Bool) (xs : List α) :
    total span (xs.takeWhile f) + total span (xs.dropWhile f) = total span xs := by
  rw [← total_append, List.takeWhile_append_dropWhile]

theorem total_rdropWhile_add (span : α → Nat) (f : α → Bool) (xs : List α) :
    total span (xs.rdropWhile f) + total span (xs.rtakeWhile f) = total span xs := by
  rw [← total_append, List.rdropWhile_append_rtakeWhile]

theorem total_le_total {span' : α → Nat} (hSpan : ∀ x, span x ≤ span' x) :
    total span xs ≤ total span' xs := by
  induction xs with
  | nil => simp
  | cons x xs ih =>
      have hHead := hSpan x
      simp only [total_cons]
      omega

@[simp] theorem lastStart_nil : lastStart span p a [] = p := rfl

@[simp] theorem lastStart_cons :
    lastStart span p a (x :: xs) = lastStart span a (a + span x) xs := rfl

theorem lastStart_append : lastStart span p a (xs ++ ys) =
    lastStart span (lastStart span p a xs) (a + total span xs) ys := by
  induction xs generalizing p a with
  | nil => simp
  | cons x xs ih => simp [ih, Nat.add_assoc]

theorem lastStart_snoc : lastStart span p a (xs ++ [x]) = a + total span xs := by
  simp [lastStart_append]

/-- The last segment lies inside. -/
theorem lastStart_bounds (hSpan : ∀ x, 0 < span x) :
    a ≤ lastStart span p a (x :: xs) ∧
      lastStart span p a (x :: xs) < a + total span (x :: xs) := by
  induction xs generalizing p a x with
  | nil => simpa using hSpan x
  | cons y ys ih =>
      have hNext := @ih a (a + span x) y
      rw [lastStart_cons]
      simp only [total_cons] at hNext ⊢
      omega

@[simp] theorem chain_nil : Chain span R p a [] := trivial

@[simp] theorem chain_cons :
    Chain span R p a (x :: xs) ↔ R p a x ∧ Chain span R a (a + span x) xs := Iff.rfl

theorem chain_append : Chain span R p a (xs ++ ys) ↔
    Chain span R p a xs ∧ Chain span R (lastStart span p a xs) (a + total span xs) ys := by
  induction xs generalizing p a with
  | nil => simp
  | cons x xs ih => simp [ih, Nat.add_assoc, and_assoc]

/-- Segments may be related in another way inside their space. -/
theorem Chain.mono (h : Chain span R p a xs)
    (hR : ∀ q b x, a ≤ b → b + span x ≤ a + total span xs → R q b x → R' q b x) :
    Chain span R' p a xs := by
  induction xs generalizing p a with
  | nil => trivial
  | cons x xs ih =>
      obtain ⟨hHead, hTail⟩ := h
      simp only [total_cons] at hR
      refine ⟨hR p a x (Nat.le_refl a) (by omega) hHead, ih hTail ?_⟩
      intro q b y hb hy
      exact hR q b y (by omega) (by omega)

@[simp] theorem located_nil : located span a [] = [] := rfl

@[simp] theorem located_cons :
    located span a (x :: xs) = (a, x) :: located span (a + span x) xs := rfl

theorem located_append : located span a (xs ++ ys) =
    located span a xs ++ located span (a + total span xs) ys := by
  induction xs generalizing a with
  | nil => simp
  | cons x xs ih => simp [ih, Nat.add_assoc]

theorem map_snd_located : (located span a xs).map Prod.snd = xs := by
  induction xs generalizing a with
  | nil => rfl
  | cons x xs ih => rw [located_cons, List.map_cons, ih]

theorem mem_located {l : Nat × α} : l ∈ located span a xs ↔
    ∃ ys zs, xs = ys ++ l.2 :: zs ∧ l.1 = a + total span ys := by
  induction xs generalizing a with
  | nil => simp
  | cons x xs ih =>
      rw [located_cons, List.mem_cons, ih]
      constructor
      · rintro (rfl | ⟨ys, zs, rfl, hAddr⟩)
        · exact ⟨[], xs, rfl, by simp⟩
        · exact ⟨x :: ys, zs, rfl, by rw [hAddr, total_cons, Nat.add_assoc]⟩
      · rintro ⟨ys, zs, hSplit, hAddr⟩
        cases ys with
        | nil =>
            simp only [List.nil_append, List.cons.injEq] at hSplit
            left
            exact Prod.ext (by simpa using hAddr) hSplit.1.symm
        | cons y ys =>
            simp only [List.cons_append, List.cons.injEq] at hSplit
            right
            refine ⟨ys, zs, hSplit.2, ?_⟩
            rw [hAddr, total_cons, hSplit.1, Nat.add_assoc]

/-- A segment ends before the later ones begin. -/
theorem located_pairwise :
    (located span a xs).Pairwise fun l r => l.1 + span l.2 ≤ r.1 := by
  induction xs generalizing a with
  | nil => exact List.Pairwise.nil
  | cons x xs ih =>
      refine List.Pairwise.cons ?_ ih
      intro r hr
      obtain ⟨ys, zs, -, hAddr⟩ := mem_located.mp hr
      rw [hAddr]
      exact Nat.le_add_right _ _

theorem Chain.of_located {l : Nat × α} (h : Chain span R p a xs) (hl : l ∈ located span a xs) :
    ∃ q, R q l.1 l.2 := by
  obtain ⟨ys, zs, rfl, hAddr⟩ := mem_located.mp hl
  rw [hAddr]
  exact ⟨_, (chain_append.mp h).2.1⟩

end Segments
