import Mathlib.Data.List.Sort
import Mathlib.Data.List.Nodup

/-! Lists kept in non-decreasing order of a natural-number key. Insertion puts
a new element behind every element whose key is not larger, so elements with
equal keys keep their order of arrival. -/
namespace KeyOrder

universe u

variable {α : Type u} (key : α → Nat)

def Sorted (l : List α) : Prop := l.Pairwise fun a b => key a ≤ key b

/-- Insert behind the elements whose key is at most the new one. -/
def insert (a : α) (l : List α) : List α := l.orderedInsert (fun x y => key x < key y) a

variable {key}

@[simp] theorem mem_insert {a b : α} {l : List α} : b ∈ insert key a l ↔ b = a ∨ b ∈ l := by
  simp [insert]

theorem insert_nodup {a : α} {l : List α} (hNodup : l.Nodup) (hNew : a ∉ l) :
    (insert key a l).Nodup := by
  have hPerm : (insert key a l).Perm (a :: l) := List.perm_orderedInsert _ a l
  exact hPerm.nodup_iff.mpr (List.nodup_cons.mpr ⟨hNew, hNodup⟩)

/-- The new element is in front of the first one with a larger key. -/
theorem insert_eq (key : α → Nat) (a : α) (l : List α) : insert key a l =
    (l.takeWhile fun b => key b ≤ key a) ++ a :: l.dropWhile fun b => key b ≤ key a := by
  simp only [insert, List.orderedInsert_eq_take_drop, Nat.not_lt]

/-- Insertion into the images of some elements. -/
theorem insert_map {β : Type*} (f : β → α) (b : β) (l : List β) :
    insert key (f b) (l.map f) = (insert (key ∘ f) b l).map f := by
  rw [insert_eq, insert_eq, List.takeWhile_map, List.dropWhile_map, List.map_append, List.map_cons]
  rfl

/-- Insertion depends only on the keys of the elements. -/
theorem insert_congr {key' : α → Nat} {a : α} {l : List α} (hNew : key' a = key a)
    (hKey : ∀ b ∈ l, key' b = key b) : insert key' a l = insert key a l := by
  induction l with
  | nil => rfl
  | cons b rest ih =>
      have hRest := ih fun c hc => hKey c (List.mem_cons_of_mem b hc)
      simp only [insert, List.orderedInsert_cons, hNew, hKey b List.mem_cons_self] at hRest ⊢
      rw [hRest]

@[simp] theorem insert_ne_nil (a : α) (l : List α) : insert key a l ≠ [] := by
  intro h
  have hMem : a ∈ insert key a l := by simp
  simp [h] at hMem

/-- Insertion keeps the order. -/
theorem Sorted.insert {a : α} {l : List α} (h : Sorted key l) :
    Sorted key (KeyOrder.insert key a l) := by
  induction l with
  | nil => simp [KeyOrder.insert, Sorted]
  | cons b rest ih =>
      obtain ⟨hHead, hRest⟩ := List.pairwise_cons.mp h
      simp only [KeyOrder.insert, List.orderedInsert_cons]
      by_cases hLt : key a < key b
      · rw [if_pos hLt]
        refine List.pairwise_cons.mpr ⟨?_, h⟩
        intro c hc
        rcases List.mem_cons.mp hc with rfl | hc
        · exact hLt.le
        · exact hLt.le.trans (hHead c hc)
      · rw [if_neg hLt]
        refine List.pairwise_cons.mpr ⟨?_, ih hRest⟩
        intro c hc
        rcases (List.mem_orderedInsert _).mp hc with rfl | hc
        · omega
        · exact hHead c hc

/-- Appending an element of maximal key keeps the order. -/
theorem Sorted.append_max {a : α} {l : List α} (h : Sorted key l)
    (hMax : ∀ b ∈ l, key b ≤ key a) : Sorted key (l ++ [a]) := by
  refine List.pairwise_append.mpr ⟨h, List.pairwise_singleton _ _, ?_⟩
  intro b hb c hc
  rw [List.mem_singleton.mp hc]
  exact hMax b hb

theorem Sorted.erase [DecidableEq α] {l : List α} (h : Sorted key l) (a : α) :
    Sorted key (l.erase a) :=
  h.sublist List.erase_sublist

/-- Order depends only on the keys of the members. -/
theorem Sorted.congr {key' : α → Nat} {l : List α} (h : Sorted key l)
    (hKey : ∀ a ∈ l, key' a = key a) : Sorted key' l := by
  refine h.imp_of_mem ?_
  intro a b ha hb hab
  rw [hKey a ha, hKey b hb]
  exact hab

/-- The first element has the least key. -/
theorem Sorted.head_le {a b : α} {rest : List α} (h : Sorted key (a :: rest))
    (hb : b ∈ a :: rest) : key a ≤ key b := by
  rcases List.mem_cons.mp hb with rfl | hb
  · exact Nat.le_refl _
  · exact (List.pairwise_cons.mp h).1 b hb

/-- Non-decreasing keys, and elements with equal keys in the order of their
arrival. -/
def Queued (key arrival : α → Nat) (l : List α) : Prop :=
  l.Pairwise fun a b => key a < key b ∨ key a = key b ∧ arrival a < arrival b

namespace Queued

variable {arrival : α → Nat} {a b : α} {l : List α}

/-- Insertion of the latest element keeps the order. -/
theorem insert (h : Queued key arrival l) (hLast : ∀ b ∈ l, arrival b < arrival a) :
    Queued key arrival (KeyOrder.insert key a l) := by
  induction l with
  | nil => simp [KeyOrder.insert, Queued]
  | cons b rest ih =>
      obtain ⟨hHead, hRest⟩ := List.pairwise_cons.mp h
      simp only [KeyOrder.insert, List.orderedInsert_cons]
      by_cases hLt : key a < key b
      · rw [if_pos hLt]
        refine List.pairwise_cons.mpr ⟨?_, h⟩
        intro c hc
        rcases List.mem_cons.mp hc with rfl | hc
        · exact Or.inl hLt
        · have hBound := hHead c hc
          omega
      · rw [if_neg hLt]
        refine List.pairwise_cons.mpr ⟨?_, ih hRest fun c hc => hLast c (List.mem_cons_of_mem b hc)⟩
        intro c hc
        rcases (List.mem_orderedInsert _).mp hc with rfl | hc
        · have hArrival := hLast b List.mem_cons_self
          omega
        · exact hHead c hc

/-- Appending the latest element keeps the order if its key is maximal. -/
theorem append_max (h : Queued key arrival l) (hLast : ∀ b ∈ l, arrival b < arrival a)
    (hMax : ∀ b ∈ l, key b ≤ key a) : Queued key arrival (l ++ [a]) := by
  refine List.pairwise_append.mpr ⟨h, List.pairwise_singleton _ _, ?_⟩
  intro b hb c hc
  rw [List.mem_singleton.mp hc]
  have hKey := hMax b hb
  have hArrival := hLast b hb
  omega

theorem congr {key' arrival' : α → Nat} (h : Queued key arrival l)
    (hKey : ∀ a ∈ l, key' a = key a) (hArrival : ∀ a ∈ l, arrival' a = arrival a) :
    Queued key' arrival' l := by
  refine h.imp_of_mem ?_
  intro a b ha hb hab
  rw [hKey a ha, hKey b hb, hArrival a ha, hArrival b hb]
  exact hab

/-- The first element has the least key and is the earliest of that key. -/
theorem head_le (h : Queued key arrival (a :: l)) (hb : b ∈ l) :
    key a ≤ key b ∧ (key a = key b → arrival a < arrival b) := by
  have hHead := (List.pairwise_cons.mp h).1 b hb
  omega

end Queued

end KeyOrder
