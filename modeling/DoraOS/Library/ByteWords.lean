import Mathlib.Data.Nat.Basic
import Mathlib.Algebra.Group.Nat.Defs

/-! Words in a memory of bytes, the lowest byte first. A word may be at any
address, so two accesses are independent only if their bytes are disjoint. -/
namespace ByteWords

def load (mem : Nat → UInt8) : Nat → Nat → Nat
  | 0, _ => 0
  | n + 1, a => (mem a).toNat + 256 * load mem n (a + 1)

def store (mem : Nat → UInt8) (n a v : Nat) : Nat → UInt8 :=
  fun x => if a ≤ x ∧ x < a + n then UInt8.ofNat (v / 256 ^ (x - a)) else mem x

variable {mem mem' : Nat → UInt8} {n a v : Nat}

/-- A word depends on its own bytes only. -/
theorem load_congr (h : ∀ x, a ≤ x → x < a + n → mem' x = mem x) :
    load mem' n a = load mem n a := by
  induction n generalizing a with
  | zero => rfl
  | succ n ih =>
      have hRest : ∀ x, a + 1 ≤ x → x < a + 1 + n → mem' x = mem x := by
        intro x hLow hHigh
        exact h x (by omega) (by omega)
      rw [load, load, h a (Nat.le_refl a) (by omega), ih hRest]

theorem load_of_bytes (h : ∀ i < n, mem (a + i) = UInt8.ofNat (v / 256 ^ i)) :
    load mem n a = v % 256 ^ n := by
  induction n generalizing a v with
  | zero => simp [load, Nat.mod_one]
  | succ n ih =>
      have hFirst : (mem a).toNat = v % 256 := by simpa using congrArg UInt8.toNat (h 0 (by omega))
      have hRest : ∀ i < n, mem (a + 1 + i) = UInt8.ofNat (v / 256 / 256 ^ i) := by
        intro i hi
        rw [Nat.div_div_eq_div_mul, ← Nat.pow_succ', Nat.add_assoc, Nat.add_comm 1 i]
        exact h (i + 1) (by omega)
      rw [load, hFirst, ih hRest, Nat.pow_succ', Nat.mod_mul]

theorem store_outside {x : Nat} (h : x < a ∨ a + n ≤ x) : store mem n a v x = mem x :=
  if_neg (by omega)

/-- A stored word is read back, cut to its width. -/
theorem load_store_same (mem : Nat → UInt8) (n a v : Nat) :
    load (store mem n a v) n a = v % 256 ^ n := by
  apply load_of_bytes
  intro i hi
  rw [store, if_pos (by omega), Nat.add_sub_cancel_left]

/-- A store leaves the words next to it. -/
theorem load_store_apart {k b : Nat} (h : b + k ≤ a ∨ a + n ≤ b) :
    load (store mem n a v) k b = load mem k b := by
  apply load_congr
  intro x hLow hHigh
  exact store_outside (by omega)

theorem load_lt (mem : Nat → UInt8) (n a : Nat) : load mem n a < 256 ^ n := by
  induction n generalizing a with
  | zero => simp [load]
  | succ n ih =>
      have hByte : (mem a).toNat < 256 := (mem a).toNat_lt
      have hRest := ih (a + 1)
      rw [load, Nat.pow_succ']
      omega

end ByteWords
