import Mathlib.Algebra.Ring.Nat
import Mathlib.Data.List.Basic
import Mathlib.Data.List.Induction
import Mathlib.Data.Nat.Bits
import Mathlib.Data.Nat.Bitwise

/-! # Bits in the order they are sent

A number of `n` bits as a list of zeros and ones, the highest first, and back.
-/

namespace Bits

/-- The lowest `n` bits of a number. -/
def unpack (value n : Nat) : List Nat := (List.range n).map fun i => value >>> (n - i - 1) &&& 1

/-- The number whose bits are the first `n` of a list. -/
def pack (bits : List Nat) (n : Nat) : Nat :=
  (List.range n).foldl (fun value i => value ||| bits.getD i 0 <<< (n - i - 1)) 0

theorem shiftRight_and_one (value i : Nat) : value >>> i &&& 1 = (value.testBit i).toNat := by
  rw [Nat.and_one_is_mod, Nat.testBit_eq_decide_div_mod_eq, Nat.shiftRight_eq_div_pow]
  have small := Nat.mod_lt (value / 2 ^ i) (by omega : 0 < 2)
  by_cases one : value / 2 ^ i % 2 = 1
  · simp [one]
  · simp [one]
    omega

@[simp] theorem length_unpack (value n : Nat) : (unpack value n).length = n := by simp [unpack]

theorem unpack_getElem? (value : Nat) {n i : Nat} (inside : i < n) :
    (unpack value n)[i]? = some (value.testBit (n - 1 - i)).toNat := by
  simp only [unpack, List.getElem?_map, List.getElem?_range inside, Option.map_some, shiftRight_and_one]
  congr 3
  omega

section

variable {bits : List Nat} {b : Nat → Bool} {n : Nat}

/-- The first `k` bits of a list are the highest ones. -/
theorem testBit_packed (same : ∀ i < n, bits.getD i 0 = (b i).toNat) {k : Nat} (within : k ≤ n) (j : Nat) :
    ((List.range k).foldl (fun value i => value ||| bits.getD i 0 <<< (n - i - 1)) 0).testBit j =
      (decide (n ≤ k + j ∧ j < n) && b (n - 1 - j)) := by
  induction k with
  | zero =>
      have outside : ¬ (n ≤ 0 + j ∧ j < n) := by omega
      rw [decide_eq_false outside]
      simp
  | succ k ih =>
      rw [List.range_succ, List.foldl_append, List.foldl_cons, List.foldl_nil, Nat.testBit_or, ih (by omega),
        Nat.testBit_shiftLeft, same k (by omega), Nat.testBit_bool_toNat]
      by_cases here : j = n - 1 - k
      · have place : n - 1 - j = k := by omega
        have now : n ≤ k + 1 + j ∧ j < n := by omega
        have above : n - k - 1 ≤ j ∧ j - (n - k - 1) = 0 := by omega
        simp [place, now, above]
      · have unchanged : (n ≤ k + 1 + j ∧ j < n) ↔ (n ≤ k + j ∧ j < n) := by omega
        have other : ¬ (n - k - 1 ≤ j ∧ j - (n - k - 1) = 0) := by omega
        have nothing : (decide (j ≥ n - k - 1) && (decide (j - (n - k - 1) = 0) && b k)) = false := by
          rw [← Bool.and_assoc, ← Bool.decide_and, decide_eq_false other, Bool.false_and]
        rw [nothing, Bool.or_false, decide_eq_decide.mpr unchanged]

theorem testBit_pack (same : ∀ i < n, bits.getD i 0 = (b i).toNat) (j : Nat) :
    (pack bits n).testBit j = (decide (j < n) && b (n - 1 - j)) := by
  rw [pack, testBit_packed same le_rfl]
  simp

end

/-! ## Fields

A message is written field after field, and read by a pointer that moves past each. -/

/-- Read `n` bits off the front. -/
def take (bits : List Nat) (n : Nat) : Nat × List Nat := (pack bits n, bits.drop n)

theorem pack_unpack (value n : Nat) (rest : List Nat) : pack (unpack value n ++ rest) n = value % 2 ^ n := by
  apply Nat.eq_of_testBit_eq
  intro j
  have same : ∀ i < n, (unpack value n ++ rest).getD i 0 = (value.testBit (n - 1 - i)).toNat := by
    intro i inside
    rw [List.getD_eq_getElem?_getD, List.getElem?_append_left (by simpa using inside),
      unpack_getElem? value inside, Option.getD_some]
  rw [testBit_pack same, Nat.testBit_mod_two_pow]
  by_cases inside : j < n
  · have back : n - 1 - (n - 1 - j) = j := by omega
    rw [back]
  · simp [inside]

@[simp] theorem take_unpack (value n : Nat) (rest : List Nat) :
    take (unpack value n ++ rest) n = (value % 2 ^ n, rest) := by
  simp only [take, pack_unpack, List.drop_left' (length_unpack value n)]

@[simp] theorem take_unpack_last (value n : Nat) : take (unpack value n) n = (value % 2 ^ n, []) := by
  have last := take_unpack value n []
  rwa [List.append_nil] at last

/-- A single bit is its own field. -/
theorem unpack_bool (b : Bool) : unpack b.toNat 1 = [b.toNat] := by cases b <;> rfl

/-! ## Masks and shifts -/

/-- A field of `w` bits that is masked where it stands. -/
theorem masked_field (value w k : Nat) : (value &&& (2 ^ w - 1) <<< k) >>> k = value / 2 ^ k % 2 ^ w := by
  rw [Nat.shiftRight_and_distrib, Nat.shiftLeft_shiftRight, Nat.and_two_pow_sub_one_eq_mod,
    Nat.shiftRight_eq_div_pow]

theorem shift_or {low k : Nat} (high : Nat) (small : low < 2 ^ k) :
    high <<< k ||| low = high * 2 ^ k + low := by
  rw [← Nat.shiftLeft_add_eq_or_of_lt small, Nat.shiftLeft_eq]

theorem and_bit (value i : Nat) : (value &&& 2 ^ i != 0) = decide (value / 2 ^ i % 2 = 1) := by
  rw [Nat.and_two_pow, Nat.testBit_eq_decide_div_mod_eq]
  by_cases one : value / 2 ^ i % 2 = 1
  · simp [one]
  · simp [one]

theorem bit_of_mask (value i : Nat) : (if value &&& 2 ^ i != 0 then 1 else 0) = value >>> i &&& 1 := by
  rw [and_bit, Nat.and_one_is_mod, Nat.shiftRight_eq_div_pow]
  have small := Nat.mod_lt (value / 2 ^ i) Nat.two_pos
  by_cases one : value / 2 ^ i % 2 = 1
  · simp [one]
  · simp [one]
    omega

/-! ## The number of a whole list -/

/-- The number a list of bits stands for. -/
def number (bits : List Nat) : Nat := bits.foldl (fun value bit => 2 * value + bit) 0

theorem number_snoc (bits : List Nat) (b : Nat) : number (bits ++ [b]) = 2 * number bits + b := by
  simp [number]

theorem unpack_succ (value n : Nat) : unpack value (n + 1) = unpack (value / 2) n ++ [value % 2] := by
  rw [unpack, List.range_succ, List.map_append, List.map_singleton]
  congr 1
  · apply List.map_congr_left
    intro i inside
    have place : n + 1 - i - 1 = 1 + (n - i - 1) := by
      have := List.mem_range.mp inside
      omega
    rw [place, Nat.shiftRight_add]
    rfl
  · have last : n + 1 - n - 1 = 0 := by omega
    rw [last, Nat.shiftRight_zero, Nat.and_one_is_mod]

theorem mem_unpack_lt {value n b : Nat} (inside : b ∈ unpack value n) : b < 2 := by
  obtain ⟨i, -, rfl⟩ := List.mem_map.mp inside
  rw [Nat.and_one_is_mod]
  exact Nat.mod_lt _ Nat.two_pos

theorem number_lt {bits : List Nat} (binary : ∀ b ∈ bits, b < 2) : number bits < 2 ^ bits.length := by
  induction bits using List.reverseRecOn with
  | nil => exact Nat.one_pos
  | append_singleton bits b ih =>
      have small := ih fun b inside => binary b (List.mem_append_left _ inside)
      have bit := binary b (by simp)
      rw [number_snoc, List.length_append, List.length_singleton, Nat.pow_succ]
      omega

theorem unpack_number {bits : List Nat} (binary : ∀ b ∈ bits, b < 2) :
    unpack (number bits) bits.length = bits := by
  induction bits using List.reverseRecOn with
  | nil => rfl
  | append_singleton bits b ih =>
      have before := ih fun b inside => binary b (List.mem_append_left _ inside)
      have bit := binary b (by simp)
      have half : (2 * number bits + b) / 2 = number bits := by omega
      have low : (2 * number bits + b) % 2 = b := by omega
      rw [List.length_append, List.length_singleton, unpack_succ, number_snoc, half, low, before]

/-- What stands above a field does not show in it. -/
theorem unpack_above (high value n : Nat) : unpack (2 ^ n * high + value) n = unpack value n := by
  induction n generalizing value with
  | zero => rfl
  | succ n ih =>
      have half : (2 ^ (n + 1) * high + value) / 2 = 2 ^ n * high + value / 2 := by
        rw [Nat.pow_succ, Nat.mul_comm _ 2, Nat.mul_assoc]
        omega
      have low : (2 ^ (n + 1) * high + value) % 2 = value % 2 := by
        rw [Nat.pow_succ, Nat.mul_comm _ 2, Nat.mul_assoc]
        omega
      rw [unpack_succ, unpack_succ, half, low, ih]

end Bits
