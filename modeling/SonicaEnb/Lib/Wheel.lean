import Mathlib.Data.Nat.ModEq
import Mathlib.Data.List.Basic

/-! # Flags on a wheel of time slots

A `Wheel` is a table of flags addressed by absolute times modulo its size, the
usual ring of a scheduler. Two absolute times less than one turn apart never
share a slot, so within one turn the wheel reads like an unbounded calendar,
and `unwrap` gives a slot its absolute time back.
-/

/-- One flag per slot; slots at or above the size are never addressed. -/
def Wheel := Nat → Bool

namespace Wheel

def empty : Wheel := fun _ => false

def set (w : Wheel) (i : Nat) (b : Bool) : Wheel := fun j => if j = i then b else w j

/-- Raise the flags of a list of slots. -/
def mark (w : Wheel) (slots : List Nat) : Wheel := slots.foldl (fun w i => w.set i true) w

/-- The first absolute time at or after `base` that lives in slot `i`. -/
def unwrap (size base i : Nat) : Nat := base + (i + size - base % size) % size

@[simp] theorem set_same (w : Wheel) (i : Nat) (b : Bool) : w.set i b i = b := by simp [set]

theorem set_other (w : Wheel) {i j : Nat} (b : Bool) (different : j ≠ i) :
    w.set i b j = w j := by simp [set, different]

/-- Setting a flag to what it is changes nothing. -/
theorem set_self {w : Wheel} {i : Nat} {b : Bool} (already : w i = b) : w.set i b = w := by
  funext j
  by_cases same : j = i
  · rw [same, set_same, already]
  · exact set_other w b same

theorem mark_apply (w : Wheel) (slots : List Nat) (j : Nat) :
    w.mark slots j = (decide (j ∈ slots) || w j) := by
  induction slots generalizing w with
  | nil => simp [mark]
  | cons i rest ih =>
      have step : w.mark (i :: rest) = (w.set i true).mark rest := rfl
      rw [step, ih]
      by_cases same : j = i
      · subst same; simp
      · simp [set_other w true same, same]

theorem mark_of_marked (w : Wheel) (slots : List Nat) {j : Nat} (marked : w j = true) :
    w.mark slots j = true := by
  simp [mark_apply, marked]

theorem mark_of_mem (w : Wheel) {slots : List Nat} {j : Nat} (member : j ∈ slots) :
    w.mark slots j = true := by
  simp [mark_apply, member]

/-- A flag that stands was raised now or stood before. -/
theorem set_raised {w : Wheel} {i j : Nat} (raised : w.set i true j = true) : j = i ∨ w j = true := by
  by_cases same : j = i
  · exact .inl same
  · rw [set_other w true same] at raised
    exact .inr raised

theorem mark_raised {w : Wheel} {slots : List Nat} {j : Nat} (raised : w.mark slots j = true) :
    j ∈ slots ∨ w j = true := by
  rw [mark_apply, Bool.or_eq_true, decide_eq_true_eq] at raised
  exact raised

/-- A flag that stands is not the one taken down. -/
theorem set_lowered {w : Wheel} {i j : Nat} (raised : w.set i false j = true) : j ≠ i ∧ w j = true := by
  by_cases same : j = i
  · rw [same, set_same] at raised
    cases raised
  · rw [set_other w false same] at raised
    exact ⟨same, raised⟩

theorem unwrap_eq {size base a : Nat} (from' : base ≤ a) (turn : a < base + size) :
    unwrap size base (a % size) = a := by
  have pos : 0 < size := by omega
  obtain ⟨k, rfl⟩ : ∃ k, a = base + k := ⟨a - base, by omega⟩
  have kSmall : k < size := by omega
  have baseMod := Nat.mod_lt base pos
  unfold unwrap
  congr 1
  rw [Nat.add_mod base k, Nat.mod_eq_of_lt kSmall]
  by_cases wraps : base % size + k < size
  · rw [Nat.mod_eq_of_lt wraps]
    have shape : base % size + k + size - base % size = k + size := by omega
    rw [shape, Nat.add_mod_right, Nat.mod_eq_of_lt kSmall]
  · have reduced : (base % size + k) % size = base % size + k - size := by
      rw [Nat.mod_eq_sub_mod (by omega), Nat.mod_eq_of_lt (by omega)]
    rw [reduced]
    have shape : base % size + k - size + size - base % size = k := by omega
    rw [shape, Nat.mod_eq_of_lt kSmall]

theorem unwrap_ge (size base i : Nat) : base ≤ unwrap size base i := Nat.le_add_right _ _

theorem unwrap_slot {size base i : Nat} (inside : i < size) : unwrap size base i % size = i := by
  have baseMod := Nat.mod_lt base (by omega : 0 < size)
  unfold unwrap
  rw [Nat.add_mod_mod, ← Nat.mod_add_mod]
  have shape : base % size + (i + size - base % size) = i + size := by omega
  rw [shape, Nat.add_mod_right, Nat.mod_eq_of_lt inside]

theorem unwrap_lt {size : Nat} (base i : Nat) (pos : 0 < size) : unwrap size base i < base + size := by
  unfold unwrap
  exact Nat.add_lt_add_left (Nat.mod_lt _ pos) base

end Wheel
