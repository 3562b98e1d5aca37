import Mathlib.Data.List.Basic

/-! # Regions of a memory

A memory has a value at every place. A list of values stands somewhere in it, is
written somewhere, and stays where it is while something else is written.
-/

namespace Region

variable {α : Type} {mem : Nat → α} {p q : Nat} {xs ys : List α} {x : α}

/-- `xs` stands in the memory from place `p` on. -/
def Holds (mem : Nat → α) : Nat → List α → Prop
  | _, [] => True
  | p, x :: xs => mem p = x ∧ Holds mem (p + 1) xs

/-- The memory with `xs` written from place `p` on. -/
def write (mem : Nat → α) (p : Nat) (xs : List α) : Nat → α := fun a =>
  if p ≤ a then xs[a - p]?.getD (mem a) else mem a

@[simp] theorem holds_nil : Holds mem p [] := trivial

@[simp] theorem holds_cons : Holds mem p (x :: xs) ↔ mem p = x ∧ Holds mem (p + 1) xs := Iff.rfl

theorem holds_append : Holds mem p (xs ++ ys) ↔ Holds mem p xs ∧ Holds mem (p + xs.length) ys := by
  induction xs generalizing p with
  | nil => simp
  | cons x xs ih =>
      rw [List.cons_append, holds_cons, holds_cons, ih, and_assoc, List.length_cons,
        Nat.add_assoc p 1, Nat.add_comm 1]

theorem holds_iff : Holds mem p xs ↔ ∀ i, (inside : i < xs.length) → mem (p + i) = xs[i] := by
  induction xs generalizing p with
  | nil => simp
  | cons x xs ih =>
      rw [holds_cons, ih]
      constructor
      · rintro ⟨first, later⟩ i inside
        cases i with
        | zero => exact first
        | succ i =>
            have behind := later i (Nat.lt_of_succ_lt_succ inside)
            rwa [Nat.add_assoc, Nat.add_comm 1] at behind
      · intro all
        refine ⟨all 0 (Nat.succ_pos _), fun i inside => ?_⟩
        have behind := all (i + 1) (Nat.succ_lt_succ inside)
        have place : p + 1 + i = p + (i + 1) := by omega
        rw [place]
        exact behind

/-- What stands in a memory is read out of it. -/
theorem Holds.read (stands : Holds mem p xs) {n : Nat} (size : xs.length = n) :
    (List.range n).map (fun i => mem (p + i)) = xs := by
  subst size
  apply List.ext_getElem
  · simp
  · intro i _ inside
    rw [List.getElem_map, List.getElem_range]
    exact holds_iff.mp stands i inside

theorem write_inside {i : Nat} (inside : i < xs.length) : write mem p xs (p + i) = xs[i] := by
  unfold write
  rw [if_pos (Nat.le_add_right p i), Nat.add_sub_cancel_left, List.getElem?_eq_getElem inside]
  rfl

theorem write_outside {a : Nat} (outside : a < p ∨ p + xs.length ≤ a) : write mem p xs a = mem a := by
  unfold write
  split
  · rw [List.getElem?_eq_none (by omega)]
    rfl
  · rfl

theorem holds_write : Holds (write mem p xs) p xs := by
  rw [holds_iff]
  intro i inside
  exact write_inside inside

theorem Holds.write (stands : Holds mem p xs) (apart : p + xs.length ≤ q ∨ q + ys.length ≤ p) :
    Holds (write mem q ys) p xs := by
  rw [holds_iff] at stands ⊢
  intro i inside
  rw [write_outside (by omega)]
  exact stands i inside

end Region
