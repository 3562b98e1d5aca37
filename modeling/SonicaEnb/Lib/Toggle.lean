import Mathlib.Data.List.Basic

/-! # One toggle bit for many parties

A sender stamps every message with a bit and flips the bit each time. If each
party needs to see its own messages alternate, one bit for all of them is not
enough: `alternates_stamp_iff` says exactly on which sequences it is.
-/

namespace Toggle

variable {α : Type} [DecidableEq α]

/-- The messages with their bits, the first of which is `b`. -/
def stamp : Bool → List α → List (α × Bool)
  | _, [] => []
  | b, a :: rest => (a, b) :: stamp (!b) rest

/-- Each message and the next one of the same party carry different bits. -/
def Alternates : List (α × Bool) → Prop
  | [] => True
  | (a, b) :: rest =>
      (∀ next ∈ rest.find? (fun m => decide (m.1 = a)), next.2 ≠ b) ∧ Alternates rest

/-- Between a message and the next one of the same party stands an even number of others. -/
def EvenGaps : List α → Prop
  | [] => True
  | a :: rest => (∀ gap ∈ rest.findIdx? (fun x => decide (x = a)), gap % 2 = 0) ∧ EvenGaps rest

instance decidableAlternates : (l : List (α × Bool)) → Decidable (Alternates l)
  | [] => .isTrue trivial
  | (_, _) :: rest =>
      have := decidableAlternates rest
      inferInstanceAs (Decidable (_ ∧ _))

/-- The first message of `a` after `gap` others carries the bit flipped `gap` times. -/
theorem find?_stamp (b : Bool) (a : α) (l : List α) :
    (stamp b l).find? (fun m => decide (m.1 = a)) =
      (l.findIdx? (fun x => decide (x = a))).map fun gap => (a, if gap % 2 = 0 then b else !b) := by
  induction l generalizing b with
  | nil => rfl
  | cons x rest ih =>
      by_cases here : x = a
      · simp [stamp, List.findIdx?_cons, here]
      · simp only [stamp, List.find?_cons, List.findIdx?_cons, here, decide_false, ih]
        cases rest.findIdx? (fun x => decide (x = a)) with
        | none => rfl
        | some gap =>
            rcases Nat.mod_two_eq_zero_or_one gap with even | odd
            · have next : (gap + 1) % 2 = 1 := by omega
              simp [even, next]
            · have next : (gap + 1) % 2 = 0 := by omega
              simp [odd, next]

theorem alternates_stamp_iff (b : Bool) (l : List α) : Alternates (stamp b l) ↔ EvenGaps l := by
  induction l generalizing b with
  | nil => exact Iff.rfl
  | cons a rest ih =>
      simp only [stamp, Alternates, EvenGaps, ih, find?_stamp]
      refine and_congr_left fun _ => ?_
      cases rest.findIdx? (fun x => decide (x = a)) with
      | none => simp
      | some gap =>
          rcases Nat.mod_two_eq_zero_or_one gap with even | odd
          · simp [even]
          · simp [odd]

end Toggle
