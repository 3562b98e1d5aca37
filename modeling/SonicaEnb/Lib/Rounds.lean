import Mathlib.Data.List.Nodup

/-! # Rounds

A scheduler visits its clients one after another. As long as the visits of the
others leave a client alone, what a round does to it is what its own visit does;
and in a round without repetitions there is one of these at most.
-/

namespace Round

variable {σ κ : Type} {visit : σ → κ → σ} {order : List κ} {s : σ} {k : κ} {P Q : σ → Prop}

/-- A round that does not come to the client. -/
theorem other (elsewhere : k ∉ order) (others : ∀ s j, k ≠ j → P s → P (visit s j)) (before : P s) :
    P (order.foldl visit s) := by
  induction order generalizing s with
  | nil => exact before
  | cons j rest ih =>
      obtain ⟨here, later⟩ := List.ne_and_not_mem_of_not_mem_cons elsewhere
      exact ih later (others s j here before)

/-- A round that comes to the client once: `P` until then, `Q` from then on. -/
theorem once (nodup : order.Nodup) (member : k ∈ order)
    (earlier : ∀ s j, k ≠ j → P s → P (visit s j)) (own : ∀ s, P s → Q (visit s k))
    (later : ∀ s j, k ≠ j → Q s → Q (visit s j)) (before : P s) : Q (order.foldl visit s) := by
  obtain ⟨front, rest, rfl⟩ := List.append_of_mem member
  obtain ⟨-, nodupRest, apart⟩ := List.nodup_append.mp nodup
  have notFront : k ∉ front := fun inside => apart k inside k List.mem_cons_self rfl
  have notRest : k ∉ rest := (List.nodup_cons.mp nodupRest).1
  rw [List.foldl_append, List.foldl_cons]
  exact other notRest later (own _ (other notFront earlier before))

end Round
