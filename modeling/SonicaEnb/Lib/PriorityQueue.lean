import Mathlib.Order.Defs.LinearOrder
import Mathlib.Tactic.Cases

/-! # What a priority queue promises

The entries of a priority queue are a bag, here a list. As long as the comparison is a strict
weak order on the entries that are in the queue, its top is one that is less than no other;
which one, where there are several, is not promised.
-/

namespace PriorityQueue

variable {α : Type} {less : α → α → Bool} {q : List α} {a e : α}

structure StrictWeak (less : α → α → Bool) (q : List α) : Prop where
  irrefl : ∀ a ∈ q, less a a = false
  trans : ∀ a ∈ q, ∀ b ∈ q, ∀ c ∈ q, less a b = true → less b c = true → less a c = true
  negTrans : ∀ a ∈ q, ∀ b ∈ q, ∀ c ∈ q, less a b = false → less b c = false → less a c = false

structure IsTop (less : α → α → Bool) (top : List α → Option α) : Prop where
  empty : top [] = none
  member : ∀ q, q ≠ [] → ∃ e ∈ q, top q = some e
  greatest : ∀ q e, StrictWeak less q → top q = some e → ∀ b ∈ q, less e b = false

/-! ## Comparison by a key -/

/-- On these entries, the entry with the smaller key is the greater one. -/
def ByKey (less : α → α → Bool) (key : α → Nat) (q : List α) : Prop :=
  ∀ a ∈ q, ∀ b ∈ q, less a b = decide (key b < key a)

variable {key : α → Nat} {top : List α → Option α}

theorem ByKey.strictWeak (byKey : ByKey less key q) : StrictWeak less q where
  irrefl a inside := by simp [byKey a inside a inside]
  trans a insideA b insideB c insideC first second := by
    rw [byKey a insideA b insideB, decide_eq_true_iff] at first
    rw [byKey b insideB c insideC, decide_eq_true_iff] at second
    rw [byKey a insideA c insideC, decide_eq_true_iff]
    omega
  negTrans a insideA b insideB c insideC first second := by
    rw [byKey a insideA b insideB, decide_eq_false_iff_not] at first
    rw [byKey b insideB c insideC, decide_eq_false_iff_not] at second
    rw [byKey a insideA c insideC, decide_eq_false_iff_not]
    omega

theorem IsTop.mem (isTop : IsTop less top) (here : top q = some e) : e ∈ q := by
  cases q with
  | nil =>
      rw [isTop.empty] at here
      cases here
  | cons a rest =>
      obtain ⟨e', inside, here'⟩ := isTop.member (a :: rest) (List.cons_ne_nil _ _)
      obtain rfl : e = e' := Option.some.inj (here.symm.trans here')
      exact inside

/-- The top has the least key. -/
theorem IsTop.least (isTop : IsTop less top) (byKey : ByKey less key q) (here : top q = some e) :
    ∀ b ∈ q, key e ≤ key b := by
  intro b inside
  have greatest := isTop.greatest q e byKey.strictWeak here b inside
  rw [byKey e (isTop.mem here) b inside, decide_eq_false_iff_not] at greatest
  omega

/-! ## A queue that shows the first of the greatest entries -/

def firstTop (less : α → α → Bool) : List α → Option α
  | [] => none
  | a :: rest =>
      match firstTop less rest with
      | none => some a
      | some e => if less a e then some e else some a

theorem StrictWeak.tail (weak : StrictWeak less (a :: q)) : StrictWeak less q where
  irrefl b inside := weak.irrefl b (.tail a inside)
  trans b insideB c insideC d insideD := weak.trans b (.tail a insideB) c (.tail a insideC) d (.tail a insideD)
  negTrans b insideB c insideC d insideD :=
    weak.negTrans b (.tail a insideB) c (.tail a insideC) d (.tail a insideD)

end PriorityQueue
