import Mathlib.Algebra.Ring.Nat
import Mathlib.Data.List.Basic

/-! # Rows of a memory

A memory has a value at every address. Rows of one width lie anywhere in it:
`scatter` fills them one after the other from a packed stretch of another memory,
`gather` packs them again. Where no two rows overlap, the one undoes the other.
`stack` puts whole blocks one behind the other.
-/

namespace Rows

variable {α : Type}

/-- `len` values from `source` on take the place of those from `target` on. -/
def copy (out : Nat → α) (target : Nat) (inp : Nat → α) (source len : Nat) : Nat → α :=
  fun a => if target ≤ a ∧ a < target + len then inp (source + (a - target)) else out a

variable {out inp : Nat → α} {target source len a : Nat}

theorem copy_inside (inside : a < len) :
    copy out target inp source len (target + a) = inp (source + a) := by
  rw [copy, if_pos ⟨Nat.le_add_right _ _, Nat.add_lt_add_left inside _⟩, Nat.add_sub_cancel_left]

theorem copy_outside (outside : a < target ∨ target + len ≤ a) :
    copy out target inp source len a = out a := by
  rw [copy, if_neg (by omega)]

/-- The rows take the packed values from `source` on. -/
def scatter (w : Nat) : List Nat → (Nat → α) → (Nat → α) → Nat → (Nat → α)
  | [], out, _, _ => out
  | row :: rows, out, inp, source => scatter w rows (copy out row inp source w) inp (source + w)

/-- The rows are packed from `target` on. -/
def gather (w : Nat) : List Nat → (Nat → α) → Nat → (Nat → α) → (Nat → α)
  | [], out, _, _ => out
  | row :: rows, out, target, inp => gather w rows (copy out target inp row w) (target + w) inp

/-- Where the rows have the `k`-th packed value. -/
def address (w : Nat) : List Nat → Nat → Nat
  | [], _ => 0
  | row :: rows, k => if k < w then row + k else address w rows (k - w)

/-- `a` is in one of the rows. -/
def Covers (w : Nat) (rows : List Nat) (a : Nat) : Prop := ∃ row ∈ rows, row ≤ a ∧ a < row + w

def Apart (w row row' : Nat) : Prop := row + w ≤ row' ∨ row' + w ≤ row

variable {w k : Nat} {rows : List Nat}

theorem address_covers (inside : k < rows.length * w) : Covers w rows (address w rows k) := by
  induction rows generalizing k with
  | nil => rw [List.length_nil, Nat.zero_mul] at inside; cases inside
  | cons row rows ih =>
      rw [List.length_cons, Nat.succ_mul] at inside
      rw [address]
      split
      · exact ⟨row, List.mem_cons_self, by omega, by omega⟩
      · obtain ⟨row', member, above, below⟩ := ih (k := k - w) (by omega)
        exact ⟨row', List.mem_cons_of_mem _ member, above, below⟩

theorem gather_outside (outside : a < target ∨ target + rows.length * w ≤ a) :
    gather w rows out target inp a = out a := by
  induction rows generalizing out target with
  | nil => rfl
  | cons row rows ih =>
      rw [List.length_cons, Nat.succ_mul] at outside
      rw [gather, ih (by omega), copy_outside (by omega)]

theorem gather_inside (inside : k < rows.length * w) :
    gather w rows out target inp (target + k) = inp (address w rows k) := by
  induction rows generalizing out target k with
  | nil => rw [List.length_nil, Nat.zero_mul] at inside; cases inside
  | cons row rows ih =>
      rw [List.length_cons, Nat.succ_mul] at inside
      rw [gather, address]
      split
      · rename_i here
        rw [gather_outside (.inl (Nat.add_lt_add_left here _)), copy_inside here]
      · rename_i later
        rw [show target + k = target + w + (k - w) by omega]
        exact ih (by omega)

theorem scatter_outside (outside : ¬Covers w rows a) : scatter w rows out inp source a = out a := by
  induction rows generalizing out source with
  | nil => rfl
  | cons row rows ih =>
      have behind : ¬Covers w rows a := by
        rintro ⟨row', member, inside⟩
        exact outside ⟨row', List.mem_cons_of_mem _ member, inside⟩
      have here : ¬(row ≤ a ∧ a < row + w) := fun inside => outside ⟨row, List.mem_cons_self, inside⟩
      rw [scatter, ih behind, copy_outside (by omega)]

theorem scatter_inside (apart : rows.Pairwise (Apart w)) (inside : k < rows.length * w) :
    scatter w rows out inp source (address w rows k) = inp (source + k) := by
  induction rows generalizing out source k with
  | nil => rw [List.length_nil, Nat.zero_mul] at inside; cases inside
  | cons row rows ih =>
      obtain ⟨first, others⟩ := List.pairwise_cons.mp apart
      rw [List.length_cons, Nat.succ_mul] at inside
      rw [scatter, address]
      split
      · rename_i here
        have untouched : ¬Covers w rows (row + k) := by
          rintro ⟨row', member, above, below⟩
          rcases first row' member with before | behind
          · omega
          · omega
        rw [scatter_outside untouched, copy_inside here]
      · rename_i later
        rw [ih others (by omega), show source + w + (k - w) = source + k by omega]

/-- The rows as one block. -/
def packed (w : Nat) (rows : List Nat) (inp : Nat → α) : Nat → α := fun k => inp (address w rows k)

theorem gather_eq_copy (rows : List Nat) (out : Nat → α) (target : Nat) (inp : Nat → α) :
    gather w rows out target inp = copy out target (packed w rows inp) 0 (rows.length * w) := by
  funext a
  by_cases inside : target ≤ a ∧ a < target + rows.length * w
  · obtain ⟨k, rfl⟩ := Nat.exists_eq_add_of_le inside.1
    have below : k < rows.length * w := by omega
    rw [gather_inside below, copy_inside below, Nat.zero_add, packed]
  · rw [gather_outside (by omega), copy_outside (by omega)]

/-! ## Blocks one behind the other -/

/-- The blocks take the places of width `w` from the `i`-th on. -/
def stack (w : Nat) : Nat → List (Nat → α) → (Nat → α) → (Nat → α)
  | _, [], out => out
  | i, block :: later, out => stack w (i + 1) later (copy out (i * w) block 0 w)

variable {blocks : List (Nat → α)} {i : Nat}

theorem stack_outside (outside : a < i * w ∨ (i + blocks.length) * w ≤ a) :
    stack w i blocks out a = out a := by
  induction blocks generalizing out i with
  | nil => rfl
  | cons block later ih =>
      have next : (i + 1) * w = i * w + w := Nat.succ_mul i w
      have reach : (i + 1) * w ≤ (i + 1 + later.length) * w :=
        Nat.mul_le_mul_right w (Nat.le_add_right _ _)
      rw [List.length_cons, Nat.add_comm later.length, ← Nat.add_assoc] at outside
      rw [stack, ih (by omega), copy_outside (by omega)]

theorem stack_inside {j : Nat} {block : Nat → α} (here : blocks[j]? = some block) (inside : k < w) :
    stack w i blocks out ((i + j) * w + k) = block k := by
  induction blocks generalizing out i j with
  | nil => cases here
  | cons first later ih =>
      cases j with
      | zero =>
          cases here
          rw [stack, show i + 0 = i from rfl, stack_outside (.inl (by rw [Nat.succ_mul]; omega)), copy_inside inside,
            Nat.zero_add]
      | succ j =>
          rw [stack, show i + (j + 1) = i + 1 + j by omega]
          exact ih here

/-- A stack that starts with the first block. -/
theorem stack_at {j : Nat} {block : Nat → α} (here : blocks[j]? = some block) (inside : k < w) :
    stack w 0 blocks out (j * w + k) = block k := by
  rw [← stack_inside here inside, Nat.zero_add]

theorem stack_div {block : Nat → α} (pos : 0 < w) (here : blocks[a / w]? = some block) :
    stack w 0 blocks out a = block (a % w) := by
  rw [← stack_at here (Nat.mod_lt a pos), Nat.div_add_mod']

/-- Two stacks have the same value where their blocks at that place have. -/
theorem stack_congr {others : List (Nat → α)} (pos : 0 < w) (sameLength : blocks.length = others.length)
    (agree : ∀ block other, blocks[a / w]? = some block → others[a / w]? = some other →
      block (a % w) = other (a % w)) : stack w 0 blocks out a = stack w 0 others out a := by
  by_cases inside : a / w < blocks.length
  · have here := List.getElem?_eq_getElem inside
    have there := List.getElem?_eq_getElem (sameLength ▸ inside)
    rw [stack_div pos here, stack_div pos there]
    exact agree _ _ here there
  · have behind : blocks.length * w ≤ a := (Nat.le_div_iff_mul_le pos).mp (not_lt.mp inside)
    rw [stack_outside (.inr (by rwa [Nat.zero_add])),
      stack_outside (.inr (by rwa [Nat.zero_add, ← sameLength]))]

end Rows
