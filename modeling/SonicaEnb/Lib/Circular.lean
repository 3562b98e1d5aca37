import Mathlib.Data.List.Rotate
import Mathlib.Data.Nat.ModEq

/-! # Going round a circle

The slots of a ring buffer are read and written round and round: the `s` slots from
slot `r` on are a queue. Clients in a circle take turns: whoever looks for the next
one begins behind the one that had the last turn.
-/

namespace Circular

def next (n i : Nat) : Nat := if n ≤ i + 1 then 0 else i + 1

theorem next_lt {n i : Nat} (pos : 0 < n) : next n i < n := by
  unfold next
  split <;> omega

theorem next_eq {n i : Nat} (below : i < n) : next n i = (i + 1) % n := by
  unfold next
  split
  · have whole : i + 1 = n := by omega
    simp [whole]
  · exact (Nat.mod_eq_of_lt (by omega)).symm

/-! ## The queue in a ring buffer -/

variable {α : Type} {l : List α} {r s i : Nat}

/-- The `s` slots from `r` on. -/
def slots (l : List α) (r s : Nat) : List α := (l.rotate r).take s

theorem length_slots (fits : s ≤ l.length) : (slots l r s).length = s := by
  simpa [slots] using fits

theorem slots_getElem? (fits : s ≤ l.length) :
    (slots l r s)[i]? = if i < s then l[(i + r) % l.length]? else none := by
  simp only [slots, List.getElem?_take]
  split
  · exact List.getElem?_rotate (by omega)
  · rfl

/-- Writing the slot behind the queue appends to it. -/
theorem slots_set (room : s < l.length) (x : α) :
    slots (l.set ((r + s) % l.length) x) r (s + 1) = slots l r s ++ [x] := by
  apply List.ext_getElem?
  intro i
  have fits : s + 1 ≤ (l.set ((r + s) % l.length) x).length := by
    rw [List.length_set]
    exact room
  rw [slots_getElem? fits, List.length_set]
  rcases Nat.lt_trichotomy i s with before | here | behind
  · have elsewhere : (r + s) % l.length ≠ (i + r) % l.length := by
      intro same
      rw [Nat.add_comm i r] at same
      have equal := Nat.ModEq.eq_of_lt_of_lt (Nat.ModEq.add_left_cancel' r same) room (before.trans room)
      omega
    rw [if_pos (by omega), List.getElem?_set_ne elsewhere,
      List.getElem?_append_left (by rw [length_slots room.le]; exact before),
      slots_getElem? room.le, if_pos before]
  · subst here
    have inside : (r + i) % l.length < l.length := Nat.mod_lt _ (by omega)
    rw [if_pos (by omega), Nat.add_comm i r, List.getElem?_set_self inside,
      List.getElem?_append_right (length_slots room.le).le, length_slots room.le]
    simp
  · rw [if_neg (by omega), List.getElem?_eq_none]
    rw [List.length_append, length_slots room.le, List.length_singleton]
    omega

/-- Without its first slot the queue begins at the next slot. -/
theorem slots_succ (below : r < l.length) (fits : s < l.length) :
    slots l r (s + 1) = l[r] :: slots l (next l.length r) s := by
  have first : (l.rotate r)[0]? = some l[r] := by
    rw [List.getElem?_rotate (by omega), Nat.zero_add, Nat.mod_eq_of_lt below,
      List.getElem?_eq_getElem below]
  have moved : l.rotate (next l.length r) = (l.rotate r).rotate 1 := by
    rw [next_eq below, List.rotate_mod, List.rotate_rotate]
  have length : (l.rotate r).length = l.length := List.length_rotate l r
  cases whole : l.rotate r with
  | nil =>
      rw [whole] at first
      cases first
  | cons a rest =>
      rw [whole] at first length
      have enough : s ≤ rest.length := by
        rw [List.length_cons] at length
        omega
      simp only [List.getElem?_cons_zero, Option.some.injEq] at first
      simp only [slots, moved, whole, List.take_succ_cons, List.rotate_cons_succ, List.rotate_zero,
        List.take_append_of_le_length enough, first]

/-! ## Turns -/

variable {n last q : Nat} {ready : Nat → Bool}

/-- The clients in the order of their next turns. -/
def turns (n last : Nat) : List Nat := (List.range n).map fun j => (last + 1 + j) % n

/-- How many clients have a turn before `q`. -/
def ahead (n last q : Nat) : Nat := (q + n - 1 - last) % n

theorem ahead_lt (pos : 0 < n) : ahead n last q < n := Nat.mod_lt _ pos

theorem ahead_eq {j : Nat} (served : last < n) (small : j < n) (turn : (last + 1 + j) % n = q) :
    ahead n last q = j := by
  unfold ahead
  subst turn
  by_cases wraps : last + 1 + j < n
  · rw [Nat.mod_eq_of_lt wraps, show last + 1 + j + n - 1 - last = j + n by omega, Nat.add_mod_right,
      Nat.mod_eq_of_lt small]
  · have wrapped : (last + 1 + j) % n = last + 1 + j - n := by
      rw [Nat.mod_eq_sub_mod (by omega), Nat.mod_eq_of_lt (by omega)]
    rw [wrapped, show last + 1 + j - n + n - 1 - last = j by omega, Nat.mod_eq_of_lt small]

theorem turn_ahead (served : last < n) (below : q < n) : (last + 1 + ahead n last q) % n = q := by
  unfold ahead
  rw [Nat.add_mod_mod, show last + 1 + (q + n - 1 - last) = q + n by omega, Nat.add_mod_right,
    Nat.mod_eq_of_lt below]

theorem ahead_turn (last : Nat) {j k : Nat} (sooner : j < k) (small : k < n) :
    ahead n ((last + 1 + j) % n) ((last + 1 + k) % n) = k - j - 1 := by
  apply ahead_eq (Nat.mod_lt _ (by omega)) (by omega)
  rw [Nat.add_assoc, Nat.mod_add_mod]
  congr 1
  omega

theorem ahead_self (below : i < n) : ahead n i i = n - 1 := by
  apply ahead_eq below (by omega)
  rw [show i + 1 + (n - 1) = i + n by omega, Nat.add_mod_right, Nat.mod_eq_of_lt below]

/-- The first client that is ready: it has its turn before every other one that is. -/
theorem turns_found (served : last < n) (found : (turns n last).find? ready = some i) :
    i < n ∧ ready i = true ∧ ∀ q < n, ready q = true → ahead n last i ≤ ahead n last q := by
  rw [turns, List.find?_map] at found
  obtain ⟨j, search, rfl⟩ := Option.map_eq_some_iff.mp found
  obtain ⟨good, small, earlier⟩ := List.find?_range_eq_some.mp search
  rw [List.mem_range] at small
  refine ⟨Nat.mod_lt _ (by omega), good, fun q below readyQ => ?_⟩
  rw [ahead_eq served small rfl]
  by_contra sooner
  have missed := earlier (ahead n last q) (by omega)
  simp only [Function.comp, turn_ahead served below, readyQ] at missed
  cases missed

theorem turns_none (served : last < n) (below : q < n) (none : (turns n last).find? ready = none) :
    ready q = false := by
  rw [List.find?_eq_none] at none
  have member : q ∈ turns n last :=
    List.mem_map.mpr ⟨ahead n last q, List.mem_range.mpr (ahead_lt (by omega)), turn_ahead served below⟩
  simpa using none q member

/-- A turn of another client brings a client that is ready nearer to its own. -/
theorem ahead_of_found (served : last < n) (found : (turns n last).find? ready = some i)
    (below : q < n) (readyQ : ready q = true) (other : q ≠ i) : ahead n i q < ahead n last q := by
  obtain ⟨inside, -, first⟩ := turns_found served found
  have limit : ahead n last q < n := ahead_lt (by omega)
  have apart : ahead n last i ≠ ahead n last q := by
    intro same
    have turn := turn_ahead served inside
    rw [same, turn_ahead served below] at turn
    exact other turn
  have sooner : ahead n last i < ahead n last q := Nat.lt_of_le_of_ne (first q below readyQ) apart
  have closer := ahead_turn last sooner limit
  rw [turn_ahead served inside, turn_ahead served below] at closer
  omega

end Circular
