import Mathlib.Data.List.Basic

/-! # Walking ahead through time

A scheduler that looks for room walks from a time on and takes the first times
that suit it. `firstTimes` is what such a walk finds when it looks at a bounded
stretch of time; a longer look finds the same once the walk is full. Where the
suitable times repeat with a period, how many there are in a stretch depends on
the residue of its beginning only.
-/

/-- The first `n` times in the `span` times from `start` on that satisfy `p`. -/
def firstTimes (p : Nat → Bool) (start span n : Nat) : List Nat :=
  ((List.range' start span).filter p).take n

section

variable {p : Nat → Bool} {start span n : Nat}

@[simp] theorem firstTimes_zero (p : Nat → Bool) (start span : Nat) :
    firstTimes p start span 0 = [] := by simp [firstTimes]

theorem firstTimes_take (suits : p start = true) :
    firstTimes p start (span + 1) (n + 1) = start :: firstTimes p (start + 1) span n := by
  simp [firstTimes, List.range'_succ, suits]

theorem firstTimes_skip (suits : p start = false) :
    firstTimes p start (span + 1) n = firstTimes p (start + 1) span n := by
  simp [firstTimes, List.range'_succ, suits]

theorem mem_firstTimes {a : Nat} (member : a ∈ firstTimes p start span n) :
    start ≤ a ∧ a < start + span ∧ p a = true := by
  have inside := List.mem_filter.mp (List.mem_of_mem_take member)
  have range := List.mem_range'_1.mp inside.1
  exact ⟨range.1, range.2, inside.2⟩

/-- Where there is room for `n`, all suitable times are taken exactly when there are `n`. -/
theorem mem_firstTimes_of_full {a : Nat} (full : ((List.range' start span).filter p).length ≤ n)
    (from' : start ≤ a) (below : a < start + span) (suits : p a = true) :
    a ∈ firstTimes p start span n := by
  rw [firstTimes, List.take_of_length_le full]
  exact List.mem_filter.mpr ⟨List.mem_range'_1.mpr ⟨from', below⟩, suits⟩

/-- Looking further than needed finds the same times. -/
theorem firstTimes_longer {longer : Nat} (enough : n ≤ ((List.range' start span).filter p).length)
    (le : span ≤ longer) : firstTimes p start longer n = firstTimes p start span n := by
  obtain ⟨more, rfl⟩ := Nat.exists_eq_add_of_le le
  unfold firstTimes
  rw [← List.range'_append_1, List.filter_append, List.take_append_of_le_length enough]

theorem length_firstTimes (enough : n ≤ ((List.range' start span).filter p).length) :
    (firstTimes p start span n).length = n := by
  rw [firstTimes, List.length_take]
  omega

theorem firstTimes_sorted : (firstTimes p start span n).Pairwise (· < ·) :=
  ((List.pairwise_lt_range' (s := start) (n := span)).filter p).sublist (List.take_sublist _ _)

theorem firstTimes_nodup : (firstTimes p start span n).Nodup :=
  firstTimes_sorted.imp Nat.ne_of_lt

/-- The walk leaves no suitable time out on its way. -/
theorem firstTimes_closed {a b : Nat} (member : b ∈ firstTimes p start span n) (from' : start ≤ a)
    (before : a < b) (suits : p a = true) : a ∈ firstTimes p start span n := by
  have below := (mem_firstTimes member).2.1
  have inside : a ∈ (List.range' start span).filter p :=
    List.mem_filter.mpr ⟨List.mem_range'_1.mpr ⟨from', by omega⟩, suits⟩
  have sorted := (List.pairwise_lt_range' (s := start) (n := span)).filter p
  rw [← List.take_append_drop n ((List.range' start span).filter p)] at inside sorted
  rcases List.mem_append.mp inside with taken | left
  · exact taken
  · have := (List.pairwise_append.mp sorted).2.2 b member a left
    omega

/-- How many suitable times a stretch has, from the residue of its beginning. -/
theorem count_periodic {period : Nat} (periodic : ∀ a, p (a % period) = p a) (start span : Nat) :
    ((List.range' start span).filter p).length =
      ((List.range span).filter fun i => p ((start % period + i) % period)).length := by
  rw [List.range'_eq_map_range, List.filter_map, List.length_map]
  congr 1
  apply List.filter_congr
  intro i _
  simp only [Function.comp, Nat.mod_add_mod]
  exact (periodic (start + i)).symm

end
