import Mathlib.Data.List.Basic

/-! # Runs of a ticking machine

A machine takes one input per tick and answers one log entry. A tick may fail
to return, and then no later tick happens. `run_invariant` is the induction
every whole-run result uses: what one tick keeps, a run keeps. The invariant
sees the log of the ticks already taken, so it can speak about the past.
-/

namespace Ticking

variable {σ ι ω : Type}

def run (step : σ → Nat → ι → Option (σ × ω)) : σ → Nat → List ι → Option (σ × List ω)
  | s, _, [] => some (s, [])
  | s, n, i :: rest =>
      match step s n i with
      | none => none
      | some (s', o) =>
          match run step s' (n + 1) rest with
          | none => none
          | some (last, log) => some (last, o :: log)

theorem run_cons {step : σ → Nat → ι → Option (σ × ω)} {s last : σ} {n : Nat} {i : ι}
    {rest : List ι} {log : List ω} (ran : run step s n (i :: rest) = some (last, log)) :
    ∃ s' o log', step s n i = some (s', o) ∧ run step s' (n + 1) rest = some (last, log') ∧
      log = o :: log' := by
  simp only [run] at ran
  split at ran
  · cases ran
  · rename_i s' o stepped
    split at ran
    · cases ran
    · rename_i last' log' tail
      cases ran
      exact ⟨s', o, log', stepped, tail, rfl⟩

/-- A run up to some tick and from there on is a run. -/
theorem run_append {step : σ → Nat → ι → Option (σ × ω)} {s last : σ} {n : Nat} {xs ys : List ι}
    {log : List ω} (ran : run step s n (xs ++ ys) = some (last, log)) :
    ∃ mid before after, run step s n xs = some (mid, before) ∧
      run step mid (n + xs.length) ys = some (last, after) ∧ log = before ++ after := by
  induction xs generalizing s n log with
  | nil => exact ⟨s, [], log, rfl, ran, rfl⟩
  | cons i rest ih =>
      obtain ⟨s', o, log', stepped, tail, rfl⟩ := run_cons ran
      obtain ⟨mid, before, after, ranBefore, ranAfter, rfl⟩ := ih tail
      refine ⟨mid, o :: before, after, ?_, ?_, rfl⟩
      · simp [run, stepped, ranBefore]
      · rw [List.length_cons, Nat.add_comm rest.length 1, ← Nat.add_assoc]
        exact ranAfter

theorem run_length {step : σ → Nat → ι → Option (σ × ω)} {s last : σ} {n : Nat} {inputs : List ι}
    {log : List ω} (ran : run step s n inputs = some (last, log)) : log.length = inputs.length := by
  induction inputs generalizing s n log with
  | nil => cases ran; rfl
  | cons i rest ih =>
      obtain ⟨s', o, log', stepped, tail, rfl⟩ := run_cons ran
      simp [ih tail]

/-- Every entry of the log was written by a tick on one of the inputs, in a state that has what every
tick keeps. -/
theorem run_tick_of_mem {step : σ → Nat → ι → Option (σ × ω)} {I : Nat → σ → Prop}
    (keeps : ∀ n s i s' o, I n s → step s n i = some (s', o) → I (n + 1) s')
    {s last : σ} {n : Nat} {inputs : List ι} {log : List ω} (start : I n s)
    (ran : run step s n inputs = some (last, log)) {o : ω} (member : o ∈ log) :
    ∃ a m i b, I m a ∧ i ∈ inputs ∧ step a m i = some (b, o) := by
  induction inputs generalizing s n log with
  | nil => cases ran; cases member
  | cons i rest ih =>
      obtain ⟨s', first, log', stepped, tail, rfl⟩ := run_cons ran
      rcases List.mem_cons.mp member with rfl | later
      · exact ⟨s, n, i, s', start, List.mem_cons_self, stepped⟩
      · obtain ⟨a, m, j, b, kept, inside, stepped⟩ :=
          ih (keeps n s i s' first start stepped) tail later
        exact ⟨a, m, j, b, kept, List.mem_cons_of_mem i inside, stepped⟩

theorem run_mem {step : σ → Nat → ι → Option (σ × ω)} {s last : σ} {n : Nat} {inputs : List ι}
    {log : List ω} (ran : run step s n inputs = some (last, log)) {o : ω} (member : o ∈ log) :
    ∃ a m i b, i ∈ inputs ∧ step a m i = some (b, o) := by
  obtain ⟨a, m, i, b, -, inside, stepped⟩ :=
    run_tick_of_mem (I := fun _ _ => True) (fun _ _ _ _ _ _ _ => trivial) trivial ran member
  exact ⟨a, m, i, b, inside, stepped⟩

theorem run_mem_invariant {step : σ → Nat → ι → Option (σ × ω)} {I : Nat → σ → Prop}
    (keeps : ∀ n s i s' o, I n s → step s n i = some (s', o) → I (n + 1) s')
    {s last : σ} {n : Nat} {inputs : List ι} {log : List ω} (start : I n s)
    (ran : run step s n inputs = some (last, log)) {o : ω} (member : o ∈ log) :
    ∃ a m i b, I m a ∧ step a m i = some (b, o) := by
  obtain ⟨a, m, i, b, kept, -, stepped⟩ := run_tick_of_mem keeps start ran member
  exact ⟨a, m, i, b, kept, stepped⟩

/-- Where every tick from a good state returns, every run from one does. -/
theorem run_returns {step : σ → Nat → ι → Option (σ × ω)} {I : Nat → σ → Prop}
    (keeps : ∀ n s i s' o, I n s → step s n i = some (s', o) → I (n + 1) s')
    (returns : ∀ n s i, I n s → ∃ s' o, step s n i = some (s', o))
    {s : σ} {n : Nat} (start : I n s) (inputs : List ι) :
    ∃ last log, run step s n inputs = some (last, log) := by
  induction inputs generalizing s n with
  | nil => exact ⟨s, [], rfl⟩
  | cons i rest ih =>
      obtain ⟨s', o, stepped⟩ := returns n s i start
      obtain ⟨last, log, ran⟩ := ih (keeps n s i s' o start stepped)
      exact ⟨last, o :: log, by simp only [run, stepped, ran]⟩

/-- The tick that wrote entry `i` of the log, with the runs before and after it. -/
theorem run_tick {step : σ → Nat → ι → Option (σ × ω)} {s last : σ} {n i : Nat} {inputs : List ι}
    {log : List ω} {o : ω} (ran : run step s n inputs = some (last, log)) (here : log[i]? = some o) :
    ∃ a b input, run step s n (inputs.take i) = some (a, log.take i) ∧
      step a (n + i) input = some (b, o) ∧
      run step b (n + i + 1) (inputs.drop (i + 1)) = some (last, log.drop (i + 1)) := by
  have inside : i < inputs.length := by
    rw [← run_length ran]
    exact (List.getElem?_eq_some_iff.mp here).1
  have shape : inputs = inputs.take i ++ inputs.drop i := (List.take_append_drop i inputs).symm
  rw [shape] at ran
  obtain ⟨a, before, after, ranBefore, ranAfter, rfl⟩ := run_append ran
  rw [List.drop_eq_getElem_cons inside] at ranAfter
  obtain ⟨b, o', rest, stepped, ranRest, rfl⟩ := run_cons ranAfter
  have count : before.length = i := by
    rw [run_length ranBefore, List.length_take]
    omega
  have first : (inputs.take i).length = i := by rw [List.length_take]; omega
  have same : o' = o := by
    rw [List.getElem?_append_right (by omega), count] at here
    simpa using here
  rw [first] at stepped ranRest
  have front : (before ++ o' :: rest).take i = before := List.take_left' count
  have back : (before ++ o' :: rest).drop (i + 1) = rest := by
    rw [← count, List.drop_append]
    simp
  rw [front, back, ← same]
  exact ⟨a, b, inputs[i], ranBefore, stepped, ranRest⟩

theorem run_invariant_after {step : σ → Nat → ι → Option (σ × ω)} {I : Nat → σ → List ω → Prop}
    {C : ω → Prop}
    (keeps : ∀ n s past i s' o, I n s past → step s n i = some (s', o) → C o →
      I (n + 1) s' (past ++ [o]))
    {inputs : List ι} {n : Nat} {s last : σ} {past log : List ω} (start : I n s past)
    (ran : run step s n inputs = some (last, log)) (ok : ∀ o ∈ log, C o) :
    I (n + inputs.length) last (past ++ log) := by
  induction inputs generalizing n s past log with
  | nil =>
      cases ran
      simpa using start
  | cons i rest ih =>
      obtain ⟨s', o, log', stepped, tail, rfl⟩ := run_cons ran
      have next := keeps n s past i s' o start stepped (ok o (by simp))
      have last := ih next tail (fun o' member => ok o' (by simp [member]))
      have count : n + (i :: rest).length = n + 1 + rest.length := by
        simp only [List.length_cons]; omega
      rw [count]
      simpa using last

/-- What every tick keeps, under a condition `C` on what it logs, a run keeps. -/
theorem run_invariant {step : σ → Nat → ι → Option (σ × ω)} {I : Nat → σ → List ω → Prop}
    {C : ω → Prop}
    (keeps : ∀ n s past i s' o, I n s past → step s n i = some (s', o) → C o →
      I (n + 1) s' (past ++ [o]))
    {inputs : List ι} {n : Nat} {s last : σ} {log : List ω} (start : I n s [])
    (ran : run step s n inputs = some (last, log)) (ok : ∀ o ∈ log, C o) :
    I (n + inputs.length) last log := run_invariant_after keeps start ran ok

end Ticking
