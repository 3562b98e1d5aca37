import Mathlib.Algebra.BigOperators.Group.Finset.Piecewise
import Mathlib.Algebra.Order.BigOperators.Group.Finset

/-! # Interleaved runs

Several threads share a state. An action is one atomic step of one of them; where
the thread has to wait, the action does not step. A run is any order of steps.
-/

namespace Interleaved

variable {σ α : Type} {step : σ → α → Option σ} {s t : σ}

def run (step : σ → α → Option σ) : σ → List α → Option σ
  | s, [] => some s
  | s, a :: rest =>
      match step s a with
      | none => none
      | some s' => run step s' rest

theorem run_cons {a : α} {rest : List α} (ran : run step s (a :: rest) = some t) :
    ∃ s', step s a = some s' ∧ run step s' rest = some t := by
  simp only [run] at ran
  split at ran
  · cases ran
  · rename_i s' stepped
    exact ⟨s', stepped, ran⟩

theorem run_append {front back : List α} (ranFront : run step s front = some t) :
    run step s (front ++ back) = run step t back := by
  induction front generalizing s with
  | nil => cases ranFront; rfl
  | cons a rest ih =>
      obtain ⟨s', stepped, ran⟩ := run_cons ranFront
      simp only [List.cons_append, run, stepped]
      exact ih ran

theorem run_invariant {I : σ → Prop} (keeps : ∀ s a s', I s → step s a = some s' → I s')
    {actions : List α} (start : I s) (ran : run step s actions = some t) : I t := by
  induction actions generalizing s with
  | nil => cases ran; exact start
  | cons a rest ih =>
      obtain ⟨s', stepped, ran⟩ := run_cons ran
      exact ih (keeps s a s' start stepped) ran

/-- A relation between the states of a run that every step has. -/
theorem run_relates {I : σ → Prop} {R : σ → σ → Prop} (refl : ∀ s, R s s)
    (trans : ∀ s s' s'', R s s' → R s' s'' → R s s'')
    (keeps : ∀ s a s', I s → step s a = some s' → I s')
    (relates : ∀ s a s', I s → step s a = some s' → R s s')
    {actions : List α} (start : I s) (ran : run step s actions = some t) : R s t := by
  induction actions generalizing s with
  | nil => cases ran; exact refl _
  | cons a rest ih =>
      obtain ⟨s', stepped, ran⟩ := run_cons ran
      exact trans s s' t (relates s a s' start stepped) (ih (keeps s a s' start stepped) ran)

/-- A rank that every step lowers, except that each unit by which `gain` grows may raise it by `price`,
    bounds the number of steps. -/
theorem run_bounded {I : σ → Prop} {rank : σ → Nat} (gain : σ → Nat) {price : Nat}
    (keeps : ∀ s a s', I s → step s a = some s' → I s')
    (pays : ∀ s a s', I s → step s a = some s' →
      rank s' + 1 + price * gain s ≤ rank s + price * gain s')
    {actions : List α} (start : I s) (ran : run step s actions = some t) :
    actions.length + rank t + price * gain s ≤ rank s + price * gain t := by
  induction actions generalizing s with
  | nil => cases ran; simp
  | cons a rest ih =>
      obtain ⟨s', stepped, ran⟩ := run_cons ran
      have first := pays s a s' start stepped
      have later := ih (keeps s a s' start stepped) ran
      rw [List.length_cons]
      omega

/-! ## Ranks of several threads -/

variable {n : Nat} {f g : Fin n → Nat} {i : Fin n}

theorem sum_lt (moved : g i < f i) (others : ∀ j, j ≠ i → g j ≤ f j) : ∑ j, g j < ∑ j, f j := by
  apply Finset.sum_lt_sum
  · intro j _
    by_cases same : j = i
    · subst same
      exact moved.le
    · exact others j same
  · exact ⟨i, Finset.mem_univ i, moved⟩

theorem sum_le_add {extra : Nat} (moved : g i ≤ f i + extra) (others : ∀ j, j ≠ i → g j ≤ f j) :
    ∑ j, g j ≤ ∑ j, f j + extra := by
  have bound : ∀ j ∈ Finset.univ, g j ≤ f j + if j = i then extra else 0 := by
    intro j _
    by_cases same : j = i
    · subst same
      simpa using moved
    · simpa [same] using others j same
  calc ∑ j, g j ≤ ∑ j, (f j + if j = i then extra else 0) := Finset.sum_le_sum bound
    _ = ∑ j, f j + extra := by rw [Finset.sum_add_distrib, Finset.sum_ite_eq' Finset.univ i]; simp

theorem sum_update_of_mem {ι β : Type} [DecidableEq ι] (h : β → Nat) (p : ι → β) {S : Finset ι} {k : ι}
    (member : k ∈ S) (x : β) :
    ∑ j ∈ S, h (Function.update p k x j) + h (p k) = ∑ j ∈ S, h (p j) + h x := by
  have moved : (fun j => h (Function.update p k x j)) = Function.update (fun j => h (p j)) k (h x) :=
    Function.comp_update h p k x
  have whole := Finset.add_sum_erase S (fun j => h (p j)) member
  rw [moved, Finset.sum_update_of_mem member, ← whole, ← Finset.erase_eq]
  omega

theorem sum_update {β : Type} (h : β → Nat) (p : Fin n → β) (i : Fin n) (x : β) :
    ∑ j, h (Function.update p i x j) + h (p i) = ∑ j, h (p j) + h x :=
  sum_update_of_mem h p (Finset.mem_univ i) x

theorem le_sum {h : Fin n → Nat} (i : Fin n) : h i ≤ ∑ j, h j :=
  Finset.single_le_sum (fun _ _ => Nat.zero_le _) (Finset.mem_univ i)

end Interleaved
