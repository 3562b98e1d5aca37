import SonicaEnb.Mac.TtiStep

/-! # The last TTI of the scheduler (`scheduler.cc`)

`dl_sched` keeps in `last_tti` what `max_tti` makes of it and the TTI received.
`max_tti` takes the difference of its arguments as an unsigned number: where the
first is smaller, the difference is always beyond half a turn of the TTI cycle.
-/

namespace SonicaEnb

open Sched

/-- The later of two TTIs: the second where it comes less than half a turn of the cycle behind the
first. -/
def laterTti (a b : Nat) : Nat := if ttiSub b a < 10240 / 2 then b else a

/-- `max_tti` takes the smaller of two TTIs unless the first is larger by half a turn at most. -/
theorem maxTti_eq {a b : Nat} (aIn : a < 10240) (bIn : b < 10240) :
    maxTti a b = if b ≤ a ∧ a - b ≤ 10240 / 2 then a else min a b := by
  unfold maxTti
  by_cases ordered : b ≤ a
  · have distance : (a + 2 ^ 32 - b) % 2 ^ 32 = a - b := by omega
    rw [distance, max_eq_left ordered]
    split_ifs <;> omega
  · have distance : (a + 2 ^ 32 - b) % 2 ^ 32 = 2 ^ 32 - (b - a) := by omega
    rw [distance, if_pos (by omega), if_neg (by omega)]

/-- It is the later one unless the first argument is smaller by less than half a turn. -/
theorem maxTti_later_iff {a b : Nat} (aIn : a < 10240) (bIn : b < 10240) :
    maxTti a b = laterTti a b ↔ ¬(a < b ∧ b - a < 10240 / 2) := by
  rw [maxTti_eq aIn bIn]
  unfold laterTti ttiSub
  split_ifs <;> omega

/-! ## Calls of `dl_sched` -/

/-- What reaches the scheduler between two calls of `dl_sched`. -/
inductive BetweenDl where
  | call (c : SchedCall)
  | ulSched (tti : Nat)

/-- A call of `dl_sched` that returned: the TTI it received and `last_tti` behind it. -/
structure DlCall where
  ttiRx : Nat
  lastTti : Nat
  deriving Repr, DecidableEq

namespace Sched

def between (s : Sched) : BetweenDl → Sched
  | .call c => s.call c
  | .ulSched tti => (s.ulSched tti).1

/-- `dl_sched` for the absolute TTI `rx`, behind what came in front of it. -/
def dlTurn (s : Sched) (rx : Nat) (front : List BetweenDl) : Option (Sched × DlCall) :=
  ((front.foldl between s).dlSched (ttiAdd (rx % 10240) fddHarqDelayUlMs)).map fun res =>
    (res.1, ⟨rx % 10240, res.1.lastTti⟩)

theorem between_lastTti (s : Sched) (b : BetweenDl) : (s.between b).lastTti = s.lastTti := by
  cases b with
  | call c => cases c <;> rfl
  | ulSched tti =>
      unfold between ulSched generateTtiResultUl
      dsimp only
      split <;> rfl

theorem front_lastTti (s : Sched) (front : List BetweenDl) :
    (front.foldl between s).lastTti = s.lastTti := by
  induction front generalizing s with
  | nil => rfl
  | cons b rest ih => exact (ih _).trans (between_lastTti s b)

theorem schedCtrl_lastTti {s s' : Sched} {ttiRx : Nat} (ran : s.schedCtrl ttiRx = some s') :
    s'.lastTti = s.lastTti := by
  obtain ⟨ret, pendingRars, g, -, ⟨-, rfl⟩ | ⟨-, rfl⟩⟩ := schedCtrl_cases ran
  · rfl
  · rfl

theorem generateTtiResultDl_lastTti {s s' : Sched} {ttiRx : Nat} {dl : DlSchedRes}
    (inside : ttiRx < 10240) (ran : s.generateTtiResultDl ttiRx = some (s', dl)) :
    s'.lastTti = s.lastTti := by
  obtain ⟨s₁, g, ctrl, -, rfl, -⟩ := generateTtiResultDl_cases inside ran
  have same : (s₁.store ttiRx g.generateSchedResults.1).lastTti = s₁.lastTti := rfl
  rw [same, schedCtrl_lastTti ctrl]

/-- A call of `dl_sched` on `last_tti`, whatever came in front of it. -/
theorem dlTurn_lastTti {s s' : Sched} {rx : Nat} {front : List BetweenDl} {o : DlCall}
    (turned : s.dlTurn rx front = some (s', o)) :
    o = ⟨rx % 10240, s'.lastTti⟩ ∧ s'.lastTti = maxTti s.lastTti (rx % 10240) := by
  obtain ⟨⟨s₁, dl⟩, ran, same⟩ := Option.map_eq_some_iff.mp turned
  cases same
  refine ⟨rfl, ?_⟩
  unfold dlSched at ran
  rw [dlSched_ttiRx] at ran
  rw [generateTtiResultDl_lastTti (Nat.mod_lt rx (by decide)) ran]
  exact congrArg (maxTti · _) (front_lastTti s front)

/-- Zero is never left. -/
theorem maxTti_zero {b : Nat} (bIn : b < 10240) : maxTti 0 b = 0 := by
  rw [maxTti_eq (by decide) bIn, Nat.zero_min, ite_self]

/-- `max_tti` returns the later of two TTIs if and only if the first is not the smaller one by less
than half a turn. From the start `last_tti` is zero, and so it is the TTI of a call of `dl_sched`, for
consecutive TTIs, if and only if that one is zero. -/
theorem lastTti_iff {a b : Nat} (aIn : a < 10240) (bIn : b < 10240) (start : Nat)
    (inputs : List (List BetweenDl)) :
    (maxTti a b = laterTti a b ↔ ¬(a < b ∧ b - a < 10240 / 2)) ∧
      ∀ (last : Sched) (log : List DlCall), Ticking.run dlTurn init start inputs = some (last, log) →
        ∀ o ∈ log, o.lastTti = o.ttiRx ↔ o.ttiRx = 0 := by
  refine ⟨maxTti_later_iff aIn bIn, fun last log ran => ?_⟩
  have keeps : ∀ n (s : Sched) front s' (o : DlCall), s.lastTti = 0 →
      s.dlTurn n front = some (s', o) → s'.lastTti = 0 := by
    intro n s front s' o zero turned
    rw [(dlTurn_lastTti turned).2, zero, maxTti_zero (Nat.mod_lt n (by decide))]
  intro o member
  obtain ⟨s, n, front, s', zero, turned⟩ :=
    Ticking.run_mem_invariant (I := fun _ s => s.lastTti = 0) keeps rfl ran member
  obtain ⟨rfl, -⟩ := dlTurn_lastTti turned
  dsimp only
  rw [keeps n s front s' _ zero turned]
  exact eq_comm

/-- Two calls over the end of a cycle: `last_tti` is right behind the second. -/
theorem over_the_end :
    maxTti 10239 0 = laterTti 10239 0 ∧
      ∃ last log, Ticking.run dlTurn init 10239 [[], []] = some (last, log) ∧
        ∀ o ∈ log, o.lastTti = o.ttiRx ↔ o.ttiRx = 0 := by
  have returns : (Ticking.run dlTurn init 10239 [[], []]).isSome = true := by decide +kernel
  obtain ⟨⟨last, log⟩, ran⟩ := Option.isSome_iff_exists.mp returns
  obtain ⟨later, zero⟩ := lastTti_iff (a := 10239) (b := 0) (by decide) (by decide) 10239 [[], []]
  exact ⟨later.mpr (by decide), last, log, ran, zero last log ran⟩

/-- Two calls for the TTIs 0 and 1. -/
theorem stays_zero :
    maxTti 0 1 = 0 ∧ laterTti 0 1 = 1 ∧
      ∃ last log, Ticking.run dlTurn init 0 [[], []] = some (last, log) ∧
        ∃ o ∈ log, o.ttiRx = 1 ∧ o.lastTti = 0 := by
  have wrong : (Ticking.run dlTurn init 0 [[], []]).any fun r =>
      r.2.any fun o => decide (o = ⟨1, 0⟩) := by decide +kernel
  obtain ⟨⟨last, log⟩, ran, found⟩ := (Option.any_eq_true ..).mp wrong
  obtain ⟨o, member, same⟩ := List.any_eq_true.mp found
  cases of_decide_eq_true same
  exact ⟨by decide, by decide, last, log, ran, _, member, rfl, rfl⟩

end Sched

end SonicaEnb
