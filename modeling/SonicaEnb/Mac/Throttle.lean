import SonicaEnb.Mac.Handover
import SonicaEnb.Mac.Reservations

/-! # The spacing of users

Two file-level statics keep the TTI of the last allocation, modulo 10240, and
whether it still holds the others back. In unwrapped time this keeps successful
calls of `alloc_dl_user` 26 TTIs apart, however long no UE asks.
-/

namespace SonicaEnb

namespace TtiLog

/-- `alloc_dl_user` succeeded in this TTI: it adds to `data_allocs` then and only then. -/
def AllocatesDl (o : TtiLog) : Prop := o.sf.dataAllocs ≠ []

end TtiLog

namespace Sched

/-- The throttle in front of the TTI received at `now`, against the TTIs before. -/
structure Spaced (now : Nat) (s : Sched) (past : List TtiLog) : Prop where
  held : s.allocActive = true → ∃ y, y < now + 4 ∧ s.lastAlloc = y % 10240 ∧
    ∀ o ∈ past, o.AllocatesDl → o.tx ≤ y
  released : s.allocActive = false → ∀ o ∈ past, o.AllocatesDl → o.tx + 26 ≤ now + 4
  apart : past.Pairwise fun a b => a.AllocatesDl → b.AllocatesDl → a.tx + 26 ≤ b.tx
  single : ∀ o ∈ past, o.sf.dataAllocs.length ≤ 1

variable {s s' : Sched} {rx : Nat} {c : TtiCalls} {o : TtiLog} {past : List TtiLog}

theorem init_spaced (start : Nat) : Spaced start init [] where
  held on := by cases on
  released _ := nofun
  apart := .nil
  single := nofun

/-- The calls of a TTI do not touch the throttle. -/
theorem Spaced.pre (spaced : Spaced rx s past) (stepped : s.tti rx c = some (s', o)) :
    Spaced rx o.pre past := by
  have same := tti_pre_sameCarrier stepped
  refine ⟨?_, ?_, spaced.apart, spaced.single⟩
  · rw [same.allocActive, same.lastAlloc]
    exact spaced.held
  · rw [same.allocActive]
    exact spaced.released

/-- Where the throttle does not hold anybody back, the last allocation is 26 TTIs ago. -/
theorem Spaced.elapsedAll (spaced : Spaced rx s past)
    (open' : s.allocActive = true → (s.dlGrid (rx % 10240)).throttleOver = true) :
    ∀ o ∈ past, o.AllocatesDl → o.tx + 26 ≤ rx + 4 := by
  intro o member served
  cases active : s.allocActive with
  | false => exact spaced.released active o member served
  | true =>
      obtain ⟨y, before, last, upTo⟩ := spaced.held active
      have elapsed : y + 26 ≤ rx + 4 := by
        by_contra recent
        have runs := throttle_runs last before (by omega)
        rw [open' active] at runs
        cases runs
      have := upTo o member served
      omega

/-- A TTI without an allocation keeps the throttle or releases it. -/
theorem Spaced.idle (spaced : Spaced rx s past) (none : o.sf.dataAllocs = [])
    (lastAlloc : s'.lastAlloc = s.lastAlloc)
    (allocActive : s'.allocActive = (s.dlGrid (rx % 10240)).throttleLeft) :
    Spaced (rx + 1) s' (past ++ [o]) := by
  have notNow : ¬ o.AllocatesDl := fun served => served none
  have earlier {other : TtiLog} (member : other ∈ past ++ [o]) (served : other.AllocatesDl) :
      other ∈ past := by
    rcases List.mem_append.mp member with old | now
    · exact old
    · rw [List.mem_singleton.mp now] at served
      exact absurd served notNow
  have left : s'.allocActive = (s.allocActive && !((s.dlGrid (rx % 10240)).throttleOver &&
      !(s.dlGrid (rx % 10240)).dlOrder.isEmpty)) := allocActive
  refine ⟨?_, ?_, ?_, ?_⟩
  · intro on
    rw [left, Bool.and_eq_true] at on
    obtain ⟨y, before, last, upTo⟩ := spaced.held on.1
    exact ⟨y, by omega, lastAlloc.trans last, fun other member served =>
      upTo other (earlier member served) served⟩
  · intro off other member served
    have elapsed := spaced.elapsedAll (fun active => by
      rw [left, active, Bool.true_and, Bool.not_eq_false', Bool.and_eq_true] at off
      exact off.1) other (earlier member served) served
    omega
  · refine List.pairwise_append.mpr ⟨spaced.apart, List.pairwise_singleton _ _, ?_⟩
    intro a _ b now _ served
    rw [List.mem_singleton.mp now] at served
    exact absurd served notNow
  · intro other member
    rcases List.mem_append.mp member with old | now
    · exact spaced.single other old
    · rw [List.mem_singleton.mp now, none]
      exact Nat.zero_le 1

theorem tti_spaced (stepped : s.tti rx c = some (s', o)) (ok : RingOk rx s)
    (spaced : Spaced rx s past) : Spaced (rx + 1) s' (past ++ [o]) := by
  have before := spaced.pre stepped
  have time := tti_tx stepped
  cases tti_dlOutcome stepped ok with
  | nothing _ _ _ lastAlloc allocActive _ _ _ data => exact before.idle data lastAlloc allocActive
  | sib1 _ _ _ lastAlloc allocActive _ _ data => exact before.idle data lastAlloc allocActive
  | sib2 _ _ _ lastAlloc allocActive _ _ data => exact before.idle data lastAlloc allocActive
  | rar _ _ _ _ _ _ lastAlloc allocActive _ _ _ data => exact before.idle data lastAlloc allocActive
  | user user ue npdschTtis _ _ _ _ _ _ _ _ _ elapsed lastAlloc allocActive _ _ _ data =>
      have earlier := before.elapsedAll elapsed
      refine ⟨?_, ?_, ?_, ?_⟩
      · intro _
        refine ⟨rx + 4, by omega, lastAlloc, ?_⟩
        intro other member served
        rcases List.mem_append.mp member with old | now
        · have := earlier other old served
          omega
        · rw [List.mem_singleton.mp now, time]
      · intro off
        rw [allocActive] at off
        cases off
      · refine List.pairwise_append.mpr ⟨before.apart, List.pairwise_singleton _ _, ?_⟩
        intro a old b now served _
        rw [List.mem_singleton.mp now, time]
        exact earlier a old served
      · intro other member
        rcases List.mem_append.mp member with old | now
        · exact before.single other old
        · rw [List.mem_singleton.mp now, data]
          exact Nat.le_refl 1

/-- In every run of consecutive TTIs, at most one call of `alloc_dl_user` succeeds in a TTI, and
    between two TTIs in which one succeeds, for whichever UEs, there are 26 TTIs or more. -/
theorem user_allocations_spaced {start : Nat} {inputs : List TtiCalls} {last : Sched}
    {log : List TtiLog} (ran : run start inputs = some (last, log)) :
    (∀ o ∈ log, o.sf.dataAllocs.length ≤ 1) ∧
      log.Pairwise fun a b => a.AllocatesDl → b.AllocatesDl → a.tx + 26 ≤ b.tx := by
  have kept := Ticking.run_invariant (C := fun _ => True)
    (I := fun now s past => RingOk now s ∧ Spaced now s past)
    (fun _ _ _ _ _ _ ok stepped _ => ⟨tti_ringOk stepped ok.1, tti_spaced stepped ok.1 ok.2⟩)
    ⟨init_ringOk start, init_spaced start⟩ ran fun _ _ => trivial
  exact ⟨kept.2.single, kept.2.apart⟩

/-- Two UEs with data at once: one is served at TTI 33, the other at TTI 64. -/
theorem two_users_spaced :
    ∃ last log,
      run 29 (⟨dlWaiting 0x46 ++ dlWaiting 0x47, []⟩ :: idleTtis 31) = some (last, log) ∧
      (log.filter fun o => !o.sf.dataAllocs.isEmpty).map TtiLog.tx = [33, 64] ∧
      log.Pairwise fun a b => a.AllocatesDl → b.AllocatesDl → a.tx + 26 ≤ b.tx := by
  have checked : ((run 29 (⟨dlWaiting 0x46 ++ dlWaiting 0x47, []⟩ :: idleTtis 31)).any fun r =>
      decide ((r.2.filter fun o => !o.sf.dataAllocs.isEmpty).map TtiLog.tx = [33, 64])) = true := by
    decide +kernel
  obtain ⟨⟨last, log⟩, ran, times⟩ := Option.any_eq_true .. |>.mp checked
  exact ⟨last, log, ran, of_decide_eq_true times, (user_allocations_spaced ran).2⟩

end Sched

end SonicaEnb
