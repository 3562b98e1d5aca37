import SonicaEnb.Mac.Reservations

/-! # System information over whole runs

SIB1 goes out in every subframe 4 of an odd frame: nothing is ever reserved there,
so the counter of its 128 subframes stays in phase with the frame number. SIB2 has
no such protection. Its start is reserved when it comes, and a response or the
data of a user may have taken the TTI before.
-/

namespace SonicaEnb

/-- The SIB1 elements of a downlink result. -/
def DlSchedRes.sib1 (dl : DlSchedRes) : List DlSchedBc := dl.bc.filter fun b => b.dci.alloc.hasSib1

/-- The SIB2 elements of a downlink result. -/
def DlSchedRes.sib2 (dl : DlSchedRes) : List DlSchedBc := dl.bc.filter fun b => !b.dci.alloc.hasSib1

namespace TtiLog

/-- Frame number sent in downlink. -/
def sfn (o : TtiLog) : Nat := o.tx % 10240 / 10

/-- Subframe number sent in downlink. -/
def sfIdx (o : TtiLog) : Nat := o.tx % 10240 % 10

end TtiLog

namespace Sched

/-! ## SIB1 -/

/-- The counter before the TTI received at `now`, when the run began at TX TTI 0: how many SIB1
    TTIs were sent. -/
def InPhase (now : Nat) (s : Sched) : Prop := s.sib1SfIdx = (now + 9) / 20 % 128

theorem sib1NumSf_eq : sib1NumSf = 128 := by decide

/-- What a TTI sends of SIB1, with the counter it finds and leaves. -/
theorem tti_sib1 {s s' : Sched} {rx : Nat} {c : TtiCalls} {o : TtiLog} (windows : Windows rx s)
    (stepped : s.tti rx c = some (s', o)) :
    ((rx + 4) % 20 = 14 ∧ o.dl.sib1 = [⟨raDlSib1, s.sib1SfIdx == 0⟩] ∧
        s'.sib1SfIdx = if s.sib1SfIdx + 1 = 128 then 0 else s.sib1SfIdx + 1) ∨
      ((rx + 4) % 20 ≠ 14 ∧ o.dl.sib1 = [] ∧ s'.sib1SfIdx = s.sib1SfIdx) := by
  have counterPre := (tti_pre_sameCarrier stepped).sib1SfIdx
  have free := (windows.dl.pre stepped).sib1_free
  rw [DlSchedRes.sib1, tti_bc stepped, SfGrid.bcSchedResult, ← counterPre]
  cases tti_dlOutcome stepped windows.ring with
  | nothing _ noSib1 _ _ _ counter _ bc =>
      right
      refine ⟨?_, by rw [bc]; rfl, counter⟩
      intro occasion
      have marked := noSib1 occasion
      rw [free occasion] at marked
      cases marked
  | sib1 _ occasion _ _ _ counter bc =>
      left
      rw [sib1NumSf_eq] at counter
      exact ⟨occasion, by rw [bc]; rfl, counter⟩
  | sib2 _ occasion _ _ _ counter bc =>
      right
      have residue := sib2Start_residue occasion
      exact ⟨by omega, by rw [bc]; rfl, counter⟩
  | rar _ _ _ _ noSib1 _ _ _ counter _ bc => exact .inr ⟨noSib1, by rw [bc]; rfl, counter⟩
  | user _ _ _ _ _ _ _ _ _ _ noSib1 _ _ _ _ counter _ bc => exact .inr ⟨noSib1, by rw [bc]; rfl, counter⟩

theorem tti_inPhase {s s' : Sched} {rx : Nat} {c : TtiCalls} {o : TtiLog} (windows : Windows rx s)
    (phase : InPhase rx s) (stepped : s.tti rx c = some (s', o)) : InPhase (rx + 1) s' := by
  unfold InPhase at *
  rcases tti_sib1 windows stepped with ⟨occasion, -, counter⟩ | ⟨other, -, counter⟩
  · rw [counter, phase]
    split <;> omega
  · rw [counter, phase]
    omega

/-- In a run that begins at TX TTI 0, SIB1 goes out exactly once in subframe 4 of every odd frame and
    nowhere else, and begins anew exactly in the frames that are 1 modulo 256. -/
theorem sib1_schedule {start : Nat} {inputs : List TtiCalls} {last : Sched} {log : List TtiLog}
    (fromZero : (start + 4) % 10240 = 0) (ran : run start inputs = some (last, log)) {o : TtiLog}
    (member : o ∈ log) :
    o.dl.sib1.length = (if o.sfIdx = 4 ∧ o.sfn % 2 = 1 then 1 else 0) ∧
      ∀ b ∈ o.dl.sib1, (b.isNewSib = true ↔ o.sfn % 256 = 1) := by
  have first : InPhase start init := by
    change 0 = (start + 9) / 20 % 128
    omega
  obtain ⟨s, rx, c, s', ⟨windows, phase⟩, stepped⟩ := Ticking.run_mem_invariant
    (I := fun n s => Windows n s ∧ InPhase n s)
    (fun _ _ _ _ _ inv stepped => ⟨tti_windows inv.1 stepped, tti_inPhase inv.1 inv.2 stepped⟩)
    ⟨init_windows start, first⟩ ran member
  have rxOf := (tti_cases stepped).1
  simp only [TtiLog.sfIdx, TtiLog.sfn, TtiLog.tx, rxOf]
  unfold InPhase at phase
  rcases tti_sib1 windows stepped with ⟨occasion, sent, -⟩ | ⟨other, sent, -⟩
  · rw [sent]
    refine ⟨?_, ?_⟩
    · rw [if_pos (by omega)]
      rfl
    · intro b only
      rw [List.mem_singleton.mp only, beq_iff_eq, phase]
      omega
  · rw [sent]
    refine ⟨?_, by simp⟩
    rw [if_neg (by omega)]
    rfl

/-- Fifteen idle TTIs from TX TTI 0: a new SIB1 in subframe 4 of frame 1. -/
theorem first_sib1 : ∃ last log o, run 10236 (idleTtis 15) = some (last, log) ∧ o ∈ log ∧
    o.sfIdx = 4 ∧ o.sfn = 1 ∧ o.dl.sib1.length = 1 ∧ ∀ b ∈ o.dl.sib1, b.isNewSib = true := by
  have checked : ((run 10236 (idleTtis 15)).any fun r => r.2.any fun o =>
      decide (o.sfIdx = 4) && decide (o.sfn = 1)) = true := by decide +kernel
  obtain ⟨⟨last, log⟩, ran, facts⟩ := Option.any_eq_true .. |>.mp checked
  obtain ⟨o, member, facts⟩ := List.any_eq_true.mp facts
  simp only [Bool.and_eq_true, decide_eq_true_eq] at facts
  obtain ⟨sfIdx, sfn⟩ := facts
  obtain ⟨one, new⟩ := sib1_schedule (by decide) ran member
  rw [sfIdx, sfn] at one
  exact ⟨last, log, o, ran, member, sfIdx, sfn, one, fun b inside => (new b inside).mpr (by rw [sfn])⟩

/-! ## SIB2 -/

end Sched

/-- The downlink run of this TTI is about to reserve the start of a SIB2: for the response whose last
    grant is due, or for the data of the user that is due. -/
def TtiLog.reachesSib2 (o : TtiLog) : Bool :=
  (o.pre.lastRarDue (o.rx % 10240) && Sched.isSib2Start (rarTx o.tx)) ||
    (o.pre.dlUserDue (o.rx % 10240)).any fun user => (o.pre.ueDb.find? user).any fun ue =>
      (npdschTimes o.tx (iSfToNSfNpdsch.getD (SfGrid.iSfFor ue.getRequestedDlBytes.2) 0)).any
        Sched.isSib2Start

namespace Sched

/-- No SIB2 that is still to come has lost its start. -/
def Sib2Free (now : Nat) (s : Sched) : Prop :=
  ∀ a, now + 4 ≤ a → a < now + 40 → isSib2Start a = true → s.dlSchedTable (a % 10240) = false

/-- A mark that a TTI adds at a later SIB2 start comes from a response or a user. -/
theorem DlOutcome.reaches {s s' : Sched} {rx a : Nat} {sf : SfSched} (outcome : DlOutcome s rx s' sf)
    (window : DlWindow rx s) (from' : rx + 5 ≤ a) (below : a < rx + 41) (start : isSib2Start a = true)
    (free : s.dlCleared rx (a % 10240) = false) (marked : s'.dlSchedTable (a % 10240) = true) :
    (s.lastRarDue (rx % 10240) = true ∧ a = rarTx (rx + 4)) ∨
      ∃ user ue, s.dlUserDue (rx % 10240) = some user ∧ s.ueDb.find? user = some ue ∧
        a ∈ npdschTimes (rx + 4) (iSfToNSfNpdsch.getD (SfGrid.iSfFor ue.getRequestedDlBytes.2) 0) := by
  have residue := sib2Start_residue start
  have notNow : a % 10240 ≠ (rx + 4) % 10240 := by omega
  cases outcome with
  | nothing table =>
      rw [table, free] at marked
      cases marked
  | sib1 table =>
      rw [table, Wheel.set_other _ _ notNow, free] at marked
      cases marked
  | sib2 table occasion =>
      have residue' := sib2Start_residue occasion
      rw [table, Wheel.mark_apply, free, Bool.or_false, decide_eq_true_eq] at marked
      obtain ⟨b, member, slot⟩ := List.mem_map.mp marked
      obtain ⟨lower, upper, -⟩ := (mem_sib2Times (by omega)).mp member
      omega
  | rar table _ _ _ _ _ _ _ _ last =>
      rw [table] at marked
      rcases Wheel.set_raised marked with slot | first
      · have := rarTx_le (rx + 4)
        exact .inl ⟨last, by omega⟩
      · rw [Wheel.set_other _ _ notNow, free] at first
        cases first
  | user user ue npdschTtis table due found placed isFree valid search _ _ elapsed =>
      rw [window.reserve isFree valid search elapsed] at placed
      cases placed
      rw [table, Wheel.mark_apply, Wheel.set_other _ _ notNow, free, Bool.or_false,
        decide_eq_true_eq] at marked
      obtain ⟨b, member, slot⟩ := List.mem_map.mp marked
      obtain ⟨lower, upper, -⟩ := mem_npdschTimes member
      have same : a = b := by omega
      exact .inr ⟨user, ue, due, found, same ▸ member⟩

theorem tti_sib2Free {s s' : Sched} {rx : Nat} {c : TtiCalls} {o : TtiLog} (windows : Windows rx s)
    (free : Sib2Free rx s) (stepped : s.tti rx c = some (s', o)) (clear : o.reachesSib2 = false) :
    Sib2Free (rx + 1) s' := by
  intro a from' below start
  have windowPre := windows.dl.pre stepped
  have rxOf := (tti_cases stepped).1
  have tablePre := (tti_pre_sameCarrier stepped).dlSchedTable
  have before : o.pre.dlCleared rx (a % 10240) = false := by
    rw [dlCleared_other (by omega) (by omega)]
    by_contra marked
    have near : a < rx + 40 := by
      obtain ⟨b, slot, lower, recent | by'⟩ := windowPre.marks _ (by simpa using marked)
      · omega
      · have := by'.upTo
        omega
    rw [tablePre, free a (by omega) near start] at marked
    exact marked rfl
  by_contra marked
  rw [TtiLog.reachesSib2, Bool.or_eq_false_iff, TtiLog.tx, rxOf] at clear
  rcases (tti_dlOutcome stepped windows.ring).reaches windowPre (by omega) (by omega) start before
      (by simpa using marked) with ⟨last, place⟩ | ⟨user, ue, due, found, member⟩
  · rw [last, ← place, start] at clear
    cases clear.1
  · have reaches := clear.2
    rw [due, Option.any_some, found, Option.any_some, List.any_eq_false] at reaches
    exact reaches a member start

/-- At an occasion whose TTI is free, SIB2 goes out. -/
theorem tti_sib2 {s s' : Sched} {rx : Nat} {c : TtiCalls} {o : TtiLog} (windows : Windows rx s)
    (free : Sib2Free rx s) (stepped : s.tti rx c = some (s', o)) (occasion : isSib2Start (rx + 4) = true) :
    o.dl.sib2 = [⟨raDlSib2, false⟩] := by
  have tablePre := (tti_pre_sameCarrier stepped).dlSchedTable
  have unmarked : o.pre.dlCleared rx ((rx + 4) % 10240) = false := by
    rw [dlCleared_other (by omega) (by omega), tablePre]
    exact free (rx + 4) (by omega) (by omega) occasion
  have residue := sib2Start_residue occasion
  rw [DlSchedRes.sib2, tti_bc stepped, SfGrid.bcSchedResult]
  cases tti_dlOutcome stepped windows.ring with
  | nothing _ _ noSib2 =>
      rw [noSib2 occasion] at unmarked
      cases unmarked
  | sib1 _ sib1 => omega
  | sib2 _ _ _ _ _ _ bc => rw [bc]; rfl
  | rar _ _ _ _ _ noSib2 =>
      rw [noSib2] at occasion
      cases occasion
  | user _ _ _ _ _ _ _ _ _ _ _ noSib2 =>
      rw [noSib2] at occasion
      cases occasion

/-- In every run in which no TTI reserves the start of a SIB2 for something else, SIB2 goes out at
    every occasion. -/
theorem sib2_at_every_occasion {start : Nat} {inputs : List TtiCalls} {last : Sched} {log : List TtiLog}
    (ran : run start inputs = some (last, log)) (clear : ∀ o ∈ log, o.reachesSib2 = false) {o : TtiLog}
    (member : o ∈ log) (occasion : o.sfIdx = 1 ∧ o.sfn % 512 < 16 ∧ o.sfn % 4 = 0) :
    o.dl.sib2 = [⟨raDlSib2, false⟩] := by
  have all := Ticking.run_invariant
    (I := fun n s past => (Windows n s ∧ Sib2Free n s) ∧ ∀ o ∈ past, isSib2Start o.tx = true →
      o.dl.sib2 = [⟨raDlSib2, false⟩])
    (C := fun o => o.reachesSib2 = false)
    (by
      intro n s past c s' o ⟨⟨windows, free⟩, before⟩ stepped clear
      refine ⟨⟨tti_windows windows stepped, tti_sib2Free windows free stepped clear⟩, ?_⟩
      intro p inside start
      rcases List.mem_append.mp inside with old | new
      · exact before p old start
      · rw [List.mem_singleton.mp new] at start ⊢
        rw [tti_tx stepped] at start
        exact tti_sib2 windows free stepped start)
    ⟨⟨init_windows start, fun _ _ _ _ => rfl⟩, by simp⟩ ran clear
  apply all.2 o member
  simp only [TtiLog.sfIdx, TtiLog.sfn] at occasion
  simp only [isSib2Start, Bool.and_eq_true, decide_eq_true_eq]
  omega

/-- SIB2 in subframe 1 of frame 4, with nothing else to send. -/
theorem idle_sib2 : ∃ last log o, run 33 (idleTtis 5) = some (last, log) ∧ o ∈ log ∧ o.tx = 41 ∧
    o.dl.sib2 = [⟨raDlSib2, false⟩] := by
  have checked : ((run 33 (idleTtis 5)).any fun r => (r.2.all fun o => !o.reachesSib2) &&
      r.2.any fun o => decide (o.tx = 41)) = true := by decide +kernel
  obtain ⟨⟨last, log⟩, ran, facts⟩ := Option.any_eq_true .. |>.mp checked
  simp only [Bool.and_eq_true, List.all_eq_true, List.any_eq_true, Bool.not_eq_true',
    decide_eq_true_eq] at facts
  obtain ⟨clear, o, member, tx⟩ := facts
  refine ⟨last, log, o, ran, member, tx, sib2_at_every_occasion ran clear member ?_⟩
  simp only [TtiLog.sfIdx, TtiLog.sfn, tx]
  decide

/-- A user served at TTI 33 gets TTIs 38, 39 and 41, and at TTI 41 SIB2 is left out. -/
theorem user_data_over_sib2 : ∃ last log o, run 29 (⟨dlWaiting 0x46, []⟩ :: idleTtis 8) = some (last, log) ∧
    o ∈ log ∧ o.sfIdx = 1 ∧ o.sfn % 512 < 16 ∧ o.sfn % 4 = 0 ∧ o.dl.sib2 = [] := by
  have checked : ((run 29 (⟨dlWaiting 0x46, []⟩ :: idleTtis 8)).any fun r => r.2.any fun o =>
      decide (o.sfIdx = 1 ∧ o.sfn % 512 < 16 ∧ o.sfn % 4 = 0 ∧ o.dl.sib2 = [])) = true := by decide +kernel
  obtain ⟨⟨last, log⟩, ran, facts⟩ := Option.any_eq_true .. |>.mp checked
  obtain ⟨o, member, facts⟩ := List.any_eq_true.mp facts
  exact ⟨last, log, o, ran, member, of_decide_eq_true facts⟩

end Sched

end SonicaEnb
