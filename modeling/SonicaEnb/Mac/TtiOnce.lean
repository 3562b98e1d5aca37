import SonicaEnb.Mac.DlOnce
import SonicaEnb.Mac.IdleBlocks
import SonicaEnb.Mac.ResultRing
import SonicaEnb.Mac.UlAgain
import SonicaEnb.Mac.UlGrid
import SonicaEnb.Mac.DlWindow

/-! # A TTI scheduled twice

A TTI is never found in the ring of results, so a second call with the same
arguments schedules it again, on top of the first. Here is when this does no harm:
every block is empty, no timer goes on running, no response has grants left, and
nobody else gets a turn.
-/

namespace SonicaEnb

namespace Sched

/-- What a second call must leave as it is. -/
structure SameSchedule (s s' : Sched) : Prop where
  ueDb : s'.ueDb = s.ueDb
  dlSchedTable : s'.dlSchedTable = s.dlSchedTable
  ulSchedTable : s'.ulSchedTable = s.ulSchedTable
  pendingRars : s'.pendingRars = s.pendingRars
  sib1SfIdx : s'.sib1SfIdx = s.sib1SfIdx

theorem SameSchedule.refl (s : Sched) : SameSchedule s s := ⟨rfl, rfl, rfl, rfl, rfl⟩

/-- Scheduling the TTI once more has these results, and changes nothing. -/
def Repeats (s : Sched) (ttiRx : Nat) (dlFlag : Bool) (dl : DlSchedRes) (ul : UlSchedRes) : Prop :=
  ∃ s', s.scheduleTti ttiRx dlFlag = some (s', dl, ul) ∧ SameSchedule s s'

variable {s s' : Sched} {ttiRx : Nat} {dl : DlSchedRes} {ul : UlSchedRes}

/-! ## Uplink -/

/-- The uplink call, from the grid that the round over the UEs leaves. -/
theorem scheduleTti_uplink (s : Sched) (ttiRx : Nat) :
    s.scheduleTti ttiRx false =
      some ((s.clearUl ttiRx).store ttiRx (schedUsersUl (s.ulGrid ttiRx)).generateSchedResults.1,
        (schedUsersUl (s.ulGrid ttiRx)).generateSchedResults.2) := rfl

/-- An uplink call reserves nothing in the TTI it cleared. -/
theorem schedUsersUl_own (s : Sched) (ttiRx : Nat) :
    (schedUsersUl (s.ulGrid ttiRx)).ulSchedTable (ttiRx % 10240) = false := by
  have cleared : (s.ulGrid ttiRx).ulSchedTable (ttiRx % 10240) = false := Wheel.set_same _ _ _
  rcases SfGrid.schedUsersUl_cases (s.ulGrid ttiRx) with ⟨-, -, table⟩ | ⟨-, granted⟩
  · rw [table]
    exact cleared
  · have txDl : (s.ulGrid ttiRx).sf.ttiParams.ttiTxDl = ttiAdd ttiRx fddHarqDelayUlMs :=
      getSfSched_ttiTxDl _ _
    have txUl : (s.ulGrid ttiRx).sf.ttiParams.ttiTxUl =
        ttiAdd ttiRx (fddDelayUlNbMs + fddHarqDelayDlMs) := getSfSched_ttiTxUl _ _
    rw [granted.ulSchedTable, txDl, txUl, Wheel.set_other, Wheel.set_other]
    · exact cleared
    · unfold ttiAdd fddDelayUlNbMs fddHarqDelayDlMs
      omega
    · unfold ttiAdd fddHarqDelayUlMs
      omega

/-- A second uplink call begins where the first has ended, but for what the blocks took. -/
theorem ulGrid_again (s : Sched) (ttiRx : Nat) :
    ((s.clearUl ttiRx).store ttiRx (schedUsersUl (s.ulGrid ttiRx)).generateSchedResults.1).ulGrid ttiRx =
      (schedUsersUl (s.ulGrid ttiRx)).generateSchedResults.1 := by
  have own := Wheel.set_self (schedUsersUl_own s ttiRx)
  have frame := SfGrid.schedUsersUl_ulFrame (s.ulGrid ttiRx)
  generalize schedUsersUl (s.ulGrid ttiRx) = g at own frame
  have key : g.sf.ttiParams.ttiRx = ttiRx := by
    rw [frame.ttiParams]
    exact getSfSched_ttiRx _ _
  have found : ((s.clearUl ttiRx).store ttiRx g.generateSchedResults.1).getSfSched ttiRx = g.sf := by
    rw [getSfSched_of_key] <;> rw [store_sfScheds_same]
    · rfl
    · exact key
  rw [ulGrid, grid]
  have sf : (((s.clearUl ttiRx).store ttiRx g.generateSchedResults.1).clearUl ttiRx).getSfSched ttiRx =
      g.sf := found
  rw [sf]
  simp only [clearUl, store_toShared, SfGrid.generateSchedResults_eq, own]

/-- A second uplink call repeats the first exactly when the blocks of the subframe are empty and one
    round over the UEs settles everything. -/
theorem uplink_repeats_iff (ran : s.scheduleTti ttiRx false = some (s', dl, ul)) :
    Repeats s' ttiRx false dl ul ↔
      SfGrid.IdleAllocs (s.getSfSched ttiRx).dataAllocs s.ueDb ∧ SfGrid.UlSettles (s.ulGrid ttiRx) := by
  rw [scheduleTti_uplink] at ran
  cases ran
  rw [Repeats, scheduleTti_uplink, ulGrid_again]
  have frame := SfGrid.schedUsersUl_ulFrame (s.ulGrid ttiRx)
  have allocs : (s.getSfSched ttiRx).dataAllocs = (schedUsersUl (s.ulGrid ttiRx)).sf.dataAllocs :=
    frame.dataAllocs.symm
  have ues : SameUes SchedUe.dlView s.ueDb (schedUsersUl (s.ulGrid ttiRx)).ueDb := frame.ues
  rw [allocs, ← SfGrid.ulSettled_iff]
  generalize schedUsersUl (s.ulGrid ttiRx) = g at ues
  have again := SfGrid.schedUsersUl_ulFrame g.generateSchedResults.1
  constructor
  · rintro ⟨s', second, same⟩
    obtain ⟨rfl, results⟩ := Prod.mk.inj (Option.some.inj second)
    have sameAllocs : (schedUsersUl g.generateSchedResults.1).sf.dataAllocs = g.sf.dataAllocs :=
      again.dataAllocs
    obtain ⟨idle, ueDb⟩ : SfGrid.IdleAllocs g.sf.dataAllocs g.ueDb ∧
        (schedUsersUl g.generateSchedResults.1).ueDb = g.ueDb := by
      apply SfGrid.idle_of_again again.ues
      have round : SfGrid.dlDataSchedResult (schedUsersUl g.generateSchedResults.1).sf.dataAllocs
          (schedUsersUl g.generateSchedResults.1).ueDb =
            SfGrid.dlDataSchedResult g.sf.dataAllocs g.ueDb :=
        Prod.ext (congrArg (fun r => r.1.data) results) same.ueDb
      rwa [sameAllocs] at round
    have start : g.generateSchedResults.1 = g := by
      rw [SfGrid.generateSchedResults_eq, idle.same]
    refine ⟨idle.of_sameUes ues.symm, SfGrid.ulSettled_of_same ?_ ?_⟩
    · rw [start] at ueDb
      exact ueDb
    · have table := same.ulSchedTable
      rw [start] at table
      exact table
  · rintro ⟨idle, settled⟩
    have start : g.generateSchedResults.1 = g := by
      rw [SfGrid.generateSchedResults_eq, (idle.of_sameUes ues).same]
    rw [start, settled.same, start]
    exact ⟨_, rfl, rfl, rfl, rfl, rfl, rfl⟩

/-! ## Downlink -/

/-- The downlink run for `ttiRx` would send nothing. -/
structure DlStill (s : Sched) (ttiRx : Nat) : Prop where
  sibs : (s.dlGrid ttiRx).isSib1Tti = true ∨ (s.dlGrid ttiRx).isSib2Tti = true →
    (s.dlGrid ttiRx).taken = true
  rar : s.pendingRars = [] ∨ (s.dlGrid ttiRx).rarTtiFree = false
  users : (s.dlGrid ttiRx).openPick = none

theorem allocSibs_idle {k : Nat} {g : SfGrid}
    (taken : g.isSib1Tti = true ∨ g.isSib2Tti = true → g.taken = true) : allocSibs k g = (k, g) := by
  rcases SfGrid.allocSibs_cases k g with ⟨sib1, free, -⟩ | ⟨-, sib2, free, -⟩ | ⟨-, same⟩
  · rw [taken (.inl sib1)] at free
    cases free
  · rw [taken (.inr sib2)] at free
    cases free
  · exact same

theorem raDlSched_idle {pendingRars : List PendingRar} {g : SfGrid}
    (idle : pendingRars = [] ∨ g.rarTtiFree = false) :
    ∃ ret, ret ≠ .success ∧ raDlSched pendingRars g = some (ret, pendingRars, g) := by
  cases pendingRars with
  | nil => exact ⟨.dciCollision, by decide, rfl⟩
  | cons rar later =>
      have notFree : g.rarTtiFree = false := idle.resolve_left (by simp)
      refine ⟨.rbCollision, by decide, ?_⟩
      simp only [SfGrid.rarTtiFree, SfGrid.taken, Bool.and_eq_false_iff, Bool.not_eq_false',
        decide_eq_false_iff_not, Nat.not_lt] at notFree
      unfold raDlSched
      rcases notFree with (invalid | marked) | outside
      · simp [invalid]
      · simp [marked]
      · simp [outside]

/-- What the downlink call leaves when nothing is sent. -/
theorem DlStill.scheduleTti (still : DlStill s ttiRx) :
    ∃ s', s.scheduleTti ttiRx true = some (s', (s.dlGrid ttiRx).generateSchedResults.2) ∧
      s'.ueDb = (s.dlGrid ttiRx).generateSchedResults.1.ueDb ∧
      s'.dlSchedTable = (s.dlGrid ttiRx).dlSchedTable ∧ s'.ulSchedTable = s.ulSchedTable ∧
      s'.pendingRars = s.pendingRars ∧ s'.sib1SfIdx = s.sib1SfIdx := by
  obtain ⟨ret, notSent, rar⟩ := raDlSched_idle still.rar
  have ctrl : s.schedCtrl ttiRx = some ((s.clearDl ttiRx).store ttiRx (s.dlGrid ttiRx)) := by
    have sibs := allocSibs_idle (k := s.sib1SfIdx) still.sibs
    simp only [dlGrid, clearDl] at sibs rar
    simp only [schedCtrl, sibs, rar, notSent, if_false]
    rfl
  have found : ((s.clearDl ttiRx).store ttiRx (s.dlGrid ttiRx)).grid ttiRx = s.dlGrid ttiRx := by
    have key : (s.dlGrid ttiRx).sf.ttiParams.ttiRx = ttiRx := getSfSched_ttiRx _ _
    rw [grid, getSfSched_of_key] <;> rw [store_sfScheds_same]
    · rfl
    · exact key
  refine ⟨((s.clearDl ttiRx).store ttiRx (s.dlGrid ttiRx)).store ttiRx
    { s.dlGrid ttiRx with allocActive := (s.dlGrid ttiRx).openThrottle }.generateSchedResults.1,
    ?_, rfl, rfl, rfl, rfl, rfl⟩
  simp only [Sched.scheduleTti, if_true, ctrl, found, SfGrid.allocDlUsers_eq, SfGrid.schedUsersDl_open,
    still.users]
  rfl

variable {s₁ : Sched} {ret : AllocOutcome} {g₁ g₂ : SfGrid}

theorem scheduleTti_downlink (ran : s.scheduleTti ttiRx true = some (s', dl, ul)) :
    ∃ ret g₁ g₂, DlRun s ttiRx s' dl ret g₁ g₂ ∧ (dl, ul) = g₂.generateSchedResults.2 := by
  simp only [Sched.scheduleTti, if_true] at ran
  split at ran
  · cases ran
  · rename_i s₁ ctrl
    split at ran
    · cases ran
    · rename_i g₂ users
      cases ran
      obtain ⟨ret, g₁, run⟩ := DlRun.of_halves ctrl users
      exact ⟨ret, g₁, g₂, run, rfl⟩

/-- The users phase, whatever data the subframe holds already. -/
theorem DlRun.open_cases (run : DlRun s ttiRx s' dl ret g₁ g₂) :
    (g₁.openPick = none ∧
        ∃ ul, g₂ = { g₁ with ulSchedTable := ul, allocActive := g₁.openThrottle }) ∨
      ∃ user ue npdschTtis, g₁.openPick = some user ∧ g₁.ueDb.find? user = some ue ∧
        g₁.dlData ue = some npdschTtis ∧
        ∃ ul, g₂ = { g₁.served user ue npdschTtis with ulSchedTable := ul } := by
  obtain ⟨ul, users⟩ := run.users
  rcases SfGrid.schedUsersDl_open_cases users with
    ⟨none, left⟩ | ⟨user, ue, npdschTtis, picked, found, placed, left⟩
  · exact .inl ⟨none, ul, left⟩
  · exact .inr ⟨user, ue, npdschTtis, picked, found, placed, ul, left⟩

theorem dlGrid_takenTx (s : Sched) (ttiRx : Nat) :
    (s.dlGrid ttiRx).taken = s.dlSchedTable ((ttiRx + 4) % 10240) := by
  rw [SfGrid.taken, dlGrid_tx]
  exact Wheel.set_other _ _ (by omega)

/-- Where no response leaves the queue and none of its grants either, nothing was sent. -/
theorem raDlSched_same {pendingRars : List PendingRar} {g g' : SfGrid} {ret : AllocOutcome}
    (ran : raDlSched pendingRars g = some (ret, pendingRars, g')) :
    (pendingRars = [] ∨ g.rarTtiFree = false) ∧ g' = g := by
  rcases SfGrid.raDlSched_cases ran with
    ⟨idle, -, -, same⟩ | ⟨rar, later, info, more, alloc, shape, -, grants, -, ⟨-, -, left, -⟩ | ⟨-, -, left, -⟩⟩
  · exact ⟨idle, same⟩
  · rw [shape] at left
    exact absurd left (List.cons_ne_self rar later)
  · rw [shape, List.cons.injEq] at left
    have fewer := congrArg PendingRar.msg3Grant left.1
    rw [grants] at fewer
    exact absurd fewer (List.cons_ne_self info more)

/-- A SIB reserves its TTI. -/
theorem allocSibs_same {k : Nat} {g : SfGrid} (kept : (allocSibs k g).2.taken = true → g.taken = true) :
    (allocSibs k g).2 = g ∧ (g.isSib1Tti = true ∨ g.isSib2Tti = true → g.taken = true) := by
  rcases SfGrid.allocSibs_cases k g with ⟨-, free, sent⟩ | ⟨-, sib2, free, sent⟩ | ⟨blocked, unchanged⟩
  · rw [sent] at kept
    rw [kept (SfGrid.sendSib1_taken _ _)] at free
    cases free
  · rw [sent] at kept
    rw [kept (SfGrid.sendSib2_taken sib2)] at free
    cases free
  · rw [unchanged]
    exact ⟨rfl, blocked⟩

/-- What was reserved in the TTI sent stays so, and serving a UE reserves it. -/
theorem DlRun.taken_after (run : DlRun s ttiRx s' dl ret g₁ g₂)
    (before : g₁.taken = true ∨ g₁.openPick ≠ none) :
    s'.dlSchedTable ((ttiRx + 4) % 10240) = true := by
  have txOf : g₁.sf.ttiParams.ttiTxDl = (ttiRx + 4) % 10240 := by
    rw [run.ttiParams.1]
    exact getSfSched_ttiTxDl _ _
  rw [run.dlSchedTable, ← txOf]
  rcases run.open_cases with ⟨none, ul, rfl⟩ | ⟨user, ue, npdschTtis, -, -, -, ul, rfl⟩
  · exact before.resolve_right fun some => some none
  · exact Wheel.mark_of_marked _ _ (Wheel.set_same _ _ _)

/-- A downlink run that leaves the table and the responses as they are has sent nothing. -/
theorem DlRun.still_of_same (run : DlRun s ttiRx s' dl ret g₁ g₂)
    (table : s'.dlSchedTable = s.dlSchedTable) (pending : s'.pendingRars = s.pendingRars) :
    DlStill s ttiRx := by
  have rar := run.rar
  rw [pending] at rar
  obtain ⟨idle, noRar⟩ := raDlSched_same rar
  have kept : g₁.taken = true ∨ g₁.openPick ≠ none → (s.dlGrid ttiRx).taken = true := by
    intro before
    rw [dlGrid_takenTx, ← table]
    exact run.taken_after before
  obtain ⟨noSib, sibs⟩ : (s.afterSibs ttiRx).2 = s.dlGrid ttiRx ∧
      ((s.dlGrid ttiRx).isSib1Tti = true ∨ (s.dlGrid ttiRx).isSib2Tti = true →
        (s.dlGrid ttiRx).taken = true) :=
    allocSibs_same fun taken => kept (.inl (noRar ▸ taken))
  rw [noSib] at idle noRar
  refine ⟨sibs, idle, ?_⟩
  rw [← noRar]
  by_contra picked
  have closed := SfGrid.not_dlUserTtiFree (.inl (kept (.inr picked)))
  rw [noRar] at picked
  exact picked (SfGrid.openPick_none closed)

theorem generateSchedResults_congr {g g' : SfGrid} (sf : g'.sf = g.sf) (ueDb : g'.ueDb = g.ueDb) :
    g'.generateSchedResults.2 = g.generateSchedResults.2 := by
  simp only [SfGrid.generateSchedResults, sf, ueDb]

/-- A second downlink call repeats the first exactly when it sends nothing, finds the TTI that it
    clears unreserved, and all blocks of the subframe are empty. -/
theorem DlRun.repeats_iff (run : DlRun s ttiRx s₁ dl ret g₁ g₂)
    (results : (dl, ul) = g₂.generateSchedResults.2) :
    Repeats s₁ ttiRx true dl ul ↔ DlStill s₁ ttiRx ∧ s₁.dlSchedTable (ttiRx % 10240) = false ∧
      SfGrid.IdleAllocs g₂.sf.dataAllocs g₂.ueDb := by
  have sf : (s₁.dlGrid ttiRx).sf = g₂.sf := run.ownSf
  have left : s₁.ueDb = (SfGrid.dlDataSchedResult g₂.sf.dataAllocs g₂.ueDb).2 := by rw [run.shared]
  constructor
  · rintro ⟨s₂, second, same⟩
    obtain ⟨ret', g₁', g₂', run', -⟩ := scheduleTti_downlink second
    have still := run'.still_of_same same.dlSchedTable same.pendingRars
    obtain ⟨s₂', second', ueDb, table, -⟩ := still.scheduleTti
    rw [second, Option.some.injEq, Prod.mk.injEq] at second'
    obtain ⟨rfl, results'⟩ := second'
    refine ⟨still, ?_, ?_⟩
    · rw [← same.dlSchedTable, table]
      exact Wheel.set_same _ _ _
    · rw [results] at results'
      have data := congrArg (fun r => r.1.data) results'
      have again := same.ueDb
      rw [ueDb] at again
      simp only [SfGrid.generateSchedResults, sf] at data again
      change (SfGrid.dlDataSchedResult g₂.sf.dataAllocs s₁.ueDb).2 = s₁.ueDb at again
      change _ = (SfGrid.dlDataSchedResult g₂.sf.dataAllocs s₁.ueDb).1 at data
      rw [left] at data again
      exact (SfGrid.idle_of_again (.refl _) (Prod.ext data.symm again)).1
  · rintro ⟨still, own, idle⟩
    rw [idle.same] at left
    obtain ⟨s₂, second, ueDb, table, ulTable, pending, counter⟩ := still.scheduleTti
    have ues : (s₁.dlGrid ttiRx).ueDb = g₂.ueDb := left
    refine ⟨s₂, ?_, ?_, ?_, ulTable, pending, counter⟩
    · rw [second, results, generateSchedResults_congr sf ues]
    · rw [ueDb, SfGrid.generateSchedResults_eq, sf, ues, idle.same, left]
    · rw [table]
      exact Wheel.set_self own

/-! ### From the state before the first call -/

/-- The UE that a downlink call serves, whatever data the subframe holds already. -/
def openDue (s : Sched) (ttiRx : Nat) : Option Nat :=
  if s.usersOpen ttiRx then (s.dlGrid ttiRx).openTurns.find? (s.dlGrid ttiRx).wantsDl else none

/-- One downlink call settles everything. -/
structure DlSettles (s : Sched) (ttiRx : Nat) : Prop where
  /-- A UE that is served gets an empty block, which does not come round to the TTI received. -/
  served : ∀ user ue npdschTtis, s.openDue ttiRx = some user → s.ueDb.find? user = some ue →
    (s.dlGrid ttiRx).dlData ue = some npdschTtis →
      ue.EmptyBlock (SfGrid.iSfFor ue.getRequestedDlBytes.2) ∧ ttiRx % 10240 ∉ npdschTtis
  /-- Where none is, a response that is due has one grant and not more. -/
  response : s.openDue ttiRx = none → ∀ rar, s.rarDue ttiRx = some rar → rar.msg3Grant.length = 1
  /-- And the throttle is not released in front of a UE that waits. -/
  released : s.openDue ttiRx = none → s.usersOpen ttiRx = true → s.allocActive = true →
    (s.dlGrid ttiRx).throttleOver = true →
      ∀ user ∈ (s.dlGrid ttiRx).dlOpen, (s.dlGrid ttiRx).wantsDl user = false

theorem DlRun.openPick (run : DlRun s ttiRx s' dl ret g₁ g₂) : g₁.openPick = s.openDue ttiRx := by
  rw [SfGrid.openPick, run.usersOpen, run.turns.openTurns, run.turns.wantsDl]
  rfl

/-- Broadcast and random access reserve nothing in the TTI received. -/
theorem DlRun.own_free (run : DlRun s ttiRx s' dl ret g₁ g₂) :
    g₁.dlSchedTable (ttiRx % 10240) = false := by
  have cleared : (s.dlGrid ttiRx).dlSchedTable (ttiRx % 10240) = false := Wheel.set_same _ _ _
  have tx := dlGrid_tx s ttiRx
  have other : ttiRx % 10240 ≠ (ttiRx + 4) % 10240 := by omega
  rcases run.rar_cases with
    ⟨-, -, -, rfl⟩ | ⟨rar, later, info, more, alloc, -, -, -, -, -, -, ⟨-, -, -, rfl⟩ | ⟨-, -, -, rfl⟩⟩
  · rw [afterSibs, ← dlGrid]
    rcases SfGrid.allocSibs_cases s.sib1SfIdx (s.dlGrid ttiRx) with
      ⟨-, -, sent⟩ | ⟨-, sib2, -, sent⟩ | ⟨-, same⟩
    · rw [sent]
      change (s.dlGrid ttiRx).dlSchedTable.set _ true (ttiRx % 10240) = false
      rw [tx, Wheel.set_other _ _ other]
      exact cleared
    · have occasion : (ttiRx + 4) % 20 = 1 := by
        simp only [SfGrid.isSib2Tti, isSib2Sf, tx, Bool.and_eq_true, beq_iff_eq] at sib2
        omega
      have apart : ttiRx % 10240 ∉ sib2Ttis ((ttiRx + 4) % 10240) := by
        rw [sib2Ttis_mod occasion]
        intro member
        obtain ⟨a, inside, same⟩ := List.mem_map.mp member
        have near := (mem_sib2Times occasion).mp inside
        omega
      rw [sent]
      change (s.dlGrid ttiRx).dlSchedTable.mark (sib2Ttis _) (ttiRx % 10240) = false
      rw [tx, Wheel.mark_apply, cleared]
      simp [apart]
    · rw [same]
      exact cleared
  · have near := rarTx_le (ttiRx + 4)
    change ((s.dlGrid ttiRx).dlSchedTable.set _ true).set (rarTxTti _) true (ttiRx % 10240) = false
    rw [SfGrid.sendRar, tx, rarTxTti_mod, Wheel.set_other _ _ (by omega), Wheel.set_other _ _ other]
    exact cleared
  · exact cleared

/-- Where broadcast has a turn, the TTI is reserved afterwards. -/
theorem DlRun.sibs_taken (run : DlRun s ttiRx s' dl ret g₁ g₂)
    (sib : (s.dlGrid ttiRx).isSib1Tti = true ∨ (s.dlGrid ttiRx).isSib2Tti = true) :
    g₁.taken = true := by
  rcases SfGrid.raDlSched_cases run.rar with
    ⟨-, -, -, rfl⟩ | ⟨rar, later, info, more, alloc, -, free, -⟩
  · rw [afterSibs, ← dlGrid]
    rcases SfGrid.allocSibs_cases s.sib1SfIdx (s.dlGrid ttiRx) with
      ⟨-, -, sent⟩ | ⟨-, sib2, -, sent⟩ | ⟨blocked, same⟩
    · rw [sent]
      exact SfGrid.sendSib1_taken _ _
    · rw [sent]
      exact SfGrid.sendSib2_taken sib2
    · rw [same]
      exact blocked sib
  · obtain ⟨-, noSib1, noSib2⟩ := afterSibs_of_free free
    rw [noSib1, noSib2] at sib
    rcases sib with sib | sib <;> cases sib

theorem DlRun.rar_idle (run : DlRun s ttiRx s' dl ret g₁ g₂) (none : s.rarDue ttiRx = none) :
    s.pendingRars = [] ∨ g₁.rarTtiFree = false := by
  rcases SfGrid.raDlSched_cases run.rar with
    ⟨idle, -, -, rfl⟩ | ⟨rar, later, info, more, alloc, pending, free, -⟩
  · exact idle
  · obtain ⟨unchanged, noSib1, noSib2⟩ := afterSibs_of_free free
    rw [unchanged] at free
    simp [rarDue, free, noSib1, noSib2, pending] at none

theorem DlStill.of_taken (taken : (s.dlGrid ttiRx).taken = true) : DlStill s ttiRx where
  sibs _ := taken
  rar := .inr (by simp [SfGrid.rarTtiFree, taken])
  users := SfGrid.openPick_none (SfGrid.not_dlUserTtiFree (.inl taken))

/-- The grid in front of a second downlink call, where the first has served nobody. -/
theorem DlRun.dlGrid_unserved (run : DlRun s ttiRx s₁ dl ret g₁ g₂) {ul : Wheel}
    (left : g₂ = { g₁ with ulSchedTable := ul, allocActive := g₁.openThrottle })
    (idle : SfGrid.IdleAllocs g₂.sf.dataAllocs g₂.ueDb) :
    s₁.dlGrid ttiRx =
      { g₁ with ulSchedTable := s₁.ulSchedTable, allocActive := g₁.openThrottle } := by
  have ues : s₁.ueDb = g₂.ueDb := by rw [run.shared, idle.same]
  have sf : (s₁.clearDl ttiRx).getSfSched ttiRx = g₁.sf := by
    have own := run.ownSf
    rw [left] at own
    exact own
  have table : s₁.dlSchedTable = g₁.dlSchedTable := by rw [run.dlSchedTable, left]
  have last : s₁.lastAlloc = g₁.lastAlloc := by rw [run.lastAlloc, left]
  have active : s₁.allocActive = g₁.openThrottle := by rw [run.allocActive, left]
  rw [left] at ues
  rw [dlGrid, grid, sf]
  simp only [clearDl, table, Wheel.set_self run.own_free, ues, last, active]

end Sched

/-- Where a round of `sched_users_dl` has served nobody, a second one serves somebody exactly when
    the first has released the throttle in front of a UE that waits. -/
theorem SfGrid.openPick_again {g : SfGrid} (ul : Wheel) (nobody : g.openPick = none) :
    { g with ulSchedTable := ul, allocActive := g.openThrottle }.openPick = none ↔
      (g.dlUserTtiFree = true → g.allocActive = true → g.throttleOver = true →
        ∀ user ∈ g.dlOpen, g.wantsDl user = false) := by
  have shape : { g with ulSchedTable := ul, allocActive := g.openThrottle }.openPick =
      if g.dlUserTtiFree then
        (if g.openThrottle then if g.throttleOver then g.dlOpen.tail else [] else g.dlOpen).find?
          g.wantsDl
      else none := rfl
  rw [shape]
  unfold openPick openTurns at nobody
  unfold openThrottle
  cases free : g.dlUserTtiFree with
  | false => simp
  | true =>
      simp only [free, if_true] at nobody
      cases active : g.allocActive with
      | false =>
          simp only [active, Bool.false_eq_true, if_false] at nobody
          simp [nobody]
      | true =>
          cases elapsed : g.throttleOver with
          | false => simp
          | true =>
              cases turns : g.dlOpen with
              | nil => simp
              | cons user rest => simp

namespace Sched

variable {s s' s₁ : Sched} {ttiRx : Nat} {dl : DlSchedRes} {ul : UlSchedRes} {ret : AllocOutcome}
  {g₁ g₂ : SfGrid}

/-- Where the first downlink call has served nobody, a second finds a response to send exactly when
    the first has left grants. -/
theorem DlRun.rar_again (run : DlRun s ttiRx s₁ dl ret g₁ g₂) :
    s₁.pendingRars = [] ∨ g₁.rarTtiFree = false ↔
      ∀ rar, s.rarDue ttiRx = some rar → rar.msg3Grant.length = 1 := by
  rcases run.rar_cases with
    ⟨notDue, -, pending, -⟩ | ⟨rar, later, info, more, alloc, due, -, grants, -, -, free, last | part⟩
  · rw [notDue, pending]
    exact iff_of_true (run.rar_idle notDue) (by simp)
  · obtain ⟨rfl, -, -, sent⟩ := last
    have taken : g₁.taken = true := by
      rw [sent]
      exact (SfGrid.reserveRar_marks _).1
    refine iff_of_true (.inr (by simp [SfGrid.rarTtiFree, taken])) ?_
    intro rar' due'
    rw [due, Option.some.injEq] at due'
    rw [← due', grants]
    rfl
  · obtain ⟨several, -, pending, sent⟩ := part
    have stillFree : g₁.rarTtiFree = true := by
      rw [sent]
      exact free
    rw [pending, stillFree]
    refine iff_of_false (by simp) ?_
    intro single
    have one := single rar due
    rw [grants, List.length_cons] at one
    have := List.length_pos_iff.mpr several
    omega

/-- Where the first downlink call has served nobody, the second sends nothing exactly when no
    response has grants left and the throttle was not released in front of a UE that waits. -/
theorem DlRun.still_iff (run : DlRun s ttiRx s₁ dl ret g₁ g₂) (nobody : s.openDue ttiRx = none)
    (again : s₁.dlGrid ttiRx =
      { g₁ with ulSchedTable := s₁.ulSchedTable, allocActive := g₁.openThrottle }) :
    DlStill s₁ ttiRx ↔ DlSettles s ttiRx := by
  have sib1 : g₁.isSib1Tti = (s.dlGrid ttiRx).isSib1Tti := by
    simp only [SfGrid.isSib1Tti, run.frame.ttiParams]
  have sib2 : g₁.isSib2Tti = (s.dlGrid ttiRx).isSib2Tti := by
    simp only [SfGrid.isSib2Tti, run.frame.ttiParams]
  have users : (s₁.dlGrid ttiRx).openPick = none ↔
      (s.usersOpen ttiRx = true → s.allocActive = true → (s.dlGrid ttiRx).throttleOver = true →
        ∀ user ∈ (s.dlGrid ttiRx).dlOpen, (s.dlGrid ttiRx).wantsDl user = false) := by
    rw [again, SfGrid.openPick_again _ (run.openPick.trans nobody), run.usersOpen, run.turns.dlOpen,
      run.turns.wantsDl, run.turns.throttleOver, run.turns.allocActive]
    rfl
  have rar : s₁.pendingRars = [] ∨ (s₁.dlGrid ttiRx).rarTtiFree = false ↔
      ∀ rar, s.rarDue ttiRx = some rar → rar.msg3Grant.length = 1 := by
    rw [again]
    exact run.rar_again
  constructor
  · intro still
    refine ⟨?_, fun _ => rar.mp still.rar, fun _ => users.mp still.users⟩
    intro user ue npdschTtis picked
    rw [nobody] at picked
    cases picked
  · intro settles
    refine ⟨?_, rar.mpr (settles.response nobody), users.mpr (settles.released nobody)⟩
    rw [again]
    change g₁.isSib1Tti = true ∨ g₁.isSib2Tti = true → g₁.taken = true
    rw [sib1, sib2]
    exact run.sibs_taken

/-- What a downlink call that serves a UE has in its subframe and its table. -/
theorem DlRun.served_open (run : DlRun s ttiRx s₁ dl ret g₁ g₂) {user : Nat} {ue : SchedUe}
    {npdschTtis : List Nat} {table : Wheel} (picked : g₁.openPick = some user)
    (found : g₁.ueDb.find? user = some ue) (placed : g₁.dlData ue = some npdschTtis)
    (left : g₂ = { g₁.served user ue npdschTtis with ulSchedTable := table }) :
    s.openDue ttiRx = some user ∧ s.ueDb.find? user = some ue ∧
      (s.dlGrid ttiRx).dlData ue = some npdschTtis ∧
      (s₁.dlSchedTable (ttiRx % 10240) = false ↔ ttiRx % 10240 ∉ npdschTtis) ∧
      DlStill s₁ ttiRx ∧
      (SfGrid.IdleAllocs g₂.sf.dataAllocs g₂.ueDb ↔
        SfGrid.IdleAllocs (s.getSfSched ttiRx).dataAllocs s.ueDb ∧
          ue.EmptyBlock (SfGrid.iSfFor ue.getRequestedDlBytes.2)) := by
  have txOf : g₁.sf.ttiParams.ttiTxDl = (ttiRx + 4) % 10240 := by
    rw [run.ttiParams.1]
    exact getSfSched_ttiTxDl _ _
  have marks : s₁.dlSchedTable = (g₁.dlSchedTable.set ((ttiRx + 4) % 10240) true).mark npdschTtis := by
    rw [run.dlSchedTable, left, ← txOf]
    rfl
  obtain ⟨shared, params⟩ := ctrl_of_free run.rar (SfGrid.openPick_some picked).1
  rw [run.ueDb] at found
  refine ⟨run.openPick.symm.trans picked, found, ?_, ?_, ?_, ?_⟩
  · rw [← placed]
    simp only [SfGrid.dlData, shared, params]
  · rw [marks, Wheel.mark_apply, Wheel.set_other _ _ (by omega), run.own_free]
    simp
  · apply DlStill.of_taken
    rw [dlGrid_takenTx, marks]
    exact Wheel.mark_of_marked _ _ (Wheel.set_same _ _ _)
  · have ues : SameUes SchedUe.dlView s.ueDb g₂.ueDb := by
      rw [left, ← run.ueDb]
      exact .modify _ _ fun ue _ => ue.ulBufferState_dlView 3 70 false
    have allocs : g₂.sf.dataAllocs = (s.getSfSched ttiRx).dataAllocs ++
        [⟨user, SfGrid.iSfFor ue.getRequestedDlBytes.2, npdschTtis⟩] := by
      rw [left, ← ctrl_dataAllocs run.rar]
      rfl
    have view : SfGrid.IdleAllocs g₂.sf.dataAllocs g₂.ueDb ↔ SfGrid.IdleAllocs g₂.sf.dataAllocs s.ueDb :=
      ⟨fun idle => idle.of_sameUes ues.symm, fun idle => idle.of_sameUes ues⟩
    rw [view, allocs]
    unfold SfGrid.IdleAllocs
    rw [List.forall_mem_append, List.forall_mem_singleton, found]
    simp only [Option.some.injEq, forall_eq']

/-- A second downlink call repeats the first exactly when the blocks of the subframe are empty and
    one call settles everything. -/
theorem downlink_repeats_iff (ran : s.scheduleTti ttiRx true = some (s₁, dl, ul)) :
    Repeats s₁ ttiRx true dl ul ↔
      SfGrid.IdleAllocs (s.getSfSched ttiRx).dataAllocs s.ueDb ∧ DlSettles s ttiRx := by
  obtain ⟨ret, g₁, g₂, run, results⟩ := scheduleTti_downlink ran
  rw [run.repeats_iff results]
  rcases run.open_cases with ⟨none, table, left⟩ | ⟨user, ue, npdschTtis, picked, found, placed, table, left⟩
  · have nobody := run.openPick.symm.trans none
    have own : s₁.dlSchedTable (ttiRx % 10240) = false := by
      rw [run.dlSchedTable, left]
      exact run.own_free
    have allocs : g₂.sf.dataAllocs = (s.getSfSched ttiRx).dataAllocs := by
      rw [← ctrl_dataAllocs run.rar, left]
    have ues : g₂.ueDb = s.ueDb := by
      rw [left]
      exact run.ueDb
    rw [← allocs, ← ues]
    constructor
    · rintro ⟨still, -, idle⟩
      exact ⟨idle, (run.still_iff nobody (run.dlGrid_unserved left idle)).mp still⟩
    · rintro ⟨idle, settles⟩
      exact ⟨(run.still_iff nobody (run.dlGrid_unserved left idle)).mpr settles, own, idle⟩
  · obtain ⟨due, known, data, own, still, idle⟩ := run.served_open picked found placed left
    rw [own, idle]
    constructor
    · rintro ⟨-, apart, old, empty⟩
      refine ⟨old, ⟨?_, ?_, ?_⟩⟩
      · intro user' ue' npdschTtis' due' known' data'
        rw [due] at due'
        cases due'
        rw [known] at known'
        cases known'
        rw [data] at data'
        cases data'
        exact ⟨empty, apart⟩
      · intro nobody
        rw [due] at nobody
        cases nobody
      · intro nobody
        rw [due] at nobody
        cases nobody
    · rintro ⟨old, settles⟩
      obtain ⟨empty, apart⟩ := settles.served user ue npdschTtis due known data
      exact ⟨still, apart, old, empty⟩

end Sched

namespace CarrierSched

/-! ## The call -/

/-- After a first call that answered `r`, a second one with the same arguments answers `r` and
    leaves the UEs, the tables, the pending responses and the SIB1 counter. -/
def ScheduledOnce (s : CarrierSched) (ttiRx : Nat) (dlFlag : Bool) (r : SfSchedResult) : Prop :=
  ∃ s', s.generateTtiResult ttiRx dlFlag = some (s', r) ∧ Sched.SameSchedule s.toSched s'.toSched

/-- The TTI is in the ring, or it is the one under which the ring keeps everything; or the blocks of
    its subframe are empty and one call settles the rest. -/
def Quiet (s : CarrierSched) (ttiRx : Nat) (dlFlag : Bool) : Prop :=
  s.Stored ttiRx ∨ ttiRx = sfResultTtiRx ∨
    (SfGrid.IdleAllocs (s.getSfSched ttiRx).dataAllocs s.ueDb ∧
      if dlFlag then s.DlSettles ttiRx else SfGrid.UlSettles (s.ulGrid ttiRx))

/-- For every state, TTI and flag with which a first call returns, a second one repeats it if and
    only if the state was quiet. -/
theorem scheduled_once_iff {s s₁ : CarrierSched} {ttiRx : Nat} {dlFlag : Bool} {r : SfSchedResult}
    (first : s.generateTtiResult ttiRx dlFlag = some (s₁, r)) :
    s₁.ScheduledOnce ttiRx dlFlag r ↔ s.Quiet ttiRx dlFlag := by
  by_cases stored : s.Stored ttiRx
  · have answer := first
    rw [generateTtiResult_stored stored, Option.some.injEq, Prod.mk.injEq] at answer
    obtain ⟨rfl, -⟩ := answer
    exact iff_of_true ⟨s, first, .refl _⟩ (.inl stored)
  · obtain ⟨dl, ul, scheduled, rfl, kept⟩ := generateTtiResult_cases stored first
    by_cases default : ttiRx = sfResultTtiRx
    · have storedNow : s₁.Stored ttiRx := by
        rw [Stored, kept, default]
        rfl
      have second : s₁.generateTtiResult ttiRx dlFlag = some (s₁, s₁.getNextSfResult ttiRx) :=
        generateTtiResult_stored storedNow
      rw [kept] at second
      exact iff_of_true ⟨s₁, second, .refl _⟩ (.inr (.inl default))
    · have notStored : ¬ s₁.Stored ttiRx := by
        rw [Stored, kept]
        exact fun same => default same.symm
      have repeats : s₁.ScheduledOnce ttiRx dlFlag { dlSchedResult := dl, ulSchedResult := ul } ↔
          s₁.Repeats ttiRx dlFlag dl ul := by
        constructor
        · rintro ⟨s₂, second, same⟩
          obtain ⟨dl', ul', scheduled', shape, -⟩ := generateTtiResult_cases notStored second
          cases shape
          exact ⟨s₂.toSched, scheduled', same⟩
        · rintro ⟨sched, scheduled', same⟩
          obtain ⟨s₂, second, rfl⟩ := generateTtiResult_of_schedule notStored scheduled'
          exact ⟨s₂, second, same⟩
      have quiet : s.Quiet ttiRx dlFlag ↔
          SfGrid.IdleAllocs (s.getSfSched ttiRx).dataAllocs s.ueDb ∧
            if dlFlag then s.DlSettles ttiRx else SfGrid.UlSettles (s.ulGrid ttiRx) := by
        rw [Quiet, or_iff_right stored, or_iff_right default]
      rw [repeats, quiet]
      cases dlFlag with
      | true => exact Sched.downlink_repeats_iff scheduled
      | false => exact Sched.uplink_repeats_iff scheduled

/-- The SIB1 of TX TTI 14 is sent once, however often the TTI is asked for. -/
theorem sib1_scheduled_once :
    ∃ s₁ r, generateTtiResult { toSched := Sched.init } 10 true = some (s₁, r) ∧
      r.dlSchedResult.bc ≠ [] ∧ s₁.ScheduledOnce 10 true r := by
  have checked : ((generateTtiResult { toSched := Sched.init } 10 true).any fun a =>
      !a.2.dlSchedResult.bc.isEmpty) = true := by decide +kernel
  obtain ⟨⟨s₁, r⟩, ran, sent⟩ := Option.any_eq_true .. |>.mp checked
  refine ⟨s₁, r, ran, by simpa using sent, ?_⟩
  apply (scheduled_once_iff ran).mpr
  have closed : Sched.init.usersOpen 10 = false := by decide
  have nobody : Sched.init.openDue 10 = none := by rw [Sched.openDue, closed]; rfl
  have noResponse : Sched.init.rarDue 10 = none := by decide
  have fresh : (Sched.init.getSfSched 10).dataAllocs = [] := by decide
  refine .inr (.inr ⟨?_, ?_, ?_, ?_⟩)
  · intro a member
    change a ∈ (Sched.init.getSfSched 10).dataAllocs at member
    rw [fresh] at member
    cases member
  · intro user ue npdschTtis picked
    rw [nobody] at picked
    cases picked
  · intro _ rar due
    rw [noResponse] at due
    cases due
  · intro _ open'
    rw [closed] at open'
    cases open'

/-- A hundred bytes for a UE: the second call for TX TTI 16 lists what the first has left of them. -/
theorem block_scheduled_twice :
    ∃ s₁ r, generateTtiResult { toSched := Sched.waiting 0x46 100 } 12 true = some (s₁, r) ∧
      ¬ s₁.ScheduledOnce 12 true r := by
  have checked : ((generateTtiResult { toSched := Sched.waiting 0x46 100 } 12 true).any fun a =>
      (a.1.generateTtiResult 12 true).all fun b => decide (b.2 ≠ a.2)) = true := by decide +kernel
  obtain ⟨⟨s₁, r⟩, ran, differs⟩ := Option.any_eq_true .. |>.mp checked
  refine ⟨s₁, r, ran, ?_⟩
  rintro ⟨s₂, second, -⟩
  rw [second, Option.all_some, decide_eq_true_eq] at differs
  exact differs rfl

end CarrierSched

end SonicaEnb
