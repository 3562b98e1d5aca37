import SonicaEnb.Lib.Walk
import SonicaEnb.Mac.UlGrid

/-! # The downlink table over whole runs

Five writers mark one table: SIB1, SIB2, RARs, users, and the statement that clears
the entry of the TTI received. Seen in front of the TTI sent at `x`, whoever marked
a TTI at or after `x` can be named, and from that it follows that no SIB1 TTI is
ever marked ahead, that a user never finds a mark in the way of its data, and that
all marks lie in a short window.
-/

namespace SonicaEnb

/-! ## What the walks find -/

/-- A subframe that can carry NPDSCH data: valid and without SIB1. -/
def isNpdschSf (tti : Nat) : Bool := isValidDlSf tti && decide (tti % 20 ≠ 14)

theorem isNpdschSf_iff (tti : Nat) : isNpdschSf tti = true ↔
    (tti % 10 ≠ 0 ∧ tti % 10 ≠ 5 ∧ ¬ (tti % 10 = 9 ∧ tti / 10 % 2 = 0)) ∧ tti % 20 ≠ 14 := by
  rw [isNpdschSf, Bool.and_eq_true, isValidDlSf_iff, decide_eq_true_eq]

theorem isNpdschSf_periodic (tti : Nat) : isNpdschSf (tti % 20) = isNpdschSf tti := by
  rw [Bool.eq_iff_iff, isNpdschSf_iff, isNpdschSf_iff]
  omega

theorem isValidDlSf_periodic (tti : Nat) : isValidDlSf (tti % 20) = isValidDlSf tti := by
  rw [Bool.eq_iff_iff, isValidDlSf_iff, isValidDlSf_iff]
  omega

theorem isSib1Sf_mod (tti : Nat) :
    isSib1Sf (tti % 10240 / 10) (tti % 10240 % 10) = decide (tti % 20 = 14) := by
  rw [Bool.eq_iff_iff, isSib1Sf_iff (Nat.mod_lt _ (by omega)), decide_eq_true_eq]
  omega

/-- The test of the reservation loop, in absolute time. -/
theorem isNpdschSf_mod (tti : Nat) :
    (isValidDlSf (tti % 10240) && !isSib1Sf (tti % 10240 / 10) (tti % 10240 % 10)) = isNpdschSf tti := by
  rw [isValidDlSf_mod, isSib1Sf_mod, isNpdschSf, decide_not]

/-- Wherever a user starts, its subframes are found within nine TTIs. -/
theorem npdsch_room (tti : Nat) : 3 ≤ ((List.range' tti 9).filter isNpdschSf).length := by
  rw [count_periodic isNpdschSf_periodic]
  have all : ∀ r < 20, 3 ≤ ((List.range 9).filter fun i => isNpdschSf ((r + i) % 20)).length := by decide
  exact all (tti % 20) (Nat.mod_lt _ (by omega))

/-- The eight subframes of a SIB2 are all valid subframes of its eleven TTIs. -/
theorem sib2_room {tti : Nat} (occasion : tti % 20 = 1) :
    ((List.range' tti 11).filter isValidDlSf).length = 8 := by
  rw [count_periodic isValidDlSf_periodic, occasion]
  decide

/-- The reservation loop takes the first subframes that can carry data and are not reserved. -/
theorem reserveNpdsch_eq {table : Wheel} {span fuel n tti : Nat} (turn : span ≤ 10240)
    (fuelled : span ≤ fuel)
    (room : n ≤ ((List.range' tti span).filter fun a => isNpdschSf a && !table (a % 10240)).length) :
    reserveNpdsch fuel table (tti % 10240) n =
      some ((firstTimes (fun a => isNpdschSf a && !table (a % 10240)) tti span n).map (· % 10240)) := by
  induction span generalizing fuel n tti table with
  | zero =>
      have none : n = 0 := by simpa using room
      subst none
      simp [reserveNpdsch]
  | succ span ih =>
      obtain ⟨fuel, rfl⟩ : ∃ k, fuel = k + 1 := ⟨fuel - 1, by omega⟩
      cases n with
      | zero => simp [reserveNpdsch]
      | succ n =>
          have test : (isValidDlSf (tti % 10240) && !table (tti % 10240) &&
              !isSib1Sf (tti % 10240 / 10) (tti % 10240 % 10)) =
                (isNpdschSf tti && !table (tti % 10240)) := by
            rw [Bool.and_right_comm, isNpdschSf_mod]
          rw [reserveNpdsch, test, Nat.mod_add_mod]
          cases suits : isNpdschSf tti && !table (tti % 10240) with
          | false =>
              rw [firstTimes_skip suits, if_neg (by simp)]
              exact ih (by omega) (by omega) (by simpa [List.range'_succ, suits] using room)
          | true =>
              -- the entry just marked is not met again within one turn
              have same : ∀ a ∈ List.range' (tti + 1) span,
                  (isNpdschSf a && !(table.set (tti % 10240) true) (a % 10240)) =
                    (isNpdschSf a && !table (a % 10240)) := by
                intro a member
                have range := List.mem_range'_1.mp member
                rw [Wheel.set_other _ _ (by omega)]
              have rest := List.filter_congr same
              rw [firstTimes_take suits, if_pos rfl, List.map_cons, ih (by omega) (by omega)]
              · rw [firstTimes, rest]
                rfl
              · rw [rest]
                simpa [List.range'_succ, suits] using room

/-- Where nothing is in the way, the loop takes the first subframes that can carry data. -/
theorem reserveNpdsch_of_free {table : Wheel} {span fuel n tti : Nat} (turn : span ≤ 10240)
    (fuelled : span ≤ fuel) (room : n ≤ ((List.range' tti span).filter isNpdschSf).length)
    (free : ∀ a, tti ≤ a → a < tti + span → table (a % 10240) = false) :
    reserveNpdsch fuel table (tti % 10240) n =
      some ((firstTimes isNpdschSf tti span n).map (· % 10240)) := by
  have same : ∀ a ∈ List.range' tti span, (isNpdschSf a && !table (a % 10240)) = isNpdschSf a := by
    intro a member
    have range := List.mem_range'_1.mp member
    rw [free a range.1 range.2]
    simp
  have all := List.filter_congr same
  rw [reserveNpdsch_eq turn fuelled (by rw [all]; exact room), firstTimes, all, firstTimes]

theorem validDlSfs_eq {span fuel n tti : Nat} (fuelled : span ≤ fuel)
    (room : n ≤ ((List.range' tti span).filter isValidDlSf).length) :
    validDlSfs fuel (tti % 10240) n = (firstTimes isValidDlSf tti span n).map (· % 10240) := by
  induction span generalizing fuel n tti with
  | zero =>
      have none : n = 0 := by simpa using room
      subst none
      cases fuel <;> simp [validDlSfs]
  | succ span ih =>
      obtain ⟨fuel, rfl⟩ : ∃ k, fuel = k + 1 := ⟨fuel - 1, by omega⟩
      cases n with
      | zero => simp [validDlSfs]
      | succ n =>
          rw [validDlSfs, isValidDlSf_mod, Nat.mod_add_mod]
          cases suits : isValidDlSf tti with
          | false =>
              rw [firstTimes_skip suits, if_neg (by simp)]
              exact ih (by omega) (by simpa [List.range'_succ, suits] using room)
          | true =>
              rw [firstTimes_take suits, if_pos rfl, List.map_cons]
              congr 1
              exact ih (by omega) (by simpa [List.range'_succ, suits] using room)

/-- The TTIs of a SIB2 that starts at absolute TTI `tti`. -/
def sib2Times (tti : Nat) : List Nat := firstTimes isValidDlSf tti 11 8

theorem sib2Ttis_mod {tti : Nat} (occasion : tti % 20 = 1) :
    sib2Ttis (tti % 10240) = (sib2Times tti).map (· % 10240) :=
  validDlSfs_eq (by omega) (sib2_room occasion).ge

theorem mem_sib2Times {tti a : Nat} (occasion : tti % 20 = 1) :
    a ∈ sib2Times tti ↔ tti ≤ a ∧ a ≤ tti + 10 ∧ isValidDlSf a = true := by
  constructor
  · intro member
    obtain ⟨from', below, valid⟩ := mem_firstTimes member
    exact ⟨from', by omega, valid⟩
  · rintro ⟨from', upTo, valid⟩
    exact mem_firstTimes_of_full (sib2_room occasion).le from' (by omega) valid

/-- The data TTIs of a user whose DCI is at absolute TTI `tti`, `n` of them. -/
def npdschTimes (tti n : Nat) : List Nat := firstTimes isNpdschSf (tti + 5) 9 n

theorem mem_npdschTimes {tti n a : Nat} (member : a ∈ npdschTimes tti n) :
    tti + 5 ≤ a ∧ a < tti + 14 ∧ isNpdschSf a = true := by
  obtain ⟨from', below, suits⟩ := mem_firstTimes member
  exact ⟨from', by omega, suits⟩

/-! ## One TTI -/

namespace Sched

/-- The downlink table after the entry of the TTI received is cleared. -/
def dlCleared (s : Sched) (rx : Nat) : Wheel := s.dlSchedTable.set (rx % 10240) false

/-- SIB2 starts in subframe 1 of every fourth of the first sixteen frames out of 512. -/
def isSib2Start (tti : Nat) : Bool := decide (tti % 40 = 1) && decide (tti % 5120 < 160)

/-- The response of which a grant is sent, when it is its last. -/
def lastRarDue (s : Sched) (ttiRx : Nat) : Bool :=
  (s.rarDue ttiRx).any fun rar => rar.msg3Grant.length == 1

/-- What the downlink run at absolute time `rx` came to, with the table and the throttle it left.
    A response with grants left over takes nothing from the table. -/
inductive DlOutcome (s : Sched) (rx : Nat) (s' : Sched) (sf : SfSched) : Prop where
  | nothing (table : s'.dlSchedTable = s.dlCleared rx)
      (noSib1 : (rx + 4) % 20 = 14 → s.dlCleared rx ((rx + 4) % 10240) = true)
      (noSib2 : isSib2Start (rx + 4) = true → s.dlCleared rx ((rx + 4) % 10240) = true)
      (lastAlloc : s'.lastAlloc = s.lastAlloc)
      (allocActive : s'.allocActive = (s.dlGrid (rx % 10240)).throttleLeft)
      (counter : s'.sib1SfIdx = s.sib1SfIdx)
      (notLast : s.lastRarDue (rx % 10240) = false)
      (bc : sf.bcAllocs = []) (data : sf.dataAllocs = [])
      (rar : s.rarDue (rx % 10240) = none → sf.rarAllocs = [])
  | sib1 (table : s'.dlSchedTable = (s.dlCleared rx).set ((rx + 4) % 10240) true)
      (occasion : (rx + 4) % 20 = 14) (free : s.dlCleared rx ((rx + 4) % 10240) = false)
      (lastAlloc : s'.lastAlloc = s.lastAlloc)
      (allocActive : s'.allocActive = (s.dlGrid (rx % 10240)).throttleLeft)
      (counter : s'.sib1SfIdx = if s.sib1SfIdx + 1 = sib1NumSf then 0 else s.sib1SfIdx + 1)
      (bc : sf.bcAllocs = [⟨raDlSib1, .dlBc, s.sib1SfIdx == 0⟩]) (data : sf.dataAllocs = [])
      (rar : sf.rarAllocs = [])
  | sib2 (table : s'.dlSchedTable = (s.dlCleared rx).mark ((sib2Times (rx + 4)).map (· % 10240)))
      (occasion : isSib2Start (rx + 4) = true) (free : s.dlCleared rx ((rx + 4) % 10240) = false)
      (lastAlloc : s'.lastAlloc = s.lastAlloc)
      (allocActive : s'.allocActive = (s.dlGrid (rx % 10240)).throttleLeft)
      (counter : s'.sib1SfIdx = s.sib1SfIdx)
      (bc : sf.bcAllocs = [⟨raDlSib2, .dlBc, false⟩]) (data : sf.dataAllocs = [])
      (rar : sf.rarAllocs = [])
  | rar (table : s'.dlSchedTable =
        ((s.dlCleared rx).set ((rx + 4) % 10240) true).set (rarTx (rx + 4) % 10240) true)
      (free : s.dlCleared rx ((rx + 4) % 10240) = false)
      (valid : isValidDlSf (rx + 4) = true) (search : (rx + 4) % 16 < 8)
      (noSib1 : (rx + 4) % 20 ≠ 14) (noSib2 : isSib2Start (rx + 4) = false)
      (lastAlloc : s'.lastAlloc = s.lastAlloc)
      (allocActive : s'.allocActive = (s.dlGrid (rx % 10240)).throttleLeft)
      (counter : s'.sib1SfIdx = s.sib1SfIdx)
      (last : s.lastRarDue (rx % 10240) = true)
      (bc : sf.bcAllocs = []) (data : sf.dataAllocs = []) (rar : ∃ alloc, sf.rarAllocs = [alloc])
  | user (user : Nat) (ue : SchedUe) (npdschTtis : List Nat)
      (table : s'.dlSchedTable = ((s.dlCleared rx).set ((rx + 4) % 10240) true).mark npdschTtis)
      (due : s.dlUserDue (rx % 10240) = some user) (found : s.ueDb.find? user = some ue)
      (placed : reserveNpdsch 10240 ((s.dlCleared rx).set ((rx + 4) % 10240) true)
        ((rx + 9) % 10240) (iSfToNSfNpdsch.getD (SfGrid.iSfFor ue.getRequestedDlBytes.2) 0) =
          some npdschTtis)
      (free : s.dlCleared rx ((rx + 4) % 10240) = false)
      (valid : isValidDlSf (rx + 4) = true) (search : (rx + 4) % 8 < 2)
      (noSib1 : (rx + 4) % 20 ≠ 14) (noSib2 : isSib2Start (rx + 4) = false)
      (elapsed : s.allocActive = true → (s.dlGrid (rx % 10240)).throttleOver = true)
      (lastAlloc : s'.lastAlloc = (rx + 4) % 10240) (allocActive : s'.allocActive = true)
      (counter : s'.sib1SfIdx = s.sib1SfIdx)
      (notLast : s.lastRarDue (rx % 10240) = false)
      (bc : sf.bcAllocs = [])
      (data : sf.dataAllocs = [⟨user, SfGrid.iSfFor ue.getRequestedDlBytes.2, npdschTtis⟩])
      (rar : s.rarDue (rx % 10240) = none → sf.rarAllocs = [])

section

variable (s : Sched) (rx : Nat)

theorem dlGrid_dlSchedTable : (s.dlGrid (rx % 10240)).dlSchedTable = s.dlCleared rx := by
  simp only [dlGrid, clearDl, grid, dlCleared, Nat.mod_mod]

theorem dlGrid_ttiTxDl : (s.dlGrid (rx % 10240)).sf.ttiParams.ttiTxDl = (rx + 4) % 10240 := by
  rw [← ttiAdd_mod]
  exact getSfSched_ttiTxDl _ _

theorem dlGrid_taken : (s.dlGrid (rx % 10240)).taken = s.dlCleared rx ((rx + 4) % 10240) := by
  rw [SfGrid.taken, dlGrid_dlSchedTable, dlGrid_ttiTxDl]

theorem dlGrid_isSib1Tti : (s.dlGrid (rx % 10240)).isSib1Tti = decide ((rx + 4) % 20 = 14) := by
  rw [SfGrid.isSib1Tti, dlGrid_ttiTxDl, isSib1Sf_mod]

theorem dlGrid_isSib2Tti : (s.dlGrid (rx % 10240)).isSib2Tti = isSib2Start (rx + 4) := by
  rw [SfGrid.isSib2Tti, dlGrid_ttiTxDl, isValidDlSf_mod, Bool.eq_iff_iff]
  simp only [isSib2Sf, isSib2Start, Bool.and_eq_true, isValidDlSf_iff, beq_iff_eq, decide_eq_true_eq]
  omega

end

variable {s s' : Sched} {rx : Nat} {dl : DlSchedRes} {ret : AllocOutcome} {g₁ g₂ : SfGrid}

theorem sib2Start_residue {tti : Nat} (occasion : isSib2Start tti = true) : tti % 40 = 1 := by
  simp only [isSib2Start, Bool.and_eq_true, decide_eq_true_eq] at occasion
  exact occasion.1

/-- When nobody is served, the users phase only looks at the throttle. -/
theorem DlRun.not_served (run : DlRun s (rx % 10240) s' dl ret g₁ g₂)
    (fresh : g₁.sf.dataAllocs = []) (nobody : g₁.dlPick = none) :
    g₂.sf = g₁.sf ∧ s'.dlSchedTable = g₁.dlSchedTable ∧ s'.lastAlloc = s.lastAlloc ∧
      s'.allocActive = (s.dlGrid (rx % 10240)).throttleLeft := by
  rw [run.dlSchedTable, run.lastAlloc, run.allocActive]
  obtain ⟨ul, users⟩ := run.users
  rcases SfGrid.schedUsersDl_cases (g := { g₁ with ulSchedTable := ul }) fresh users with
    ⟨-, rfl⟩ | ⟨user, ue, npdschTtis, picked, -, -, -⟩
  · exact ⟨rfl, rfl, run.throttle.1, run.turns.throttleLeft⟩
  · have some : g₁.dlPick = some user := picked
    rw [nobody] at some
    cases some

/-- Whoever is served finds the table as broadcast and random access left it. -/
theorem DlRun.served (run : DlRun s (rx % 10240) s' dl ret g₁ g₂) (fresh : g₁.sf.dataAllocs = [])
    {user : Nat} (picked : g₁.dlPick = some user) :
    ∃ ue npdschTtis, s.ueDb.find? user = some ue ∧ g₁.dlData ue = some npdschTtis ∧
      g₂.sf = (g₁.served user ue npdschTtis).sf ∧
      s'.dlSchedTable = (g₁.served user ue npdschTtis).dlSchedTable ∧
      s'.lastAlloc = (rx + 4) % 10240 ∧ s'.allocActive = true ∧
      (s.allocActive = true → (s.dlGrid (rx % 10240)).throttleOver = true) := by
  have time : g₁.sf.ttiParams.ttiTxDl = (rx + 4) % 10240 := by
    rw [run.frame.ttiParams]
    exact dlGrid_ttiTxDl s rx
  rw [run.dlSchedTable, run.lastAlloc, run.allocActive]
  obtain ⟨-, turn, -⟩ := SfGrid.dlPick_some picked
  obtain ⟨ul, users⟩ := run.users
  rcases SfGrid.schedUsersDl_cases (g := { g₁ with ulSchedTable := ul }) fresh users with
    ⟨nobody, -⟩ | ⟨user', ue, npdschTtis, picked', found, placed, rfl⟩
  · have none : g₁.dlPick = none := nobody
    rw [picked] at none
    cases none
  · have same : g₁.dlPick = some user' := picked'
    rw [picked] at same
    cases same
    refine ⟨ue, npdschTtis, ?_, placed, rfl, rfl, time, rfl, ?_⟩
    · rw [← run.ueDb]
      exact found
    · intro on
      rw [← run.turns.throttleOver]
      by_contra notOver
      simp [SfGrid.dlTurns, run.throttle.2, on, notOver] at turn

/-- Broadcast and random access took nothing from the table: the rest is up to the users. -/
theorem DlRun.outcome_of_free (run : DlRun s (rx % 10240) s' dl ret g₁ g₂)
    (fresh : g₁.sf.dataAllocs = []) (table : g₁.dlSchedTable = s.dlCleared rx)
    (noSib1 : (rx + 4) % 20 = 14 → s.dlCleared rx ((rx + 4) % 10240) = true)
    (noSib2 : isSib2Start (rx + 4) = true → s.dlCleared rx ((rx + 4) % 10240) = true)
    (counter : s'.sib1SfIdx = s.sib1SfIdx) (notLast : s.lastRarDue (rx % 10240) = false)
    (bc : g₁.sf.bcAllocs = []) (rar : s.rarDue (rx % 10240) = none → g₁.sf.rarAllocs = []) :
    DlOutcome s rx s' g₂.sf := by
  have time : g₁.sf.ttiParams.ttiTxDl = (rx + 4) % 10240 := by
    rw [run.frame.ttiParams]
    exact dlGrid_ttiTxDl s rx
  cases picked : g₁.dlPick with
  | none =>
      obtain ⟨sf, after, lastAlloc, active⟩ := run.not_served fresh picked
      rw [← sf] at bc rar fresh
      exact .nothing (after.trans table) noSib1 noSib2 lastAlloc active counter notLast bc fresh rar
  | some user =>
      obtain ⟨ue, npdschTtis, found, placed, sf, after, lastAlloc, active, elapsed⟩ := run.served fresh picked
      obtain ⟨userFree, -, -⟩ := SfGrid.dlPick_some picked
      simp only [SfGrid.dlUserTtiFree, time, table, isValidDlSf_mod, isSib1Sf_mod, Bool.and_eq_true,
        Bool.not_eq_true', decide_eq_true_eq, decide_eq_false_iff_not] at userFree
      obtain ⟨⟨⟨valid, free⟩, search⟩, notSib1⟩ := userFree
      have notSib2 : isSib2Start (rx + 4) = false := by
        cases occasion : isSib2Start (rx + 4) with
        | false => rfl
        | true => rw [noSib2 occasion] at free; cases free
      have due := run.pick
      rw [picked] at due
      simp only [SfGrid.dlData, time, table, Nat.mod_add_mod] at placed
      refine .user user ue npdschTtis ?_ due.symm found placed free valid (by omega) notSib1 notSib2
        elapsed lastAlloc active counter notLast ?_ ?_ ?_
      · rw [after, SfGrid.served, time, table]
      · rw [sf]; exact bc
      · rw [sf]; simp [SfGrid.served, fresh]
      · rw [sf]; exact rar

/-- Everything a downlink run can do to the table. -/
theorem DlRun.outcome (run : DlRun s (rx % 10240) s' dl ret g₁ g₂)
    (unscheduled : (s.getSfSched (rx % 10240)).NoDl) : DlOutcome s rx s' g₂.sf := by
  have fresh := run.fresh unscheduled
  have noBc : (s.dlGrid (rx % 10240)).sf.bcAllocs = [] := unscheduled.bcAllocs
  have noRar : (s.dlGrid (rx % 10240)).sf.rarAllocs = [] := unscheduled.rarAllocs
  have table := dlGrid_dlSchedTable s rx
  have time := dlGrid_ttiTxDl s rx
  rcases run.rar_cases with
    ⟨notDue, -, -, g₁Eq⟩ | ⟨rar, later, info, more, alloc, due, pending, grants, answers, counter, free, sent⟩
  · have counter := run.sib1SfIdx
    have notLast : s.lastRarDue (rx % 10240) = false := by rw [lastRarDue, notDue]; rfl
    rw [afterSibs, ← dlGrid] at g₁Eq counter
    rcases SfGrid.allocSibs_cases s.sib1SfIdx (s.dlGrid (rx % 10240)) with
      ⟨sib1, free, sent⟩ | ⟨-, sib2, free, sent⟩ | ⟨blocked, same⟩
    · rw [sent] at g₁Eq counter
      subst g₁Eq
      obtain ⟨sf, after, lastAlloc, active⟩ :=
        run.not_served fresh (SfGrid.dlPick_none (.inl (SfGrid.sendSib1_taken _ _)))
      rw [dlGrid_isSib1Tti, decide_eq_true_eq] at sib1
      rw [dlGrid_taken] at free
      refine .sib1 ?_ sib1 free lastAlloc active counter ?_ ?_ ?_
      · rw [after, SfGrid.sendSib1, time, table]
      · rw [sf]; simp [SfGrid.sendSib1, noBc]
      · rw [sf]; exact fresh
      · rw [sf]; exact noRar
    · rw [sent] at g₁Eq counter
      subst g₁Eq
      obtain ⟨sf, after, lastAlloc, active⟩ :=
        run.not_served fresh (SfGrid.dlPick_none (.inl (SfGrid.sendSib2_taken sib2)))
      rw [dlGrid_isSib2Tti] at sib2
      rw [dlGrid_taken] at free
      have residue := sib2Start_residue sib2
      refine .sib2 ?_ sib2 free lastAlloc active counter ?_ ?_ ?_
      · rw [after, SfGrid.sendSib2, time, table, sib2Ttis_mod (by omega)]
      · rw [sf]; simp [SfGrid.sendSib2, noBc]
      · rw [sf]; exact fresh
      · rw [sf]; exact noRar
    · rw [same] at g₁Eq counter
      subst g₁Eq
      rw [dlGrid_isSib1Tti, dlGrid_isSib2Tti, dlGrid_taken, decide_eq_true_eq] at blocked
      exact run.outcome_of_free fresh table (fun sib1 => blocked (.inl sib1))
        (fun sib2 => blocked (.inr sib2)) counter notLast noBc (fun _ => noRar)
  · have conditions := due
    simp only [rarDue] at conditions
    split at conditions
    · rename_i all
      simp only [Bool.and_eq_true, Bool.not_eq_true', dlGrid_isSib1Tti, dlGrid_isSib2Tti,
        decide_eq_false_iff_not] at all
      obtain ⟨⟨-, notSib1⟩, notSib2⟩ := all
      simp only [SfGrid.rarTtiFree, dlGrid_taken, time, isValidDlSf_mod, Bool.and_eq_true,
        Bool.not_eq_true', decide_eq_true_eq] at free
      obtain ⟨⟨valid, free⟩, search⟩ := free
      rcases sent with ⟨rfl, -, -, rfl⟩ | ⟨some, -, -, rfl⟩
      · obtain ⟨sf, after, lastAlloc, active⟩ :=
          run.not_served fresh (SfGrid.dlPick_none (.inl (SfGrid.reserveRar_marks _).1))
        refine .rar ?_ free valid (by omega) notSib1 notSib2 lastAlloc active counter ?_ ?_ ?_ ?_
        · rw [after]
          simp only [SfGrid.reserveRar, SfGrid.sendRar, time, table, rarTxTti_mod]
        · simp [lastRarDue, due, grants]
        · rw [sf]; exact noBc
        · rw [sf]; exact fresh
        · rw [sf]; exact ⟨alloc, by simp [SfGrid.reserveRar, SfGrid.sendRar, noRar]⟩
      · have notLast : s.lastRarDue (rx % 10240) = false := by
          have := List.length_pos_iff.mpr some
          simp only [lastRarDue, due, grants, Option.any_some, List.length_cons, beq_eq_false_iff_ne]
          omega
        exact run.outcome_of_free fresh table (fun sib1 => absurd sib1 notSib1)
          (fun sib2 => by rw [notSib2] at sib2; cases sib2) counter notLast noBc
          (fun none => by rw [due] at none; cases none)
    · cases conditions

/-! ## The invariant -/

/-- Who marked the TTI `a`, seen in front of the TTI sent at `x`: a response with its DCI at `y`,
    a SIB2 that started at `y`, or the last user served, at `y`. -/
inductive MarkedBy (x : Nat) (s : Sched) (a : Nat) : Prop where
  | rar (y : Nat) (before : y < x) (valid : isValidDlSf y = true) (search : y % 16 < 8)
      (place : a = rarTx y)
  | sib2 (y : Nat) (before : y < x) (occasion : y % 40 = 1) (upTo : a ≤ y + 10)
      (covers : ∀ b, x ≤ b → b ≤ y + 10 → isValidDlSf b = true → s.dlSchedTable (b % 10240) = true)
  | user (y : Nat) (before : y < x) (from' : y + 5 ≤ a) (upTo : a < y + 14)
      (suits : isNpdschSf a = true) (active : s.allocActive = true) (last : s.lastAlloc = y % 10240)

/-- In front of the TTI received at `now`: marks that are not cleared yet belong to the last four
    TTIs sent or were made ahead by one of three writers. -/
structure DlWindow (now : Nat) (s : Sched) : Prop where
  marks : ∀ i, s.dlSchedTable i = true →
    ∃ a, i = a % 10240 ∧ now ≤ a ∧ (a < now + 4 ∨ MarkedBy (now + 4) s a)
  grants : ∀ rar ∈ s.pendingRars, rar.msg3Grant ≠ []

theorem MarkedBy.upTo {x a : Nat} {s : Sched} (by' : MarkedBy x s a) : a < x + 13 := by
  cases by' with
  | rar y before _ _ place =>
      have := (rarTx_le y).2
      omega
  | sib2 y before _ upTo _ => omega
  | user y before _ upTo _ _ _ => omega

/-- A mark on an absolute TTI of the window has its own origin. -/
theorem DlWindow.origin {now : Nat} {s : Sched} (window : DlWindow now s) {a : Nat}
    (from' : now + 4 ≤ a) (below : a < now + 40) (marked : s.dlSchedTable (a % 10240) = true) :
    MarkedBy (now + 4) s a := by
  obtain ⟨b, slot, start, recent | by'⟩ := window.marks _ marked
  · omega
  · have := by'.upTo
    have same : a = b := by omega
    exact same ▸ by'

theorem dlCleared_other {s : Sched} {rx a : Nat} (from' : rx < a) (below : a < rx + 10240) :
    s.dlCleared rx (a % 10240) = s.dlSchedTable (a % 10240) :=
  Wheel.set_other _ _ (by omega)

/-- The throttle as it stands less than 26 TTIs after an allocation. -/
theorem throttle_runs {s : Sched} {rx y : Nat} (last : s.lastAlloc = y % 10240) (before : y < rx + 4)
    (recent : rx + 4 < y + 26) : (s.dlGrid (rx % 10240)).throttleOver = false := by
  have lastGrid : (s.dlGrid (rx % 10240)).lastAlloc = y % 10240 := last
  rw [SfGrid.throttleOver, dlGrid_ttiTxDl, lastGrid, decide_eq_false_iff_not]
  omega

theorem throttleLeft_of_runs {s : Sched} {rx : Nat} (active : s.allocActive = true)
    (runs : (s.dlGrid (rx % 10240)).throttleOver = false) :
    (s.dlGrid (rx % 10240)).throttleLeft = true := by
  have activeGrid : (s.dlGrid (rx % 10240)).allocActive = true := active
  simp [SfGrid.throttleLeft, activeGrid, runs]

/-- SIB1 TTIs are never marked ahead. -/
theorem DlWindow.sib1_free {now : Nat} {s : Sched} (window : DlWindow now s)
    (occasion : (now + 4) % 20 = 14) : s.dlCleared now ((now + 4) % 10240) = false := by
  rw [dlCleared_other (by omega) (by omega)]
  by_contra marked
  cases window.origin (a := now + 4) (by omega) (by omega) (by simpa using marked) with
  | rar y before valid search place =>
      rw [isValidDlSf_iff] at valid
      unfold rarTx validSkip at place
      split at place
      · omega
      · split at place <;> omega
  | sib2 y before sib2 upTo covers => omega
  | user y before from' upTo suits active last =>
      rw [isNpdschSf_iff] at suits
      omega

/-- No response reaches past the TTI in which a user may be served by five TTIs or more: it would
    have to be one or two TTIs earlier, and the residues exclude both. -/
theorem rarTx_near {x y : Nat} (before : y < x) (validX : isValidDlSf x = true) (searchX : x % 8 < 2)
    (validY : isValidDlSf y = true) (searchY : y % 16 < 8) : rarTx y < x + 5 := by
  rw [isValidDlSf_iff] at validX validY
  by_contra far
  unfold rarTx validSkip at far
  split at far
  · have next : x = y + 1 := by omega
    omega
  · split at far
    · have next : x = y + 1 ∨ x = y + 2 := by omega
      rcases next with rfl | rfl
      · omega
      · clear validX validY
        omega
    · omega

/-- A user that may be served has no mark in the way of its data. -/
theorem DlWindow.data_free {now : Nat} {s : Sched} (window : DlWindow now s)
    (free : s.dlCleared now ((now + 4) % 10240) = false) (valid : isValidDlSf (now + 4) = true)
    (search : (now + 4) % 8 < 2)
    (elapsed : s.allocActive = true → (s.dlGrid (now % 10240)).throttleOver = true)
    {a : Nat} (from' : now + 9 ≤ a) (below : a < now + 18) :
    ((s.dlCleared now).set ((now + 4) % 10240) true) (a % 10240) = false := by
  rw [Wheel.set_other _ _ (by omega), dlCleared_other (by omega) (by omega)]
  rw [dlCleared_other (by omega) (by omega)] at free
  by_contra marked
  cases window.origin (a := a) (by omega) (by omega) (by simpa using marked) with
  | rar y before validRar searchRar place =>
      have near := rarTx_near before valid search validRar searchRar
      omega
  | sib2 y before occasion upTo covers =>
      rw [covers (now + 4) (by omega) (by omega) valid] at free
      cases free
  | user y before _ upTo suits active last =>
      have runs := throttle_runs last before (by omega)
      rw [elapsed active] at runs
      cases runs

/-- How many subframes a user is given. -/
theorem iSfFor_nofSf (maxData : Nat) :
    iSfToNSfNpdsch.getD (SfGrid.iSfFor maxData) 0 = 1 ∨ iSfToNSfNpdsch.getD (SfGrid.iSfFor maxData) 0 = 3 := by
  unfold SfGrid.iSfFor
  split
  · exact .inr rfl
  · exact .inl rfl

/-- The data of a user goes where it would go in an empty table. -/
theorem DlWindow.reserve {now : Nat} {s : Sched} (window : DlWindow now s)
    (free : s.dlCleared now ((now + 4) % 10240) = false) (valid : isValidDlSf (now + 4) = true)
    (search : (now + 4) % 8 < 2)
    (elapsed : s.allocActive = true → (s.dlGrid (now % 10240)).throttleOver = true) (maxData : Nat) :
    reserveNpdsch 10240 ((s.dlCleared now).set ((now + 4) % 10240) true) ((now + 9) % 10240)
        (iSfToNSfNpdsch.getD (SfGrid.iSfFor maxData) 0) =
      some ((npdschTimes (now + 4) (iSfToNSfNpdsch.getD (SfGrid.iSfFor maxData) 0)).map (· % 10240)) := by
  apply reserveNpdsch_of_free (by omega) (by omega)
  · have room := npdsch_room (now + 9)
    rcases iSfFor_nofSf maxData with one | three <;> omega
  · intro a from' below
    exact window.data_free free valid search elapsed from' below

/-- Whatever a downlink run does, it keeps what is marked. -/
theorem DlOutcome.keeps {sf : SfSched} (outcome : DlOutcome s rx s' sf) {i : Nat}
    (marked : s.dlCleared rx i = true) : s'.dlSchedTable i = true := by
  have set : ∀ (w : Wheel) (j : Nat), w i = true → (w.set j true) i = true := by
    intro w j set
    unfold Wheel.set
    split
    · rfl
    · exact set
  cases outcome with
  | nothing table => rw [table]; exact marked
  | sib1 table => rw [table]; exact set _ _ marked
  | sib2 table => rw [table]; exact Wheel.mark_of_marked _ _ marked
  | rar table => rw [table]; exact set _ _ (set _ _ marked)
  | user user ue npdschTtis table => rw [table]; exact Wheel.mark_of_marked _ _ (set _ _ marked)

/-- The last user keeps its marks until they are over. -/
theorem DlOutcome.keeps_user {sf : SfSched} (outcome : DlOutcome s rx s' sf) {y : Nat}
    (active : s.allocActive = true) (last : s.lastAlloc = y % 10240) (before : y < rx + 4)
    (recent : rx + 4 < y + 26) : s'.allocActive = true ∧ s'.lastAlloc = y % 10240 := by
  have runs := throttle_runs last before recent
  have left := throttleLeft_of_runs active runs
  cases outcome with
  | nothing _ _ _ lastAlloc allocActive => exact ⟨allocActive.trans left, lastAlloc.trans last⟩
  | sib1 _ _ _ lastAlloc allocActive => exact ⟨allocActive.trans left, lastAlloc.trans last⟩
  | sib2 _ _ _ lastAlloc allocActive => exact ⟨allocActive.trans left, lastAlloc.trans last⟩
  | rar _ _ _ _ _ _ lastAlloc allocActive => exact ⟨allocActive.trans left, lastAlloc.trans last⟩
  | user _ _ _ _ _ _ _ _ _ _ _ _ elapsed =>
      rw [elapsed active] at runs
      cases runs

theorem DlOutcome.keeps_origin {sf : SfSched} (outcome : DlOutcome s rx s' sf) {a : Nat}
    (by' : MarkedBy (rx + 4) s a) (ahead : rx + 5 ≤ a) : MarkedBy (rx + 5) s' a := by
  cases by' with
  | rar y before valid search place => exact .rar y (by omega) valid search place
  | sib2 y before occasion upTo covers =>
      refine .sib2 y (by omega) occasion upTo ?_
      intro b from' below valid
      apply outcome.keeps
      rw [dlCleared_other (by omega) (by omega)]
      exact covers b (by omega) below valid
  | user y before from' upTo suits active last =>
      obtain ⟨active', last'⟩ := outcome.keeps_user active last before (by omega)
      exact .user y (by omega) from' upTo suits active' last'

/-- A mark after a downlink run was there before, or is one of the marks made by this run. -/
theorem DlOutcome.new_marks {sf : SfSched} (outcome : DlOutcome s rx s' sf) (window : DlWindow rx s)
    {i : Nat} (marked : s'.dlSchedTable i = true) :
    s.dlCleared rx i = true ∨ ∃ a, i = a % 10240 ∧ rx + 4 ≤ a ∧ (a = rx + 4 ∨ MarkedBy (rx + 5) s' a) := by
  cases outcome with
  | nothing table =>
      rw [table] at marked
      exact .inl marked
  | sib1 table =>
      rw [table] at marked
      rcases Wheel.set_raised marked with now | old
      · exact .inr ⟨rx + 4, now, by omega, .inl rfl⟩
      · exact .inl old
  | sib2 table occasion =>
      have residue := sib2Start_residue occasion
      rw [table] at marked
      rcases Wheel.mark_raised marked with new | old
      · right
        obtain ⟨a, member, rfl⟩ := List.mem_map.mp new
        obtain ⟨from', upTo, valid⟩ := (mem_sib2Times (by omega)).mp member
        refine ⟨a, rfl, from', .inr (.sib2 (rx + 4) (by omega) residue upTo ?_)⟩
        intro b from' upTo valid
        rw [table]
        apply Wheel.mark_of_mem
        exact List.mem_map_of_mem ((mem_sib2Times (by omega)).mpr ⟨by omega, upTo, valid⟩)
      · exact .inl old
  | rar table free valid search =>
      rw [table] at marked
      rcases Wheel.set_raised marked with last | first
      · have later := (rarTx_le (rx + 4)).1
        exact .inr ⟨rarTx (rx + 4), last, by omega, .inr (.rar (rx + 4) (by omega) valid search rfl)⟩
      · rcases Wheel.set_raised first with now | old
        · exact .inr ⟨rx + 4, now, by omega, .inl rfl⟩
        · exact .inl old
  | user user ue npdschTtis table due found placed free valid search noSib1 noSib2 elapsed last active =>
      rw [window.reserve free valid search elapsed] at placed
      cases placed
      rw [table] at marked
      rcases Wheel.mark_raised marked with new | first
      · right
        obtain ⟨a, member, rfl⟩ := List.mem_map.mp new
        obtain ⟨from', upTo, suits⟩ := mem_npdschTimes member
        exact ⟨a, rfl, by omega, .inr (.user (rx + 4) (by omega) from' upTo suits active last)⟩
      · rcases Wheel.set_raised first with now | old
        · exact .inr ⟨rx + 4, now, by omega, .inl rfl⟩
        · exact .inl old

/-- A downlink run moves the window on by one TTI. -/
theorem DlOutcome.marks {sf : SfSched} (outcome : DlOutcome s rx s' sf) (window : DlWindow rx s) {i : Nat}
    (marked : s'.dlSchedTable i = true) :
    ∃ a, i = a % 10240 ∧ rx + 1 ≤ a ∧ (a < rx + 5 ∨ MarkedBy (rx + 5) s' a) := by
  rcases outcome.new_marks window marked with old | ⟨a, slot, from', now | by'⟩
  · obtain ⟨other, stood⟩ := Wheel.set_lowered old
    obtain ⟨a, slot, from', recent | by'⟩ := window.marks i stood
    · exact ⟨a, slot, by omega, .inl (by omega)⟩
    · by_cases here : a < rx + 5
      · exact ⟨a, slot, by omega, .inl here⟩
      · exact ⟨a, slot, by omega, .inr (outcome.keeps_origin by' (by omega))⟩
  · exact ⟨a, slot, by omega, .inl (by omega)⟩
  · exact ⟨a, slot, by omega, .inr by'⟩

/-! ## Every TTI returns -/

theorem raDlSched_returns {pendingRars : List PendingRar}
    (grants : ∀ rar ∈ pendingRars, rar.msg3Grant ≠ []) (g : SfGrid) :
    ∃ ret rest g', raDlSched pendingRars g = some (ret, rest, g') := by
  unfold raDlSched
  cases pendingRars with
  | nil => exact ⟨_, _, _, rfl⟩
  | cons rar later =>
      simp only
      split
      · exact ⟨_, _, _, rfl⟩
      · split
        · exact ⟨_, _, _, rfl⟩
        · split
          · exact ⟨_, _, _, rfl⟩
          · rcases SfGrid.allocRar_cases g rar with ⟨none, -⟩ | ⟨info, more, alloc, -, -, -, -, -, sent⟩
            · exact absurd none (grants rar List.mem_cons_self)
            · rw [sent]
              simp only
              split <;> exact ⟨_, _, _, rfl⟩

/-- Where a user can be served, broadcast and random access left table and throttle alone. -/
theorem ctrl_of_free {s : Sched} {ttiRx : Nat} {ret : AllocOutcome} {rest : List PendingRar}
    {g₁ : SfGrid} (ran : raDlSched s.pendingRars (s.afterSibs ttiRx).2 = some (ret, rest, g₁))
    (open' : g₁.dlUserTtiFree = true) :
    g₁.toShared = (s.dlGrid ttiRx).toShared ∧ g₁.sf.ttiParams = (s.dlGrid ttiRx).sf.ttiParams := by
  rcases SfGrid.raDlSched_cases ran with
    ⟨-, -, -, rfl⟩ | ⟨rar, later, info, more, alloc, -, free, -, -, sent⟩
  · rw [afterSibs, ← dlGrid] at open' ⊢
    rcases SfGrid.allocSibs_cases s.sib1SfIdx (s.dlGrid ttiRx) with
      ⟨-, -, sent⟩ | ⟨-, sib2, -, sent⟩ | ⟨-, same⟩
    · rw [sent, SfGrid.not_dlUserTtiFree (.inl (SfGrid.sendSib1_taken _ _))] at open'
      cases open'
    · rw [sent, SfGrid.not_dlUserTtiFree (.inl (SfGrid.sendSib2_taken sib2))] at open'
      cases open'
    · rw [same]
      exact ⟨rfl, rfl⟩
  · rw [(afterSibs_of_free free).1] at sent
    rcases sent with ⟨-, -, -, rfl⟩ | ⟨-, -, -, rfl⟩
    · rw [SfGrid.not_dlUserTtiFree (.inl (SfGrid.reserveRar_marks _).1)] at open'
      cases open'
    · exact ⟨rfl, rfl⟩

/-- The reservation loop of a user that is served ends. -/
theorem DlWindow.serve_returns {s : Sched} {rx user : Nat} (window : DlWindow rx s)
    {g : SfGrid} {ul : Wheel} (shared : g.toShared = { (s.dlGrid (rx % 10240)).toShared with ulSchedTable := ul })
    (params : g.sf.ttiParams = (s.dlGrid (rx % 10240)).sf.ttiParams) (picked : g.dlPick = some user) :
    ∃ g', { g with allocActive := false }.serve user = some g' := by
  have table : g.dlSchedTable = s.dlCleared rx := by
    rw [← dlGrid_dlSchedTable, shared]
  have time : g.sf.ttiParams.ttiTxDl = (rx + 4) % 10240 := by rw [params]; exact dlGrid_ttiTxDl s rx
  obtain ⟨free, turn, ue, found, -⟩ := SfGrid.dlPick_some picked
  simp only [SfGrid.dlUserTtiFree, time, table, isValidDlSf_mod, isSib1Sf_mod, Bool.and_eq_true,
    Bool.not_eq_true', decide_eq_true_eq] at free
  obtain ⟨⟨⟨valid, free⟩, search⟩, -⟩ := free
  have elapsed : s.allocActive = true → (s.dlGrid (rx % 10240)).throttleOver = true := by
    intro on
    have active : g.allocActive = true := by rw [shared]; exact on
    have same : g.throttleOver = (s.dlGrid (rx % 10240)).throttleOver := by
      simp only [SfGrid.throttleOver, params, shared]
    rw [← same]
    by_contra notOver
    simp [SfGrid.dlTurns, active, notOver] at turn
  have placed := window.reserve free valid (by omega) elapsed ue.getRequestedDlBytes.2
  simp only [SfGrid.serve, found, SfGrid.dlData, time, table, Nat.mod_add_mod, placed, Option.map_some]
  exact ⟨_, rfl⟩

theorem DlWindow.users_return {s : Sched} {rx : Nat} (window : DlWindow rx s) {g : SfGrid}
    (fresh : g.sf.dataAllocs = [])
    (left : ∀ user, g.dlPick = some user → ∃ ul,
      g.toShared = { (s.dlGrid (rx % 10240)).toShared with ulSchedTable := ul } ∧
        g.sf.ttiParams = (s.dlGrid (rx % 10240)).sf.ttiParams) :
    ∃ g', schedUsersDl g = some g' := by
  rw [SfGrid.schedUsersDl_eq fresh]
  cases picked : g.dlPick with
  | none => exact ⟨_, rfl⟩
  | some user =>
      obtain ⟨ul, shared, params⟩ := left user picked
      exact window.serve_returns shared params picked

theorem DlWindow.dl_returns {s : Sched} {rx : Nat} (window : DlWindow rx s)
    (unscheduled : (s.getSfSched (rx % 10240)).NoDl) :
    ∃ s' dl, s.generateTtiResultDl (rx % 10240) = some (s', dl) := by
  have first : rx % 10240 ≠ sfResultTtiRx := by unfold sfResultTtiRx; omega
  obtain ⟨ret, pendingRars, g₁, ran⟩ := raDlSched_returns window.grants (s.afterSibs (rx % 10240)).2
  obtain ⟨s₁, ctrl⟩ : ∃ s₁, s.schedCtrl (rx % 10240) = some s₁ := by
    unfold schedCtrl
    simp only
    split
    · rename_i stuck
      cases stuck.symm.trans ran
    · exact ⟨_, rfl⟩
  obtain ⟨ret, pendingRars, g₁, rar, outcome⟩ := schedCtrl_cases ctrl
  obtain ⟨g₂, served⟩ : ∃ g₂, schedUsersDl (s₁.grid (rx % 10240)) = some g₂ := by
    rw [grid_afterCtrl rar outcome]
    apply window.users_return
    · exact (ctrl_dataAllocs rar).trans unscheduled.dataAllocs
    · intro user picked
      have pick : g₁.dlPick = some user := picked
      obtain ⟨shared, params⟩ := ctrl_of_free rar (SfGrid.dlPick_some pick).1
      exact ⟨s₁.ulSchedTable, by rw [← shared], params⟩
  rw [← SfGrid.allocDlUsers_eq] at served
  unfold generateTtiResultDl
  rw [if_neg first, ctrl]
  simp only [served]
  exact ⟨_, _, rfl⟩

/-! ## Runs -/

theorem raDlRachInfo_grants {pendingRars : List PendingRar} (info : DlSchedRarInfo)
    (grants : ∀ rar ∈ pendingRars, rar.msg3Grant ≠ []) :
    ∀ rar ∈ raDlRachInfo pendingRars info, rar.msg3Grant ≠ [] := by
  intro rar member
  simp only [raDlRachInfo] at member
  split at member
  · rename_i i _
    obtain ⟨j, inside, rfl⟩ := List.mem_iff_getElem.mp member
    rw [List.getElem_modify]
    split
    · simp
    · exact grants _ (List.getElem_mem _)
  · rcases List.mem_append.mp member with old | new
    · exact grants rar old
    · rw [List.mem_singleton.mp new]
      simp

/-- The part of the scheduler that the downlink runs write and the uplink runs keep. -/
structure SameDl (s s' : Sched) : Prop where
  dlSchedTable : s'.dlSchedTable = s.dlSchedTable
  lastAlloc : s'.lastAlloc = s.lastAlloc
  allocActive : s'.allocActive = s.allocActive
  sib1SfIdx : s'.sib1SfIdx = s.sib1SfIdx

theorem SameCarrier.sameDl {s s' : Sched} (same : SameCarrier s s') : SameDl s s' :=
  ⟨same.dlSchedTable, same.lastAlloc, same.allocActive, same.sib1SfIdx⟩

theorem SameDl.trans {s s' s'' : Sched} (first : SameDl s s') (second : SameDl s' s'') : SameDl s s'' :=
  ⟨second.1.trans first.1, second.2.trans first.2, second.3.trans first.3, second.4.trans first.4⟩

theorem MarkedBy.congr {s s' : Sched} {x a : Nat} (by' : MarkedBy x s a) (same : SameDl s s') :
    MarkedBy x s' a := by
  cases by' with
  | rar y before valid search place => exact .rar y before valid search place
  | sib2 y before occasion upTo covers =>
      exact .sib2 y before occasion upTo (by rw [same.dlSchedTable]; exact covers)
  | user y before from' upTo suits active last =>
      exact .user y before from' upTo suits (same.allocActive.trans active) (same.lastAlloc.trans last)

theorem DlWindow.congr {now : Nat} {s s' : Sched} (window : DlWindow now s) (same : SameDl s s')
    (grants : ∀ rar ∈ s'.pendingRars, rar.msg3Grant ≠ []) : DlWindow now s' where
  marks i marked := by
    rw [same.dlSchedTable] at marked
    obtain ⟨a, slot, from', recent | by'⟩ := window.marks i marked
    · exact ⟨a, slot, from', .inl recent⟩
    · exact ⟨a, slot, from', .inr (by'.congr same)⟩
  grants := grants

theorem DlWindow.call {now : Nat} {s : Sched} (window : DlWindow now s) (c : SchedCall) :
    DlWindow now (s.call c) := by
  refine window.congr (call_sameCarrier s c).sameDl ?_
  cases c with
  | dlRachInfo info => exact raDlRachInfo_grants info window.grants
  | _ => exact window.grants

theorem DlWindow.calls {now : Nat} {s : Sched} (window : DlWindow now s) (cs : List SchedCall) :
    DlWindow now (s.calls cs) :=
  calls_invariant (fun _ c _ window => window.call c) window

theorem init_dlWindow (start : Nat) : DlWindow start init where
  marks _ marked := by cases marked
  grants _ member := by cases member

/-- Two subframes with the same downlink allocations. -/
structure SameDlAllocs (sf sf' : SfSched) : Prop where
  bcAllocs : sf'.bcAllocs = sf.bcAllocs
  rarAllocs : sf'.rarAllocs = sf.rarAllocs
  dataAllocs : sf'.dataAllocs = sf.dataAllocs

/-- The uplink run of a TTI leaves everything of the downlink alone. -/
theorem generateTtiResultUl_sameDl {s : Sched} {ttiRx : Nat} (inside : ttiRx < 10240) :
    SameDl s (s.generateTtiResultUl ttiRx).1 ∧
      (s.generateTtiResultUl ttiRx).1.pendingRars = s.pendingRars ∧
      SameDlAllocs (s.getSfSched ttiRx) ((s.generateTtiResultUl ttiRx).1.sfScheds (ttiRx % nofSfScheds)) := by
  have frame := SfGrid.schedUsersUl_ulFrame ((s.clearUl ttiRx).grid ttiRx)
  rw [generateTtiResultUl_eq inside]
  simp only [store_sfScheds_same, SfGrid.generateSchedResults_eq]
  exact ⟨⟨frame.dlSchedTable, frame.lastAlloc, frame.allocActive, rfl⟩, rfl,
    frame.bcAllocs, frame.rarAllocs, frame.dataAllocs⟩

/-- An outcome is read off the downlink part of the state and of the subframe alone. -/
theorem DlOutcome.congr {s s₁ s' : Sched} {rx lastTti : Nat} {sf sf' : SfSched}
    (outcome : DlOutcome (s.setLastTti lastTti) rx s₁ sf)
    (same : SameDl s₁ s') (allocs : SameDlAllocs sf sf') : DlOutcome s rx s' sf' := by
  obtain ⟨bcEq, rarEq, dataEq⟩ := allocs
  obtain ⟨tableEq, lastEq, activeEq, counterEq⟩ := same
  cases outcome with
  | nothing table noSib1 noSib2 last active counter notLast bc data rar =>
      exact .nothing (tableEq.trans table) noSib1 noSib2 (lastEq.trans last) (activeEq.trans active)
        (counterEq.trans counter) notLast (bcEq.trans bc) (dataEq.trans data)
        (fun none => rarEq.trans (rar none))
  | sib1 table occasion free last active counter bc data rar =>
      exact .sib1 (tableEq.trans table) occasion free (lastEq.trans last) (activeEq.trans active)
        (counterEq.trans counter) (bcEq.trans bc) (dataEq.trans data) (rarEq.trans rar)
  | sib2 table occasion free last active counter bc data rar =>
      exact .sib2 (tableEq.trans table) occasion free (lastEq.trans last) (activeEq.trans active)
        (counterEq.trans counter) (bcEq.trans bc) (dataEq.trans data) (rarEq.trans rar)
  | rar table free valid search noSib1 noSib2 last active counter lastDue bc data rar =>
      obtain ⟨alloc, only⟩ := rar
      exact .rar (tableEq.trans table) free valid search noSib1 noSib2 (lastEq.trans last)
        (activeEq.trans active) (counterEq.trans counter) lastDue (bcEq.trans bc) (dataEq.trans data)
        ⟨alloc, rarEq.trans only⟩
  | user user ue npdschTtis table due found placed free valid search noSib1 noSib2 elapsed last active
      counter notLast bc data rar =>
      exact .user user ue npdschTtis (tableEq.trans table) due found placed free valid search noSib1
        noSib2 elapsed (lastEq.trans last) (activeEq.trans active) (counterEq.trans counter) notLast
        (bcEq.trans bc) (dataEq.trans data) (fun none => rarEq.trans (rar none))

/-- The downlink run of a TTI, and how much of it stands at the end of the TTI. -/
theorem tti_dlRun {s s' : Sched} {rx : Nat} {c : TtiCalls} {o : TtiLog}
    (stepped : s.tti rx c = some (s', o)) :
    ∃ lastTti s₁ ret g₁ g₂, DlRun (o.pre.setLastTti lastTti) (rx % 10240) s₁ o.dl ret g₁ g₂ ∧
      SameDl s₁ s' ∧ SameDlAllocs g₂.sf o.sf := by
  obtain ⟨rxOf, -, -, post, lastTti, s₁, dl, mid, ul⟩ := tti_cases stepped
  obtain ⟨ret, g₁, g₂, run⟩ := generateTtiResultDl_phases (by omega) dl
  have between := calls_sameCarrier s₁ c.between
  obtain ⟨after, -, allocs⟩ := generateTtiResultUl_sameDl (s := o.mid) (by omega : rx % 10240 < 10240)
  rw [ul] at after allocs
  have sf : o.mid.getSfSched (rx % 10240) = g₂.sf := by
    rw [← run.ownSf, mid]
    simp only [getSfSched, between.sfScheds]
  rw [sf] at allocs
  rw [mid] at after
  refine ⟨lastTti, s₁, ret, g₁, g₂, run, between.sameDl.trans after, ?_⟩
  rw [TtiLog.sf, post, rxOf]
  exact allocs

/-- What the downlink run of a TTI came to, read off the state and the subframe at its end. -/
theorem tti_dlOutcome {s s' : Sched} {rx : Nat} {c : TtiCalls} {o : TtiLog}
    (stepped : s.tti rx c = some (s', o)) (ok : RingOk rx s) : DlOutcome o.pre rx s' o.sf := by
  have okPre := tti_pre_ringOk stepped ok
  obtain ⟨lastTti, s₁, ret, g₁, g₂, run, after, allocs⟩ := tti_dlRun stepped
  have unscheduled : ((o.pre.setLastTti lastTti).getSfSched (rx % 10240)).NoDl := by
    rw [setLastTti_getSfSched]
    exact okPre.own_noDl
  exact (run.outcome unscheduled).congr after allocs

/-- The broadcast part of the result is that of the subframe. -/
theorem tti_bc {s s' : Sched} {rx : Nat} {c : TtiCalls} {o : TtiLog}
    (stepped : s.tti rx c = some (s', o)) : o.dl.bc = SfGrid.bcSchedResult o.sf := by
  obtain ⟨lastTti, s₁, ret, g₁, g₂, run, -, allocs⟩ := tti_dlRun stepped
  rw [run.result, SfGrid.bcSchedResult, allocs.bcAllocs]
  rfl

theorem DlWindow.pre {s s' : Sched} {rx : Nat} {c : TtiCalls} {o : TtiLog} (window : DlWindow rx s)
    (stepped : s.tti rx c = some (s', o)) : DlWindow rx o.pre := by
  obtain ⟨-, -, pre, -⟩ := tti_cases stepped
  rw [pre]
  exact window.calls c.before

/-- A response keeps a grant as long as it waits. -/
theorem DlRun.grants {s s' : Sched} {ttiRx : Nat} {dl : DlSchedRes} {ret : AllocOutcome} {g₁ g₂ : SfGrid}
    (run : DlRun s ttiRx s' dl ret g₁ g₂) (grants : ∀ rar ∈ s.pendingRars, rar.msg3Grant ≠ []) :
    ∀ rar ∈ s'.pendingRars, rar.msg3Grant ≠ [] := by
  rcases run.rar_cases with
    ⟨-, -, same, -⟩ | ⟨rar, later, info, more, alloc, -, pending, -, -, -, -, ⟨-, -, rest, -⟩ | ⟨some, -, rest, -⟩⟩
  · rw [same]
    exact grants
  · intro r member
    rw [rest] at member
    exact grants r (by rw [pending]; exact List.mem_cons_of_mem _ member)
  · intro r member
    rw [rest] at member
    rcases List.mem_cons.mp member with rfl | other
    · exact some
    · exact grants r (by rw [pending]; exact List.mem_cons_of_mem _ other)

theorem tti_dlWindow {s s' : Sched} {rx : Nat} {c : TtiCalls} {o : TtiLog}
    (stepped : s.tti rx c = some (s', o)) (ok : RingOk rx s) (window : DlWindow rx s) :
    DlWindow (rx + 1) s' where
  marks _ marked := (tti_dlOutcome stepped ok).marks (window.pre stepped) marked
  grants := by
    have windowPre := window.pre stepped
    obtain ⟨-, -, -, -, lastTti, s₁, dl, mid, ul⟩ := tti_cases stepped
    obtain ⟨ret, g₁, g₂, run⟩ := generateTtiResultDl_phases (by omega) dl
    have afterDl : ∀ rar ∈ s₁.pendingRars, rar.msg3Grant ≠ [] :=
      run.grants (s := o.pre.setLastTti lastTti) windowPre.grants
    have afterCalls : ∀ rar ∈ o.mid.pendingRars, rar.msg3Grant ≠ [] := by
      rw [mid]
      apply calls_invariant (P := fun s => ∀ rar ∈ s.pendingRars, rar.msg3Grant ≠ []) _ afterDl
      intro s c _ grants
      cases c with
      | dlRachInfo info => exact raDlRachInfo_grants info grants
      | _ => exact grants
    have pending := (generateTtiResultUl_sameDl (s := o.mid) (by omega : rx % 10240 < 10240)).2.1
    rw [ul] at pending
    rw [pending]
    exact afterCalls

theorem dlSched_eq (s : Sched) (rx : Nat) : s.dlSched (ttiAdd (rx % 10240) fddHarqDelayUlMs) =
    (s.setLastTti (maxTti s.lastTti (rx % 10240))).generateTtiResultDl (rx % 10240) := by
  unfold dlSched
  rw [dlSched_ttiRx]
  rfl

theorem tti_of_dl {s s₁ : Sched} {rx : Nat} {c : TtiCalls} {dl : DlSchedRes}
    (ran : (s.calls c.before).dlSched (ttiAdd (rx % 10240) fddHarqDelayUlMs) = some (s₁, dl)) :
    ∃ s' o, s.tti rx c = some (s', o) := by
  unfold tti
  simp only [ran]
  exact ⟨_, _, rfl⟩

/-- Every TTI returns from any state the invariants admit. -/
theorem tti_returns {s : Sched} {rx : Nat} (c : TtiCalls) (ok : RingOk rx s) (window : DlWindow rx s) :
    ∃ s' o, s.tti rx c = some (s', o) := by
  have okPre : RingOk rx (s.calls c.before) :=
    ok.of_sameCarrier (calls_sameCarrier s c.before) (calls_ownRnti ok.own c.before)
  have returns : ∀ lastTti, ∃ s₁ dl,
      ((s.calls c.before).setLastTti lastTti).generateTtiResultDl (rx % 10240) = some (s₁, dl) := by
    intro lastTti
    have windowPre : DlWindow rx ((s.calls c.before).setLastTti lastTti) :=
      (window.calls c.before).congr ⟨rfl, rfl, rfl, rfl⟩ (window.calls c.before).grants
    apply windowPre.dl_returns
    rw [setLastTti_getSfSched]
    exact okPre.own_noDl
  obtain ⟨s₁, dl, ran⟩ := returns (maxTti (s.calls c.before).lastTti (rx % 10240))
  exact tti_of_dl ((dlSched_eq _ rx).trans ran)

end Sched

end SonicaEnb
