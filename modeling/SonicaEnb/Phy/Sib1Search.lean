import SonicaEnb.Mac.Broadcast
import SonicaEnb.Phy.SfWorker
import SonicaEnb.Phy.TimeBroadcast

/-! # Where a UE looks for SIB1

The frames of SIB1 follow from the MIB and the identity of the cell. The UE takes the
identity it has found; MAC computes them for a cell of its own, whatever cell is
configured. Where both agree, a UE that waits for the next period begins with the block
that the worker encodes.
-/

namespace SonicaEnb

/-- The frames that a loop over four periods puts into `sib1_sfn`. -/
def sib1Frames (nIdNcell schedInfoSib1 : Nat) : List Nat :=
  (List.range 4).flatMap fun k =>
    (List.range (raNRepSib1Nb schedInfoSib1)).map fun i =>
      k * 256 + (raNbiotGetStartingSib1Frame nIdNcell schedInfoSib1).toNat +
        i * 256 / raNRepSib1Nb schedInfoSib1

/-- MAC does the same for the cell it has fixed. -/
theorem sib1Sfn_frames : sib1Sfn = sib1Frames bcCellId schedInfoSib1 := rfl

theorem sib1Frames_length (nIdNcell info : Nat) :
    (sib1Frames nIdNcell info).length = 4 * raNRepSib1Nb info := by
  simp [sib1Frames, List.length_flatMap]
  omega

theorem raNRepSib1Nb_le (info : Nat) : raNRepSib1Nb info ≤ 16 := by
  have all : ∀ rep ∈ nRepTableSib1, rep ≤ 16 := by decide
  rw [raNRepSib1Nb, List.getD_eq_getElem?_getD]
  cases here : nRepTableSib1[info]? with
  | none => exact Nat.zero_le 16
  | some rep => exact all rep (List.mem_of_getElem? here)

theorem startingSib1Frame_sixteen (nIdNcell : Nat) :
    (raNbiotGetStartingSib1Frame nIdNcell 5).toNat = nIdNcell % 2 := by
  change (([0, 1, -1, -1] : List Int).getD (nIdNcell % 2) 0).toNat = nIdNcell % 2
  rcases Nat.mod_two_eq_zero_or_one nIdNcell with even | odd
  · rw [even]
    rfl
  · rw [odd]
    rfl

/-- With sixteen repetitions there is one in each 16 frames. -/
theorem sib1Frames_sixteen (nIdNcell : Nat) :
    sib1Frames nIdNcell 5 = (List.range 64).map (16 * · + nIdNcell % 2) := by
  rw [sib1Frames, startingSib1Frame_sixteen]
  rcases Nat.mod_two_eq_zero_or_one nIdNcell with even | odd
  · rw [even]
    decide
  · rw [odd]
    decide

/-- `srslte_nbiot_ue_dl_t`, as far as SIB1 goes. -/
structure NbiotUeDl where
  nIdNcell : Nat
  sib1Sfn : List Nat
  mib : Option MibNb
  size : sib1Sfn.length = 64

namespace NbiotUeDl

/-- `srslte_nbiot_ue_dl_set_mib`. What the new frames do not reach is left in the array. -/
def setMib (q : NbiotUeDl) (mib : MibNb) : NbiotUeDl where
  nIdNcell := q.nIdNcell
  sib1Sfn :=
    let frames := sib1Frames q.nIdNcell mib.schedInfoSib1
    frames ++ q.sib1Sfn.drop frames.length
  mib := some mib
  size := by
    have few := raNRepSib1Nb_le mib.schedInfoSib1
    rw [List.length_append, List.length_drop, q.size, sib1Frames_length]
    omega

/-- `srslte_nbiot_ue_dl_is_sib1_sf` -/
def isSib1Sf (q : NbiotUeDl) (sfn sfIdx : Nat) : Bool :=
  if sfIdx ≠ 4 then false
  else
    match q.mib with
    | none => false
    | some mib =>
        q.sib1Sfn.any fun start =>
          decide (start ≤ sfn) && decide (sfn < start + 16) &&
            (sfn + raNbiotSib1Start q.nIdNcell mib.schedInfoSib1) % 2 == 0

/-- `srslte_nbiot_ue_dl_get_next_sib1_start` -/
def getNextSib1Start (q : NbiotUeDl) (currentSfn : Nat) : Nat :=
  match q.mib with
  | none => 0
  | some mib =>
      let offset := (raNbiotGetStartingSib1Frame q.nIdNcell mib.schedInfoSib1).toNat
      let periods := (List.range 4).map fun k => k * 256 + offset
      (periods.find? fun period => decide (currentSfn < period)).getD (q.sib1Sfn.getD 0 0)

/-- `srslte_nbiot_ue_dl_get_sib1_grant` -/
def getSib1Grant (q : NbiotUeDl) (mode : NbiotMode) (sfn : Nat) : Option RaNbiotDlGrant :=
  let schedInfoSib1 := (q.mib.map MibNb.schedInfoSib1).getD 0
  raNbiotDlDciToGrant { alloc := { hasSib1 := true, schedInfoSib1 } } (q.getNextSib1Start sfn) 4 dummyRMax true
    mode

theorem sib1Sfn_setMib (q : NbiotUeDl) {mib : MibNb} (read : mib.schedInfoSib1 = 5) :
    (q.setMib mib).sib1Sfn = (List.range 64).map (16 * · + q.nIdNcell % 2) := by
  have frames := sib1Frames_sixteen q.nIdNcell
  have full : q.sib1Sfn.drop 64 = [] := List.drop_eq_nil_of_le (Nat.le_of_eq q.size)
  simp only [setMib, read, frames, List.length_map, List.length_range, full, List.append_nil]

/-- With this MIB the UE looks in subframe 4 of every frame that is even or odd as the cell is. -/
theorem isSib1Sf_setMib (q : NbiotUeDl) {mib : MibNb} (read : mib.schedInfoSib1 = 5) {sfn : Nat} (sfIdx : Nat)
    (inside : sfn < 1024) :
    (q.setMib mib).isSib1Sf sfn sfIdx = true ↔ sfIdx = 4 ∧ sfn % 2 = q.nIdNcell % 2 := by
  have start : raNbiotSib1Start q.nIdNcell mib.schedInfoSib1 = q.nIdNcell % 2 := by
    have sixteen : raNRepSib1Nb 5 = 16 := rfl
    rw [read, raNbiotSib1Start, sixteen]
    rcases Nat.mod_two_eq_zero_or_one q.nIdNcell with even | odd
    · rw [even]
      rfl
    · rw [odd]
      rfl
  have below := Nat.mod_lt q.nIdNcell Nat.two_pos
  have cell : (q.setMib mib).nIdNcell = q.nIdNcell := rfl
  have known : (q.setMib mib).mib = some mib := rfl
  unfold isSib1Sf
  rw [known, sib1Sfn_setMib q read, cell]
  dsimp only
  rw [start]
  by_cases sub : sfIdx = 4
  · rw [if_neg (not_not.mpr sub)]
    simp only [List.any_map, List.any_eq_true, List.mem_range, Function.comp, Bool.and_eq_true,
      decide_eq_true_eq, beq_iff_eq]
    constructor
    · rintro ⟨i, -, -, even⟩
      exact ⟨sub, by omega⟩
    · rintro ⟨-, same⟩
      exact ⟨(sfn - q.nIdNcell % 2) / 16, by omega, by omega, by omega⟩
  · rw [if_pos sub]
    simp [sub]

/-- A UE waits for the first frame of a period. -/
theorem getNextSib1Start_setMib (q : NbiotUeDl) {mib : MibNb} (read : mib.schedInfoSib1 = 5)
    (currentSfn : Nat) :
    (q.setMib mib).getNextSib1Start currentSfn % 256 = q.nIdNcell % 2 := by
  have below := Nat.mod_lt q.nIdNcell Nat.two_pos
  have offset :
      (raNbiotGetStartingSib1Frame (q.setMib mib).nIdNcell mib.schedInfoSib1).toNat = q.nIdNcell % 2 := by
    rw [read]
    exact startingSib1Frame_sixteen q.nIdNcell
  have known : (q.setMib mib).mib = some mib := rfl
  unfold getNextSib1Start
  rw [known]
  dsimp only
  rw [offset, sib1Sfn_setMib q read]
  cases found : ((List.range 4).map fun k => k * 256 + q.nIdNcell % 2).find?
      fun period => decide (currentSfn < period) with
  | none =>
      change (16 * 0 + q.nIdNcell % 2) % 256 = q.nIdNcell % 2
      omega
  | some period =>
      obtain ⟨k, -, rfl⟩ := List.mem_map.mp (List.mem_of_find?_eq_some found)
      rw [Option.getD_some]
      omega

/-- The grant of the UE is that of the worker, but for the MCS, which a SIB1 has not. -/
theorem getSib1Grant_setMib (q : NbiotUeDl) {mib : MibNb} (read : mib.schedInfoSib1 = 5) (mode : NbiotMode)
    {sfn tti : Nat} (first : tti / 10 = (q.setMib mib).getNextSib1Start sfn) (sub : tti % 10 = 4) :
    (q.setMib mib).getSib1Grant mode sfn =
      some { DlWorker.grantOf mode raDlSib1 tti true with mcsIdx := 0 } := by
  have known : ((q.setMib mib).mib.map MibNb.schedInfoSib1).getD 0 = 5 := read
  rw [getSib1Grant, DlWorker.grantOf, known, first, sub]
  rfl

end NbiotUeDl

theorem schedInfo_read (mode : NbiotMode) (n : Nat) :
    (npbchMibUnpack (mibAt (cellMib mode) n)).schedInfoSib1 = 5 := by
  rw [mibAt, npbchMibUnpack_pack _ _ (cellMib_schedInfo mode) (cellMib_tag mode)]
  rfl

namespace Sched

/-- In every run and every TTI, a UE that has read a MIB of a cell with an odd identity looks for SIB1
    exactly where there is one. Where the identity is even, it never finds it. -/
theorem sib1_found {start : Nat} {inputs : List TtiCalls} {last : Sched} {log : List TtiLog}
    (ran : run start inputs = some (last, log)) {o : TtiLog} (member : o ∈ log) (q : NbiotUeDl)
    (mode : NbiotMode) (n : Nat) :
    let ue := q.setMib (npbchMibUnpack (mibAt (cellMib mode) n))
    (q.nIdNcell % 2 = 1 → (ue.isSib1Sf o.sfn o.sfIdx = true ↔ o.dl.sib1.length = 1)) ∧
      (q.nIdNcell % 2 = 0 → ue.isSib1Sf o.sfn o.sfIdx = true → o.dl.sib1 = []) := by
  intro ue
  obtain ⟨s, rx, c, s', windows, stepped⟩ := Ticking.run_mem_invariant (I := Windows)
    (fun _ _ _ _ _ windows stepped => tti_windows windows stepped) (init_windows start) ran member
  have rxOf := (tti_cases stepped).1
  have read := schedInfo_read mode n
  have inside : o.sfn < 1024 := by
    unfold TtiLog.sfn
    omega
  have looks := q.isSib1Sf_setMib read o.sfIdx inside
  rw [looks]
  simp only [TtiLog.sfIdx, TtiLog.sfn, TtiLog.tx, rxOf]
  rcases tti_sib1 windows stepped with ⟨occasion, sent, -⟩ | ⟨other, sent, -⟩
  · rw [sent]
    refine ⟨fun odd => ?_, fun even => ?_⟩
    · exact iff_of_true ⟨by omega, by omega⟩ rfl
    · rintro ⟨-, same⟩
      omega
  · rw [sent]
    refine ⟨fun odd => ?_, fun _ _ => rfl⟩
    refine iff_of_false ?_ (by decide)
    rintro ⟨sub, same⟩
    omega

/-- Fifteen idle TTIs from TX TTI 0 reach subframe 4 of frame 1. -/
theorem idle_frame_one : ∃ last log o, run 10236 (idleTtis 15) = some (last, log) ∧ o ∈ log ∧ o.sfIdx = 4 ∧
    o.sfn = 1 := by
  have checked : ((run 10236 (idleTtis 15)).any fun r => r.2.any fun o =>
      decide (o.sfIdx = 4) && decide (o.sfn = 1)) = true := by decide +kernel
  obtain ⟨⟨last, log⟩, ran, facts⟩ := Option.any_eq_true .. |>.mp checked
  obtain ⟨o, member, facts⟩ := List.any_eq_true.mp facts
  simp only [Bool.and_eq_true, decide_eq_true_eq] at facts
  exact ⟨last, log, o, ran, member, facts⟩

/-- The SIB1 of frame 1, which a UE in cell 99 looks for, and one in cell 98 does not. -/
theorem odd_cell_finds_sib1 :
    let ueOf (cell : Nat) := NbiotUeDl.setMib ⟨cell, List.replicate 64 0, none, List.length_replicate⟩
      (npbchMibUnpack (mibAt (cellMib .standalone) 0))
    ∃ last log o, run 10236 (idleTtis 15) = some (last, log) ∧ o ∈ log ∧ o.sfn = 1 ∧ o.dl.sib1.length = 1 ∧
      (ueOf 99).isSib1Sf o.sfn o.sfIdx = true ∧ (ueOf 98).isSib1Sf o.sfn o.sfIdx = false := by
  intro ueOf
  obtain ⟨last, log, o, ran, member, sfIdx, sfn⟩ := idle_frame_one
  have looks : (ueOf 99).isSib1Sf o.sfn o.sfIdx = true := by
    rw [sfn, sfIdx]
    decide +kernel
  have sent := ((sib1_found ran member _ .standalone 0).1 rfl).mp looks
  refine ⟨last, log, o, ran, member, sfn, sent, looks, Bool.eq_false_iff.mpr fun looks98 => ?_⟩
  have none := (sib1_found ran member _ .standalone 0).2 rfl looks98
  rw [none] at sent
  cases sent

/-- In every run from TX TTI 0, where a UE in an odd cell waits for the next SIB1, from whatever frame on,
    MAC begins one, and both have the same grant for it. -/
theorem sib1_received {start : Nat} {inputs : List TtiCalls} {last : Sched} {log : List TtiLog}
    (fromZero : (start + 4) % 10240 = 0) (ran : run start inputs = some (last, log)) {o : TtiLog}
    (member : o ∈ log) (q : NbiotUeDl) (odd : q.nIdNcell % 2 = 1) (mode : NbiotMode) (n currentSfn : Nat) :
    let ue := q.setMib (npbchMibUnpack (mibAt (cellMib mode) n))
    o.sfn = ue.getNextSib1Start currentSfn → o.sfIdx = 4 →
      o.dl.sib1 = [⟨raDlSib1, true⟩] ∧
        ue.getSib1Grant mode currentSfn =
          some { DlWorker.grantOf mode raDlSib1 (o.tx % 10240) true with mcsIdx := 0 } := by
  intro ue first sub
  have initial : InPhase start init := by
    change 0 = (start + 9) / 20 % 128
    omega
  obtain ⟨s, rx, c, s', ⟨windows, phase⟩, stepped⟩ := Ticking.run_mem_invariant
    (I := fun n s => Windows n s ∧ InPhase n s)
    (fun _ _ _ _ _ inv stepped => ⟨tti_windows inv.1 stepped, tti_inPhase inv.1 inv.2 stepped⟩)
    ⟨init_windows start, initial⟩ ran member
  have read := schedInfo_read mode n
  refine ⟨?_, q.getSib1Grant_setMib read mode first sub⟩
  have period := q.getNextSib1Start_setMib read currentSfn
  rw [← first, odd] at period
  simp only [TtiLog.sfIdx, TtiLog.sfn, TtiLog.tx, (tti_cases stepped).1] at period sub
  unfold InPhase at phase
  have begins : s.sib1SfIdx = 0 := by omega
  rcases tti_sib1 windows stepped with ⟨-, sent, -⟩ | ⟨other, -, -⟩
  · rw [sent, begins]
    rfl
  · omega

/-- A UE that waits from frame 1000 on begins in frame 1. -/
theorem sib1_received_in_frame_one :
    let ue := NbiotUeDl.setMib ⟨99, List.replicate 64 0, none, List.length_replicate⟩
      (npbchMibUnpack (mibAt (cellMib .standalone) 0))
    ∃ last log o, run 10236 (idleTtis 15) = some (last, log) ∧ o ∈ log ∧ o.sfn = 1 ∧
      o.dl.sib1 = [⟨raDlSib1, true⟩] ∧
        ue.getSib1Grant .standalone 1000 =
          some { DlWorker.grantOf .standalone raDlSib1 (o.tx % 10240) true with mcsIdx := 0 } := by
  intro ue
  obtain ⟨last, log, o, ran, member, sfIdx, sfn⟩ := idle_frame_one
  have waits : ue.getNextSib1Start 1000 = 1 := by decide +kernel
  exact ⟨last, log, o, ran, member, sfn,
    sib1_received (by decide) ran member _ (by decide) .standalone 0 1000 (sfn.trans waits.symm) sfIdx⟩

end Sched

end SonicaEnb
