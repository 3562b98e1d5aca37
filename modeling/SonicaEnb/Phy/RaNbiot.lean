import Mathlib.Data.List.Basic

/-! # NB-IoT resource allocation

The TTI arithmetic and the part of `ra_nbiot.c` that turns downlink and uplink
control information into grants. TTIs are natural numbers below 10240, as the
code keeps them; every wrap is written out.
-/

namespace SonicaEnb

/-- `FDD_HARQ_DELAY_UL_MS` -/
def fddHarqDelayUlMs : Nat := 4

/-- `FDD_HARQ_DELAY_DL_MS` -/
def fddHarqDelayDlMs : Nat := 4

/-- `FDD_DELAY_UL_NB_MS` -/
def fddDelayUlNbMs : Nat := 9

/-- `SRSLTE_SIRNTI` -/
def siRnti : Nat := 0xFFFF

/-- `SRSLTE_PRNTI` -/
def pRnti : Nat := 0xFFFE

/-- `TTI_ADD` -/
def ttiAdd (a b : Nat) : Nat := (a + b) % 10240

/-- `TTI_SUB` -/
def ttiSub (a b : Nat) : Nat := (a + 10240 - b) % 10240

/-- Neither NPBCH (subframe 0) nor NPSS (subframe 5) nor NSSS (subframe 9 of even frames). -/
def isValidDlSf (tti : Nat) : Bool :=
  !(tti % 10 == 0 || tti % 10 == 5 || (tti % 10 == 9 && tti / 10 % 2 == 0))

/-- The loop `while (!is_valid_dl_sf(tti)) tti = (tti + 1) % 10240`. -/
def skipInvalidDlSf : Nat → Nat → Nat
  | 0, tti => tti
  | fuel + 1, tti => if isValidDlSf tti then tti else skipInvalidDlSf fuel ((tti + 1) % 10240)

/-- One turn of fuel: a loop that has seen every TTI would never stop. -/
def firstValidDlSf (tti : Nat) : Nat := skipInvalidDlSf 10240 tti

/-! ## Valid subframes in absolute time

10240 is a multiple of 20, so validity is a property of absolute time as well,
and at most two subframes in a row are invalid (9 of an even frame, then 0). -/

theorem isValidDlSf_iff (tti : Nat) : isValidDlSf tti = true ↔
    tti % 10 ≠ 0 ∧ tti % 10 ≠ 5 ∧ ¬ (tti % 10 = 9 ∧ tti / 10 % 2 = 0) := by
  simp only [isValidDlSf, Bool.not_eq_true', Bool.or_eq_false_iff, Bool.and_eq_false_iff,
    beq_eq_false_iff_ne]
  omega

@[simp] theorem isValidDlSf_mod (tti : Nat) : isValidDlSf (tti % 10240) = isValidDlSf tti := by
  rw [Bool.eq_iff_iff, isValidDlSf_iff, isValidDlSf_iff]
  omega

/-- How many subframes a transmission at `tti` is pushed back. -/
def validSkip (tti : Nat) : Nat :=
  if tti % 10 = 0 ∨ tti % 10 = 5 then 1
  else if tti % 10 = 9 ∧ tti / 10 % 2 = 0 then 2 else 0

theorem validSkip_le (tti : Nat) : validSkip tti ≤ 2 := by
  unfold validSkip; split
  · omega
  · split <;> omega

theorem validSkip_eq_zero (tti : Nat) : validSkip tti = 0 ↔ isValidDlSf tti = true := by
  rw [isValidDlSf_iff]
  unfold validSkip; split
  · omega
  · split <;> omega

theorem isValidDlSf_add_validSkip (tti : Nat) : isValidDlSf (tti + validSkip tti) = true := by
  rw [isValidDlSf_iff]
  unfold validSkip; split
  · omega
  · split <;> omega

theorem validSkip_succ {tti : Nat} (invalid : isValidDlSf tti = false) :
    tti + 1 + validSkip (tti + 1) = tti + validSkip tti := by
  have skipped : validSkip tti ≠ 0 := by
    rw [Ne, validSkip_eq_zero, invalid]; simp
  revert skipped
  unfold validSkip; split
  · split
    · omega
    · split <;> omega
  · split
    · split
      · omega
      · split <;> omega
    · simp

theorem skipInvalidDlSf_mod (fuel tti : Nat) (enough : validSkip tti ≤ fuel) :
    skipInvalidDlSf fuel (tti % 10240) = (tti + validSkip tti) % 10240 := by
  induction fuel generalizing tti with
  | zero =>
      have none : validSkip tti = 0 := by omega
      simp [skipInvalidDlSf, none]
  | succ fuel ih =>
      rw [skipInvalidDlSf, isValidDlSf_mod]
      split
      · rename_i valid
        rw [(validSkip_eq_zero tti).mpr valid, Nat.add_zero]
      · rename_i invalid
        have next := validSkip_succ (by simpa using invalid)
        rw [Nat.mod_add_mod, ih (tti + 1) (by omega), next]

/-- The skipping loop, read in absolute time. -/
theorem firstValidDlSf_mod (tti : Nat) :
    firstValidDlSf (tti % 10240) = (tti + validSkip tti) % 10240 :=
  skipInvalidDlSf_mod 10240 tti (by have := validSkip_le tti; omega)

/-! ## Downlink control information -/

/-- `srslte_ra_nbiot_t` -/
structure RaNbiotDlAlloc where
  hasSib1 : Bool := false
  rnti : Nat := 0
  isRa : Bool := false
  iDelay : Nat := 0
  iSf : Nat := 0
  iRep : Nat := 0
  iNStart : Nat := 0
  harqAck : Nat := 0
  schedInfoSib1 : Nat := 0
  deriving Repr, DecidableEq, Inhabited

/-- `srslte_ra_nbiot_dl_dci_t` -/
structure RaNbiotDlDci where
  format : Nat := 0
  alloc : RaNbiotDlAlloc := {}
  mcsIdx : Nat := 0
  rvIdx : Nat := 0
  ndi : Bool := false
  dciIsN2 : Bool := false
  deriving Repr, DecidableEq, Inhabited

/-- `srslte_nbiot_mode_t` -/
inductive NbiotMode where
  | inbandSamePci
  | inbandDifferentPci
  | guardband
  | standalone
  deriving Repr, DecidableEq

/-- `srslte_ra_nbiot_dl_grant_t` -/
structure RaNbiotDlGrant where
  qm : Nat := 0
  mcsIdx : Nat := 0
  tbs : Nat := 0
  startHfn : Nat := 0
  startSfn : Nat := 0
  startSfidx : Nat := 0
  k0 : Nat := 0
  nofSf : Nat := 0
  nofRep : Nat := 0
  lStart : Nat := 0
  ackNackResource : Nat := 0
  hasSib1 : Bool := false
  deriving Repr, DecidableEq, Inhabited

def nRepTable : List Nat :=
  [1, 2, 4, 8, 16, 32, 64, 128, 192, 256, 384, 512, 768, 1024, 1536, 2048]

def nRepTableSib1 : List Nat := [4, 8, 16, 4, 8, 16, 4, 8, 16, 4, 8, 16, 0, 0, 0, 0]

def k0TableFormatN1RSt128 : List Nat := [0, 4, 8, 12, 16, 32, 64, 128]

def k0TableFormatN1RGeq128 : List Nat := [0, 16, 32, 64, 128, 256, 512, 1024]

/-- First frame of SIB1 for 4, 8 and 16 repetitions; -1 where the standard has no entry. -/
def firstFrameSib1 : List (List Int) := [[0, 16, 32, 48], [0, 16, -1, -1], [0, 1, -1, -1]]

def tbsTableNbiot : List (List Nat) :=
  [[16, 32, 56, 88, 120, 152, 208, 256],
   [24, 56, 88, 144, 176, 208, 256, 344],
   [32, 72, 144, 176, 208, 256, 328, 424],
   [40, 104, 176, 208, 256, 328, 440, 568],
   [56, 120, 208, 256, 328, 408, 552, 680],
   [72, 144, 224, 328, 424, 504, 680, 0],
   [88, 176, 256, 392, 504, 600, 0, 0],
   [104, 224, 328, 472, 584, 680, 0, 0],
   [120, 256, 392, 536, 680, 0, 0, 0],
   [136, 296, 456, 616, 0, 0, 0, 0],
   [144, 328, 504, 680, 0, 0, 0, 0],
   [176, 376, 584, 0, 0, 0, 0, 0],
   [208, 440, 680, 0, 0, 0, 0, 0]]

def tbsTableNbiotSib1 : List Nat :=
  [208, 208, 208, 328, 328, 328, 440, 440, 440, 680, 680, 680, 0, 0, 0, 0]

/-- Transport block size in bits; out of range entries read 0. -/
def tbsNbiot (iTbs iSf : Nat) : Nat := (tbsTableNbiot.getD iTbs []).getD iSf 0

def raNRepSib1Nb (schedInfoSib1 : Nat) : Nat := nRepTableSib1.getD schedInfoSib1 0

def raNRepSib1NbIdx (schedInfoSib1 : Nat) : Nat :=
  match raNRepSib1Nb schedInfoSib1 with
  | 4 => 0
  | 8 => 1
  | 16 => 2
  | _ => 0

def raNbiotGetStartingSib1Frame (cellId schedInfoSib1 : Nat) : Int :=
  (firstFrameSib1.getD (raNRepSib1NbIdx schedInfoSib1) []).getD
    (cellId % (if raNRepSib1Nb schedInfoSib1 = 4 then 4 else 2)) 0

def raNbiotSib1Start (nIdNcell schedInfoSib1 : Nat) : Nat :=
  if raNRepSib1Nb schedInfoSib1 = 16 ∧ nIdNcell % 2 = 1 then 1 else 0

def raNRepFromDci (dci : RaNbiotDlDci) : Nat :=
  if dci.alloc.hasSib1 then nRepTableSib1.getD dci.alloc.schedInfoSib1 0
  else nRepTable.getD dci.alloc.iRep 0

def raK0FromDci (dci : RaNbiotDlDci) (rMax : Nat) : Nat :=
  if dci.dciIsN2 then 0
  else if rMax < 128 then k0TableFormatN1RSt128.getD dci.alloc.iDelay 0
  else k0TableFormatN1RGeq128.getD dci.alloc.iDelay 0

def raNSfFromDci (dci : RaNbiotDlDci) : Nat :=
  if dci.alloc.iSf < 6 then dci.alloc.iSf + 1
  else if dci.alloc.iSf = 6 then 8
  else if dci.alloc.iSf = 7 then 10
  else 1

/-- The limits `nbiot_dl_dci_to_grant_mcs` puts on the fields of a DCI. -/
def limitDlDci (dci : RaNbiotDlDci) : RaNbiotDlDci :=
  { dci with
    mcsIdx := min dci.mcsIdx 12
    alloc := { dci.alloc with
      schedInfoSib1 := min dci.alloc.schedInfoSib1 11
      iSf := min dci.alloc.iSf 7 } }

/-- `srslte_ra_nbiot_dl_dci_to_grant`; `none` is its error return, on a combination of
    MCS and subframes without a transport block size. -/
def raNbiotDlDciToGrant (dci : RaNbiotDlDci) (sfn sfIdx rMax : Nat) (isPrescheduled : Bool)
    (mode : NbiotMode) : Option RaNbiotDlGrant :=
  let dci := limitDlDci dci
  let tbs :=
    if dci.alloc.hasSib1 then tbsTableNbiotSib1.getD dci.alloc.schedInfoSib1 0
    else tbsNbiot dci.mcsIdx dci.alloc.iSf
  if tbs = 0 then none
  else
    let k0 := raK0FromDci dci rMax
    let txTti := firstValidDlSf ((sfn * 10 + sfIdx + (if isPrescheduled then 0 else 5) + k0) % 10240)
    some {
      qm := 2
      mcsIdx := dci.mcsIdx
      tbs := tbs
      startHfn := 0
      startSfn := txTti / 10
      startSfidx := txTti % 10
      k0 := k0
      nofSf := if dci.alloc.hasSib1 then 8 else raNSfFromDci dci
      nofRep := raNRepFromDci dci
      lStart := if mode = .inbandSamePci ∨ mode = .inbandDifferentPci then 3 else 0
      ackNackResource := dci.alloc.harqAck
      hasSib1 := dci.alloc.hasSib1 }

/-! ## Uplink control information -/

/-- `srslte_ra_nbiot_ul_dci_t` -/
structure RaNbiotUlDci where
  format : Nat := 0
  iSc : Nat := 0
  iDelay : Nat := 0
  iRu : Nat := 0
  iMcs : Nat := 0
  iRv : Nat := 0
  iRep : Nat := 0
  ndi : Bool := false
  deriving Repr, DecidableEq, Inhabited

/-- `srslte_nbiot_dci_ul_t` -/
structure NbiotDciUl where
  rnti : Nat := 0
  raDci : RaNbiotUlDci := {}
  deriving Repr, DecidableEq, Inhabited

/-- `srslte_ra_nbiot_ul_grant_t`, format 1 at 15 kHz as `ul_dci_to_grant` sets it. -/
structure RaNbiotUlGrant where
  qm : Nat := 0
  mcsIdx : Nat := 0
  tbs : Nat := 0
  k0 : Nat := 0
  nofRep : Nat := 0
  nofRu : Nat := 0
  nofSlots : Nat := 0
  nofSc : Nat := 0
  scAlloc : Nat := 0
  rvIdx : Nat := 0
  txTti : Nat := 0
  deriving Repr, DecidableEq, Inhabited

def nRepTableNpusch : List Nat := [1, 2, 4, 8, 16, 32, 64, 128]

def nRuTableNpusch : List Nat := [1, 2, 3, 4, 5, 6, 8, 10]

def k0TableFormatN0 : List Nat := [8, 16, 32, 64]

def iMcsToITbsNpusch : List Nat := [0, 2, 1, 3, 4, 5, 6, 7, 8, 9, 10]

def tbsTableNpusch : List (List Nat) :=
  [[16, 32, 56, 88, 120, 152, 208, 256],
   [24, 56, 88, 144, 176, 208, 256, 344],
   [32, 72, 144, 176, 208, 256, 328, 424],
   [40, 104, 176, 208, 256, 328, 440, 568],
   [56, 120, 208, 256, 328, 408, 552, 680],
   [72, 144, 224, 328, 424, 504, 680, 872],
   [88, 176, 256, 392, 504, 600, 808, 1000],
   [104, 224, 328, 472, 584, 712, 1000, 0],
   [120, 256, 392, 536, 680, 808, 0, 0],
   [136, 296, 456, 616, 776, 936, 0, 0],
   [144, 328, 504, 680, 872, 1000, 0, 0],
   [176, 376, 584, 776, 1000, 0, 0, 0],
   [208, 440, 680, 1000, 0, 0, 0, 0]]

def tbsNpusch (iTbs iRu : Nat) : Nat := (tbsTableNpusch.getD iTbs []).getD iRu 0

/-- First subcarrier and number of subcarriers named by `i_sc`. -/
def ulSubcarriers (iSc : Nat) : Option (Nat × Nat) :=
  if iSc ≤ 11 then some (iSc, 1)
  else if iSc ≤ 15 then some ((iSc - 12) * 3, 3)
  else if iSc ≤ 17 then some ((iSc - 16) * 6, 6)
  else if iSc = 18 then some (0, 12)
  else none

/-- Slots of one resource unit. -/
def slotsPerRu (nofSc : Nat) : Nat :=
  if nofSc = 1 then 16 else if nofSc = 3 then 8 else if nofSc = 6 then 4
  else if nofSc = 12 then 2 else 0

/-- `srslte_ra_nbiot_ul_dci_to_grant`; `none` is its error return. -/
def raNbiotUlDciToGrant (dci : RaNbiotUlDci) (rxTti : Nat) : Option RaNbiotUlGrant :=
  match ulSubcarriers dci.iSc with
  | none => none
  | some (scAlloc, nofSc) =>
      let nofRep := nRepTableNpusch.getD dci.iRep 0
      if nofRep ≠ 1 then none
      else
        let nofRu := nRuTableNpusch.getD dci.iRu 0
        let k0 := k0TableFormatN0.getD dci.iDelay 0
        let iTbs := if nofSc = 1 then iMcsToITbsNpusch.getD dci.iMcs 0 else dci.iMcs
        some {
          qm := if nofSc = 1 ∧ dci.iMcs ≤ 1 then 1 else 2
          mcsIdx := dci.iMcs
          tbs := tbsNpusch iTbs dci.iRu
          k0 := k0
          nofRep := nofRep
          nofRu := nofRu
          nofSlots := slotsPerRu nofSc * nofRu
          nofSc := nofSc
          scAlloc := scAlloc
          rvIdx := 2 * (dci.iRv % 2)
          txTti := (rxTti + k0 + 1) % 10240 }

end SonicaEnb
