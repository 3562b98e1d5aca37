import Mathlib.Algebra.Ring.Int.Defs
import Mathlib.Algebra.Ring.Nat
import SonicaEnb.Phy.RaNbiot

/-! # The scheduler's view of one UE

Buffer states, pending control elements and the two functions that turn an
allocation into a DCI. The buffers of a bearer are `int`, the calls bring `uint32_t`
and the sums are `uint32_t`: a large report may be kept as a negative number, and a
large sum comes round.
-/

namespace SonicaEnb

/-! ## Machine integers -/

/-- Conversion to `uint32_t`. -/
def toUint32 (x : Int) : Int := x % 2 ^ 32

/-- Conversion to `int`. -/
def toInt32 (x : Int) : Int := (x + 2 ^ 31) % 2 ^ 32 - 2 ^ 31

theorem toUint32_of_range {x : Int} (low : 0 ≤ x) (high : x < 2 ^ 32) : toUint32 x = x := by
  unfold toUint32
  omega

theorem toInt32_of_range {x : Int} (low : -2 ^ 31 ≤ x) (high : x < 2 ^ 31) : toInt32 x = x := by
  unfold toInt32
  omega

/-- The value that an `int` has where a `uint32_t` is asked for. -/
def asUint32 (x : Int) : Nat := (toUint32 x).toNat

theorem asUint32_of_range {x : Int} (low : 0 ≤ x) (high : x < 2 ^ 32) : asUint32 x = x.toNat := by
  rw [asUint32, toUint32_of_range low high]

/-! ## The UE -/

/-- `sched_interface::MAX_LC` -/
def maxLc : Nat := 6

/-- `srslte::dl_sch_lcid` -/
inductive DlSchLcid where
  | ccch
  | reserved
  | scellActivation4Octet
  | scellActivation
  | conResId
  | taCmd
  | drxCmd
  | padding
  deriving Repr, DecidableEq

namespace DlSchLcid

/-- The value written into a subheader. -/
def code : DlSchLcid → Nat
  | ccch => 0
  | reserved => 17
  | scellActivation4Octet => 24
  | scellActivation => 27
  | conResId => 28
  | taCmd => 29
  | drxCmd => 30
  | padding => 31

def ceSize : DlSchLcid → Nat
  | scellActivation4Octet => 4
  | scellActivation => 1
  | conResId => 6
  | taCmd => 1
  | drxCmd => 0
  | _ => 0

def ceSubheaderSize (_ : DlSchLcid) : Nat := 1

def ceTotalSize (ce : DlSchLcid) : Nat := ce.ceSubheaderSize + ce.ceSize

end DlSchLcid

/-- `ue_bearer_cfg_t::direction` -/
inductive BearerDirection where
  | idle
  | ul
  | dl
  | both
  deriving Repr, DecidableEq

/-- `ue_cfg_t`, of which the scheduler reads the bearer directions. -/
structure UeCfg where
  ueBearers : List BearerDirection
  deriving Repr, DecidableEq

/-- `sched_ue::ue_bearer_t` -/
structure UeBearer where
  direction : BearerDirection := .idle
  bufTx : Int := 0
  bufRetx : Int := 0
  bsr : Int := 0
  deriving Repr, DecidableEq

/-- `sched_ue` -/
structure SchedUe where
  rnti : Nat
  sr : Bool := false
  lch : List UeBearer := List.replicate maxLc {}
  msgWaitTimer : Nat := 0
  pendingCes : List DlSchLcid := []
  deriving Repr, DecidableEq

/-- `dl_sched_pdu_t` -/
structure DlSchedPdu where
  lcid : Nat
  nbytes : Nat
  deriving Repr, DecidableEq

/-- `dl_sched_data_t`, first transport block. -/
structure DlSchedData where
  dci : RaNbiotDlDci
  tbs : Nat
  pdu : List DlSchedPdu
  deriving Repr, DecidableEq

/-- `ul_sched_data_t` -/
structure UlSchedData where
  needsNpdcch : Bool
  tbs : Nat
  dci : NbiotDciUl
  deriving Repr, DecidableEq

def bearerIsUl (b : UeBearer) : Bool := b.direction == .ul || b.direction == .both

def bearerIsDl (b : UeBearer) : Bool := b.direction == .dl || b.direction == .both

/-- `sched_utils::get_mac_subheader_sdu_size` -/
def getMacSubheaderSduSize (sduBytes : Nat) : Nat :=
  if sduBytes = 0 then 0 else if sduBytes > 128 then 3 else 2

/-- `min_alloc_bytes` of `get_requested_dl_bytes`: subheader and RLC header. -/
def minAllocBytes : Nat := 5

/-- `compute_sdu_total_bytes` -/
def computeSduTotalBytes (lcid bufferBytes : Nat) : Nat :=
  if bufferBytes = 0 then 0
  else
    let subheaderAndSdu := (bufferBytes + getMacSubheaderSduSize bufferBytes) % 2 ^ 32
    if lcid = 0 then subheaderAndSdu else max subheaderAndSdu minAllocBytes

/-- Retransmission and transmission bytes of one bearer, with their subheaders. -/
def UeBearer.sduTotalBytes (lcid : Nat) (b : UeBearer) : Nat :=
  (computeSduTotalBytes lcid (asUint32 b.bufRetx) + computeSduTotalBytes lcid (asUint32 b.bufTx)) % 2 ^ 32

/-! ## Downlink buffers into a transport block -/

/-- `alloc_rlc_pdu`: the first bearer with data gives up to `remTbs` bytes, retransmissions
    before new data. The answer is its index, the bytes taken and the bearers afterwards. -/
def allocRlcPdu (remTbs : Nat) : List UeBearer → Option (Nat × Nat × List UeBearer)
  | [] => none
  | b :: rest =>
      if 0 < b.bufRetx then
        let bytes := min b.bufRetx.toNat remTbs
        some (0, bytes, { b with bufRetx := b.bufRetx - bytes } :: rest)
      else if 0 < b.bufTx then
        let bytes := min b.bufTx.toNat remTbs
        some (0, bytes, { b with bufTx := b.bufTx - bytes } :: rest)
      else
        match allocRlcPdu remTbs rest with
        | none => none
        | some (lcid, bytes, rest') => some (lcid + 1, bytes, b :: rest')

/-- One bearer gives, its retransmissions first. -/
theorem allocRlcPdu_cases {remTbs j bytes : Nat} {lch lch' : List UeBearer}
    (ran : allocRlcPdu remTbs lch = some (j, bytes, lch')) :
    ∃ b, lch[j]? = some b ∧
      ((0 < b.bufRetx ∧ bytes = min b.bufRetx.toNat remTbs ∧
          lch' = lch.set j { b with bufRetx := b.bufRetx - bytes }) ∨
        (b.bufRetx ≤ 0 ∧ 0 < b.bufTx ∧ bytes = min b.bufTx.toNat remTbs ∧
          lch' = lch.set j { b with bufTx := b.bufTx - bytes })) := by
  induction lch generalizing j lch' with
  | nil => cases ran
  | cons b rest ih =>
      unfold allocRlcPdu at ran
      split at ran
      · rename_i retx
        cases ran
        exact ⟨b, rfl, .inl ⟨retx, rfl, rfl⟩⟩
      · rename_i noRetx
        split at ran
        · rename_i tx
          cases ran
          exact ⟨b, rfl, .inr ⟨Int.not_lt.mp noRetx, tx, rfl, rfl⟩⟩
        · split at ran
          · cases ran
          · rename_i later
            cases ran
            obtain ⟨b', here, ⟨retx, taken, rfl⟩ | ⟨noRetx', tx, taken, rfl⟩⟩ := ih later
            · exact ⟨b', here, .inl ⟨retx, taken, rfl⟩⟩
            · exact ⟨b', here, .inr ⟨noRetx', tx, taken, rfl⟩⟩

/-- `compute_subheader_size` -/
def computeSubheaderSize (sduSize : Nat) : Nat := if sduSize > 128 then 3 else 2

/-- `min_mac_sdu_size` -/
def minMacSduSize : Nat := 5

/-- The loop of `allocate_mac_sdus`. Every turn takes at least one byte and a subheader, so the
    size of the block is fuel enough. Answers the SDUs, the bearers and the bytes left. -/
def allocateMacSdusLoop : Nat → List UeBearer → Nat → List DlSchedPdu × List UeBearer × Nat
  | 0, lch, remTbs => ([], lch, remTbs)
  | fuel + 1, lch, remTbs =>
      if remTbs < minMacSduSize then ([], lch, remTbs)
      else
        match allocRlcPdu (remTbs - computeSubheaderSize (remTbs - 2)) lch with
        | none => ([], lch, remTbs)
        | some (lcid, bytes, lch') =>
            if bytes = 0 then ([], lch, remTbs)
            else
              let (pdus, last, left) :=
                allocateMacSdusLoop fuel lch' (remTbs - (bytes + computeSubheaderSize bytes))
              (⟨lcid, bytes⟩ :: pdus, last, left)

def allocateMacSdus (lch : List UeBearer) (totalTbs : Nat) :
    List DlSchedPdu × List UeBearer × Nat :=
  allocateMacSdusLoop totalTbs lch totalTbs

/-- `allocate_mac_ces`: queued control elements from the front, up to the first that does not
    fit. Answers the elements taken, those left and the bytes left. -/
def allocateMacCes : List DlSchLcid → Nat → List DlSchLcid × List DlSchLcid × Nat
  | [], remTbs => ([], [], remTbs)
  | ce :: ces, remTbs =>
      if remTbs < ce.ceTotalSize then ([], ce :: ces, remTbs)
      else
        let (taken, left, rem) := allocateMacCes ces (remTbs - ce.ceTotalSize)
        (ce :: taken, left, rem)

namespace SchedUe

/-- `sched_ue()` followed by `init` -/
def init (rnti : Nat) : SchedUe := { rnti := rnti }

def setCfg (ue : SchedUe) (cfg : UeCfg) : SchedUe :=
  { ue with lch := ue.lch.mapIdx fun i b => { b with direction := cfg.ueBearers.getD i .idle } }

/-- The logical channel arrives as a `uint8_t`, the bytes as `uint32_t`. -/
def dlBufferState (ue : SchedUe) (lcId txQueue retxQueue : Nat) : SchedUe :=
  if lcId % 256 < maxLc then
    { ue with lch := ue.lch.modify (lcId % 256) fun b =>
        { b with bufRetx := toInt32 retxQueue, bufTx := toInt32 txQueue } }
  else ue

def macBufferState (ue : SchedUe) (cmd : DlSchLcid) (nofCmds : Nat) : SchedUe :=
  if cmd = .conResId then { ue with pendingCes := List.replicate nofCmds cmd ++ ue.pendingCes }
  else { ue with pendingCes := ue.pendingCes ++ List.replicate nofCmds cmd }

def ulBufferState (ue : SchedUe) (lcId bsr : Nat) (setValue : Bool) : SchedUe :=
  if lcId % 256 < maxLc then
    { ue with lch := ue.lch.modify (lcId % 256) fun b =>
        { b with bsr := toInt32 (if setValue then bsr else b.bsr + bsr) } }
  else ue

def ulWaitTimer (ue : SchedUe) (waitTime : Nat) (setValue : Bool) : SchedUe :=
  { ue with msgWaitTimer := (if setValue then waitTime else ue.msgWaitTimer + waitTime) % 2 ^ 32 }

/-- `get_requested_dl_bytes`: least and most bytes worth allocating. -/
def getRequestedDlBytes (ue : SchedUe) : Nat × Nat :=
  match ue.lch with
  | [] => (0, 0)
  | srb0 :: rbs =>
      if !bearerIsDl srb0 then (0, 0)
      else
        let srb0Data :=
          if srb0.bufTx > 0 ∨ srb0.bufRetx > 0 then srb0.sduTotalBytes 0 else 0
        let sumCeData := (ue.pendingCes.map DlSchLcid.ceTotalSize).sum % 2 ^ 32
        let rbData := (rbs.map fun b => if bearerIsDl b then b.sduTotalBytes 1 else 0).sum % 2 ^ 32
        let maxData := (srb0Data + sumCeData + rbData) % 2 ^ 32
        let minData := srb0Data +
          match ue.pendingCes with
          | .conResId :: _ => DlSchLcid.conResId.ceTotalSize
          | _ => 0
        let minData := minData % 2 ^ 32
        let minData :=
          if minData = 0 then
            if sumCeData > 0 then (ue.pendingCes.head?.map DlSchLcid.ceTotalSize).getD 0
            else if rbData > 0 then minAllocBytes
            else 0
          else minData
        (minData, maxData)

/-- `get_pending_dl_new_data`; the two buffers of a bearer are added as `int`, which comes round. -/
def getPendingDlNewData (ue : SchedUe) : Nat :=
  ((ue.lch.map fun b => if bearerIsDl b then asUint32 (toInt32 (b.bufRetx + b.bufTx)) else 0).sum +
    (ue.pendingCes.map DlSchLcid.ceTotalSize).sum) % 2 ^ 32

/-- `get_pending_ul_new_data`; no carrier holds uplink HARQ data to subtract. -/
def getPendingUlNewData (ue : SchedUe) : Nat :=
  let pendingData := (ue.lch.map fun b => if bearerIsUl b then asUint32 b.bsr else 0).sum % 2 ^ 32
  if pendingData = 0 ∧ ue.sr then 125 else pendingData

/-- The MCS loop of `generate_formatN1`: the first whose block exceeds the request, else 12. -/
def selectMcs (maxData iSf : Nat) : Nat :=
  ((List.range 13).find? fun mcs => decide (tbsNbiot mcs iSf / 8 > maxData)).getD 12

/-- `generate_formatN1`: fill a transport block from the queues of the UE. -/
def generateFormatN1 (ue : SchedUe) (iSf : Nat) : DlSchedData × SchedUe :=
  let finalMcs := selectMcs ue.getRequestedDlBytes.2 iSf
  let tbsBytes := tbsNbiot finalMcs iSf / 8
  let (ces, cesLeft, remTbs) := allocateMacCes ue.pendingCes tbsBytes
  let (sdus, lch, _) := allocateMacSdus ue.lch remTbs
  let dci : RaNbiotDlDci :=
    if tbsBytes > 0 then
      { mcsIdx := finalMcs, rvIdx := 0, ndi := true, format := 1
        alloc := { hasSib1 := false, isRa := false, rnti := ue.rnti, iDelay := 0, iSf := iSf
                   iRep := 0, harqAck := 1, iNStart := 0 } }
    else {}
  (⟨dci, tbsBytes, ces.map (fun ce => ⟨ce.code, 0⟩) ++ sdus⟩,
    { ue with pendingCes := cesLeft, lch := lch })

/-- `generate_formatN0` with 12 subcarriers and 4 resource units; the size is in bits. -/
def generateFormatN0 (ue : SchedUe) (needsNpdcch : Bool) (mcs : Nat) : UlSchedData :=
  let tbs := tbsNpusch mcs 3
  ⟨needsNpdcch, tbs,
    if tbs > 0 then
      { rnti := ue.rnti, raDci := { iMcs := mcs, iRu := 3, iSc := 18 } }
    else {}⟩

end SchedUe

end SonicaEnb
