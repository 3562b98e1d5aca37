import SonicaEnb.Mac.SchedCarrier

/-! # The MAC between scheduler and PHY

`mac` turns scheduling results into the grants PHY works on and keeps, for each
UE, the receive buffers of the grants that are on their way. Buffers are
pointers in the source; here a buffer is named by the array it stands in, and a
receive buffer by the number of the request that took it from the pool.
-/

namespace SonicaEnb

/-! ## Downlink -/

/-- What the data pointer of a downlink grant can point to. -/
inductive TxBuffer where
  /-- `read_pdu_bcch_dlsch(index)` of RRC -/
  | bcch (index : Nat)
  /-- `rar_payload[index]` -/
  | rarPayload (index : Nat)
  /-- the transmit payload of the UE -/
  | ueTx (rnti : Nat)
  deriving Repr, DecidableEq

/-- `dl_sched_grant_t` -/
structure DlSchedGrant where
  dci : RaNbiotDlDci := {}
  data : Option TxBuffer := none
  hasNpdcch : Bool := false
  isNewSib : Bool := false
  deriving Repr, DecidableEq

/-- `dl_sched_t` -/
structure DlSchedPhy where
  npdsch : DlSchedGrant := {}
  nofGrants : Nat := 0
  deriving Repr, DecidableEq

/-- `rar_payload_len` -/
def rarPayloadLen : Nat := 128

/-- `assemble_rar`, of which PHY sees the buffer. -/
def assembleRar (rarIdx pduLen : Nat) : Option TxBuffer :=
  if pduLen < rarPayloadLen then some (.rarPayload rarIdx) else none

namespace DlSchedPhy

/-- One turn of the loop over data elements; `known` says which RNTIs stand in `mac::ue_db`. -/
def copyData (known : Nat → Bool) (res : DlSchedPhy) (elem : DlSchedData) : DlSchedPhy :=
  let rnti := elem.dci.alloc.rnti
  if known rnti then
    { npdsch := { res.npdsch with
        dci := elem.dci
        hasNpdcch := true
        data := if elem.pdu.length > 0 then some (.ueTx rnti) else none }
      nofGrants := res.nofGrants + 1 }
  else res

def copyRar (res : DlSchedPhy) (elem : DlSchedRar × Nat) : DlSchedPhy :=
  { npdsch := { res.npdsch with
      dci := elem.1.dci
      hasNpdcch := true
      data := assembleRar elem.2 elem.1.tbs }
    nofGrants := res.nofGrants + 1 }

def copyBc (res : DlSchedPhy) (elem : DlSchedBc) : DlSchedPhy :=
  { npdsch := {
      dci := elem.dci
      hasNpdcch := false
      isNewSib := elem.isNewSib
      data := some (.bcch (if elem.dci.alloc.hasSib1 then 0 else 1)) }
    nofGrants := res.nofGrants + 1 }

end DlSchedPhy

/-- `mac::get_dl_sched` on the result of the scheduler. There is one grant record: data, RAR and
    SIB elements are written into it in this order, and the last one stays. -/
def getDlSched (known : Nat → Bool) (result : DlSchedRes) : DlSchedPhy :=
  let res := result.data.foldl (DlSchedPhy.copyData known) {}
  let res := result.rar.zipIdx.foldl DlSchedPhy.copyRar res
  result.bc.foldl DlSchedPhy.copyBc res

/-! ## Uplink -/

/-- `SRSLTE_FDD_NOF_HARQ` -/
def nofRxHarqProc : Nat := 8

/-- `ue`, of which the uplink path uses `pending_buffers`. -/
structure MacUe where
  pendingBuffers : Nat → Option Nat := fun _ => none

/-- `ul_sched_grant_t` -/
structure UlSchedGrant where
  needsNpdcch : Bool
  dci : NbiotDciUl
  data : Option Nat
  deriving Repr, DecidableEq

/-- `mac`, of which the uplink path uses the UEs. `nextBuffer` numbers the buffers that have left
    the pool: no two requests answer the same buffer. -/
structure MacUl where
  ueDb : SortedMap Nat MacUe := SortedMap.empty
  nextBuffer : Nat := 0

namespace MacUe

def setPending (ue : MacUe) (tti : Nat) (buffer : Option Nat) : MacUe :=
  { pendingBuffers := fun i =>
      if i = tti % nofRxHarqProc then buffer else ue.pendingBuffers i }

/-- `request_buffer`: nothing is handed out while the buffer of the same slot is still pending. -/
def requestBuffer (ue : MacUe) (fresh tti len : Nat) : Option Nat × MacUe :=
  if len > 0 then
    match ue.pendingBuffers (tti % nofRxHarqProc) with
    | none => (some fresh, ue.setPending tti (some fresh))
    | some _ => (none, ue)
  else (none, ue)

/-- `push_pdu`, which empties the slot and queues its buffer. -/
def pushPdu (ue : MacUe) (tti : Nat) : MacUe := ue.setPending tti none

/-- `deallocate_pdu`, which empties the slot and gives its buffer back. -/
def deallocatePdu (ue : MacUe) (tti : Nat) : MacUe := ue.setPending tti none

end MacUe

namespace MacUl

/-- The loop of `mac::get_ul_sched` over the elements of the scheduler's result. -/
def getUlSched (ttiTxUl : Nat) : List UlSchedData → MacUl → List UlSchedGrant × MacUl
  | [], mac => ([], mac)
  | elem :: rest, mac =>
      if elem.tbs > 0 then
        match mac.ueDb.find? elem.dci.rnti with
        | none => getUlSched ttiTxUl rest mac
        | some ue =>
            let (data, ue') := ue.requestBuffer mac.nextBuffer ttiTxUl elem.tbs
            let (grants, mac') := getUlSched ttiTxUl rest
              { ueDb := mac.ueDb.modify elem.dci.rnti fun _ => ue'
                nextBuffer := mac.nextBuffer + 1 }
            (⟨elem.needsNpdcch, elem.dci, data⟩ :: grants, mac')
      else getUlSched ttiTxUl rest mac

/-- `mac::crc_info` -/
def crcInfo (mac : MacUl) (ttiRx rnti : Nat) (crc : Bool) : MacUl :=
  { mac with ueDb := mac.ueDb.modify rnti fun ue =>
      if crc then ue.pushPdu ttiRx else ue.deallocatePdu ttiRx }

/-- A UE enters (`rach_detected`) or leaves (`ue_rem`) the database. -/
def ueAdd (mac : MacUl) (rnti : Nat) : MacUl := { mac with ueDb := mac.ueDb.insert rnti {} }

def ueRem (mac : MacUl) (rnti : Nat) : MacUl := { mac with ueDb := mac.ueDb.erase rnti }

end MacUl

end SonicaEnb
