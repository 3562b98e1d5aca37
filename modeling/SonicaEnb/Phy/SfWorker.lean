import SonicaEnb.Phy.Npdsch

/-! # The subframe worker

`sf_worker` runs once per TTI, always in the same thread (`nof_workers` is 1).
Its downlink and uplink halves share no field, so each has a record of its own;
the static variables of the file stand in the half that uses them. A log of each
half keeps what was handed to the layers below and above.
-/

namespace SonicaEnb

/-! ## Downlink -/

/-- `sf_worker::dl_grant_record` -/
structure DlGrantRecord where
  grant : RaNbiotDlGrant
  rnti : Nat
  data : Option TxBuffer
  deriving Repr, DecidableEq

/-- The TTI at which the NPDSCH of a queued grant begins. -/
def DlGrantRecord.startTti (r : DlGrantRecord) : Nat := r.grant.startSfn * 10 + r.grant.startSfidx

/-- The downlink members of `sf_worker` with `h_ndi_dl` and `h_ndi_ul`. -/
structure DlWorker where
  npdsch : Npdsch := {}
  sib1NpdschCfg : NpdschCfg := {}
  npdschCfg : NpdschCfg := {}
  npdschActive : Bool := false
  npdschRnti : Nat := 0
  npdschData : Option TxBuffer := none
  dlPendingGrants : List DlGrantRecord := []
  hNdiDl : Bool := false
  hNdiUl : Bool := false

/-- A DCI on the NPDCCH: whom it addresses and its new data indicator. -/
structure DciSent where
  rnti : Nat
  ndi : Bool
  deriving Repr, DecidableEq

/-- What one `work_dl` puts into the subframe, and the queued grant it began. -/
structure DlWorkerLog where
  ulDci : Option DciSent
  dlDci : Option DciSent
  sib1 : Option MappedBlock
  pushed : Option DlGrantRecord
  popped : Option DlGrantRecord
  npdsch : Option MappedBlock
  deriving Repr, DecidableEq

/-- `DUMMY_R_MAX` -/
def dummyRMax : Nat := 64

namespace DlWorker

/-- The uplink DCI, only ever that of the first grant. -/
def putUlDci (w : DlWorker) (ulGrants : List UlSchedGrant) : Option DciSent × DlWorker :=
  match ulGrants with
  | [] => (none, w)
  | g :: _ =>
      if g.needsNpdcch then (some ⟨g.dci.rnti, w.hNdiUl⟩, { w with hNdiUl := !w.hNdiUl })
      else (none, w)

/-- Send a block of SIB1 and forget the configuration after its last subframe. -/
def putSib1 (w : DlWorker) (grant : DlSchedGrant) (now : Nat) : Option MappedBlock × DlWorker :=
  let (mapped, w) :=
    match npdschEncodeRnti w.npdsch w.sib1NpdschCfg grant.data grant.dci.alloc.rnti now with
    | none => (none, w)
    | some (mapped, q, cfg) => (some mapped, { w with npdsch := q, sib1NpdschCfg := cfg })
  (mapped,
    if w.sib1NpdschCfg.sfIdx = w.sib1NpdschCfg.totalSf then { w with sib1NpdschCfg := {} } else w)

variable (mode : NbiotMode)

/-- The grant of a DCI received for `ttiTxDl`. An error of the conversion would leave the
    grant uninitialised. -/
def grantOf (dci : RaNbiotDlDci) (ttiTxDl : Nat) (isPrescheduled : Bool) : RaNbiotDlGrant :=
  (raNbiotDlDciToGrant dci (ttiTxDl / 10) (ttiTxDl % 10) dummyRMax isPrescheduled mode).getD {}

/-- The SIB1 case of `work_dl`; the flag is `has_sib1_cfg`. -/
def workSib1 (w : DlWorker) (grant : DlSchedGrant) (tx : Nat) :
    Bool × Option MappedBlock × DlWorker :=
  let (hasSib1Cfg, w) :=
    if grant.isNewSib then
      (true, { w with sib1NpdschCfg := SonicaEnb.npdschCfg (grantOf mode grant.dci (tx % 10240) true) })
    else (decide (w.sib1NpdschCfg.sfIdx > 0), w)
  if hasSib1Cfg then (true, w.putSib1 grant tx) else (false, none, w)

/-- Any other SIB: it takes the NPDSCH over, whatever was active. -/
def workSib2 (w : DlWorker) (grant : DlSchedGrant) (tx : Nat) : DlWorker :=
  { w with
    npdschCfg := { SonicaEnb.npdschCfg (grantOf mode grant.dci (tx % 10240) true) with hasBcch := true }
    npdschActive := true
    npdschRnti := grant.dci.alloc.rnti
    npdschData := grant.data }

/-- The record queued for a grant whose DCI goes out at `tx`. -/
def recordOf (grant : DlSchedGrant) (tx : Nat) : DlGrantRecord :=
  ⟨grantOf mode grant.dci (tx % 10240) false, grant.dci.alloc.rnti, grant.data⟩

/-- A grant with a DCI: the DCI goes out now, the data is queued. -/
def workData (w : DlWorker) (grant : DlSchedGrant) (tx : Nat) : DciSent × DlWorker :=
  (⟨grant.dci.alloc.rnti, w.hNdiDl⟩,
    { w with
      dlPendingGrants := w.dlPendingGrants ++ [recordOf mode grant tx]
      hNdiDl := !w.hNdiDl })

/-- The head of the queue is configured when its start TTI is now and the NPDSCH is free. -/
def popGrant (w : DlWorker) (ttiTxDl : Nat) : Option DlGrantRecord × DlWorker :=
  match w.dlPendingGrants with
  | [] => (none, w)
  | head :: rest =>
      if !w.npdschActive && head.grant.startSfn == ttiTxDl / 10 &&
          head.grant.startSfidx == ttiTxDl % 10 then
        (some head,
          { w with
            npdschCfg := SonicaEnb.npdschCfg head.grant
            npdschActive := true
            npdschRnti := head.rnti
            npdschData := head.data
            dlPendingGrants := rest })
      else (none, w)

/-- Send a block of the active NPDSCH and release it after the last subframe. -/
def putNpdsch (w : DlWorker) (tx : Nat) : Option MappedBlock × DlWorker :=
  let (mapped, w) :=
    match npdschEncodeRnti w.npdsch w.npdschCfg w.npdschData w.npdschRnti tx with
    | none => (none, w)
    | some (mapped, q, cfg) => (some mapped, { w with npdsch := q, npdschCfg := cfg })
  (mapped,
    if w.npdschCfg.numSf = w.npdschCfg.totalSf then { w with npdschCfg := {}, npdschActive := false }
    else w)

/-- What the grant of MAC, if any, does first: `has_sib1_cfg`, a SIB1 block, a downlink DCI with
    the record queued for it, and the worker. -/
def takeGrant (w : DlWorker) (dl : DlSchedPhy) (tx : Nat) :
    Bool × Option MappedBlock × Option (DciSent × DlGrantRecord) × DlWorker :=
  if dl.nofGrants > 0 then
    if dl.npdsch.dci.alloc.hasSib1 then
      let (hasSib1Cfg, sib1, w) := w.workSib1 mode dl.npdsch tx
      (hasSib1Cfg, sib1, none, w)
    else if !dl.npdsch.hasNpdcch then (false, none, none, w.workSib2 mode dl.npdsch tx)
    else
      let (dci, w) := w.workData mode dl.npdsch tx
      (false, none, some (dci, recordOf mode dl.npdsch tx), w)
  else (false, none, none, w)

/-- `sf_worker::work_dl` at absolute transmit time `tx`. -/
def workDl (w : DlWorker) (tx : Nat) (dl : DlSchedPhy) (ulGrants : List UlSchedGrant) :
    DlWorkerLog × DlWorker :=
  let (ulDci, w) := w.putUlDci ulGrants
  let (hasSib1Cfg, sib1, sent, w) := w.takeGrant mode dl tx
  let (popped, w) := w.popGrant (tx % 10240)
  let (npdsch, w) :=
    if !hasSib1Cfg && w.npdschActive && isValidDlSf (tx % 10240) then w.putNpdsch tx else (none, w)
  (⟨ulDci, sent.map Prod.fst, sib1, sent.map Prod.snd, popped, npdsch⟩, w)

/-- `work_dl` in consecutive TTIs, on any answers of MAC. -/
def runDl : DlWorker → Nat → List (DlSchedPhy × List UlSchedGrant) → List DlWorkerLog
  | _, _, [] => []
  | w, tx, (dl, ulGrants) :: rest =>
      (w.workDl mode tx dl ulGrants).1 :: runDl (w.workDl mode tx dl ulGrants).2 (tx + 1) rest

end DlWorker

/-! ## Uplink -/

/-- `sonica_npusch_cfg_t` -/
structure NpuschCfg where
  grant : RaNbiotUlGrant := {}
  rnti : Nat := 0
  sfIdx : Nat := 0
  numSf : Nat := 0
  deriving Repr, DecidableEq

/-- `sonica_enb_ul_nbiot_t` -/
structure EnbUl where
  npuschCfg : NpuschCfg := {}
  hasUlGrant : Bool := false
  deriving Repr, DecidableEq

/-- The return values of `sonica_enb_ul_nbiot_decode_npusch`. -/
inductive DecodeRet where
  | success
  | error
  | invalidInputs
  | expectMoreSf
  deriving Repr, DecidableEq

namespace EnbUl

/-- `sonica_enb_ul_nbiot_cfg_grant` -/
def cfgGrant (grant : RaNbiotUlGrant) (rnti : Nat) : EnbUl :=
  { npuschCfg := { grant := grant, rnti := rnti }, hasUlGrant := true }

/-- `sonica_enb_ul_nbiot_decode_npusch`. Whether the collected subframes decode is up to the
    channel (`decodes`); without a buffer the decoder refuses. -/
def decodeNpusch (q : EnbUl) (data : Option Nat) (decodes : Bool) : DecodeRet × EnbUl :=
  let cfgSf := q.npuschCfg.grant.nofSlots / 2
  if !q.hasUlGrant then (.invalidInputs, q)
  else if q.npuschCfg.numSf ≥ cfgSf then (.invalidInputs, q)
  else
    let cfg := { q.npuschCfg with
      numSf := q.npuschCfg.numSf + 1
      sfIdx := q.npuschCfg.sfIdx + 1 }
    if cfg.numSf = cfgSf * cfg.grant.nofRep then
      (if decodes && data.isSome then .success else .error, ⟨cfg, false⟩)
    else (.expectMoreSf, { q with npuschCfg := cfg })

end EnbUl

/-- A call of `crc_info`. -/
structure CrcInfo where
  tti : Nat
  rnti : Nat
  nofBytes : Nat
  crc : Bool
  deriving Repr, DecidableEq

/-- The uplink members of `sf_worker` with `msg_counter`. -/
structure UlWorker where
  ugrant : RaNbiotUlGrant := {}
  npuschRnti : Nat := 0
  npuschStart : Nat := 0
  npuschData : Option Nat := none
  hasUgrant : Bool := false
  enbUl : EnbUl := {}
  msgCounter : Nat := 0
  deriving Repr, DecidableEq

/-- What one TTI does in uplink: the grants of MAC, the RNTI and buffer configured for decoding,
    the buffer handed to the decoder with its answer, and the report to MAC. -/
structure UlWorkerLog where
  npusch : List UlSchedGrant
  configured : Option (Nat × Option Nat)
  decoding : Option (Option Nat)
  ret : Option DecodeRet
  crc : Option CrcInfo
  deriving Repr, DecidableEq

namespace UlWorker

/-- The part of `work_imp` that records a new grant: only entry 0 is looked at, and whatever was
    recorded before is overwritten. -/
def recordGrant (w : UlWorker) (ttiTxDl : Nat) (grants : List UlSchedGrant) : UlWorker :=
  match grants with
  | [] => w
  | g :: _ =>
      match raNbiotUlDciToGrant g.dci.raDci ttiTxDl with
      | none => w
      | some ugrant =>
          { w with
            ugrant := ugrant
            npuschRnti := g.dci.rnti
            npuschStart := ugrant.txTti
            npuschData := g.data
            hasUgrant := true }

/-- Length in bytes of the transport block being received. -/
def tbLen (w : UlWorker) : Nat := w.enbUl.npuschCfg.grant.tbs / 8

/-- What `work_ul` reports. A block that did not decode is replaced by canned data of its length
    and reported as received; only for other lengths, and not the first time, as failed. -/
def report (w : UlWorker) : DecodeRet → Option CrcInfo × UlWorker
  | .success => (some ⟨w.npuschStart, w.npuschRnti, w.tbLen, true⟩, { w with hasUgrant := false })
  | .error =>
      if w.tbLen = 11 then
        (some ⟨w.npuschStart, w.npuschRnti, 11, true⟩, { w with hasUgrant := false })
      else if w.tbLen = 125 then
        (some ⟨w.npuschStart, w.npuschRnti, 125, true⟩, { w with hasUgrant := false })
      else if w.msgCounter = 0 then
        (some ⟨w.npuschStart, w.npuschRnti, 15, true⟩,
          { w with hasUgrant := false, msgCounter := w.msgCounter + 1 })
      else
        (some ⟨w.npuschStart, w.npuschRnti, w.tbLen, false⟩, { w with hasUgrant := false })
  | .invalidInputs => (none, w)
  | .expectMoreSf => (none, w)

/-- `sf_worker::work_ul` -/
def workUl (w : UlWorker) (npusch : List UlSchedGrant) (ttiRx : Nat) (decodes : Bool) :
    UlWorkerLog × UlWorker :=
  let (configured, w) :=
    if w.hasUgrant && ttiRx == w.npuschStart then
      (some (w.npuschRnti, w.npuschData),
        { w with enbUl := EnbUl.cfgGrant w.ugrant w.npuschRnti })
    else (none, w)
  if w.enbUl.hasUlGrant then
    let (ret, enbUl) := w.enbUl.decodeNpusch w.npuschData decodes
    let (crc, w') := { w with enbUl := enbUl }.report ret
    (⟨npusch, configured, some w.npuschData, some ret, crc⟩, w')
  else (⟨npusch, configured, none, none, none⟩, w)

end UlWorker

/-! ## The worker -/

structure SfWorker where
  dl : DlWorker := {}
  ul : UlWorker := {}

/-- What `work_imp` leaves behind in one TTI. -/
structure WorkerLog where
  rx : Nat
  dl : DlWorkerLog
  ul : UlWorkerLog

/-- `sf_worker::work_imp` at absolute receive time `rx`, from the answers of `get_dl_sched` and
    `get_ul_sched` on; `crc_info` reaches the MAC within it. -/
def workImp (mode : NbiotMode) (w : SfWorker) (mac : MacUl) (rx : Nat) (dlGrants : DlSchedPhy)
    (ulGrants : List UlSchedGrant) (decodes : Bool) : WorkerLog × MacUl × SfWorker :=
  let ul := w.ul.recordGrant (ttiAdd (rx % 10240) fddHarqDelayUlMs) ulGrants
  let (ulLog, ul) := ul.workUl ulGrants (rx % 10240) decodes
  let mac :=
    match ulLog.crc with
    | none => mac
    | some c => mac.crcInfo c.tti c.rnti c.crc
  let (dlLog, dl) := w.dl.workDl mode (rx + fddHarqDelayUlMs) dlGrants ulGrants
  (⟨rx, dlLog, ulLog⟩, mac, ⟨dl, ul⟩)

end SonicaEnb
