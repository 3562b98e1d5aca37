import SonicaEnb.Lib.Run
import SonicaEnb.Mac.SchedGrid

/-! # The carrier scheduler

Broadcast, random access and user scheduling of one TTI, the ring of subframes
they write into, and the calls of the scheduler interface. The state is flat:
the one `carrier_sched` object stands in the record of `sched` itself.
-/

namespace SonicaEnb

/-! ## Broadcast -/

/-- `ra_dl_sib1` -/
def raDlSib1 : RaNbiotDlDci :=
  { mcsIdx := 1, alloc := { hasSib1 := true, rnti := siRnti, schedInfoSib1 := schedInfoSib1 } }

/-- `ra_dl_sib2` -/
def raDlSib2 : RaNbiotDlDci :=
  { mcsIdx := 3, alloc := { hasSib1 := false, rnti := siRnti, iSf := 6 } }

def sib1NumSf : Nat := 8 * raNRepFromDci raDlSib1

def sib2NumSf : Nat := 8

/-- The TTIs the SIB2 loop marks: the first `n` valid subframes from `tti` on. -/
def validDlSfs : Nat → Nat → Nat → List Nat
  | 0, _, _ => []
  | _, _, 0 => []
  | fuel + 1, tti, n + 1 =>
      if isValidDlSf tti then tti :: validDlSfs fuel ((tti + 1) % 10240) n
      else validDlSfs fuel ((tti + 1) % 10240) (n + 1)

/-- The eight subframes of a SIB2 that starts at `tti`. -/
def sib2Ttis (tti : Nat) : List Nat := validDlSfs 10240 tti sib2NumSf

/-- The SIB2 occasions of `alloc_sibs`. -/
def isSib2Sf (sfn sfIdx : Nat) : Bool :=
  sfIdx == 1 && decide (sfn % 512 < 16) && sfn % 4 == 0

/-- `bc_sched::alloc_sibs`, over the counter `sib1_sf_idx`. -/
def allocSibs (sib1SfIdx : Nat) (g : SfGrid) : Nat × SfGrid :=
  let currentTti := g.sf.ttiParams.ttiTxDl
  let sfIdx := currentTti % 10
  let sfn := currentTti / 10
  if isSib1Sf sfn sfIdx then
    if g.dlSchedTable currentTti then (sib1SfIdx, g)
    else
      let alloc : BcAlloc := ⟨raDlSib1, .dlBc, sib1SfIdx == 0⟩
      let next := sib1SfIdx + 1
      (if next = sib1NumSf then 0 else next,
        { g with
          dlSchedTable := g.dlSchedTable.set currentTti true
          sf.bcAllocs := g.sf.bcAllocs ++ [alloc] })
  else if isValidDlSf currentTti && isSib2Sf sfn sfIdx then
    if g.dlSchedTable currentTti then (sib1SfIdx, g)
    else
      (sib1SfIdx,
        { g with
          dlSchedTable := g.dlSchedTable.mark (sib2Ttis currentTti)
          sf.bcAllocs := g.sf.bcAllocs ++ [⟨raDlSib2, .dlBc, false⟩] })
  else (sib1SfIdx, g)

/-! ## Random access -/

/-- The TTI at which the NPDSCH of a RAR with its DCI at `tti` is sent. -/
def rarTxTti (tti : Nat) : Nat := firstValidDlSf ((tti + 5) % 10240)

/-- `ra_sched::dl_sched`. The loop is left in its first turn unless `alloc_rar` fails; that changes
    nothing, so the source then repeats the same turn for ever (`none`). -/
def raDlSched (pendingRars : List PendingRar) (g : SfGrid) :
    Option (AllocOutcome × List PendingRar × SfGrid) :=
  let ttiTxDl := g.sf.ttiParams.ttiTxDl
  match pendingRars with
  | [] => some (.dciCollision, [], g)
  | rar :: rest =>
      if !isValidDlSf ttiTxDl then some (.rbCollision, rar :: rest, g)
      else if g.dlSchedTable ttiTxDl then some (.rbCollision, rar :: rest, g)
      else if ttiTxDl % 16 ≥ 8 then some (.rbCollision, rar :: rest, g)
      else
        match g.allocRar rar with
        | (.success, nofRarAllocs, g) =>
            if nofRarAllocs = rar.msg3Grant.length then
              -- all grants are out: both TTIs are reserved and the element is dropped
              let table := g.dlSchedTable.set ttiTxDl true
              some (.success, rest,
                { g with dlSchedTable := table.set (rarTxTti ttiTxDl) true })
            else
              -- the grants that are left wait for another TTI; nothing is reserved
              some (.dciCollision,
                { rar with msg3Grant := rar.msg3Grant.drop nofRarAllocs } :: rest, g)
        | _ => none

/-- `ra_sched::dl_rach_info` -/
def raDlRachInfo (pendingRars : List PendingRar) (info : DlSchedRarInfo) : List PendingRar :=
  let raRnti := (1 + info.nprachTti / 10 / 4) % 65536
  let same : PendingRar → Bool := fun r => r.nprachTti == info.nprachTti && r.raRnti == raRnti
  match pendingRars.findIdx? same with
  | some i => pendingRars.modify i fun r => { r with msg3Grant := r.msg3Grant ++ [info] }
  | none => pendingRars ++ [⟨raRnti, info.nprachTti, [info]⟩]

/-- The grants of all RARs of a subframe, in the order `ra_sched::ul_sched` walks them. -/
def SfSched.msg3Grants (sf : SfSched) : List DlSchedRarGrant :=
  sf.rarAllocs.flatMap fun a => a.rarGrant

/-- `ra_sched::ul_sched`: queue the Msg3 of every grant whose UE is known. -/
def raUlSched (grants : List DlSchedRarGrant) (g : SfGrid) : SfGrid :=
  grants.foldl (fun g grant =>
    match g.ueDb.find? grant.data.tempCrnti with
    | none => g
    | some _ => (g.allocMsg3 grant.data.tempCrnti grant).2) g

/-! ## Users -/

/-- `sched::carrier_sched::allocate_user`, with the throttle kept in file-level statics. -/
def allocateUser (g : SfGrid) (user : Nat) : Option SfGrid :=
  if g.sf.isDlAlloc user then some g
  else
    let ttiDl := g.sf.ttiParams.ttiTxDl
    if g.allocActive then
      some (if (ttiDl + 10240 - g.lastAlloc) % 10240 > 25 then { g with allocActive := false } else g)
    else
      match g.ueDb.find? user with
      | none => some g
      | some ue =>
          let reqBytes := ue.getRequestedDlBytes
          if reqBytes.1 > 0 then
            match g.allocDlUser user reqBytes.2 with
            | none => none
            | some (.success, g) => some { g with lastAlloc := ttiDl, allocActive := true }
            | some (_, g) => some g
          else some g

/-- The order in which both user loops visit the database: from the entry `priority_idx` on,
    wrapping at the end. -/
def visitOrder (g : SfGrid) (tti : Nat) : List Nat :=
  g.ueDb.keys.rotate (tti % g.ueDb.keys.length)

def schedUsersDlLoop : List Nat → SfGrid → Option SfGrid
  | [], g => some g
  | user :: rest, g =>
      match allocateUser g user with
      | none => none
      | some g => schedUsersDlLoop rest g

/-- `sched_users_dl` -/
def schedUsersDl (g : SfGrid) : Option SfGrid :=
  schedUsersDlLoop (visitOrder g g.sf.ttiParams.ttiTxDl) g

/-- `sf_dl_mask`: one entry that forbids nothing. -/
def sfDlMask : List Nat := [0]

/-- `alloc_dl_users` -/
def allocDlUsers (g : SfGrid) : Option SfGrid :=
  if sfDlMask.getD (g.sf.ttiParams.ttiTxDl % sfDlMask.length) 0 ≠ 0 then some g
  else schedUsersDl g

/-- `allocate_user_newtx_prbs` -/
def allocateUserNewtxPrbs (g : SfGrid) (user : Nat) : SfGrid :=
  if g.sf.isUlAlloc user then g
  else
    match g.ueDb.find? user with
    | none => g
    | some ue =>
        if ue.getPendingUlNewData > 0 then
          match g.allocUlUser user {} with
          | (.success, g) =>
              { g with ueDb := g.ueDb.modify user fun ue =>
                  (ue.ulBufferState 0 0 true).ulBufferState 3 0 true }
          | (_, g) => g
        else g

/-- `sched_users_ul` -/
def schedUsersUl (g : SfGrid) : SfGrid :=
  (visitOrder g g.sf.ttiParams.ttiTxUl).foldl allocateUserNewtxPrbs g

/-! ## The scheduler object -/

/-- `sf_scheds.size()` -/
def nofSfScheds : Nat := 40

/-- `sched` with its carrier scheduler. The ring of results is not kept: an entry is cleared
    before every use, and its `tti_params` stays at the value 10241 of its default. -/
structure Sched extends Shared where
  sfScheds : Nat → SfSched := fun _ => {}
  sib1SfIdx : Nat := 0
  pendingRars : List PendingRar := []
  lastTti : Nat := 0

/-- `sf_sched_result::tti_params.tti_rx`, never written after its default. -/
def sfResultTtiRx : Nat := 10241

namespace Sched

/-- The state `sched::init` leaves. -/
def init : Sched := {}

/-- `get_sf_sched` -/
def getSfSched (s : Sched) (ttiRx : Nat) : SfSched :=
  let sf := s.sfScheds (ttiRx % nofSfScheds)
  if sf.ttiParams.ttiRx ≠ ttiRx then SfSched.newTti ttiRx else sf

/-- The subframe at `ttiRx` with what it shares with the others. -/
def grid (s : Sched) (ttiRx : Nat) : SfGrid := { s.toShared with sf := s.getSfSched ttiRx }

/-- Write a subframe back to its place in the ring. -/
def store (s : Sched) (ttiRx : Nat) (g : SfGrid) : Sched :=
  { s with
    toShared := g.toShared
    sfScheds := fun i => if i = ttiRx % nofSfScheds then g.sf else s.sfScheds i }

/-- The Msg3 part of `generate_tti_result`: `tti_rx + 9` is not reduced. -/
def schedMsg3 (s : Sched) (ttiRx : Nat) (sf : SfSched) : Sched :=
  s.store (ttiRx + 9) (raUlSched sf.msg3Grants (s.grid (ttiRx + 9)))

/-- Broadcast and RAR of `generate_tti_result`, up to the queueing of Msg3. -/
def schedCtrl (s : Sched) (ttiRx : Nat) : Option Sched :=
  let s := { s with dlSchedTable := s.dlSchedTable.set (ttiRx % 10240) false }
  let (sib1SfIdx, g) := allocSibs s.sib1SfIdx (s.grid ttiRx)
  match raDlSched s.pendingRars g with
  | none => none
  | some (ret, pendingRars, g) =>
      let s := { s with sib1SfIdx := sib1SfIdx, pendingRars := pendingRars }.store ttiRx g
      some (if ret = .success then s.schedMsg3 ttiRx g.sf else s)

/-- `generate_tti_result` with `dl_flag` set; the uplink half of the result is dropped. -/
def generateTtiResultDl (s : Sched) (ttiRx : Nat) : Option (Sched × DlSchedRes) :=
  if ttiRx = sfResultTtiRx then some (s, {})
  else
    match s.schedCtrl ttiRx with
    | none => none
    | some s =>
        match allocDlUsers (s.grid ttiRx) with
        | none => none
        | some g =>
            let (g, dl, _) := g.generateSchedResults
            some (s.store ttiRx g, dl)

/-- `generate_tti_result` with `dl_flag` cleared; the downlink half of the result is dropped. -/
def generateTtiResultUl (s : Sched) (ttiRx : Nat) : Sched × UlSchedRes :=
  if ttiRx = sfResultTtiRx then (s, {})
  else
    let s := { s with ulSchedTable := s.ulSchedTable.set (ttiRx % 10240) false }
    let (g, _, ul) := (schedUsersUl (s.grid ttiRx)).generateSchedResults
    (s.store ttiRx g, ul)

/-- `sched_utils::max_tti`, a comparison of an unsigned 32-bit difference. -/
def maxTti (tti1 tti2 : Nat) : Nat :=
  if (tti1 + 2 ^ 32 - tti2) % 2 ^ 32 > 10240 / 2 then min tti1 tti2 else max tti1 tti2

/-- `sched::dl_sched` -/
def dlSched (s : Sched) (ttiTxDl : Nat) : Option (Sched × DlSchedRes) :=
  let ttiRx := ttiSub ttiTxDl fddHarqDelayUlMs
  { s with lastTti := maxTti s.lastTti ttiRx }.generateTtiResultDl ttiRx

/-- `sched::ul_sched` -/
def ulSched (s : Sched) (tti : Nat) : Sched × UlSchedRes :=
  s.generateTtiResultUl (ttiSub tti (fddDelayUlNbMs + fddHarqDelayDlMs))

end Sched

/-! ## Calls and runs -/

/-- The calls that reach the scheduler between two TTIs. -/
inductive SchedCall where
  | ueCfg (rnti : Nat) (cfg : UeCfg)
  | ueRem (rnti : Nat)
  | dlRachInfo (info : DlSchedRarInfo)
  | dlRlcBufferState (rnti lcId txQueue retxQueue : Nat)
  | dlMacBufferState (rnti : Nat) (ce : DlSchLcid) (nofCmds : Nat)
  | ulBsr (rnti lcid bsr : Nat) (setValue : Bool)
  | ulWaitTimer (rnti waitTime : Nat) (setValue : Bool)
  deriving Repr, DecidableEq

namespace Sched

/-- `ue_db_access`: nothing happens for an unknown RNTI. -/
def ueDbAccess (s : Sched) (rnti : Nat) (f : SchedUe → SchedUe) : Sched :=
  { s with ueDb := s.ueDb.modify rnti f }

def call (s : Sched) : SchedCall → Sched
  | .ueCfg rnti cfg =>
      let ue := (s.ueDb.find? rnti).getD (SchedUe.init rnti)
      { s with ueDb := s.ueDb.insert rnti (ue.setCfg cfg) }
  | .ueRem rnti => { s with ueDb := s.ueDb.erase rnti }
  | .dlRachInfo info => { s with pendingRars := raDlRachInfo s.pendingRars info }
  | .dlRlcBufferState rnti lcId txQueue retxQueue =>
      s.ueDbAccess rnti fun ue => ue.dlBufferState lcId txQueue retxQueue
  | .dlMacBufferState rnti ce nofCmds => s.ueDbAccess rnti fun ue => ue.macBufferState ce nofCmds
  | .ulBsr rnti lcid bsr setValue => s.ueDbAccess rnti fun ue => ue.ulBufferState lcid bsr setValue
  | .ulWaitTimer rnti waitTime setValue =>
      s.ueDbAccess rnti fun ue => ue.ulWaitTimer waitTime setValue

def calls (s : Sched) (cs : List SchedCall) : Sched := cs.foldl call s

end Sched

/-- The configuration `mac::rach_detected` gives a new UE: SRB0 in both directions. -/
def rachUeCfg : UeCfg := ⟨[.both]⟩

/-- What the task of `mac::rach_detected` calls for a preamble received at `tti`. -/
def rachDetected (rnti tti : Nat) : List SchedCall :=
  [.ueCfg rnti rachUeCfg,
    .dlRachInfo { preambleIdx := 0, taCmd := 0, tempCrnti := rnti, msg3Size := 7, nprachTti := tti }]

/-- The calls around the two scheduler runs of one TTI. -/
structure TtiCalls where
  before : List SchedCall := []
  between : List SchedCall := []

/-- `n` TTIs in which nothing is called. -/
def idleTtis (n : Nat) : List TtiCalls := List.replicate n ⟨[], []⟩

/-- What one TTI of a run leaves behind: the absolute receive TTI, the calls around it, the states
    in front of `dl_sched` and `ul_sched`, both results and the state at the end. -/
structure TtiLog where
  rx : Nat
  calls : TtiCalls
  pre : Sched
  dl : DlSchedRes
  mid : Sched
  ul : UlSchedRes
  post : Sched

namespace TtiLog

/-- The absolute TTI sent in downlink. -/
def tx (o : TtiLog) : Nat := o.rx + 4

/-- The subframe of this TTI, with everything both scheduler runs put into it. -/
def sf (o : TtiLog) : SfSched := o.post.sfScheds (o.rx % 10240 % nofSfScheds)

end TtiLog

namespace Sched

/-- One TTI at absolute receive time `rx`: `dl_sched`, then `ul_sched`. -/
def tti (s : Sched) (rx : Nat) (c : TtiCalls) : Option (Sched × TtiLog) :=
  let ttiRx := rx % 10240
  let pre := s.calls c.before
  match pre.dlSched (ttiAdd ttiRx fddHarqDelayUlMs) with
  | none => none
  | some (s, dl) =>
      let mid := s.calls c.between
      let (post, ul) := mid.ulSched (ttiAdd ttiRx (fddDelayUlNbMs + fddHarqDelayDlMs))
      some (post, ⟨rx, c, pre, dl, mid, ul, post⟩)

/-- Consecutive TTIs from empty tables; the first receive TTI is `start`. -/
def run (start : Nat) (inputs : List TtiCalls) : Option (Sched × List TtiLog) :=
  Ticking.run tti init start inputs

end Sched

end SonicaEnb
