import SonicaEnb.Lib.Wheel
import SonicaEnb.Lib.SortedMap
import SonicaEnb.Mac.SchedUe

/-! # Allocation of one subframe

`sf_sched` collects the allocations of one TTI. In the source it reaches the
two reservation tables and the UE database through pointers; here `SfGrid`
bundles the object with what it reaches, and every method returns the bundle it
leaves behind. A user pointer is the RNTI under which the UE stands in the
database; an allocation whose UE has been removed is passed over.

A loop that would never end answers `none`.
-/

namespace SonicaEnb

/-! ## The SIB1 pattern -/

/-- `mib_nb.sched_info_sib1` as the constructor of `bc_sched` sets it. -/
def schedInfoSib1 : Nat := 5

/-- The cell identity fixed in `bc_sched`. -/
def bcCellId : Nat := 99

/-- `bc_sched::sib1_sfn`: first frames of the repetitions of the four SIB1 periods. -/
def sib1Sfn : List Nat :=
  (List.range 4).flatMap fun k =>
    (List.range (raNRepSib1Nb schedInfoSib1)).map fun i =>
      k * 256 + (raNbiotGetStartingSib1Frame bcCellId schedInfoSib1).toNat +
        i * 256 / raNRepSib1Nb schedInfoSib1

/-- `bc_sched::is_sib1_sf` -/
def isSib1Sf (sfn sfIdx : Nat) : Bool :=
  if sfIdx ≠ 4 then false
  else sib1Sfn.any fun start =>
    decide (start ≤ sfn) && decide (sfn < start + 16) &&
      (sfn + raNbiotSib1Start bcCellId schedInfoSib1) % 2 == 0

theorem sib1Sfn_eq : sib1Sfn = (List.range 64).map (16 * · + 1) := by decide

/-- SIB1 goes out in subframe 4 of every odd frame. -/
theorem isSib1Sf_iff {tti : Nat} (inside : tti < 10240) :
    isSib1Sf (tti / 10) (tti % 10) = true ↔ tti % 20 = 14 := by
  have start : raNbiotSib1Start bcCellId schedInfoSib1 = 1 := by decide
  unfold isSib1Sf
  rw [sib1Sfn_eq, start]
  split
  · simp only [Bool.false_eq_true, false_iff]; omega
  · simp only [List.any_map, List.any_eq_true, List.mem_range, Function.comp, Bool.and_eq_true,
      decide_eq_true_eq, beq_iff_eq]
    constructor
    · rintro ⟨i, -, -, even⟩; omega
    · intro residue
      exact ⟨(tti / 10 - 1) / 16, by omega, by omega, by omega⟩

/-! ## Allocation records -/

/-- `alloc_outcome_t` -/
inductive AllocOutcome where
  | success
  | dciCollision
  | rbCollision
  | error
  | nofRbInvalid
  deriving Repr, DecidableEq

/-- `alloc_type_t` -/
inductive AllocType where
  | dlBc
  | dlPcch
  | dlRar
  | dlData
  | ulData
  deriving Repr, DecidableEq

/-- `tti_params_t`. Its constructor is the only way to make one, so all members follow `tti_rx`. -/
structure TtiParams where
  ttiRx : Nat
  ttiTxDl : Nat
  ttiTxUl : Nat
  sfIdxTxDl : Nat
  sfnTxDl : Nat
  ttiTxDl_eq : ttiTxDl = ttiAdd ttiRx fddHarqDelayUlMs
  ttiTxUl_eq : ttiTxUl = ttiAdd ttiRx (fddDelayUlNbMs + fddHarqDelayDlMs)
  sfIdxTxDl_eq : sfIdxTxDl = ttiTxDl % 10
  sfnTxDl_eq : sfnTxDl = ttiTxDl / 10
  deriving Repr, DecidableEq

def TtiParams.ofRx (ttiRx : Nat) : TtiParams where
  ttiRx := ttiRx
  ttiTxDl := ttiAdd ttiRx fddHarqDelayUlMs
  ttiTxUl := ttiAdd ttiRx (fddDelayUlNbMs + fddHarqDelayDlMs)
  sfIdxTxDl := ttiAdd ttiRx fddHarqDelayUlMs % 10
  sfnTxDl := ttiAdd ttiRx fddHarqDelayUlMs / 10
  ttiTxDl_eq := rfl
  ttiTxUl_eq := rfl
  sfIdxTxDl_eq := rfl
  sfnTxDl_eq := rfl

/-- `dl_sched_rar_info_t` -/
structure DlSchedRarInfo where
  preambleIdx : Nat
  taCmd : Nat
  tempCrnti : Nat
  msg3Size : Nat
  nprachTti : Nat
  deriving Repr, DecidableEq

/-- `srslte_nbiot_dci_rar_grant_t` -/
structure NbiotDciRarGrant where
  scSpacing : Nat
  iSc : Nat
  iDelay : Nat
  nRep : Nat
  iMcs : Nat
  deriving Repr, DecidableEq

/-- `dl_sched_rar_grant_t` -/
structure DlSchedRarGrant where
  data : DlSchedRarInfo
  grant : NbiotDciRarGrant
  deriving Repr, DecidableEq

/-- `dl_sched_rar_t` -/
structure DlSchedRar where
  tbs : Nat
  dci : RaNbiotDlDci
  msg3Grant : List DlSchedRarGrant
  deriving Repr, DecidableEq

/-- `dl_sched_bc_t` -/
structure DlSchedBc where
  dci : RaNbiotDlDci
  isNewSib : Bool
  deriving Repr, DecidableEq

/-- `dl_sched_res_t` -/
structure DlSchedRes where
  data : List DlSchedData := []
  rar : List DlSchedRar := []
  bc : List DlSchedBc := []
  deriving Repr, DecidableEq

/-- `ul_sched_res_t` -/
structure UlSchedRes where
  npusch : List UlSchedData := []
  deriving Repr, DecidableEq

/-- `sf_sched::ctrl_alloc_t` -/
structure CtrlAlloc where
  rnti : Nat
  reqBytes : Nat
  allocType : AllocType
  deriving Repr, DecidableEq

/-- `sf_sched::rar_alloc_t`; the grants are those of its `dl_sched_rar_t`. -/
structure RarAlloc where
  allocData : CtrlAlloc
  rarGrant : List DlSchedRarGrant
  deriving Repr, DecidableEq

/-- `sf_sched::bc_alloc_t` -/
structure BcAlloc where
  dci : RaNbiotDlDci
  allocType : AllocType
  isNewSib : Bool := false
  deriving Repr, DecidableEq

/-- `sf_sched::dl_alloc_t`. `npdschTtis` is not stored by the source: it lists the TTIs the
    reservation loop prints as given to the user. -/
structure DlAlloc where
  user : Nat
  iSf : Nat
  npdschTtis : List Nat
  deriving Repr, DecidableEq

/-- `sf_sched::ul_alloc_t::type_t` -/
inductive UlAllocType where
  | newtx
  | noadaptRetx
  | adaptRetx
  | msg3
  deriving Repr, DecidableEq

/-- `ul_harq_proc::ul_alloc_t` -/
structure UlHarqAlloc where
  scNum : Nat := 0
  len : Nat := 0
  deriving Repr, DecidableEq

/-- `sf_sched::ul_alloc_t` -/
structure UlAlloc where
  type : UlAllocType
  user : Nat
  alloc : UlHarqAlloc
  mcs : Nat
  deriving Repr, DecidableEq

def UlAllocType.needsNpdcch (t : UlAllocType) : Bool := t == .newtx || t == .adaptRetx

/-- `sf_sched::pending_rar_t`; `nof_grants` is the length of `msg3Grant`. -/
structure PendingRar where
  raRnti : Nat
  nprachTti : Nat
  msg3Grant : List DlSchedRarInfo
  deriving Repr, DecidableEq

/-- `sf_sched` -/
structure SfSched where
  ttiParams : TtiParams := TtiParams.ofRx 10241
  bcAllocs : List BcAlloc := []
  rarAllocs : List RarAlloc := []
  dataAllocs : List DlAlloc := []
  ulDataAllocs : List UlAlloc := []
  deriving Repr, DecidableEq

namespace SfSched

def newTti (ttiRx : Nat) : SfSched := { ttiParams := TtiParams.ofRx ttiRx }

def isDlAlloc (sf : SfSched) (user : Nat) : Bool := sf.dataAllocs.any fun a => a.user == user

def isUlAlloc (sf : SfSched) (user : Nat) : Bool := sf.ulDataAllocs.any fun a => a.user == user

end SfSched

/-- What the subframes of one carrier share: the reservation tables, the UE database and the
    two file-level statics of `scheduler_carrier.cc`. -/
@[ext] structure Shared where
  dlSchedTable : Wheel := Wheel.empty
  ulSchedTable : Wheel := Wheel.empty
  ueDb : SortedMap Nat SchedUe := SortedMap.empty
  lastAlloc : Nat := 0
  allocActive : Bool := false

structure SfGrid extends Shared where
  sf : SfSched

/-! ## Downlink allocations -/

/-- `i_sf_to_n_sf_npdsch` -/
def iSfToNSfNpdsch : List Nat := [1, 2, 3, 4, 5, 6, 8, 10]

/-- The reservation loop of `alloc_dl_user`: walk on from `tti` and take the TTIs that are valid,
    unreserved and not SIB1's until `n` are found. Answers those TTIs. After one whole turn nothing
    new can be found, and the source would walk on for ever. -/
def reserveNpdsch : Nat → Wheel → Nat → Nat → Option (List Nat)
  | _, _, _, 0 => some []
  | 0, _, _, _ + 1 => none
  | fuel + 1, table, tti, n + 1 =>
      if isValidDlSf tti && !table tti && !isSib1Sf (tti / 10) (tti % 10) then
        (reserveNpdsch fuel (table.set tti true) ((tti + 1) % 10240) n).map (tti :: ·)
      else reserveNpdsch fuel table ((tti + 1) % 10240) (n + 1)

namespace SfGrid

/-- `alloc_rar`: one grant of the oldest pending response. An element without grants fails. -/
def allocRar (g : SfGrid) (rar : PendingRar) : AllocOutcome × Nat × SfGrid :=
  match rar.msg3Grant with
  | [] => (.error, 0, g)
  | info :: _ =>
      let allocType :=
        if rar.raRnti = siRnti then .dlBc else if rar.raRnti = pRnti then .dlPcch else .dlRar
      let alloc : RarAlloc :=
        ⟨⟨rar.raRnti, 8, allocType⟩,
          [⟨info, { scSpacing := 1, iSc := 18, iDelay := 0, nRep := 0, iMcs := 0 }⟩]⟩
      (.success, 1, { g with sf.rarAllocs := g.sf.rarAllocs ++ [alloc] })

/-- The conditions `alloc_dl_user` puts on the TTI of the DCI, in the order of the source. -/
def dlUserTtiFree (g : SfGrid) : Bool :=
  let ttiTxDl := g.sf.ttiParams.ttiTxDl
  isValidDlSf ttiTxDl && !g.dlSchedTable ttiTxDl && decide (ttiTxDl % 8 < 2) &&
    !isSib1Sf (ttiTxDl / 10) (ttiTxDl % 10)

/-- `alloc_dl_user` -/
def allocDlUser (g : SfGrid) (user maxData : Nat) : Option (AllocOutcome × SfGrid) :=
  if g.sf.isDlAlloc user then some (.error, g)
  else if !g.dlUserTtiFree then some (.rbCollision, g)
  else
    let ttiTxDl := g.sf.ttiParams.ttiTxDl
    let iSf := if maxData > 20 then 2 else 0
    let table := g.dlSchedTable.set ttiTxDl true
    match reserveNpdsch 10240 table ((ttiTxDl + 5) % 10240) (iSfToNSfNpdsch.getD iSf 0) with
    | none => none
    | some npdschTtis =>
        some (.success, { g with
          dlSchedTable := table.mark npdschTtis
          sf.dataAllocs := g.sf.dataAllocs ++ [⟨user, iSf, npdschTtis⟩]
          ueDb := g.ueDb.modify user fun ue => (ue.ulBufferState 3 70 false).ulWaitTimer 30 true })

/-! ## Uplink allocations -/

/-- Where `alloc_ul` expects the Msg3 of the RAR whose DCI went out nine TTIs earlier. -/
def msg3RxTti (ttiTxDl : Nat) : Nat :=
  let rarDciTxTti := (ttiTxDl + 10240 - 9) % 10240
  firstValidDlSf ((rarDciTxTti + 5) % 10240) + 13

/-- The `len` table entries from `start` on. -/
def ulInterval (start len : Nat) : List Nat := (List.range len).map fun i => (start + i) % 10240

def pushUlAlloc (g : SfGrid) (alloc : UlAlloc) : SfGrid :=
  { g with sf.ulDataAllocs := g.sf.ulDataAllocs ++ [alloc] }

/-- The MSG3 branch of `alloc_ul`: all subframes are checked and all are marked. -/
def allocUlMsg3 (g : SfGrid) (user : Nat) (alloc : UlHarqAlloc) (mcs : Nat) :
    AllocOutcome × SfGrid :=
  let ttis := ulInterval (msg3RxTti g.sf.ttiParams.ttiTxDl) alloc.len
  if ttis.any g.ulSchedTable then (.rbCollision, g)
  else (.success, { g with ulSchedTable := g.ulSchedTable.mark ttis }.pushUlAlloc
    ⟨.msg3, user, alloc, mcs⟩)

/-- The branch of `alloc_ul` that needs a DCI. The two loops over the length of the allocation
    address `tti_tx_ul` in every turn, and the position of the DCI is marked in the uplink table. -/
def allocUlNpdcch (g : SfGrid) (type : UlAllocType) (user : Nat) : AllocOutcome × SfGrid :=
  match g.ueDb.find? user with
  | none => (.error, g)
  | some ue =>
      let alloc : UlHarqAlloc := { scNum := 12, len := 4 }
      let mcs := if ue.getPendingUlNewData ≥ 125 then 12 else 9
      let ttiTxDl := g.sf.ttiParams.ttiTxDl
      let ttiTxUl := g.sf.ttiParams.ttiTxUl
      if ue.msgWaitTimer ≠ 0 then
        (.dciCollision,
          { g with ueDb := g.ueDb.modify user fun ue =>
              { ue with msgWaitTimer := ue.msgWaitTimer - 1 } })
      else if !isValidDlSf ttiTxDl then (.dciCollision, g)
      else if g.dlSchedTable ttiTxDl then (.dciCollision, g)
      else if ttiTxDl % 8 ≥ 2 then (.dciCollision, g)
      else if (List.range alloc.len).any fun _ => g.ulSchedTable (ttiTxUl % 10240) then
        (.rbCollision, g)
      else
        let table := (List.range alloc.len).foldl
          (fun table _ => table.set (ttiTxUl % 10240) true) g.ulSchedTable
        (.success, { g with ulSchedTable := table.set ttiTxDl true }.pushUlAlloc
          ⟨type, user, alloc, mcs⟩)

/-- `alloc_ul` -/
def allocUl (g : SfGrid) (user : Nat) (alloc : UlHarqAlloc) (type : UlAllocType) (mcs : Nat) :
    AllocOutcome × SfGrid :=
  if g.sf.isUlAlloc user then (.error, g)
  else
    match type with
    | .msg3 => g.allocUlMsg3 user alloc mcs
    | .newtx => g.allocUlNpdcch .newtx user
    | .adaptRetx => g.allocUlNpdcch .adaptRetx user
    | .noadaptRetx => (.success, g.pushUlAlloc ⟨.noadaptRetx, user, alloc, mcs⟩)

/-- `alloc_msg3` -/
def allocMsg3 (g : SfGrid) (user : Nat) (rarGrant : DlSchedRarGrant) : AllocOutcome × SfGrid :=
  if rarGrant.grant.iMcs = 0 then
    g.allocUl user { scNum := 12, len := 4 } .msg3 rarGrant.grant.iMcs
  else (.error, g)

/-- `alloc_ul_user` -/
def allocUlUser (g : SfGrid) (user : Nat) (alloc : UlHarqAlloc) : AllocOutcome × SfGrid :=
  g.allocUl user alloc .newtx 0

/-! ## Results -/

/-- `set_bc_sched_result` -/
def bcSchedResult (sf : SfSched) : List DlSchedBc := sf.bcAllocs.map fun a => ⟨a.dci, a.isNewSib⟩

/-- `set_rar_sched_result` -/
def rarSchedResult (sf : SfSched) : List DlSchedRar :=
  sf.rarAllocs.map fun a =>
    { tbs := a.allocData.reqBytes
      dci := { mcsIdx := 4, format := 1
               alloc := { hasSib1 := false, isRa := false, iDelay := 0, iSf := 0, iRep := 0
                          harqAck := 1, iNStart := 0, rnti := a.allocData.rnti } }
      msg3Grant := a.rarGrant }

/-- The loop of `set_dl_data_sched_result`: every allocation fills a transport block from the
    queues of its UE. -/
def dlDataSchedResult : List DlAlloc → SortedMap Nat SchedUe →
    List DlSchedData × SortedMap Nat SchedUe
  | [], ueDb => ([], ueDb)
  | a :: rest, ueDb =>
      match ueDb.find? a.user with
      | none => dlDataSchedResult rest ueDb
      | some ue =>
          let (data, ue') := ue.generateFormatN1 a.iSf
          let (datas, ueDb') := dlDataSchedResult rest (ueDb.modify a.user fun _ => ue')
          if data.tbs = 0 then (datas, ueDb') else (data :: datas, ueDb')

/-- `set_ul_sched_result` -/
def ulSchedResult (sf : SfSched) (ueDb : SortedMap Nat SchedUe) : List UlSchedData :=
  sf.ulDataAllocs.filterMap fun a =>
    match ueDb.find? a.user with
    | none => none
    | some ue =>
        let data := ue.generateFormatN0 a.type.needsNpdcch a.mcs
        if data.tbs = 0 then none else some data

/-- `generate_sched_results`, called with either direction: both results are rebuilt from all
    allocations of the subframe. -/
def generateSchedResults (g : SfGrid) : SfGrid × DlSchedRes × UlSchedRes :=
  let (data, ueDb) := dlDataSchedResult g.sf.dataAllocs g.ueDb
  ({ g with ueDb := ueDb },
    { data := data, rar := rarSchedResult g.sf, bc := bcSchedResult g.sf },
    { npusch := ulSchedResult g.sf ueDb })

end SfGrid

end SonicaEnb
