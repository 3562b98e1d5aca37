import SonicaEnb.Mac.MacDb
import SonicaEnb.Upper.S1apUsers

/-! # The stack above the PHY

MAC, RLC, PDCP, RRC and S1AP each keep a database of UEs. A UE enters MAC when its
preamble is detected and the others in a task of the stack; it leaves them all when
RRC takes a command from its queue, where the messages of UEs wait as well.
-/

namespace SonicaEnb

/-- `SRSLTE_MRNTI` -/
def mRnti : Nat := 0xfffd

/-- An unpacked UL-CCCH message. -/
inductive UlCcchMsg where
  | rrcConnRequest (hasTmsi : Bool)
  | other
  deriving Repr, DecidableEq

/-- An unpacked UL-DCCH message. -/
inductive UlDcchMsg where
  | rrcConnSetupComplete
  | ulInfoTransfer
  | other
  deriving Repr, DecidableEq

/-- What an element of `rx_pdu_queue` asks for, by its LCID. -/
inductive RrcCmd where
  | ulCcch (msg : UlCcchMsg)
  | ulDcch (msg : UlDcchMsg)
  | remUser
  | relUser
  | invalidBearer
  deriving Repr, DecidableEq

/-- `rrc_pdu` -/
structure RrcPdu where
  rnti : Nat
  cmd : RrcCmd
  deriving Repr, DecidableEq

/-- `rrc::ue`, of which the databases depend on `has_tmsi`. -/
structure RrcUe where
  hasTmsi : Bool := false
  deriving Repr, DecidableEq

structure Stack where
  mac : MacDb := {}
  rrcUsers : SortedMap Nat RrcUe := SortedMap.empty
  rlcUsers : Finset Nat := ∅
  pdcpUsers : Finset Nat := ∅
  s1ap : S1apUsers := {}
  /-- RNTIs of the tasks of `rach_detected` that wait for the stack -/
  rachTasks : List Nat := []
  rxPduQueue : List RrcPdu := []

namespace Stack

/-! ## Random access -/

def rachDetected (s : Stack) : Stack :=
  let (rnti, mac) := s.mac.rachDetected
  { s with mac, rachTasks := s.rachTasks ++ [rnti] }

/-- `rrc::add_user` -/
def addUser (s : Stack) (rnti : Nat) : Stack :=
  match s.rrcUsers.find? rnti with
  | some _ => s
  | none =>
      { s with
        rrcUsers := if rnti = mRnti then s.rrcUsers else s.rrcUsers.insert rnti {}
        rlcUsers := insert rnti s.rlcUsers
        pdcpUsers := insert rnti s.pdcpUsers }

/-- The task of `rach_detected`. -/
def rachTask (s : Stack) (rnti : Nat) : Stack :=
  { s with mac := s.mac.schedUeCfg rnti }.addUser rnti

/-! ## The queue of RRC -/

/-- `rrc::write_pdu`, `rem_user_thread` and `release_complete` -/
def push (s : Stack) (p : RrcPdu) : Stack := { s with rxPduQueue := s.rxPduQueue ++ [p] }

/-- `handle_rrc_con_req`, with the part of `send_connection_setup` that configures MAC. -/
def handleRrcConReq (s : Stack) (rnti : Nat) (hasTmsi : Bool) : Stack :=
  { s with
    rrcUsers := s.rrcUsers.modify rnti fun ue => if hasTmsi then { ue with hasTmsi := true } else ue
    mac := (s.mac.ueSetCrnti rnti rnti true).2 }

def handleRrcConSetupComplete (s : Stack) (rnti : Nat) (ue : RrcUe) : Stack :=
  { s with s1ap := s.s1ap.initialUe rnti ue.hasTmsi }

/-- `rrc::rem_user` -/
def remUser (s : Stack) (rnti : Nat) : Stack :=
  { s with
    mac := s.mac.ueRem rnti
    rlcUsers := s.rlcUsers.erase rnti
    pdcpUsers := s.pdcpUsers.erase rnti
    rrcUsers := s.rrcUsers.erase rnti }

/-- What `tti_clock` does for an element of the queue whose RNTI belongs to `ue`. -/
def handleCmd (s : Stack) (rnti : Nat) (ue : RrcUe) : RrcCmd → Stack
  | .ulCcch (.rrcConnRequest hasTmsi) => s.handleRrcConReq rnti hasTmsi
  | .ulCcch .other => s
  | .ulDcch .rrcConnSetupComplete => s.handleRrcConSetupComplete rnti ue
  -- s1ap::write_pdu changes no database
  | .ulDcch .ulInfoTransfer => s
  | .ulDcch .other => s
  | .remUser => s.remUser rnti
  | .relUser => s.push ⟨rnti, .remUser⟩
  | .invalidBearer => s

/-- One turn of the loop of `tti_clock`; elements for unknown RNTIs are dropped. -/
def ttiClockTurn (s : Stack) (p : RrcPdu) : Stack :=
  match s.rrcUsers.find? p.rnti with
  | none => s
  | some ue => s.handleCmd p.rnti ue p.cmd

/-! ## Messages from the MME -/

/-- The end of `handle_uectxtreleasecommand`, for the UE it found. -/
def releaseUe (s : Stack) (enbId : Nat) (ctxt : UeCtxt) : Stack :=
  { s with s1ap := s.s1ap.erase enbId }.push ⟨ctxt.rnti, .relUser⟩

end Stack

inductive MmeMsg where
  /-- a message about one UE that is not a release: DL NAS transport, context setup and
      modification, E-RAB setup -/
  | ueMsg (enbId mmeId : Nat)
  | releasePair (enbId mmeId : Nat)
  /-- a release by the MME's identity alone; `enbId` is the entry that the walk over the hash table
      meets first -/
  | releaseMmeId (mmeId enbId : Nat)
  deriving Repr, DecidableEq

namespace Stack

def handleMme (s : Stack) : MmeMsg → Option Stack
  | .ueMsg enbId mmeId => some { s with s1ap := (s.s1ap.findS1apmsgUser enbId mmeId).2 }
  | .releasePair enbId mmeId =>
      match s.s1ap.findS1apmsgUser enbId mmeId with
      | (none, _) => some s
      | (some ctxt, s1ap) => some ({ s with s1ap }.releaseUe enbId ctxt)
  | .releaseMmeId mmeId enbId =>
      if s.s1ap.hasMmeId mmeId then
        match s.s1ap.users.find? enbId with
        | none => none
        | some ctxt =>
            if S1apUsers.matchesMmeId mmeId ctxt then some (s.releaseUe enbId ctxt) else none
      else some s

end Stack

/-- A message of a UE, as PDCP and RLC hand it to RRC. -/
inductive UlMsg where
  | ccch (msg : UlCcchMsg)
  | dcch (msg : UlDcchMsg)
  | invalidBearer
  deriving Repr, DecidableEq

def UlMsg.cmd : UlMsg → RrcCmd
  | ccch msg => .ulCcch msg
  | dcch msg => .ulDcch msg
  | invalidBearer => .invalidBearer

inductive StackEvent where
  | rachDetected
  /-- the oldest task of `rach_detected` runs -/
  | rachTask
  | ulMsg (rnti : Nat) (msg : UlMsg)
  | ttiClockTurn
  | mme (msg : MmeMsg)
  deriving Repr, DecidableEq

def Stack.handle (s : Stack) : StackEvent → Option Stack
  | .rachDetected => some s.rachDetected
  | .rachTask =>
      match s.rachTasks with
      | [] => none
      | rnti :: rest => some ({ s with rachTasks := rest }.rachTask rnti)
  | .ulMsg rnti msg => some (s.push ⟨rnti, msg.cmd⟩)
  | .ttiClockTurn =>
      match s.rxPduQueue with
      | [] => none
      | p :: rest => some ({ s with rxPduQueue := rest }.ttiClockTurn p)
  | .mme msg => s.handleMme msg

end SonicaEnb
