import SonicaEnb.Phy.SfWorker

/-! # The eNB, one TTI at a time

MAC and worker together, driven by any results of a scheduler (`PhyMac`), and
the same with the scheduler of `sched` in front of them (`Enb`).
-/

namespace SonicaEnb

/-- UEs enter and leave `mac::ue_db` between TTIs. -/
inductive MacCall where
  | ueAdd (rnti : Nat)
  | ueRem (rnti : Nat)
  deriving Repr, DecidableEq

def MacUl.call (mac : MacUl) : MacCall → MacUl
  | .ueAdd rnti => mac.ueAdd rnti
  | .ueRem rnti => mac.ueRem rnti

def MacUl.calls (mac : MacUl) (cs : List MacCall) : MacUl := cs.foldl MacUl.call mac

/-- `mac::ue_db.count(rnti)` -/
def MacUl.knows (mac : MacUl) (rnti : Nat) : Bool := (mac.ueDb.find? rnti).isSome

/-! ## MAC and worker -/

/-- What reaches MAC and worker in one TTI: calls, the grant of `get_dl_sched`, the uplink result of
    the scheduler, and whether a transport block that is complete now can be decoded. -/
structure WorkInput where
  macCalls : List MacCall := []
  dl : DlSchedPhy := {}
  npusch : List UlSchedData := []
  decodes : Bool := false

structure PhyMac where
  mac : MacUl := {}
  worker : SfWorker := {}

/-- The log of one TTI, with the worker in front of it. -/
structure PhyLog where
  pre : SfWorker
  input : WorkInput
  work : WorkerLog

namespace PhyMac

/-- `get_ul_sched` and `work_imp` at absolute receive time `rx`. -/
def tti (mode : NbiotMode) (s : PhyMac) (rx : Nat) (i : WorkInput) : PhyMac × PhyLog :=
  let ttiTxUl := ttiAdd (rx % 10240) (fddDelayUlNbMs + fddHarqDelayDlMs)
  let (grants, mac) := (s.mac.calls i.macCalls).getUlSched ttiTxUl i.npusch
  let (log, mac, worker) := workImp mode s.worker mac rx i.dl grants i.decodes
  (⟨mac, worker⟩, ⟨s.worker, i, log⟩)

/-- Consecutive TTIs from a fresh worker; the first receive TTI is `start`. -/
def run (mode : NbiotMode) (start : Nat) (inputs : List WorkInput) : Option (PhyMac × List PhyLog) :=
  Ticking.run (fun s rx i => some (tti mode s rx i)) {} start inputs

end PhyMac

/-! ## With the scheduler -/

structure EnbInput where
  calls : TtiCalls := ⟨[], []⟩
  macCalls : List MacCall := []
  decodes : Bool := false

structure Enb where
  sched : Sched := {}
  phyMac : PhyMac := {}

structure EnbLog where
  sched : TtiLog
  phy : PhyLog

namespace Enb

/-- The scheduler runs of a TTI and the work on their results. -/
def tti (mode : NbiotMode) (s : Enb) (rx : Nat) (i : EnbInput) : Option (Enb × EnbLog) :=
  match s.sched.tti rx i.calls with
  | none => none
  | some (sched, o) =>
      let known := (s.phyMac.mac.calls i.macCalls).knows
      let (phyMac, log) := s.phyMac.tti mode rx
        { macCalls := i.macCalls, dl := getDlSched known o.dl, npusch := o.ul.npusch
          decodes := i.decodes }
      some (⟨sched, phyMac⟩, ⟨o, log⟩)

def run (mode : NbiotMode) (start : Nat) (inputs : List EnbInput) : Option (Enb × List EnbLog) :=
  Ticking.run (tti mode) {} start inputs

end Enb

end SonicaEnb
