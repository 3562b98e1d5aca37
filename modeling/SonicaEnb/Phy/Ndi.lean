import SonicaEnb.Lib.Toggle
import SonicaEnb.Phy.SfWorker

/-! # New data indicators

`h_ndi_dl` and `h_ndi_ul` flip with every DCI, whoever it is for. The DCIs of a
run are therefore the addressed RNTIs stamped with one toggle per direction.
-/

namespace SonicaEnb

namespace DciSent

/-- The DCI as a stamped message. -/
def stamped (d : DciSent) : Nat × Bool := (d.rnti, d.ndi)

end DciSent

/-- The RNTI a downlink DCI of this TTI is addressed to. -/
def dlDciRnti (dl : DlSchedPhy) : Option Nat :=
  if dl.nofGrants > 0 ∧ !dl.npdsch.dci.alloc.hasSib1 ∧ dl.npdsch.hasNpdcch then
    some dl.npdsch.dci.alloc.rnti
  else none

/-- The RNTI an uplink DCI of this TTI is addressed to. -/
def ulDciRnti (ulGrants : List UlSchedGrant) : Option Nat :=
  match ulGrants with
  | [] => none
  | g :: _ => if g.needsNpdcch then some g.dci.rnti else none

/-- The downlink DCIs of a run, in the order they were sent. -/
def dlDcis (log : List DlWorkerLog) : List DciSent := log.filterMap DlWorkerLog.dlDci

/-- The uplink DCIs of a run, in the order they were sent. -/
def ulDcis (log : List DlWorkerLog) : List DciSent := log.filterMap DlWorkerLog.ulDci

/-- Two consecutive DCIs to the same RNTI differ in `ndi`. -/
def NdiToggles (dcis : List DciSent) : Prop := Toggle.Alternates (dcis.map DciSent.stamped)

instance (dcis : List DciSent) : Decidable (NdiToggles dcis) :=
  inferInstanceAs (Decidable (Toggle.Alternates _))

namespace DlWorker

variable (mode : NbiotMode)

/-- One `work_dl`, as far as the NDIs go: each direction stamps at most one RNTI and flips its
    own toggle exactly when it does. -/
structure NdiStep (w w' : DlWorker) (log : DlWorkerLog) (dl : DlSchedPhy)
    (ulGrants : List UlSchedGrant) : Prop where
  dlDci : log.dlDci = (dlDciRnti dl).map fun rnti => ⟨rnti, w.hNdiDl⟩
  ulDci : log.ulDci = (ulDciRnti ulGrants).map fun rnti => ⟨rnti, w.hNdiUl⟩
  hNdiDl : w'.hNdiDl = if (dlDciRnti dl).isSome then !w.hNdiDl else w.hNdiDl
  hNdiUl : w'.hNdiUl = if (ulDciRnti ulGrants).isSome then !w.hNdiUl else w.hNdiUl

/-- The worker after the steps that touch no toggle keeps both. -/
def SameNdi (w w' : DlWorker) : Prop := w'.hNdiDl = w.hNdiDl ∧ w'.hNdiUl = w.hNdiUl

theorem putSib1_sameNdi (w : DlWorker) (grant : DlSchedGrant) (now : Nat) :
    SameNdi w (w.putSib1 grant now).2 := by
  unfold putSib1
  cases npdschEncodeRnti w.npdsch w.sib1NpdschCfg grant.data grant.dci.alloc.rnti now with
  | none => simp only; split <;> exact ⟨rfl, rfl⟩
  | some r => simp only; split <;> exact ⟨rfl, rfl⟩

theorem workSib1_sameNdi (w : DlWorker) (grant : DlSchedGrant) (tx : Nat) :
    SameNdi w (w.workSib1 mode grant tx).2.2 := by
  unfold workSib1
  cases grant.isNewSib with
  | true => exact putSib1_sameNdi _ grant tx
  | false =>
      simp only [Bool.false_eq_true, if_false]
      split
      · exact putSib1_sameNdi w grant tx
      · exact ⟨rfl, rfl⟩

theorem popGrant_sameNdi (w : DlWorker) (ttiTxDl : Nat) : SameNdi w (w.popGrant ttiTxDl).2 := by
  unfold popGrant
  split
  · exact ⟨rfl, rfl⟩
  · split <;> exact ⟨rfl, rfl⟩

theorem putNpdsch_sameNdi (w : DlWorker) (tx : Nat) : SameNdi w (w.putNpdsch tx).2 := by
  unfold putNpdsch
  cases npdschEncodeRnti w.npdsch w.npdschCfg w.npdschData w.npdschRnti tx with
  | none => simp only; split <;> exact ⟨rfl, rfl⟩
  | some r => simp only; split <;> exact ⟨rfl, rfl⟩

theorem putUlDci_ndi (w : DlWorker) (ulGrants : List UlSchedGrant) :
    (w.putUlDci ulGrants).1 = (ulDciRnti ulGrants).map (fun rnti => ⟨rnti, w.hNdiUl⟩) ∧
      (w.putUlDci ulGrants).2.hNdiDl = w.hNdiDl ∧
      (w.putUlDci ulGrants).2.hNdiUl =
        if (ulDciRnti ulGrants).isSome then !w.hNdiUl else w.hNdiUl := by
  unfold putUlDci ulDciRnti
  cases ulGrants with
  | nil => exact ⟨rfl, rfl, rfl⟩
  | cons g rest =>
      simp only
      split <;> exact ⟨rfl, rfl, rfl⟩

theorem takeGrant_ndi (w : DlWorker) (dl : DlSchedPhy) (tx : Nat) :
    (w.takeGrant mode dl tx).2.2.1.map Prod.fst =
        (dlDciRnti dl).map (fun rnti => ⟨rnti, w.hNdiDl⟩) ∧
      (w.takeGrant mode dl tx).2.2.2.hNdiUl = w.hNdiUl ∧
      (w.takeGrant mode dl tx).2.2.2.hNdiDl =
        if (dlDciRnti dl).isSome then !w.hNdiDl else w.hNdiDl := by
  unfold takeGrant dlDciRnti
  by_cases some' : dl.nofGrants > 0
  · cases dl.npdsch.dci.alloc.hasSib1 with
    | true =>
        have same := workSib1_sameNdi mode w dl.npdsch tx
        simpa [some', SameNdi, and_comm] using same
    | false =>
        cases dl.npdsch.hasNpdcch with
        | true => simp [some', workData]
        | false => simp [some', workSib2]
  · simp [some']

theorem workDl_ndi (w : DlWorker) (tx : Nat) (dl : DlSchedPhy) (ulGrants : List UlSchedGrant) :
    NdiStep w (w.workDl mode tx dl ulGrants).2 (w.workDl mode tx dl ulGrants).1 dl ulGrants := by
  obtain ⟨ulSent, ulDl, ulUl⟩ := putUlDci_ndi w ulGrants
  obtain ⟨dlSent, dlUl, dlDl⟩ := takeGrant_ndi mode (w.putUlDci ulGrants).2 dl tx
  have popped := popGrant_sameNdi ((w.putUlDci ulGrants).2.takeGrant mode dl tx).2.2.2 (tx % 10240)
  have last : SameNdi (((w.putUlDci ulGrants).2.takeGrant mode dl tx).2.2.2.popGrant (tx % 10240)).2
      (w.workDl mode tx dl ulGrants).2 := by
    simp only [workDl]
    split
    · exact putNpdsch_sameNdi _ tx
    · exact ⟨rfl, rfl⟩
  exact {
    dlDci := by simpa only [workDl, ulDl] using dlSent
    ulDci := ulSent
    hNdiDl := by rw [last.1, popped.1, dlDl, ulDl]
    hNdiUl := by rw [last.2, popped.2, dlUl, ulUl] }

/-- The DCIs of one direction, whose toggle flips with each of them. -/
theorem stamped_runDl {dci : DlWorkerLog → Option DciSent} {bit : DlWorker → Bool}
    {rnti : DlSchedPhy × List UlSchedGrant → Option Nat}
    (sends : ∀ w tx i, dci (w.workDl mode tx i.1 i.2).1 = (rnti i).map fun r => ⟨r, bit w⟩)
    (flips : ∀ w tx i, bit (w.workDl mode tx i.1 i.2).2 = if (rnti i).isSome then !bit w else bit w)
    (w : DlWorker) (tx : Nat) (inputs : List (DlSchedPhy × List UlSchedGrant)) :
    ((runDl mode w tx inputs).filterMap dci).map DciSent.stamped =
      Toggle.stamp (bit w) (inputs.filterMap rnti) := by
  induction inputs generalizing w tx with
  | nil => rfl
  | cons i rest ih =>
      have later := ih (w.workDl mode tx i.1 i.2).2 (tx + 1)
      have here := sends w tx i
      rw [flips] at later
      rw [runDl, List.filterMap_cons, List.filterMap_cons, here]
      cases sent : rnti i with
      | none => simpa [sent] using later
      | some r => simpa [sent, Toggle.stamp, DciSent.stamped] using later

/-- The downlink DCIs of a run are the addressed RNTIs under one toggle. -/
theorem dlDcis_runDl (w : DlWorker) (tx : Nat) (inputs : List (DlSchedPhy × List UlSchedGrant)) :
    (dlDcis (runDl mode w tx inputs)).map DciSent.stamped =
      Toggle.stamp w.hNdiDl (inputs.filterMap fun i => dlDciRnti i.1) :=
  stamped_runDl mode (fun w tx i => (workDl_ndi mode w tx i.1 i.2).dlDci)
    (fun w tx i => (workDl_ndi mode w tx i.1 i.2).hNdiDl) w tx inputs

theorem ulDcis_runDl (w : DlWorker) (tx : Nat) (inputs : List (DlSchedPhy × List UlSchedGrant)) :
    (ulDcis (runDl mode w tx inputs)).map DciSent.stamped =
      Toggle.stamp w.hNdiUl (inputs.filterMap fun i => ulDciRnti i.2) :=
  stamped_runDl mode (fun w tx i => (workDl_ndi mode w tx i.1 i.2).ulDci)
    (fun w tx i => (workDl_ndi mode w tx i.1 i.2).hNdiUl) w tx inputs

/-- The NDIs toggle for every RNTI exactly when, in both directions, an even number of DCIs to
    others stands between two consecutive DCIs to the same RNTI. -/
theorem ndi_toggles_iff (w : DlWorker) (tx : Nat)
    (inputs : List (DlSchedPhy × List UlSchedGrant)) :
    (NdiToggles (dlDcis (runDl mode w tx inputs)) ∧ NdiToggles (ulDcis (runDl mode w tx inputs))) ↔
      (Toggle.EvenGaps (inputs.filterMap fun i => dlDciRnti i.1) ∧
        Toggle.EvenGaps (inputs.filterMap fun i => ulDciRnti i.2)) := by
  unfold NdiToggles
  rw [dlDcis_runDl, ulDcis_runDl, Toggle.alternates_stamp_iff, Toggle.alternates_stamp_iff]

/-- A grant of user data for `rnti`. -/
def userGrant (rnti : Nat) : DlSchedPhy :=
  { npdsch := { dci := { alloc := { rnti := rnti } }, data := some (.ueTx rnti), hasNpdcch := true }
    nofGrants := 1 }

/-- Grants to two UEs in turn, 32 TTIs apart: both DCIs to 0x46 carry the same NDI. -/
theorem ndi_repeats_after_other_ue :
    ¬ NdiToggles (dlDcis (runDl .standalone {} 16
      ((userGrant 0x46, []) :: List.replicate 31 ({}, []) ++
        (userGrant 0x47, []) :: List.replicate 31 ({}, []) ++ [(userGrant 0x46, [])]))) := by
  decide +kernel

end DlWorker

end SonicaEnb
