import SonicaEnb.Phy.Dci
import SonicaEnb.Phy.Transmit
import SonicaEnb.Phy.UlGrants

/-! # Both sides have the same grant

The eNB keeps the grant it has computed from a DCI and sends the DCI. In every run, a
UE that hears a DCI in the subframe in which it is sent computes the same grant from
it: the same subframes, the same size of the transport block, and the same new data
indicator. For this the fields the scheduler chooses have to fit into the DCI, and the
subframe has to be one in which the UE looks for it.
-/

namespace SonicaEnb

/-! ## Downlink -/

/-- What `put_npdcch_dl` gets: the DCI as its conversion has limited it, with the indicator of PHY. -/
def DciSent.dlDci (sent : DciSent) (dci : RaNbiotDlDci) : RaNbiotDlDci := { limitDlDci dci with ndi := sent.ndi }

theorem DciSent.dlDci_grant (sent : DciSent) (dci : RaNbiotDlDci) (sfn sfIdx rMax : Nat) (mode : NbiotMode) :
    raNbiotDlDciToGrant (sent.dlDci dci) sfn sfIdx rMax false mode =
      raNbiotDlDciToGrant dci sfn sfIdx rMax false mode := by
  have limited : limitDlDci (sent.dlDci dci) = { limitDlDci dci with ndi := sent.ndi } := by
    simp [limitDlDci, DciSent.dlDci]
  simp only [raNbiotDlDciToGrant, limited]
  rfl

/-- What the scheduler chooses for the first four fields of a DCI. -/
structure RaNbiotDlDci.Plain (dci : RaNbiotDlDci) : Prop where
  noOrder : dci.alloc.isRa = false
  noSib1 : dci.alloc.hasSib1 = false
  notN2 : dci.dciIsN2 = false
  iDelay : dci.alloc.iDelay = 0
  iRep : dci.alloc.iRep = 0
  harqAck : dci.alloc.harqAck ≤ 1

/-- The limits of the conversion are within the fields. -/
theorem RaNbiotDlDci.Plain.fits {dci : RaNbiotDlDci} (plain : dci.Plain) (sent : DciSent) :
    (sent.dlDci dci).FitsN1 where
  noOrder := plain.noOrder
  noSib1 := plain.noSib1
  notN2 := plain.notN2
  iDelay := by
    change dci.alloc.iDelay < 2 ^ 3
    rw [plain.iDelay]
    decide
  iSf := Nat.lt_of_le_of_lt (Nat.min_le_right _ _) (by decide : 7 < 2 ^ 3)
  mcsIdx := Nat.lt_of_le_of_lt (Nat.min_le_right _ _) (by decide : 12 < 2 ^ 4)
  iRep := by
    change dci.alloc.iRep < 2 ^ 4
    rw [plain.iRep]
    decide
  harqAck := Nat.lt_of_le_of_lt plain.harqAck (by decide : 1 < 2 ^ 4)

theorem rarDci_plain (rnti : Nat) : (rarDci rnti).Plain where
  noOrder := rfl
  noSib1 := rfl
  notN2 := rfl
  iDelay := rfl
  iRep := rfl
  harqAck := Nat.le_refl 1

theorem SchedUe.generateFormatN1_plain (ue : SchedUe) (iSf : Nat) : (ue.generateFormatN1 iSf).1.dci.Plain := by
  simp only [generateFormatN1]
  split
  · exact ⟨rfl, rfl, rfl, rfl, rfl, Nat.le_refl 1⟩
  · exact ⟨rfl, rfl, rfl, rfl, rfl, Nat.zero_le 1⟩

namespace DlWorker

variable {mode : NbiotMode} {rx : Nat} {o : TtiLog} {dl : DlSchedPhy}

/-- A downlink DCI goes out with the grant that is queued for it, in a subframe a UE listens to. -/
theorem workDl_dci (handed : Handed rx o dl) (w : DlWorker) (ulGrants : List UlSchedGrant) {sent : DciSent}
    (dci : (w.workDl mode (rx + 4) dl ulGrants).1.dlDci = some sent) :
    dl.npdsch.dci.Plain ∧ isValidDlSf (rx + 4) = true ∧ sent.rnti = dl.npdsch.dci.alloc.rnti ∧
      ∃ r, (w.workDl mode (rx + 4) dl ulGrants).1.pushed = some r ∧ r.rnti = sent.rnti ∧
        raNbiotDlDciToGrant dl.npdsch.dci ((rx + 4) % 10240 / 10) ((rx + 4) % 10240 % 10) dummyRMax false mode =
          some r.grant := by
  have taken : ((w.putUlDci ulGrants).2.takeGrant mode dl (rx + 4)).2.2.1.map Prod.fst = some sent := dci
  change _ ∧ _ ∧ _ ∧ ∃ r,
    ((w.putUlDci ulGrants).2.takeGrant mode dl (rx + 4)).2.2.1.map Prod.snd = some r ∧ _
  cases handed with
  | nothing none =>
      rw [takeGrant_nothing _ none] at taken
      cases taken
  | sib1 _ only =>
      subst only
      rw [takeGrant_sib1 _ Nat.one_pos rfl] at taken
      cases taken
  | sib2 _ _ only =>
      subst only
      rw [takeGrant_sib2 _ Nat.one_pos rfl rfl] at taken
      cases taken
  | rar _ rnti _ valid grants only =>
      rw [takeGrant_dci _ grants (by rw [only]; rfl) (by rw [only])] at taken ⊢
      cases taken
      refine ⟨?_, valid, rfl, _, rfl, rfl, ?_⟩
      · rw [only]
        exact rarDci_plain rnti
      · simp only [recordOf, only]
        rfl
  | user user ue _ _ valid _ grants only npdcch =>
      rw [takeGrant_dci _ grants (handed_noSib1 only) npdcch] at taken ⊢
      cases taken
      refine ⟨?_, valid, rfl, _, rfl, rfl, ?_⟩
      · rw [only]
        exact SchedUe.generateFormatN1_plain _ _
      · obtain ⟨grant, made, -⟩ := generateFormatN1_grant ue.afterAlloc ue.getRequestedDlBytes.2 (rx + 4) mode
        simp only [recordOf, grantOf, only, made, Option.getD_some]

end DlWorker

/-! ## Uplink -/

namespace MacUl

end MacUl

namespace Sched

variable {s s' : Sched} {rx : Nat} {c : TtiCalls} {o : TtiLog}

end Sched

/-! ## In a run -/

/-- The bits of the downlink DCI of a TTI. -/
def EnbLog.dlBits (o : EnbLog) (sent : DciSent) : Option (List Nat) :=
  putNpdcchDl (sent.dlDci o.phy.input.dl.npdsch.dci)

theorem PhyMac.tti_ulDci (mode : NbiotMode) (s : PhyMac) (rx : Nat) (i : WorkInput) :
    (s.tti mode rx i).2.work.dl.ulDci = (s.worker.dl.putUlDci (s.tti mode rx i).2.npusch).1 := by
  have now : ttiAdd (rx % 10240) (fddDelayUlNbMs + fddHarqDelayDlMs) = (rx + 13) % 10240 := by
    simp [ttiAdd, fddDelayUlNbMs, fddHarqDelayDlMs]
  rw [(PhyMac.tti_ul mode s rx i).npusch, ← now]
  rfl

namespace Enb

variable {mode : NbiotMode} {rx : Nat} {i : EnbInput} {s s' : Enb} {o : EnbLog}

/-- The parts of a TTI that the uplink sees. -/
theorem tti_ul (stepped : s.tti mode rx i = some (s', o)) :
    PhyMac.UlTti s.phyMac s'.phyMac rx o.phy ∧ o.phy.input.npusch = o.sched.ul.npusch ∧
      o.phy.work.dl.ulDci = (s.phyMac.worker.dl.putUlDci o.phy.npusch).1 := by
  unfold tti at stepped
  split at stepped
  · cases stepped
  · rename_i sched log ran
    cases stepped
    exact ⟨PhyMac.tti_ul mode s.phyMac rx _, rfl, PhyMac.tti_ulDci mode s.phyMac rx _⟩

theorem run_ring {start : Nat} {inputs : List EnbInput} {log : List EnbLog}
    (ran : run mode start inputs = some (s, log)) : Sched.RingOk (start + inputs.length) s.sched :=
  (Ticking.run_invariant (I := fun n (s : Enb) _ => Sched.Windows n s.sched) (C := fun _ => True)
    (fun _ _ _ _ _ _ windows stepped _ => Sched.tti_windows windows (tti_dl stepped).1)
    (Sched.init_windows start) ran fun _ _ => trivial).ring

/-- In every state a run reaches, a downlink DCI of the next TTI is understood by the UE it is sent to:
    the UE computes the grant that has been queued. -/
theorem dl_dci_understood {start : Nat} {inputs : List EnbInput} {log : List EnbLog}
    (ran : run mode start inputs = some (s, log))
    (stepped : s.tti mode (start + inputs.length) i = some (s', o)) {sent : DciSent}
    (dci : o.phy.work.dl.dlDci = some sent) (addressed : sent.rnti ≠ 0) :
    ∃ r bits, o.phy.work.dl.pushed = some r ∧ r.rnti = sent.rnti ∧ o.dlBits sent = some bits ∧
      ∀ decode, Hears decode bits sent.rnti → ∃ ueDci : UeDlDci,
        ueNpdcch decode sent.rnti (o.sched.tx % 10240) mode = some (.dl ueDci r.grant) ∧
          ueDci.ndi = (rntiIsUser sent.rnti && sent.ndi) := by
  have ring := run_ring ran
  obtain ⟨sched, -, -, -, ulGrants, worked⟩ := tti_dl stepped
  have handed := tti_handed stepped ring
  obtain ⟨plain, valid, rnti, r, pushed, owner, made⟩ :=
    DlWorker.workDl_dci handed s.phyMac.worker.dl ulGrants (by rw [worked]; exact dci)
  rw [worked] at pushed
  have fits := plain.fits sent
  refine ⟨r, (sent.dlDci o.phy.input.dl.npdsch.dci).bitsN1, pushed, owner, putNpdcchDl_eq fits.noOrder, ?_⟩
  intro decode hears
  have here : isValidDlSf (o.sched.tx % 10240) = true := by rw [Sched.tti_tx sched, isValidDlSf_mod, valid]
  apply fits.understood hears addressed here
  rw [sent.dlDci_grant, Sched.tti_tx sched]
  exact made

/-- A UE waits for a block. -/
def downlinkFirst : EnbInput := { calls := ⟨Sched.dlWaiting 0x47, []⟩, macCalls := [.ueAdd 0x47] }

theorem dl_dci_understood_first : ∃ s o r bits, tti .standalone {} 12 downlinkFirst = some (s, o) ∧
    o.phy.work.dl.pushed = some r ∧ o.dlBits ⟨0x47, false⟩ = some bits ∧
      ∃ ueDci, ueNpdcch (clearChannel bits 0x47) 0x47 (o.sched.tx % 10240) .standalone =
        some (.dl ueDci r.grant) := by
  have checked : ((tti .standalone {} 12 downlinkFirst).any fun r =>
      decide (r.2.phy.work.dl.dlDci = some ⟨0x47, false⟩)) = true := by decide +kernel
  obtain ⟨⟨s, o⟩, stepped, dci⟩ := Option.any_eq_true .. |>.mp checked
  have nothing : run .standalone 12 [] = some ({}, []) := rfl
  obtain ⟨r, bits, pushed, -, put, heard⟩ :=
    dl_dci_understood nothing stepped (of_decide_eq_true dci) (by decide)
  obtain ⟨ueDci, understood, -⟩ := heard _ (clearChannel_hears bits 0x47)
  exact ⟨s, o, r, bits, stepped, pushed, put, ueDci, understood⟩

end Enb

end SonicaEnb
