import SonicaEnb.Mac.Handover
import SonicaEnb.Phy.Enb

/-! # What one `work_dl` does

The worker taken apart into its phases, each with what it leaves alone, and the
grants it computes from the DCIs the scheduler makes.
-/

namespace SonicaEnb

/-! ## Grants -/

/-- A grant for `n` subframes, the first of them at absolute TTI `a`. -/
structure RaNbiotDlGrant.BeginsAt (grant : RaNbiotDlGrant) (a n : Nat) : Prop where
  startSfn : grant.startSfn = a % 10240 / 10
  startSfidx : grant.startSfidx = a % 10240 % 10
  total : grant.nofSf * grant.nofRep = n
  tbs : grant.tbs ≠ 0
  hasSib1 : grant.hasSib1 = false

/-- What every grant owes to its conversion. -/
theorem raNbiotDlDciToGrant_made {dci : RaNbiotDlDci} {sfn sfIdx rMax : Nat} {isPrescheduled : Bool}
    {mode : NbiotMode} {grant : RaNbiotDlGrant}
    (made : raNbiotDlDciToGrant dci sfn sfIdx rMax isPrescheduled mode = some grant) :
    grant.tbs ≠ 0 ∧ grant.hasSib1 = dci.alloc.hasSib1 ∧ grant.startSfidx < 10 := by
  simp only [raNbiotDlDciToGrant, Option.ite_none_left_eq_some, Option.some.injEq] at made
  obtain ⟨some, rfl⟩ := made
  exact ⟨some, rfl, Nat.mod_lt _ (by omega)⟩

namespace DlWorker

variable (mode : NbiotMode) (tx : Nat)

/-- The grant of a response. -/
theorem rar_beginsAt (rnti : Nat) :
    (grantOf mode (rarDci rnti) (tx % 10240) false).BeginsAt (rarTx tx) 1 := by
  have time : tx % 10240 / 10 * 10 + tx % 10240 % 10 = tx % 10240 := by omega
  have start : firstValidDlSf ((tx % 10240 + 5) % 10240) = rarTx tx % 10240 := by
    rw [Nat.mod_add_mod, firstValidDlSf_mod, rarTx]
  have k0 : raK0FromDci (limitDlDci (rarDci rnti)) dummyRMax = 0 := rfl
  have size : tbsNbiot (limitDlDci (rarDci rnti)).mcsIdx (limitDlDci (rarDci rnti)).alloc.iSf ≠ 0 := by
    change tbsNbiot 4 0 ≠ 0
    decide
  have noSib1 : (limitDlDci (rarDci rnti)).alloc.hasSib1 = false := rfl
  have total : raNSfFromDci (limitDlDci (rarDci rnti)) * raNRepFromDci (limitDlDci (rarDci rnti)) = 1 := rfl
  simp only [grantOf, raNbiotDlDciToGrant, k0, noSib1, Bool.false_eq_true, if_false, size, time, start,
    Nat.add_zero, Option.getD_some]
  exact ⟨rfl, rfl, total, size, rfl⟩

/-- The grant of a user. -/
theorem user_beginsAt (ue : SchedUe) (maxData : Nat) :
    (grantOf mode (ue.generateFormatN1 (SfGrid.iSfFor maxData)).1.dci (tx % 10240) false).BeginsAt
      (rarTx tx) (iSfToNSfNpdsch.getD (SfGrid.iSfFor maxData) 0) := by
  obtain ⟨grant, made, begins, total⟩ := generateFormatN1_grant ue maxData tx mode
  obtain ⟨tbs, sib1, digit⟩ := raNbiotDlDciToGrant_made made
  have noSib1 : (ue.generateFormatN1 (SfGrid.iSfFor maxData)).1.dci.alloc.hasSib1 = false := by
    simp only [SchedUe.generateFormatN1]
    split <;> rfl
  have start : firstValidDlSf ((tx + 5) % 10240) = rarTx tx % 10240 := by rw [firstValidDlSf_mod, rarTx]
  rw [grantOf, made, Option.getD_some]
  exact ⟨by omega, by omega, total, tbs, sib1.trans noSib1⟩

/-- The grant of a SIB2. -/
theorem sib2_grantOf : (grantOf mode raDlSib2 (tx % 10240) true).nofSf = 8 ∧
    (grantOf mode raDlSib2 (tx % 10240) true).nofRep = 1 ∧
    (grantOf mode raDlSib2 (tx % 10240) true).tbs ≠ 0 := by
  have size : tbsNbiot 3 6 ≠ 0 := by decide
  simp only [grantOf, raNbiotDlDciToGrant, limitDlDci, raDlSib2, raK0FromDci, dummyRMax, raNSfFromDci,
    raNRepFromDci]
  simp [size, nRepTable]

/-- The grant of a SIB1. -/
theorem sib1_grantOf : (grantOf mode raDlSib1 (tx % 10240) true).nofSf = 8 ∧
    (grantOf mode raDlSib1 (tx % 10240) true).nofRep = 16 ∧
    (grantOf mode raDlSib1 (tx % 10240) true).tbs ≠ 0 ∧
    (grantOf mode raDlSib1 (tx % 10240) true).hasSib1 = true := by
  have size : tbsTableNbiotSib1.getD (min schedInfoSib1 11) 0 ≠ 0 := by decide
  have reps : nRepTableSib1.getD (min schedInfoSib1 11) 0 = 16 := by decide
  simp only [grantOf, raNbiotDlDciToGrant, limitDlDci, raDlSib1, raNRepFromDci, if_true, size, if_false,
    reps, Option.getD_some]
  exact ⟨trivial, trivial, size, trivial⟩

end DlWorker

/-! ## The encoder -/

/-- A coding run leaves the grant and the buffer selection of its configuration alone. -/
theorem NpdschCfg.advance_frame (cfg : NpdschCfg) :
    cfg.advance.grant = cfg.grant ∧ cfg.advance.hasBcch = cfg.hasBcch ∧
      cfg.advance.isEncoded = cfg.isEncoded ∧ cfg.advance.numSf = cfg.numSf + 1 := by
  unfold advance
  simp only
  split
  · exact ⟨rfl, rfl, rfl, rfl⟩
  · split
    · split <;> exact ⟨rfl, rfl, rfl, rfl⟩
    · exact ⟨rfl, rfl, rfl, rfl⟩

/-- The buffers after a call of the encoder. -/
def Npdsch.encoded (q : Npdsch) (cfg : NpdschCfg) (data : TxBuffer) (rnti now : Nat) : Npdsch :=
  if cfg.isEncoded then q else q.encodeInto cfg.hasBcch ⟨data, rnti, cfg.grant.nofSf, now⟩

/-- The encoder refuses, or it encodes where that is still to be done and maps the block in turn. -/
theorem npdschEncodeRnti_cases (q : Npdsch) (cfg : NpdschCfg) (data : Option TxBuffer) (rnti now : Nat) :
    (npdschEncodeRnti q cfg data rnti now = none ∧ (data = none ∨ cfg.grant.tbs = 0)) ∨
      ∃ b, data = some b ∧ cfg.grant.tbs ≠ 0 ∧
        npdschEncodeRnti q cfg data rnti now =
          some (⟨cfg.sfIdx, (q.encoded cfg b rnti now).buffer cfg.hasBcch cfg.sfIdx⟩,
            q.encoded cfg b rnti now, { cfg with isEncoded := true }.advance) := by
  cases data with
  | none => exact .inl ⟨rfl, .inl rfl⟩
  | some b =>
      by_cases zero : cfg.grant.tbs = 0
      · exact .inl ⟨by simp [npdschEncodeRnti, zero], .inr zero⟩
      · refine .inr ⟨b, rfl, zero, ?_⟩
        simp only [npdschEncodeRnti, zero, if_false]
        rfl

/-! ## Phases -/

namespace DlWorker

/-- Two workers with the same queue and the same active NPDSCH. -/
structure SameNpdsch (w w' : DlWorker) : Prop where
  npdschCfg : w'.npdschCfg = w.npdschCfg
  npdschActive : w'.npdschActive = w.npdschActive
  npdschData : w'.npdschData = w.npdschData
  dlPendingGrants : w'.dlPendingGrants = w.dlPendingGrants

variable {mode : NbiotMode} {tx : Nat}

theorem putUlDci_same (w : DlWorker) (ulGrants : List UlSchedGrant) :
    SameNpdsch w (w.putUlDci ulGrants).2 ∧ (w.putUlDci ulGrants).2.npdsch = w.npdsch ∧
      (w.putUlDci ulGrants).2.sib1NpdschCfg = w.sib1NpdschCfg := by
  unfold putUlDci
  split
  · exact ⟨⟨rfl, rfl, rfl, rfl⟩, rfl, rfl⟩
  · split <;> exact ⟨⟨rfl, rfl, rfl, rfl⟩, rfl, rfl⟩

theorem putSib1_error {w : DlWorker} {grant : DlSchedGrant} {now : Nat}
    (error : npdschEncodeRnti w.npdsch w.sib1NpdschCfg grant.data grant.dci.alloc.rnti now = none) :
    w.putSib1 grant now =
      (none, if w.sib1NpdschCfg.sfIdx = w.sib1NpdschCfg.totalSf then { w with sib1NpdschCfg := {} } else w) := by
  simp only [putSib1, error]

theorem putSib1_mapped {w : DlWorker} {grant : DlSchedGrant} {now : Nat} {mapped : MappedBlock}
    {q : Npdsch} {cfg : NpdschCfg}
    (encoded : npdschEncodeRnti w.npdsch w.sib1NpdschCfg grant.data grant.dci.alloc.rnti now =
      some (mapped, q, cfg)) :
    w.putSib1 grant now = (some mapped,
      { w with npdsch := q, sib1NpdschCfg := if cfg.sfIdx = cfg.totalSf then {} else cfg }) := by
  simp only [putSib1, encoded]
  split <;> rfl

theorem putNpdsch_error {w : DlWorker}
    (error : npdschEncodeRnti w.npdsch w.npdschCfg w.npdschData w.npdschRnti tx = none) :
    w.putNpdsch tx = (none,
      if w.npdschCfg.numSf = w.npdschCfg.totalSf then { w with npdschCfg := {}, npdschActive := false }
      else w) := by
  simp only [putNpdsch, error]

theorem putNpdsch_mapped {w : DlWorker} {mapped : MappedBlock} {q : Npdsch} {cfg : NpdschCfg}
    (encoded : npdschEncodeRnti w.npdsch w.npdschCfg w.npdschData w.npdschRnti tx = some (mapped, q, cfg)) :
    w.putNpdsch tx = (some mapped,
      if cfg.numSf = cfg.totalSf then { w with npdsch := q, npdschCfg := {}, npdschActive := false }
      else { w with npdsch := q, npdschCfg := cfg }) := by
  simp only [putNpdsch, encoded]

theorem putSib1_same (w : DlWorker) (grant : DlSchedGrant) (now : Nat) :
    SameNpdsch w (w.putSib1 grant now).2 := by
  cases ran : npdschEncodeRnti w.npdsch w.sib1NpdschCfg grant.data grant.dci.alloc.rnti now with
  | none =>
      rw [putSib1_error ran]
      simp only
      split <;> exact ⟨rfl, rfl, rfl, rfl⟩
  | some result =>
      rw [putSib1_mapped ran]
      exact ⟨rfl, rfl, rfl, rfl⟩

theorem workSib1_new (w : DlWorker) {grant : DlSchedGrant} (new : grant.isNewSib = true) :
    w.workSib1 mode grant tx = (true,
      { w with sib1NpdschCfg :=
          SonicaEnb.npdschCfg (grantOf mode grant.dci (tx % 10240) true) }.putSib1 grant tx) := by
  simp [workSib1, new]

theorem workSib1_next (w : DlWorker) {grant : DlSchedGrant} (old : grant.isNewSib = false) :
    w.workSib1 mode grant tx =
      if 0 < w.sib1NpdschCfg.sfIdx then (true, w.putSib1 grant tx) else (false, none, w) := by
  simp [workSib1, old]

theorem workSib1_same (w : DlWorker) (mode : NbiotMode) (grant : DlSchedGrant) (tx : Nat) :
    SameNpdsch w (w.workSib1 mode grant tx).2.2 := by
  cases new : grant.isNewSib with
  | true =>
      rw [workSib1_new w new]
      have put := putSib1_same { w with
        sib1NpdschCfg := SonicaEnb.npdschCfg (grantOf mode grant.dci (tx % 10240) true) } grant tx
      exact ⟨put.npdschCfg, put.npdschActive, put.npdschData, put.dlPendingGrants⟩
  | false =>
      rw [workSib1_next w new]
      split
      · exact putSib1_same w grant tx
      · exact ⟨rfl, rfl, rfl, rfl⟩

/-- The worker with a grant from the queue configured and the rest of the queue. -/
def configure (w : DlWorker) (head : DlGrantRecord) (rest : List DlGrantRecord) : DlWorker :=
  { w with
    npdschCfg := SonicaEnb.npdschCfg head.grant
    npdschActive := true
    npdschRnti := head.rnti
    npdschData := head.data
    dlPendingGrants := rest }

theorem popGrant_cases (w : DlWorker) (ttiTxDl : Nat) :
    w.popGrant ttiTxDl = (none, w) ∨
      ∃ head rest, w.dlPendingGrants = head :: rest ∧ w.npdschActive = false ∧
        head.grant.startSfn = ttiTxDl / 10 ∧ head.grant.startSfidx = ttiTxDl % 10 ∧
        w.popGrant ttiTxDl = (some head, w.configure head rest) := by
  unfold popGrant
  split
  · exact .inl rfl
  · rename_i head rest queue
    split
    · rename_i now
      simp only [Bool.and_eq_true, Bool.not_eq_true', beq_iff_eq] at now
      exact .inr ⟨head, rest, queue, now.1.1, now.1.2, now.2, rfl⟩
    · exact .inl rfl

/-- What is put on the queue comes off at its front. -/
theorem popGrant_queue (w : DlWorker) (ttiTxDl : Nat) :
    w.dlPendingGrants = (w.popGrant ttiTxDl).1.toList ++ (w.popGrant ttiTxDl).2.dlPendingGrants := by
  rcases popGrant_cases w ttiTxDl with none | ⟨head, rest, queue, -, -, -, popped⟩
  · rw [none]
    rfl
  · rw [popped, queue]
    rfl

theorem takeGrant_queue (w : DlWorker) (mode : NbiotMode) (dl : DlSchedPhy) (tx : Nat) :
    (w.takeGrant mode dl tx).2.2.2.dlPendingGrants =
      w.dlPendingGrants ++ ((w.takeGrant mode dl tx).2.2.1.map Prod.snd).toList := by
  unfold takeGrant
  split
  · split
    · simp [(workSib1_same w mode dl.npdsch tx).dlPendingGrants]
    · split
      · simp [workSib2]
      · simp [workData]
  · simp

theorem putNpdsch_queue (w : DlWorker) : (w.putNpdsch tx).2.dlPendingGrants = w.dlPendingGrants := by
  cases ran : npdschEncodeRnti w.npdsch w.npdschCfg w.npdschData w.npdschRnti tx with
  | none =>
      rw [putNpdsch_error ran]
      simp only
      split <;> rfl
  | some result =>
      rw [putNpdsch_mapped ran]
      simp only
      split <;> rfl

/-- The queue of the worker over one TTI. -/
theorem workDl_queue (w : DlWorker) (mode : NbiotMode) (tx : Nat) (dl : DlSchedPhy)
    (ulGrants : List UlSchedGrant) :
    w.dlPendingGrants ++ (w.workDl mode tx dl ulGrants).1.pushed.toList =
      (w.workDl mode tx dl ulGrants).1.popped.toList ++ (w.workDl mode tx dl ulGrants).2.dlPendingGrants := by
  have first := (putUlDci_same w ulGrants).1.dlPendingGrants
  have taken := takeGrant_queue (w.putUlDci ulGrants).2 mode dl tx
  have popped := popGrant_queue ((w.putUlDci ulGrants).2.takeGrant mode dl tx).2.2.2 (tx % 10240)
  rw [first] at taken
  rw [taken] at popped
  simp only [workDl]
  split
  · rw [putNpdsch_queue]
    exact popped
  · exact popped

/-! ## Grants of MAC -/

theorem takeGrant_nothing (w : DlWorker) {dl : DlSchedPhy} (none : dl.nofGrants = 0) :
    w.takeGrant mode dl tx = (false, Option.none, Option.none, w) := by
  simp [takeGrant, none]

theorem takeGrant_sib1 (w : DlWorker) {dl : DlSchedPhy} (grants : 0 < dl.nofGrants)
    (sib1 : dl.npdsch.dci.alloc.hasSib1 = true) :
    w.takeGrant mode dl tx = ((w.workSib1 mode dl.npdsch tx).1, (w.workSib1 mode dl.npdsch tx).2.1, none,
      (w.workSib1 mode dl.npdsch tx).2.2) := by
  simp [takeGrant, grants, sib1]

theorem takeGrant_sib2 (w : DlWorker) {dl : DlSchedPhy} (grants : 0 < dl.nofGrants)
    (sib1 : dl.npdsch.dci.alloc.hasSib1 = false) (npdcch : dl.npdsch.hasNpdcch = false) :
    w.takeGrant mode dl tx = (false, none, none, w.workSib2 mode dl.npdsch tx) := by
  simp [takeGrant, grants, sib1, npdcch]

theorem takeGrant_dci (w : DlWorker) {dl : DlSchedPhy} (grants : 0 < dl.nofGrants)
    (sib1 : dl.npdsch.dci.alloc.hasSib1 = false) (npdcch : dl.npdsch.hasNpdcch = true) :
    w.takeGrant mode dl tx = (false, none, some (⟨dl.npdsch.dci.alloc.rnti, w.hNdiDl⟩, recordOf mode dl.npdsch tx),
      { w with dlPendingGrants := w.dlPendingGrants ++ [recordOf mode dl.npdsch tx], hNdiDl := !w.hNdiDl }) := by
  simp [takeGrant, grants, sib1, npdcch, workData]

end DlWorker

/-! ## The eNB -/

/-- The parts of a TTI that the downlink sees. -/
theorem Enb.tti_dl {mode : NbiotMode} {s s' : Enb} {rx : Nat} {i : EnbInput} {o : EnbLog}
    (stepped : s.tti mode rx i = some (s', o)) :
    s.sched.tti rx i.calls = some (s'.sched, o.sched) ∧ o.phy.pre = s.phyMac.worker ∧
      o.phy.input.macCalls = i.macCalls ∧
      o.phy.input.dl = getDlSched (s.phyMac.mac.calls i.macCalls).knows o.sched.dl ∧
      ∃ ulGrants, s.phyMac.worker.dl.workDl mode (rx + 4) o.phy.input.dl ulGrants =
        (o.phy.work.dl, s'.phyMac.worker.dl) := by
  unfold tti at stepped
  split at stepped
  · cases stepped
  · rename_i sched log ran
    cases stepped
    exact ⟨ran, rfl, rfl, rfl, _, rfl⟩

/-- What the worker gets in a TTI. -/
theorem Enb.tti_handed {mode : NbiotMode} {s s' : Enb} {rx : Nat} {i : EnbInput} {o : EnbLog}
    (stepped : s.tti mode rx i = some (s', o)) (ok : Sched.RingOk rx s.sched) :
    Handed rx o.sched o.phy.input.dl := by
  obtain ⟨sched, -, -, dl, -⟩ := tti_dl stepped
  rw [dl]
  exact Sched.tti_handed sched ok _

/-- A log whose entries lie in the past, one TTI later. -/
theorem Enb.before_snoc {rx : Nat} {o : EnbLog} {past : List EnbLog} (time : o.sched.tx = rx + 4)
    (before : ∀ q ∈ past, q.sched.tx < rx + 4) : ∀ q ∈ past ++ [o], q.sched.tx < rx + 5 := by
  intro q inside
  rcases List.mem_append.mp inside with old | now
  · exact Nat.lt_succ_of_lt (before q old)
  · rw [List.mem_singleton.mp now]
    omega

end SonicaEnb
