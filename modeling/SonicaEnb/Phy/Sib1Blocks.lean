import SonicaEnb.Phy.Transmit

/-! # The blocks of SIB1

A SIB1 period has 128 subframes, sixteen repetitions of the eight blocks of one
codeword. The worker counts them with the block index of the encoder, which
never turns back, so from the ninth subframe on the index stands behind the
codeword. SIB2 is encoded into the buffer of SIB1.
-/

namespace SonicaEnb

namespace DlSchedPhy

/-- The grant takes the SIB1 case of `work_dl`. -/
def isSib1 (dl : DlSchedPhy) : Bool := decide (0 < dl.nofGrants) && dl.npdsch.dci.alloc.hasSib1

/-- The grant begins a SIB1 period. -/
def isNewSib1 (dl : DlSchedPhy) : Bool := dl.isSib1 && dl.npdsch.isNewSib

/-- The grant takes the case of the other SIBs. -/
def isSib2 (dl : DlSchedPhy) : Bool :=
  decide (0 < dl.nofGrants) && !dl.npdsch.dci.alloc.hasSib1 && !dl.npdsch.hasNpdcch

end DlSchedPhy

/-- The codeword of the SIB1 period that begins at `tx`. -/
def sib1Codeword (tx : Nat) : Codeword := ⟨.bcch 0, raDlSib1.alloc.rnti, 8, tx⟩

/-- The buffer of system information begins with the eight blocks of a codeword. -/
def Npdsch.HoldsSib (q : Npdsch) (codeword : Codeword) : Prop :=
  ∀ i, i < 8 → q.sibSymbols i = some ⟨codeword, i⟩

/-- A configuration of SIB1 of which `k` subframes were sent. -/
structure NpdschCfg.Sib1At (cfg : NpdschCfg) (k : Nat) : Prop where
  nofSf : cfg.grant.nofSf = 8
  nofRep : cfg.grant.nofRep = 16
  tbs : cfg.grant.tbs ≠ 0
  hasBcch : cfg.hasBcch = true
  sfIdx : cfg.sfIdx = k

/-- With BCCH the block index only grows. -/
theorem NpdschCfg.Sib1At.advance {cfg : NpdschCfg} {k : Nat} (at' : cfg.Sib1At k) :
    ({ cfg with isEncoded := true } : NpdschCfg).advance.Sib1At (k + 1) ∧
      ({ cfg with isEncoded := true } : NpdschCfg).advance.isEncoded = true := by
  obtain ⟨grant, bcch, encoded, -⟩ := NpdschCfg.advance_frame { cfg with isEncoded := true }
  refine ⟨⟨?_, ?_, ?_, ?_, ?_⟩, encoded⟩
  · rw [grant]
    exact at'.nofSf
  · rw [grant]
    exact at'.nofRep
  · rw [grant]
    exact at'.tbs
  · rw [bcch]
    exact at'.hasBcch
  · simp [NpdschCfg.advance, at'.hasBcch, at'.sfIdx]

namespace DlWorker

variable {mode : NbiotMode} {tx k : Nat} {w w' : DlWorker}

/-- Two workers with the same SIB1 and the same buffer for system information. -/
structure SameSib (w w' : DlWorker) : Prop where
  sibSymbols : w'.npdsch.sibSymbols = w.npdsch.sibSymbols
  sib1NpdschCfg : w'.sib1NpdschCfg = w.sib1NpdschCfg

theorem SameSib.trans {w'' : DlWorker} (first : SameSib w w') (second : SameSib w' w'') : SameSib w w'' where
  sibSymbols := second.sibSymbols.trans first.sibSymbols
  sib1NpdschCfg := second.sib1NpdschCfg.trans first.sib1NpdschCfg

/-- System information that is active was encoded, and nothing in the queue is any. -/
structure SibsEncoded (w : DlWorker) : Prop where
  active : w.npdschActive = true → w.npdschCfg.hasBcch = true → w.npdschCfg.isEncoded = true
  queue : ∀ r ∈ w.dlPendingGrants, r.grant.hasSib1 = false

theorem SibsEncoded.of_same (sibs : SibsEncoded w) (same : SameNpdsch w w') : SibsEncoded w' where
  active := by rw [same.npdschActive, same.npdschCfg]; exact sibs.active
  queue := by rw [same.dlPendingGrants]; exact sibs.queue

/-! ## User data -/

theorem encoded_sibSymbols {q : Npdsch} {cfg : NpdschCfg} (data : TxBuffer) (rnti now : Nat)
    (done : cfg.hasBcch = true → cfg.isEncoded = true) :
    (q.encoded cfg data rnti now).sibSymbols = q.sibSymbols := by
  unfold Npdsch.encoded
  split
  · rfl
  · rename_i notYet
    have noBcch : cfg.hasBcch = false := by
      cases bcch : cfg.hasBcch with
      | false => rfl
      | true => exact absurd (done bcch) notYet
    simp [Npdsch.encodeInto, noBcch]

theorem popGrant_sibs (sibs : SibsEncoded w) (ttiTxDl : Nat) :
    SameSib w (w.popGrant ttiTxDl).2 ∧ SibsEncoded (w.popGrant ttiTxDl).2 := by
  rcases popGrant_cases w ttiTxDl with none | ⟨head, rest, queue, -, -, -, popped⟩
  · rw [none]
    exact ⟨⟨rfl, rfl⟩, sibs⟩
  · rw [popped]
    have noSib1 : head.grant.hasSib1 = false := sibs.queue head (by rw [queue]; exact List.mem_cons_self)
    refine ⟨⟨rfl, rfl⟩, ?_, ?_⟩
    · intro _ bcch
      have bcch : head.grant.hasSib1 = true := bcch
      rw [noSib1] at bcch
      cases bcch
    · intro r inside
      exact sibs.queue r (by rw [queue]; exact List.mem_cons_of_mem head inside)

theorem putNpdsch_sibs (sibs : SibsEncoded w) (active : w.npdschActive = true) (tx : Nat) :
    SameSib w (w.putNpdsch tx).2 ∧ SibsEncoded (w.putNpdsch tx).2 := by
  rcases npdschEncodeRnti_cases w.npdsch w.npdschCfg w.npdschData w.npdschRnti tx with
    ⟨error, -⟩ | ⟨b, -, -, ran⟩
  · rw [putNpdsch_error error]
    simp only
    split
    · exact ⟨⟨rfl, rfl⟩, (fun on => by cases on), sibs.queue⟩
    · exact ⟨⟨rfl, rfl⟩, sibs⟩
  · have kept := encoded_sibSymbols (q := w.npdsch) b w.npdschRnti tx (sibs.active active)
    rw [putNpdsch_mapped ran]
    simp only
    split
    · exact ⟨⟨kept, rfl⟩, (fun on => by cases on), sibs.queue⟩
    · refine ⟨⟨kept, rfl⟩, ?_, sibs.queue⟩
      intro _ _
      exact (NpdschCfg.advance_frame _).2.2.1

/-- The queue and the active NPDSCH leave the buffer of system information alone. -/
theorem workDl_sibs {dl : DlSchedPhy} {ulGrants : List UlSchedGrant}
    (sibs : SibsEncoded ((w.putUlDci ulGrants).2.takeGrant mode dl tx).2.2.2) :
    SameSib ((w.putUlDci ulGrants).2.takeGrant mode dl tx).2.2.2 (w.workDl mode tx dl ulGrants).2 ∧
      SibsEncoded (w.workDl mode tx dl ulGrants).2 := by
  simp only [workDl]
  generalize (w.putUlDci ulGrants).2.takeGrant mode dl tx = result at *
  obtain ⟨first, popped⟩ := popGrant_sibs sibs (tx % 10240)
  split
  · rename_i sends
    simp only [Bool.and_eq_true] at sends
    obtain ⟨second, put⟩ := putNpdsch_sibs popped sends.1.2 tx
    exact ⟨first.trans second, put⟩
  · exact ⟨first, popped⟩

/-! ## System information -/

/-- What a configuration encodes when it is new. -/
theorem encoded_holds {q : Npdsch} {cfg : NpdschCfg} (data : TxBuffer) (rnti now : Nat)
    (notYet : cfg.isEncoded = false) (bcch : cfg.hasBcch = true) (size : cfg.grant.nofSf = 8) :
    (q.encoded cfg data rnti now).HoldsSib ⟨data, rnti, 8, now⟩ := by
  intro i inside
  simp [Npdsch.encoded, Npdsch.encodeInto, notYet, bcch, size, inside]

/-- The first block of SIB2. -/
theorem putNpdsch_begins {b : TxBuffer} (notYet : w.npdschCfg.isEncoded = false)
    (bcch : w.npdschCfg.hasBcch = true) (size : w.npdschCfg.grant.nofSf = 8)
    (tbs : w.npdschCfg.grant.tbs ≠ 0) (data : w.npdschData = some b)
    (queue : ∀ r ∈ w.dlPendingGrants, r.grant.hasSib1 = false) (tx : Nat) :
    (w.putNpdsch tx).2.npdsch.HoldsSib ⟨b, w.npdschRnti, 8, tx⟩ ∧
      (w.putNpdsch tx).2.sib1NpdschCfg = w.sib1NpdschCfg ∧ SibsEncoded (w.putNpdsch tx).2 := by
  rcases npdschEncodeRnti_cases w.npdsch w.npdschCfg w.npdschData w.npdschRnti tx with
    ⟨-, none | zero⟩ | ⟨b', data', -, ran⟩
  · rw [data] at none
    cases none
  · exact absurd zero tbs
  · rw [data] at data'
    cases data'
    have holds := encoded_holds (q := w.npdsch) b w.npdschRnti tx notYet bcch size
    rw [putNpdsch_mapped ran]
    simp only
    split
    · exact ⟨holds, rfl, (fun on => by cases on), queue⟩
    · refine ⟨holds, rfl, ?_, queue⟩
      intro _ _
      exact (NpdschCfg.advance_frame _).2.2.1

/-- SIB2 takes the buffer over in its first TTI. -/
theorem workDl_sib2 (sibs : SibsEncoded w) (occasion : Sched.isSib2Start tx = true) (mode : NbiotMode)
    (ulGrants : List UlSchedGrant) :
    let w' := (w.workDl mode tx ⟨{ dci := raDlSib2, data := some (.bcch 1) }, 1⟩ ulGrants).2
    w'.npdsch.HoldsSib ⟨.bcch 1, raDlSib2.alloc.rnti, 8, tx⟩ ∧ w'.sib1NpdschCfg = w.sib1NpdschCfg ∧
      SibsEncoded w' := by
  have residue := Sched.sib2Start_residue occasion
  have valid : isValidDlSf (tx % 10240) = true := by
    rw [isValidDlSf_mod, isValidDlSf_iff]
    omega
  obtain ⟨first, -, sib1⟩ := putUlDci_same w ulGrants
  obtain ⟨nofSf, -, tbs⟩ := sib2_grantOf mode tx
  simp only [workDl]
  rw [takeGrant_sib2 _ Nat.one_pos rfl rfl, ← sib1]
  have sibs₁ := sibs.of_same first
  generalize (w.putUlDci ulGrants).2 = w₁ at *
  generalize begun : w₁.workSib2 mode { dci := raDlSib2, data := some (.bcch 1) } tx = w₂
  have active : w₂.npdschActive = true := by rw [← begun]; rfl
  have put := putNpdsch_begins (w := w₂) (b := .bcch 1) (by rw [← begun]; rfl) (by rw [← begun]; rfl)
    (by rw [← begun]; exact nofSf) (by rw [← begun]; exact tbs) (by rw [← begun]; rfl)
    (by rw [← begun]; exact sibs₁.queue) tx
  rcases popGrant_cases w₂ (tx % 10240) with none | ⟨_, _, _, idle, _⟩
  · rw [none]
    simp only [active, valid, Bool.not_false, Bool.and_self, if_true]
    rw [← begun] at put ⊢
    exact put
  · rw [active] at idle
    cases idle

/-- A block of SIB1: the block in turn is sent, and after 128 of them the configuration is gone. -/
theorem putSib1_at {grant : DlSchedGrant} {b : TxBuffer} (cfg : w.sib1NpdschCfg.Sib1At k)
    (data : grant.data = some b) (tx : Nat) :
    let q := w.npdsch.encoded w.sib1NpdschCfg b grant.dci.alloc.rnti tx
    (w.putSib1 grant tx).1 = some ⟨k, q.sibSymbols k⟩ ∧ (w.putSib1 grant tx).2.npdsch = q ∧
      (k + 1 ≠ 128 → (w.putSib1 grant tx).2.sib1NpdschCfg.Sib1At (k + 1) ∧
        (w.putSib1 grant tx).2.sib1NpdschCfg.isEncoded = true) := by
  rcases npdschEncodeRnti_cases w.npdsch w.sib1NpdschCfg grant.data grant.dci.alloc.rnti tx with
    ⟨-, none | zero⟩ | ⟨b', data', -, ran⟩
  · rw [data] at none
    cases none
  · exact absurd zero cfg.tbs
  · rw [data] at data'
    cases data'
    obtain ⟨next, encoded⟩ := cfg.advance
    rw [putSib1_mapped ran]
    refine ⟨?_, rfl, ?_⟩
    · rw [cfg.sfIdx, cfg.hasBcch]
      rfl
    · intro more
      have total : ({ w.sib1NpdschCfg with isEncoded := true } : NpdschCfg).advance.totalSf = 128 := by
        rw [NpdschCfg.totalSf, next.nofSf, next.nofRep]
      simp only [next.sfIdx, total, more, if_false]
      exact ⟨next, encoded⟩

/-- The grant of a SIB1 subframe. -/
def sib1Grant (isNewSib : Bool) : DlSchedPhy :=
  ⟨{ dci := raDlSib1, data := some (.bcch 0), isNewSib := isNewSib }, 1⟩

/-- In a SIB1 subframe nothing but SIB1 touches the buffer. -/
theorem workDl_sib1 (sibs : SibsEncoded w) (mode : NbiotMode) (tx : Nat) (isNewSib : Bool)
    (ulGrants : List UlSchedGrant) :
    let sent := (w.putUlDci ulGrants).2.workSib1 mode (sib1Grant isNewSib).npdsch tx
    let result := w.workDl mode tx (sib1Grant isNewSib) ulGrants
    result.1.sib1 = sent.2.1 ∧ SameSib sent.2.2 result.2 ∧ SibsEncoded result.2 := by
  have took := @takeGrant_sib1 mode tx (w.putUlDci ulGrants).2 (sib1Grant isNewSib) Nat.one_pos rfl
  have sibs₁ := sibs.of_same (putUlDci_same w ulGrants).1
  have kept := @workDl_sibs mode tx w (sib1Grant isNewSib) ulGrants
    (by rw [took]; exact sibs₁.of_same (workSib1_same _ _ _ _))
  rw [took] at kept
  refine ⟨?_, kept⟩
  change ((w.putUlDci ulGrants).2.takeGrant mode (sib1Grant isNewSib) tx).2.1 = _
  rw [took]

/-- The first subframe of a period encodes SIB1. -/
theorem workDl_sib1_new (sibs : SibsEncoded w) (mode : NbiotMode) (tx : Nat) (ulGrants : List UlSchedGrant) :
    let result := w.workDl mode tx (sib1Grant true) ulGrants
    result.1.sib1 = some ⟨0, some ⟨sib1Codeword tx, 0⟩⟩ ∧ result.2.npdsch.HoldsSib (sib1Codeword tx) ∧
      result.2.sib1NpdschCfg.Sib1At 1 ∧ result.2.sib1NpdschCfg.isEncoded = true ∧ SibsEncoded result.2 := by
  obtain ⟨sib1, ⟨symbols, cfg⟩, kept⟩ := workDl_sib1 sibs mode tx true ulGrants
  obtain ⟨nofSf, nofRep, tbs, hasSib1⟩ := sib1_grantOf mode tx
  rw [workSib1_new _ rfl] at sib1 symbols cfg
  obtain ⟨mapped, buffer, next⟩ := putSib1_at (w := { (w.putUlDci ulGrants).2 with
      sib1NpdschCfg := SonicaEnb.npdschCfg (grantOf mode raDlSib1 (tx % 10240) true) })
    (b := .bcch 0) (k := 0) ⟨nofSf, nofRep, tbs, hasSib1, rfl⟩ (rfl : (sib1Grant true).npdsch.data = _) tx
  have notYet : (SonicaEnb.npdschCfg (grantOf mode raDlSib1 (tx % 10240) true)).isEncoded = false := rfl
  have holds : Npdsch.HoldsSib _ (sib1Codeword tx) :=
    encoded_holds (q := (w.putUlDci ulGrants).2.npdsch) (.bcch 0) raDlSib1.alloc.rnti tx notYet hasSib1 nofSf
  refine ⟨?_, ?_, ?_, ?_, kept⟩
  · rw [sib1]
    exact mapped.trans (congrArg (fun block => some (MappedBlock.mk 0 block)) (holds 0 (by omega)))
  · intro i inside
    rw [symbols]
    exact (congrArg (fun q => q.sibSymbols i) buffer).trans (holds i inside)
  · rw [cfg]
    exact (next (by omega)).1
  · rw [cfg]
    exact (next (by omega)).2

/-- A later subframe of a period sends what stands in the buffer at its index. -/
theorem workDl_sib1_next (sibs : SibsEncoded w) (at' : w.sib1NpdschCfg.Sib1At k) (later : 0 < k)
    (done : w.sib1NpdschCfg.isEncoded = true) (mode : NbiotMode) (tx : Nat) (ulGrants : List UlSchedGrant) :
    let result := w.workDl mode tx (sib1Grant false) ulGrants
    result.1.sib1 = some ⟨k, w.npdsch.sibSymbols k⟩ ∧ result.2.npdsch.sibSymbols = w.npdsch.sibSymbols ∧
      (k + 1 ≠ 128 → result.2.sib1NpdschCfg.Sib1At (k + 1) ∧ result.2.sib1NpdschCfg.isEncoded = true) ∧
      SibsEncoded result.2 := by
  obtain ⟨-, npdsch, same⟩ := putUlDci_same w ulGrants
  obtain ⟨sib1, ⟨symbols, cfg⟩, kept⟩ := workDl_sib1 sibs mode tx false ulGrants
  rw [← same] at at' done
  rw [workSib1_next _ rfl, if_pos (by rw [at'.sfIdx]; exact later)] at sib1 symbols cfg
  have sent : (sib1Grant false).npdsch.data = some (.bcch 0) := rfl
  obtain ⟨mapped, buffer, next⟩ := putSib1_at at' sent tx
  have unchanged := encoded_sibSymbols (q := (w.putUlDci ulGrants).2.npdsch) (.bcch 0)
    (sib1Grant false).npdsch.dci.alloc.rnti tx (fun _ => done)
  rw [← npdsch]
  refine ⟨?_, ?_, ?_, kept⟩
  · rw [sib1, mapped, unchanged]
  · rw [symbols, buffer, unchanged]
  · rw [cfg]
    exact next

/-- Any other subframe leaves SIB1 and its buffer alone. -/
theorem workDl_plain {rx : Nat} {o : TtiLog} {dl : DlSchedPhy} (sibs : SibsEncoded w) (handed : Handed rx o dl)
    (noSib1 : dl.isSib1 = false) (noSib2 : dl.isSib2 = false) (mode : NbiotMode) (ulGrants : List UlSchedGrant) :
    SameSib w (w.workDl mode (rx + 4) dl ulGrants).2 ∧ SibsEncoded (w.workDl mode (rx + 4) dl ulGrants).2 := by
  obtain ⟨first, npdsch, sib1⟩ := putUlDci_same w ulGrants
  have sibs₁ := sibs.of_same first
  have queued : ∀ r, r.grant.hasSib1 = false →
      ∀ r' ∈ (w.putUlDci ulGrants).2.dlPendingGrants ++ [r], r'.grant.hasSib1 = false := by
    intro r noSib1 r' inside
    rcases List.mem_append.mp inside with old | new
    · exact sibs₁.queue r' old
    · rw [List.mem_singleton.mp new]
      exact noSib1
  have taken : SameSib w ((w.putUlDci ulGrants).2.takeGrant mode dl (rx + 4)).2.2.2 ∧
      SibsEncoded ((w.putUlDci ulGrants).2.takeGrant mode dl (rx + 4)).2.2.2 := by
    cases handed with
    | nothing none =>
        rw [takeGrant_nothing _ none]
        exact ⟨⟨by rw [npdsch], sib1⟩, sibs₁⟩
    | sib1 _ only =>
        subst only
        cases noSib1
    | sib2 _ _ only =>
        subst only
        cases noSib2
    | rar _ rnti _ _ grants dci =>
        rw [takeGrant_dci _ grants (by rw [dci]; rfl) (by rw [dci])]
        refine ⟨⟨by rw [npdsch], sib1⟩, sibs₁.active, queued _ ?_⟩
        rw [recordOf, dci]
        exact (rar_beginsAt mode (rx + 4) rnti).hasSib1
    | user _ ue _ _ _ _ grants dci npdcch =>
        rw [takeGrant_dci _ grants (handed_noSib1 dci) npdcch]
        refine ⟨⟨by rw [npdsch], sib1⟩, sibs₁.active, queued _ ?_⟩
        rw [recordOf, dci]
        exact (user_beginsAt mode (rx + 4) ue.afterAlloc ue.getRequestedDlBytes.2).hasSib1
  obtain ⟨same, kept⟩ := workDl_sibs taken.2
  exact ⟨taken.1.trans same, kept⟩

end DlWorker

/-! ## Runs -/

/-- SIB1 is handed over in its own subframes only. -/
theorem Handed.sib1_occasion {rx : Nat} {o : TtiLog} {dl : DlSchedPhy} (handed : Handed rx o dl)
    (sib1 : dl.isSib1 = true) : (rx + 4) % 20 = 14 := by
  simp only [DlSchedPhy.isSib1, Bool.and_eq_true, decide_eq_true_eq] at sib1
  obtain ⟨grants, hasSib1⟩ := sib1
  cases handed with
  | nothing none => omega
  | sib1 occasion => exact occasion
  | sib2 _ _ only =>
      rw [only] at hasSib1
      cases hasSib1
  | rar _ rnti _ _ _ dci =>
      rw [dci] at hasSib1
      cases hasSib1
  | user _ ue _ _ _ _ _ dci =>
      rw [DlWorker.handed_noSib1 dci] at hasSib1
      cases hasSib1

/-- A subframe without SIB1 keeps its configuration, and its buffer unless a SIB2 begins. -/
theorem DlWorker.workDl_other {rx : Nat} {o : TtiLog} {dl : DlSchedPhy} {w : DlWorker} (sibs : SibsEncoded w)
    (handed : Handed rx o dl) (noSib1 : dl.isSib1 = false) (mode : NbiotMode) (ulGrants : List UlSchedGrant) :
    let w' := (w.workDl mode (rx + 4) dl ulGrants).2
    w'.sib1NpdschCfg = w.sib1NpdschCfg ∧ SibsEncoded w' ∧
      ((dl.isSib2 = false ∧ w'.npdsch.sibSymbols = w.npdsch.sibSymbols) ∨
        (dl.isSib2 = true ∧ w'.npdsch.HoldsSib ⟨.bcch 1, raDlSib2.alloc.rnti, 8, rx + 4⟩)) := by
  cases isSib2 : dl.isSib2 with
  | false =>
      obtain ⟨same, kept⟩ := workDl_plain sibs handed noSib1 isSib2 mode ulGrants
      exact ⟨same.sib1NpdschCfg, kept, .inl ⟨rfl, same.sibSymbols⟩⟩
  | true =>
      have grants := isSib2
      simp only [DlSchedPhy.isSib2, Bool.and_eq_true, decide_eq_true_eq, Bool.not_eq_true'] at grants
      cases handed with
      | nothing none => omega
      | sib1 _ only =>
          rw [only] at noSib1
          cases noSib1
      | sib2 occasion _ only =>
          subst only
          obtain ⟨holds, cfg, kept⟩ := workDl_sib2 sibs occasion mode ulGrants
          exact ⟨cfg, kept, .inr ⟨rfl, holds⟩⟩
      | rar _ rnti _ _ _ dci =>
          rw [dci] at grants
          cases grants.2
      | user _ _ _ _ _ _ _ _ npdcch =>
          rw [npdcch] at grants
          cases grants.2

/-- The `k`-th SIB1 subframe of the period that began at `tx`: block `k % 8` of its codeword, read
    within the eight blocks. -/
def EnbLog.SendsSib1 (o : EnbLog) (tx k : Nat) : Prop :=
  ∃ mapped, o.phy.work.dl.sib1 = some mapped ∧ mapped.offset < 8 ∧
    mapped.block = some ⟨sib1Codeword tx, k % 8⟩

namespace Enb

/-- No SIB2 began from `tx` on and before `until'`. -/
def NoSib2 (log : List EnbLog) (tx until' : Nat) : Prop :=
  ∀ q ∈ log, tx ≤ q.sched.tx → q.sched.tx < until' → q.phy.input.dl.isSib2 = false

/-- What was sent of SIB1, and where: every SIB1 subframe belongs to a period, and sends its block
    while it is one of the first eight and no SIB2 came between. -/
structure Sib1Log (log : List EnbLog) : Prop where
  phase : ∀ o ∈ log, o.phy.input.dl.isSib1 = true → o.sched.tx % 20 = 14
  covered : ∀ o ∈ log, o.phy.input.dl.isSib1 = true →
    ∃ p ∈ log, p.phy.input.dl.isNewSib1 = true ∧ ∃ k < 128, o.sched.tx = p.sched.tx + 20 * k
  sent : ∀ p ∈ log, p.phy.input.dl.isNewSib1 = true → ∀ k < 128, ∀ o ∈ log,
    o.sched.tx = p.sched.tx + 20 * k →
      (o.SendsSib1 p.sched.tx k ↔ k < 8 ∧ NoSib2 log p.sched.tx o.sched.tx)

/-- A period that began at `tx`, in front of its `k`-th subframe. -/
structure InPeriod (rx k tx : Nat) (w : DlWorker) (past : List EnbLog) : Prop where
  began : ∃ p ∈ past, p.sched.tx = tx ∧ p.phy.input.dl.isNewSib1 = true
  after : tx + 20 * k < rx + 24
  upTo : rx + 4 ≤ tx + 20 * k
  latest : ∀ p ∈ past, p.phy.input.dl.isNewSib1 = true → p.sched.tx = tx ∨ p.sched.tx + 2540 < tx
  cfg : w.sib1NpdschCfg.Sib1At k
  encoded : w.sib1NpdschCfg.isEncoded = true
  buffer : ∃ codeword, w.npdsch.HoldsSib codeword ∧
    (codeword = sib1Codeword tx ↔ NoSib2 past tx (rx + 4))

/-- In front of the TTI received at `rx`. -/
structure Sib1Known (rx : Nat) (s : Enb) (past : List EnbLog) : Prop where
  windows : Sched.Windows rx s.sched
  before : ∀ q ∈ past, q.sched.tx < rx + 4
  sibs : s.phyMac.worker.dl.SibsEncoded
  counter : s.sched.sib1SfIdx < 128
  between : s.sched.sib1SfIdx = 0 → ∀ p ∈ past, p.phy.input.dl.isNewSib1 = true → p.sched.tx + 2540 < rx + 4
  period : 0 < s.sched.sib1SfIdx → ∃ tx, InPeriod rx s.sched.sib1SfIdx tx s.phyMac.worker.dl past
  log : Sib1Log past

variable {mode : NbiotMode} {rx : Nat} {i : EnbInput} {s s' : Enb} {o : EnbLog} {past : List EnbLog}

theorem noSib2_snoc {tx until' : Nat} (now : until' ≤ o.sched.tx) :
    NoSib2 (past ++ [o]) tx until' ↔ NoSib2 past tx until' := by
  constructor
  · intro none q inside
    exact none q (List.mem_append_left _ inside)
  · intro none q inside lower upper
    rcases List.mem_append.mp inside with old | new
    · exact none q old lower upper
    · rw [List.mem_singleton.mp new] at upper
      omega

theorem isSib1_of_new {dl : DlSchedPhy} (new : dl.isNewSib1 = true) : dl.isSib1 = true := by
  simp only [DlSchedPhy.isNewSib1, Bool.and_eq_true] at new
  exact new.1

/-- One TTI more. -/
theorem Sib1Log.snoc (known : Sib1Log past) (before : ∀ q ∈ past, q.sched.tx < o.sched.tx)
    (phase : o.phy.input.dl.isSib1 = true → o.sched.tx % 20 = 14)
    (covered : o.phy.input.dl.isSib1 = true →
      ∃ p ∈ past ++ [o], p.phy.input.dl.isNewSib1 = true ∧ ∃ k < 128, o.sched.tx = p.sched.tx + 20 * k)
    (sent : ∀ p ∈ past ++ [o], p.phy.input.dl.isNewSib1 = true → ∀ k < 128,
      o.sched.tx = p.sched.tx + 20 * k → (o.SendsSib1 p.sched.tx k ↔ k < 8 ∧ NoSib2 past p.sched.tx o.sched.tx)) : Sib1Log (past ++ [o]) where
  phase := by
    intro q inside
    rcases List.mem_append.mp inside with old | new
    · exact known.phase q old
    · rw [List.mem_singleton.mp new]
      exact phase
  covered := by
    intro q inside sib1
    rcases List.mem_append.mp inside with old | new
    · obtain ⟨p, there, rest⟩ := known.covered q old sib1
      exact ⟨p, List.mem_append_left _ there, rest⟩
    · rw [List.mem_singleton.mp new] at sib1 ⊢
      exact covered sib1
  sent := by
    intro p there isNew k below q inside time
    rcases List.mem_append.mp inside with old | new
    · have earlier := before q old
      rw [noSib2_snoc (by omega)]
      rcases List.mem_append.mp there with began | now
      · exact known.sent p began isNew k below q old time
      · rw [List.mem_singleton.mp now] at time
        omega
    · rw [List.mem_singleton.mp new] at time ⊢
      rw [noSib2_snoc (Nat.le_refl _)]
      exact sent p there isNew k below time

/-- The TTI sent now counts as well. -/
theorem noSib2_now {tx : Nat} (time : o.sched.tx = rx + 4) (before : ∀ q ∈ past, q.sched.tx < rx + 4)
    (began : tx ≤ rx + 4) :
    NoSib2 (past ++ [o]) tx (rx + 5) ↔ NoSib2 past tx (rx + 4) ∧ o.phy.input.dl.isSib2 = false := by
  constructor
  · intro none
    refine ⟨?_, none o (by simp) (by omega) (by omega)⟩
    intro q inside lower upper
    exact none q (List.mem_append_left _ inside) lower (by omega)
  · rintro ⟨none, now⟩ q inside lower -
    rcases List.mem_append.mp inside with old | new
    · exact none q old lower (before q old)
    · rw [List.mem_singleton.mp new]
      exact now

theorem old_of_new {p : EnbLog} (notNew : o.phy.input.dl.isNewSib1 = false) (inside : p ∈ past ++ [o])
    (isNew : p.phy.input.dl.isNewSib1 = true) : p ∈ past := by
  rcases List.mem_append.mp inside with old | now
  · exact old
  · rw [List.mem_singleton.mp now, notNew] at isNew
    cases isNew

/-- A period goes on behind a TTI that does not begin one. -/
theorem InPeriod.goesOn {k k' tx : Nat} {w w' : DlWorker} (inPeriod : InPeriod rx k tx w past)
    (time : o.sched.tx = rx + 4) (before : ∀ q ∈ past, q.sched.tx < rx + 4)
    (notNew : o.phy.input.dl.isNewSib1 = false) (after : tx + 20 * k' < rx + 25) (upTo : rx + 5 ≤ tx + 20 * k')
    (cfg : w'.sib1NpdschCfg.Sib1At k') (encoded : w'.sib1NpdschCfg.isEncoded = true)
    (buffer : (o.phy.input.dl.isSib2 = false ∧ w'.npdsch.sibSymbols = w.npdsch.sibSymbols) ∨
      (o.phy.input.dl.isSib2 = true ∧ w'.npdsch.HoldsSib ⟨.bcch 1, raDlSib2.alloc.rnti, 8, rx + 4⟩)) :
    InPeriod (rx + 1) k' tx w' (past ++ [o]) := by
  obtain ⟨p, there, pTime, pNew⟩ := inPeriod.began
  have earlier := before p there
  obtain ⟨codeword, holds, same⟩ := inPeriod.buffer
  refine ⟨⟨p, List.mem_append_left _ there, pTime, pNew⟩, by omega, by omega, ?_, cfg, encoded, ?_⟩
  · intro p inside isNew
    exact inPeriod.latest p (old_of_new notNew inside isNew) isNew
  · rcases buffer with ⟨noSib2, symbols⟩ | ⟨isSib2, holdsSib2⟩
    · refine ⟨codeword, ?_, ?_⟩
      · intro j inside
        rw [symbols]
        exact holds j inside
      · rw [noSib2_now time before (by omega), same]
        simp [noSib2]
    · refine ⟨_, holdsSib2, ?_⟩
      rw [noSib2_now time before (by omega), isSib2]
      simp [sib1Codeword]

/-- The block in turn stands in the buffer while it is one of the eight and no SIB2 came. -/
theorem InPeriod.sends {k tx : Nat} {w : DlWorker} (inPeriod : InPeriod rx k tx w past)
    (mapped : o.phy.work.dl.sib1 = some ⟨k, w.npdsch.sibSymbols k⟩) :
    o.SendsSib1 tx k ↔ k < 8 ∧ NoSib2 past tx (rx + 4) := by
  obtain ⟨codeword, holds, same⟩ := inPeriod.buffer
  rw [← same]
  constructor
  · rintro ⟨block, sent, inBuffer, content⟩
    rw [mapped] at sent
    cases sent
    rw [holds _ inBuffer, Option.some.injEq, SymbolBlock.mk.injEq] at content
    exact ⟨inBuffer, content.1⟩
  · rintro ⟨inBuffer, rfl⟩
    refine ⟨_, mapped, inBuffer, ?_⟩
    simp only [holds _ inBuffer, Nat.mod_eq_of_lt inBuffer]

/-- A TTI without SIB1. -/
theorem tti_sib1_other (inv : Sib1Known rx s past) (stepped : s.tti mode rx i = some (s', o))
    (other : (rx + 4) % 20 ≠ 14) (counter : s'.sched.sib1SfIdx = s.sched.sib1SfIdx) :
    Sib1Known (rx + 1) s' (past ++ [o]) := by
  obtain ⟨sched, -, -, -, ulGrants, worked⟩ := tti_dl stepped
  have time := Sched.tti_tx sched
  have handed := tti_handed stepped inv.windows.ring
  have noSib1 : o.phy.input.dl.isSib1 = false := by
    cases sib1 : o.phy.input.dl.isSib1 with
    | false => rfl
    | true => exact absurd (handed.sib1_occasion sib1) other
  have notNew : o.phy.input.dl.isNewSib1 = false := by simp [DlSchedPhy.isNewSib1, noSib1]
  have keeps := DlWorker.workDl_other inv.sibs handed noSib1 mode ulGrants
  rw [worked] at keeps
  obtain ⟨cfg, sibs, buffer⟩ := keeps
  refine ⟨Sched.tti_windows inv.windows sched, before_snoc time inv.before, sibs,
    by rw [counter]; exact inv.counter, ?_, ?_, ?_⟩
  · intro idle p inside isNew
    have := inv.between (by omega) p (old_of_new notNew inside isNew) isNew
    omega
  · intro running
    rw [counter] at running ⊢
    obtain ⟨tx, inPeriod⟩ := inv.period running
    obtain ⟨p, there, pTime, pNew⟩ := inPeriod.began
    have phase := inv.log.phase p there (isSib1_of_new pNew)
    have after := inPeriod.after
    have upTo := inPeriod.upTo
    refine ⟨tx, inPeriod.goesOn time inv.before notNew (by omega) (by omega) ?_ ?_ buffer⟩
    · rw [cfg]
      exact inPeriod.cfg
    · rw [cfg]
      exact inPeriod.encoded
  · rw [← time] at other
    refine inv.log.snoc (by rw [time]; exact inv.before) ?_ ?_ ?_
    · intro sib1
      rw [noSib1] at sib1
      cases sib1
    · intro sib1
      rw [noSib1] at sib1
      cases sib1
    · intro p inside isNew k _ at'
      have phase := inv.log.phase p (old_of_new notNew inside isNew) (isSib1_of_new isNew)
      omega

/-- The first subframe of a period. -/
theorem tti_sib1_first (inv : Sib1Known rx s past) (stepped : s.tti mode rx i = some (s', o))
    (occasion : (rx + 4) % 20 = 14) (idle : s.sched.sib1SfIdx = 0) (counter : s'.sched.sib1SfIdx = 1) :
    Sib1Known (rx + 1) s' (past ++ [o]) := by
  obtain ⟨sched, -, -, dl, ulGrants, worked⟩ := tti_dl stepped
  have time := Sched.tti_tx sched
  have first : (s.sched.sib1SfIdx == 0) = true := by rw [idle]; rfl
  rw [Sched.tti_handed_sib1 inv.windows sched occasion, first] at dl
  have isNew : o.phy.input.dl.isNewSib1 = true := by rw [dl]; rfl
  rw [dl] at worked
  have begins := DlWorker.workDl_sib1_new inv.sibs mode (rx + 4) ulGrants
  rw [DlWorker.sib1Grant, worked] at begins
  obtain ⟨mapped, holds, cfg, encoded, sibs⟩ := begins
  have between := inv.between idle
  have none : ∀ until', NoSib2 (past ++ [o]) (rx + 4) until' := by
    intro until' q inside lower _
    rcases List.mem_append.mp inside with old | now
    · have := inv.before q old
      omega
    · rw [List.mem_singleton.mp now, dl]
      rfl
  refine ⟨Sched.tti_windows inv.windows sched, before_snoc time inv.before, sibs, by omega, by omega, ?_, ?_⟩
  · intro _
    rw [counter]
    refine ⟨rx + 4, ⟨o, by simp, time, isNew⟩, by omega, by omega, ?_, cfg, encoded, _, holds, ?_⟩
    · intro p inside isNew
      rcases List.mem_append.mp inside with old | now
      · exact .inr (between p old isNew)
      · rw [List.mem_singleton.mp now]
        exact .inl time
    · simp only [true_iff]
      exact none _
  · refine inv.log.snoc (by rw [time]; exact inv.before) (fun _ => by omega) ?_ ?_
    · intro _
      exact ⟨o, by simp, isNew, 0, by omega, by omega⟩
    · intro p inside isNew k below at'
      rcases List.mem_append.mp inside with old | now
      · have := between p old isNew
        omega
      · rw [List.mem_singleton.mp now] at at' ⊢
        have first : k = 0 := by omega
        subst first
        rw [time]
        constructor
        · intro _
          exact ⟨by omega, fun q there => none _ q (List.mem_append_left _ there)⟩
        · intro _
          exact ⟨_, mapped, Nat.zero_lt_succ _, rfl⟩

/-- A later subframe of a period. -/
theorem tti_sib1_next (inv : Sib1Known rx s past) (stepped : s.tti mode rx i = some (s', o))
    (occasion : (rx + 4) % 20 = 14) (running : 0 < s.sched.sib1SfIdx)
    (counter : s'.sched.sib1SfIdx = if s.sched.sib1SfIdx + 1 = 128 then 0 else s.sched.sib1SfIdx + 1) :
    Sib1Known (rx + 1) s' (past ++ [o]) := by
  obtain ⟨sched, -, -, dl, ulGrants, worked⟩ := tti_dl stepped
  have time := Sched.tti_tx sched
  have notFirst : (s.sched.sib1SfIdx == 0) = false := by simp; omega
  rw [Sched.tti_handed_sib1 inv.windows sched occasion, notFirst] at dl
  have notNew : o.phy.input.dl.isNewSib1 = false := by rw [dl]; rfl
  have noSib2 : o.phy.input.dl.isSib2 = false := by rw [dl]; rfl
  rw [dl] at worked
  obtain ⟨tx, inPeriod⟩ := inv.period running
  obtain ⟨p, there, pTime, pNew⟩ := inPeriod.began
  have phase := inv.log.phase p there (isSib1_of_new pNew)
  have now : rx + 4 = tx + 20 * s.sched.sib1SfIdx := by
    have after := inPeriod.after
    have upTo := inPeriod.upTo
    omega
  have sends := DlWorker.workDl_sib1_next inv.sibs inPeriod.cfg running inPeriod.encoded mode (rx + 4) ulGrants
  rw [DlWorker.sib1Grant, worked] at sends
  obtain ⟨mapped, symbols, next, sibs⟩ := sends
  have latest : ∀ p ∈ past ++ [o], p.phy.input.dl.isNewSib1 = true →
      p.sched.tx = tx ∨ p.sched.tx + 2540 < tx :=
    fun p inside isNew => inPeriod.latest p (old_of_new notNew inside isNew) isNew
  have bound := inv.counter
  refine ⟨Sched.tti_windows inv.windows sched, before_snoc time inv.before, sibs, ?_, ?_, ?_, ?_⟩
  · rw [counter]
    split <;> omega
  · intro ended p inside isNew
    rw [counter] at ended
    have := latest p inside isNew
    split at ended <;> omega
  · intro more
    rw [counter] at more ⊢
    split at more
    · cases more
    · rename_i going
      obtain ⟨cfg, encoded⟩ := next going
      rw [if_neg going]
      exact ⟨tx, inPeriod.goesOn time inv.before notNew (by omega) (by omega) cfg encoded
        (.inl ⟨noSib2, symbols⟩)⟩
  · refine inv.log.snoc (by rw [time]; exact inv.before) (fun _ => by omega) ?_ ?_
    · intro _
      exact ⟨p, List.mem_append_left _ there, pNew, s.sched.sib1SfIdx, bound, by omega⟩
    · intro p' inside isNew k below at'
      have here : p'.sched.tx = tx := by
        have := latest p' inside isNew
        omega
      have index : k = s.sched.sib1SfIdx := by omega
      rw [here, time, index]
      exact inPeriod.sends mapped

theorem tti_sib1_known (inv : Sib1Known rx s past) (stepped : s.tti mode rx i = some (s', o)) :
    Sib1Known (rx + 1) s' (past ++ [o]) := by
  rcases Sched.tti_sib1 inv.windows (tti_dl stepped).1 with ⟨occasion, -, counter⟩ | ⟨other, -, counter⟩
  · rcases Nat.eq_zero_or_pos s.sched.sib1SfIdx with idle | running
    · exact tti_sib1_first inv stepped occasion idle (by rw [counter, idle]; rfl)
    · exact tti_sib1_next inv stepped occasion running counter
  · exact tti_sib1_other inv stepped other counter

theorem init_sib1_known (start : Nat) : Sib1Known start {} [] where
  windows := Sched.init_windows start
  before _ member := by cases member
  sibs := ⟨fun on => (by cases on), fun _ member => (by cases member)⟩
  counter := Nat.zero_lt_succ _
  between _ _ member := by cases member
  period running := by cases running
  log := ⟨fun _ member => (by cases member), fun _ member => (by cases member), fun _ member => (by cases member)⟩

/-- In every run, every SIB1 subframe belongs to a period, and it sends the block of the period's
    codeword that is in turn exactly when it is one of the first eight of the period and no SIB2
    began since. -/
theorem sib1_blocks {start : Nat} {inputs : List EnbInput} {last : Enb} {log : List EnbLog}
    (ran : run mode start inputs = some (last, log)) :
    (∀ o ∈ log, o.phy.input.dl.isSib1 = true →
        ∃ p ∈ log, p.phy.input.dl.isNewSib1 = true ∧ ∃ k < 128, o.sched.tx = p.sched.tx + 20 * k) ∧
      ∀ p ∈ log, p.phy.input.dl.isNewSib1 = true → ∀ k < 128, ∀ o ∈ log, o.sched.tx = p.sched.tx + 20 * k →
        (o.SendsSib1 p.sched.tx k ↔ k < 8 ∧ NoSib2 log p.sched.tx o.sched.tx) := by
  have all := Ticking.run_invariant (I := Sib1Known) (C := fun _ => True)
    (fun _ _ _ _ _ _ inv stepped _ => tti_sib1_known inv stepped) (init_sib1_known start) ran (fun _ _ => trivial)
  exact ⟨all.log.covered, all.log.sent⟩

/-- The second subframe of the first period, at TTI 34. -/
theorem second_sib1_block : ∃ last log p o, run .standalone 0 (List.replicate 31 {}) = some (last, log) ∧
    p ∈ log ∧ p.phy.input.dl.isNewSib1 = true ∧ p.sched.tx = 14 ∧
    o ∈ log ∧ o.sched.tx = 34 ∧ o.SendsSib1 14 1 := by
  have checked : ((run .standalone 0 (List.replicate 31 {})).any fun r =>
      (r.2.any fun p => p.phy.input.dl.isNewSib1 && decide (p.sched.tx = 14)) &&
      (r.2.any fun o => decide (o.sched.tx = 34)) &&
      r.2.all fun q => !q.phy.input.dl.isSib2) = true := by decide +kernel
  obtain ⟨⟨last, log⟩, ran, facts⟩ := Option.any_eq_true .. |>.mp checked
  simp only [Bool.and_eq_true, List.any_eq_true, List.all_eq_true, decide_eq_true_eq, Bool.not_eq_true'] at facts
  obtain ⟨⟨⟨p, there, isNew, began⟩, o, member, time⟩, none⟩ := facts
  have sends := ((sib1_blocks ran).2 p there isNew 1 (by decide) o member (by omega)).mpr
    ⟨by decide, fun q inside _ _ => none q inside⟩
  rw [began] at sends
  exact ⟨last, log, p, o, ran, there, isNew, began, member, time, sends⟩

/-- An idle eNB: the third SIB1 subframe sends a block of the SIB2 of TTI 41, and the ninth reads
    behind the encoded blocks. -/
theorem idle_sib1_lost : ∃ last log p o o', run .standalone 0 (List.replicate 171 {}) = some (last, log) ∧
    p ∈ log ∧ p.phy.input.dl.isNewSib1 = true ∧ p.sched.tx = 14 ∧
    (o ∈ log ∧ o.sched.tx = 14 + 20 * 2 ∧ ¬ o.SendsSib1 14 2) ∧
    o' ∈ log ∧ o'.sched.tx = 14 + 20 * 8 ∧ ¬ o'.SendsSib1 14 8 := by
  have checked : ((run .standalone 0 (List.replicate 171 {})).any fun r =>
      (r.2.any fun p => p.phy.input.dl.isNewSib1 && decide (p.sched.tx = 14)) &&
      (r.2.any fun o => decide (o.sched.tx = 54) && decide (o.phy.work.dl.sib1 =
        some ⟨2, some ⟨⟨.bcch 1, raDlSib2.alloc.rnti, 8, 41⟩, 2⟩⟩)) &&
      r.2.any fun o => decide (o.sched.tx = 174) && decide (o.phy.work.dl.sib1 = some ⟨8, none⟩)) = true := by
    decide +kernel
  obtain ⟨⟨last, log⟩, ran, facts⟩ := Option.any_eq_true .. |>.mp checked
  simp only [Bool.and_eq_true, List.any_eq_true, decide_eq_true_eq] at facts
  obtain ⟨⟨⟨p, there, isNew, began⟩, o, third, time, overwritten⟩, o', ninth, time', behind⟩ := facts
  refine ⟨last, log, p, o, o', ran, there, isNew, began, ⟨third, time, ?_⟩, ninth, time', ?_⟩
  · rintro ⟨mapped, sent, -, content⟩
    rw [overwritten] at sent
    cases sent
    cases content
  · rintro ⟨mapped, sent, inBuffer, -⟩
    rw [behind] at sent
    cases sent
    exact absurd inBuffer (by decide)

end Enb

end SonicaEnb
