import SonicaEnb.Phy.WorkDl

/-! # What is transmitted

PHY keeps a pointer to a transport block from its DCI until its first subframe,
and MAC writes every response into `rar_payload[0]` and every block of a UE into
the one buffer of that UE. Here the buffers have contents. A queued grant is
encoded in the TTI in which it leaves the queue, so what counts is that nothing is
written to its buffer until then.
-/

namespace SonicaEnb

/-! ## Responses as bytes -/

/-- `srslte_bit_unpack`, most significant bit first. -/
def bitUnpack (value nofBits : Nat) : List Nat :=
  (List.range nofBits).map fun i => value >>> (nofBits - i - 1) &&& 1

/-- `srslte_bit_pack` -/
def bitPack (bits : List Nat) : Nat := bits.foldl (fun value bit => 2 * value + bit) 0

/-- `srslte_nb_dci_rar_pack` into the zeroed `grant_buffer`, of which `rar_subh` keeps 20 bits. -/
def rarPack (grant : NbiotDciRarGrant) : List Nat :=
  bitUnpack grant.scSpacing 1 ++ bitUnpack grant.iSc 6 ++ bitUnpack grant.iDelay 2 ++
    bitUnpack grant.nRep 3 ++ bitUnpack grant.iMcs 3 ++ List.replicate 5 0

namespace DlSchedRarGrant

/-- `rar_subh::write_subheader` -/
def writeSubheader (grant : DlSchedRarGrant) (isLast : Bool) : UInt8 :=
  .ofNat ((if isLast then 0 else 1 <<< 7) ||| 1 <<< 6 ||| grant.data.preambleIdx &&& 0x3f)

/-- `rar_subh::write_payload` -/
def writePayload (grant : DlSchedRarGrant) : List UInt8 :=
  let ta := grant.data.taCmd
  let bits := rarPack grant.grant
  [.ofNat ((ta &&& 0x7f0) >>> 4),
    .ofNat ((ta &&& 0xf) <<< 4 ||| bitPack (bits.take 4)),
    .ofNat (bitPack ((bits.drop 4).take 8)),
    .ofNat (bitPack ((bits.drop 12).take 8)),
    .ofNat ((grant.data.tempCrnti &&& 0xff00) >>> 8),
    .ofNat (grant.data.tempCrnti &&& 0xff)]

end DlSchedRarGrant

/-- What `assemble_rar` leaves in the payload buffer: subheaders, then payloads, then zeros. A PDU has
    room for 15 subheaders, and an empty one for none. -/
def rarBytes (grants : List DlSchedRarGrant) (pduLen : Nat) : List UInt8 :=
  let grants := if 0 < pduLen then grants.take 15 else []
  let bytes := (grants.zipIdx.map fun g => g.1.writeSubheader (g.2 + 1 == grants.length)) ++
    grants.flatMap DlSchedRarGrant.writePayload
  bytes ++ List.replicate (pduLen - bytes.length) 0

/-! ## Memory -/

/-- The UE a call is about. -/
def MacCall.rnti : MacCall → Nat
  | .ueAdd rnti => rnti
  | .ueRem rnti => rnti

/-- The contents of the transmit buffers. -/
def Memory : Type := TxBuffer → List UInt8

namespace Memory

def write (mem : Memory) (buffer : TxBuffer) (bytes : List UInt8) : Memory := Function.update mem buffer bytes

/-- The buffer of a UE comes with it and leaves with it; `reused` is what the pool makes of it. -/
def macCall (reused : Nat → List UInt8) (mem : Memory) : MacCall → Memory
  | .ueAdd rnti => mem.write (.ueTx rnti) (reused rnti)
  | .ueRem rnti => mem.write (.ueTx rnti) (reused rnti)

/-- `ue::generate_pdu` fills the buffer of the UE. -/
def writeData (known : Nat → Bool) (generatePdu : DlSchedData → List UInt8) (mem : Memory)
    (elem : DlSchedData) : Memory :=
  if known elem.dci.alloc.rnti && decide (0 < elem.pdu.length) then
    mem.write (.ueTx elem.dci.alloc.rnti) (generatePdu elem)
  else mem

/-- `assemble_rar` fills the buffer with the number of the element. -/
def writeRar (mem : Memory) (elem : DlSchedRar × Nat) : Memory :=
  if elem.1.tbs < rarPayloadLen then mem.write (.rarPayload elem.2) (rarBytes elem.1.msg3Grant elem.1.tbs)
  else mem

/-- The writes of `mac::get_dl_sched`. -/
def getDlSched (known : Nat → Bool) (generatePdu : DlSchedData → List UInt8) (mem : Memory)
    (result : DlSchedRes) : Memory :=
  result.rar.zipIdx.foldl writeRar (result.data.foldl (writeData known generatePdu) mem)

end Memory

/-! ## The eNB with its buffers -/

namespace TxBuffer

def isBcch : TxBuffer → Bool
  | .bcch _ => true
  | _ => false

def isRar : TxBuffer → Bool
  | .rarPayload _ => true
  | _ => false

end TxBuffer

/-- The buffer that was handed to the encoder at `tx`, when what is mapped was encoded there and then
    and is not system information. -/
def MappedBlock.encodedFrom (tx : Nat) (mapped : MappedBlock) : Option TxBuffer :=
  mapped.block.bind fun b =>
    if b.codeword.encodedAt = tx && !b.codeword.data.isBcch then some b.codeword.data else none

/-- What a TTI receives from outside: `generatePdu` is what `ue::generate_pdu` would write for an
    element, from the bytes of RLC. -/
structure TxInput extends EnbInput where
  generatePdu : DlSchedData → List UInt8 := fun _ => []
  reused : Nat → List UInt8 := fun _ => []

structure TxEnb where
  enb : Enb := {}
  mem : Memory := fun _ => []

/-- A queued grant with the bytes of its buffer. -/
structure GrantBytes where
  grant : Option DlGrantRecord
  bytes : List UInt8
  deriving Repr, DecidableEq

/-- The log of a TTI with the grant that was queued and the bytes assembled for it, and the grant that
    was taken from the queue and the bytes that were handed to the encoder. -/
structure TxLog where
  enb : EnbLog
  assembled : Option GrantBytes
  encoded : Option GrantBytes

namespace TxEnb

def tti (mode : NbiotMode) (s : TxEnb) (rx : Nat) (i : TxInput) : Option (TxEnb × TxLog) :=
  match s.enb.tti mode rx i.toEnbInput with
  | none => none
  | some (enb, o) =>
      let known := (s.enb.phyMac.mac.calls i.macCalls).knows
      let mem := (i.macCalls.foldl (Memory.macCall i.reused) s.mem).getDlSched known i.generatePdu o.sched.dl
      let work := o.phy.work.dl
      some (⟨enb, mem⟩,
        { enb := o
          assembled := work.pushed.bind fun r => r.data.map fun b => ⟨some r, mem b⟩
          encoded := (work.npdsch.bind (MappedBlock.encodedFrom (rx + fddHarqDelayUlMs))).map fun b =>
            ⟨work.popped, mem b⟩ })

def run (mode : NbiotMode) (start : Nat) (inputs : List TxInput) : Option (TxEnb × List TxLog) :=
  Ticking.run (tti mode) {} start inputs

end TxEnb

/-! ## When a queued grant is encoded -/

namespace DlWorker

/-- In front of the TTI sent at `tx`: what is active is encoded, is system information or has no data,
    and what stands in the buffers was encoded before or is system information. -/
structure Settled (tx : Nat) (w : DlWorker) : Prop where
  symbols : ∀ i b, w.npdsch.symbols i = some b → b.codeword.encodedAt < tx
  sibSymbols : ∀ i b, w.npdsch.sibSymbols i = some b → b.codeword.data.isBcch = true
  active : w.npdschActive = true →
    (w.npdschCfg.hasBcch = true ∧ ∀ b, w.npdschData = some b → b.isBcch = true) ∨
      (w.npdschCfg.hasBcch = false ∧ (w.npdschCfg.isEncoded = true ∨ w.npdschData = none))
  sib1 : 0 < w.sib1NpdschCfg.sfIdx → w.sib1NpdschCfg.hasBcch = true

variable {mode : NbiotMode} {tx : Nat} {w w' : DlWorker}

theorem Settled.later (settled : Settled tx w) : Settled (tx + 1) w where
  symbols i b inside := Nat.lt_succ_of_lt (settled.symbols i b inside)
  sibSymbols := settled.sibSymbols
  active := settled.active
  sib1 := settled.sib1

theorem Settled.of_same (settled : Settled tx w) (same : SameNpdsch w w') (npdsch : w'.npdsch = w.npdsch)
    (sib1 : w'.sib1NpdschCfg = w.sib1NpdschCfg) : Settled tx w' where
  symbols := by rw [npdsch]; exact settled.symbols
  sibSymbols := by rw [npdsch]; exact settled.sibSymbols
  active := by rw [same.npdschActive, same.npdschCfg, same.npdschData]; exact settled.active
  sib1 := by rw [sib1]; exact settled.sib1

/-- System information is encoded into a buffer of its own. -/
theorem encoded_bcch {q : Npdsch} {cfg : NpdschCfg} {data : TxBuffer} (rnti now : Nat)
    (bcch : cfg.hasBcch = true) (isBcch : data.isBcch = true)
    (before : ∀ i b, q.sibSymbols i = some b → b.codeword.data.isBcch = true) :
    (q.encoded cfg data rnti now).symbols = q.symbols ∧
      ∀ i b, (q.encoded cfg data rnti now).sibSymbols i = some b → b.codeword.data.isBcch = true := by
  unfold Npdsch.encoded
  split
  · exact ⟨rfl, before⟩
  · rw [bcch]
    refine ⟨rfl, ?_⟩
    intro i b inside
    simp only [Npdsch.encodeInto, if_true] at inside
    split at inside
    · cases inside
      exact isBcch
    · exact before i b inside

theorem putSib1_settled {grant : DlSchedGrant} (settled : Settled tx w)
    (bcch : w.sib1NpdschCfg.hasBcch = true) (isBcch : ∀ b, grant.data = some b → b.isBcch = true) :
    Settled tx (w.putSib1 grant tx).2 := by
  have same := putSib1_same w grant tx
  rcases npdschEncodeRnti_cases w.npdsch w.sib1NpdschCfg grant.data grant.dci.alloc.rnti tx with
    ⟨error, -⟩ | ⟨b, data, tbs, ran⟩
  · rw [putSib1_error error]
    simp only
    split
    · exact ⟨settled.symbols, settled.sibSymbols, settled.active, fun some => by cases some⟩
    · exact settled
  · obtain ⟨symbols, sibSymbols⟩ := encoded_bcch grant.dci.alloc.rnti tx bcch (isBcch b data)
      settled.sibSymbols
    rw [putSib1_mapped ran] at same ⊢
    refine ⟨?_, sibSymbols, ?_, ?_⟩
    · simp only [symbols]
      exact settled.symbols
    · rw [same.npdschActive, same.npdschCfg, same.npdschData]
      exact settled.active
    · simp only
      split
      · intro some
        cases some
      · intro _
        rw [(NpdschCfg.advance_frame _).2.1]
        exact bcch

theorem workSib1_settled (settled : Settled tx w) (new : Bool) :
    Settled tx (w.workSib1 mode { dci := raDlSib1, data := some (.bcch 0), isNewSib := new } tx).2.2 := by
  have isBcch : ∀ b, some (TxBuffer.bcch 0) = some b → b.isBcch = true := by
    intro b same
    cases same
    rfl
  cases new with
  | true =>
      rw [workSib1_new w rfl]
      have begun : Settled tx { w with
          sib1NpdschCfg := SonicaEnb.npdschCfg (grantOf mode raDlSib1 (tx % 10240) true) } :=
        ⟨settled.symbols, settled.sibSymbols, settled.active, fun _ => (sib1_grantOf mode tx).2.2.2⟩
      exact putSib1_settled begun (sib1_grantOf mode tx).2.2.2 isBcch
  | false =>
      rw [workSib1_next w rfl]
      split
      · rename_i goingOn
        exact putSib1_settled settled (settled.sib1 goingOn) isBcch
      · exact settled

/-- The NPDSCH is released after its last subframe. -/
theorem Settled.release {q : Npdsch} {cfg : NpdschCfg}
    (settled : Settled tx { w with npdsch := q, npdschCfg := cfg }) :
    Settled tx (if cfg.numSf = cfg.totalSf then { w with npdsch := q, npdschCfg := {}, npdschActive := false }
      else { w with npdsch := q, npdschCfg := cfg }) := by
  split
  · exact ⟨settled.symbols, settled.sibSymbols, (fun on => by cases on), settled.sib1⟩
  · exact settled

/-- A block of what is settled: nothing is encoded but system information. -/
theorem putNpdsch_settled (settled : Settled tx w) (active : w.npdschActive = true) :
    Settled (tx + 1) (w.putNpdsch tx).2 ∧ (w.putNpdsch tx).1.bind (MappedBlock.encodedFrom tx) = none := by
  rcases npdschEncodeRnti_cases w.npdsch w.npdschCfg w.npdschData w.npdschRnti tx with
    ⟨error, -⟩ | ⟨b, data, -, ran⟩
  · rw [putNpdsch_error error]
    exact ⟨settled.later.release, rfl⟩
  · obtain ⟨-, hasBcch, isEncoded, -⟩ := NpdschCfg.advance_frame { w.npdschCfg with isEncoded := true }
    rw [putNpdsch_mapped ran, Option.bind_some, MappedBlock.encodedFrom]
    rcases settled.active active with ⟨bcch, isBcch⟩ | ⟨noBcch, done⟩
    · obtain ⟨symbols, sibSymbols⟩ := encoded_bcch w.npdschRnti tx bcch (isBcch b data)
        settled.sibSymbols
      constructor
      · apply Settled.release
        refine ⟨?_, sibSymbols, fun _ => .inl ⟨hasBcch.trans bcch, isBcch⟩, settled.sib1⟩
        simp only [symbols]
        exact settled.later.symbols
      · simp only [Npdsch.buffer, bcch, if_true]
        cases there : (w.npdsch.encoded w.npdschCfg b w.npdschRnti tx).sibSymbols w.npdschCfg.sfIdx with
        | none => rfl
        | some block => simp [sibSymbols _ block there]
    · have done : w.npdschCfg.isEncoded = true := by
        rcases done with done | none
        · exact done
        · rw [data] at none
          cases none
      have unchanged : w.npdsch.encoded w.npdschCfg b w.npdschRnti tx = w.npdsch := by
        simp [Npdsch.encoded, done]
      rw [unchanged]
      constructor
      · apply Settled.release
        exact ⟨settled.later.symbols, settled.sibSymbols,
          fun _ => .inr ⟨hasBcch.trans noBcch, .inl isEncoded⟩, settled.sib1⟩
      · simp only [Npdsch.buffer, noBcch, Bool.false_eq_true, if_false]
        cases there : w.npdsch.symbols w.npdschCfg.sfIdx with
        | none => rfl
        | some block =>
            have before := settled.symbols _ block there
            simp [Nat.ne_of_lt before]

/-- The first block of a grant just taken from the queue: its data is encoded now. -/
theorem putNpdsch_begun {a n : Nat} {r : DlGrantRecord} {rest : List DlGrantRecord} (settled : Settled tx w)
    (begins : r.grant.BeginsAt a n) (some : 0 < n) (notBcch : ∀ b, r.data = Option.some b → b.isBcch = false) :
    Settled (tx + 1) ((w.configure r rest).putNpdsch tx).2 ∧
      ((w.configure r rest).putNpdsch tx).1.bind (MappedBlock.encodedFrom tx) = r.data := by
  have noBcch : (SonicaEnb.npdschCfg r.grant).hasBcch = false := begins.hasSib1
  have size : 0 < r.grant.nofSf := by
    rcases Nat.eq_zero_or_pos r.grant.nofSf with zero | pos
    · have total := begins.total
      rw [zero, Nat.zero_mul] at total
      omega
    · exact pos
  rcases npdschEncodeRnti_cases w.npdsch (SonicaEnb.npdschCfg r.grant) r.data r.rnti tx with
    ⟨error, refused⟩ | ⟨b, data, -, ran⟩
  · have none : r.data = none := by
      rcases refused with none | zero
      · exact none
      · exact absurd zero begins.tbs
    rw [putNpdsch_error (w := w.configure r rest) error, none]
    refine ⟨Settled.release (w := w.configure r rest) ?_, rfl⟩
    exact ⟨settled.later.symbols, settled.sibSymbols, fun _ => .inr ⟨noBcch, .inr none⟩, settled.sib1⟩
  · obtain ⟨-, hasBcch, isEncoded, -⟩ :=
      NpdschCfg.advance_frame { SonicaEnb.npdschCfg r.grant with isEncoded := true }
    have encoded : w.npdsch.encoded (SonicaEnb.npdschCfg r.grant) b r.rnti tx =
        w.npdsch.encodeInto false ⟨b, r.rnti, r.grant.nofSf, tx⟩ := by
      simp [Npdsch.encoded, SonicaEnb.npdschCfg, begins.hasSib1]
    rw [encoded] at ran
    rw [putNpdsch_mapped (w := w.configure r rest) ran, data]
    constructor
    · apply Settled.release (w := w.configure r rest)
      refine ⟨?_, settled.sibSymbols, fun _ => .inr ⟨hasBcch.trans noBcch, .inl isEncoded⟩, settled.sib1⟩
      intro i block inside
      simp only [Npdsch.encodeInto, Bool.false_eq_true, if_false] at inside
      split at inside
      · cases inside
        exact Nat.lt_succ_self tx
      · exact settled.later.symbols i block inside
    · have first : (SonicaEnb.npdschCfg r.grant).sfIdx = 0 := rfl
      simp [MappedBlock.encodedFrom, Npdsch.buffer, Npdsch.encodeInto, noBcch, first, size, notBcch b data]

theorem handed_noSib1 {dci : RaNbiotDlDci} {ue : SchedUe} {iSf : Nat} (made : dci = (ue.generateFormatN1 iSf).1.dci) :
    dci.alloc.hasSib1 = false := by
  rw [made]
  simp only [SchedUe.generateFormatN1]
  split <;> rfl

/-- The subframe that follows a DCI can carry data. -/
theorem rarTx_suits {y : Nat} (valid : isValidDlSf y = true) : isNpdschSf (rarTx y) = true := by
  have there := isValidDlSf_add_validSkip (y + 5)
  rw [isValidDlSf_iff] at valid there
  rw [isNpdschSf_iff, rarTx]
  refine ⟨there, ?_⟩
  unfold validSkip
  split
  · omega
  · split <;> omega

/-- Between the grant of MAC and the queue, nothing that is queued is encoded. -/
theorem takeGrant_settled {rx : Nat} {o : TtiLog} {dl : DlSchedPhy} (settled : Settled tx w)
    (handed : Handed rx o dl) : Settled tx (w.takeGrant mode dl tx).2.2.2 := by
  cases handed with
  | nothing none =>
      rw [takeGrant_nothing w none]
      exact settled
  | sib1 _ only =>
      subst only
      rw [takeGrant_sib1 w Nat.one_pos rfl]
      exact workSib1_settled settled _
  | sib2 _ _ only =>
      subst only
      rw [takeGrant_sib2 w Nat.one_pos rfl rfl]
      refine ⟨settled.symbols, settled.sibSymbols, fun _ => .inl ⟨rfl, ?_⟩, settled.sib1⟩
      intro b data
      cases data
      rfl
  | rar _ rnti _ _ grants dci =>
      rw [takeGrant_dci w grants (by rw [dci]; rfl) (by rw [dci])]
      exact ⟨settled.symbols, settled.sibSymbols, settled.active, settled.sib1⟩
  | user _ ue _ _ _ _ grants dci npdcch =>
      rw [takeGrant_dci w grants (handed_noSib1 dci) npdcch]
      exact ⟨settled.symbols, settled.sibSymbols, settled.active, settled.sib1⟩

/-- SIB1 is sent in its own TTIs only. -/
theorem takeGrant_sib1_only {rx : Nat} {o : TtiLog} {dl : DlSchedPhy} (handed : Handed rx o dl)
    (w : DlWorker) (mode : NbiotMode) (tx : Nat) (noSib1 : (rx + 4) % 20 ≠ 14) :
    (w.takeGrant mode dl tx).1 = false := by
  cases handed with
  | nothing none => rw [takeGrant_nothing w none]
  | sib1 occasion => exact absurd occasion noSib1
  | sib2 _ _ only =>
      subst only
      rw [takeGrant_sib2 w Nat.one_pos rfl rfl]
  | rar _ rnti _ _ grants dci => rw [takeGrant_dci w grants (by rw [dci]; rfl) (by rw [dci])]
  | user _ ue _ _ _ _ grants dci npdcch => rw [takeGrant_dci w grants (handed_noSib1 dci) npdcch]

/-- A grant in the queue, of a DCI at `y`. -/
structure Queued (y : Nat) (r : DlGrantRecord) : Prop where
  valid : isValidDlSf y = true
  begins : ∃ n, 0 < n ∧ r.grant.BeginsAt (rarTx y) n
  notBcch : ∀ b, r.data = some b → b.isBcch = false

/-- What is taken from the queue is encoded at once, and nothing else is. -/
theorem workDl_settled {rx : Nat} {o : TtiLog} {dl : DlSchedPhy} (settled : Settled (rx + 4) w)
    (handed : Handed rx o dl) (mode : NbiotMode) (ulGrants : List UlSchedGrant)
    (queued : ∀ r ∈ w.dlPendingGrants ++ (w.workDl mode (rx + 4) dl ulGrants).1.pushed.toList, ∃ y, Queued y r) :
    Settled (rx + 5) (w.workDl mode (rx + 4) dl ulGrants).2 ∧
      (w.workDl mode (rx + 4) dl ulGrants).1.npdsch.bind (MappedBlock.encodedFrom (rx + 4)) =
        (w.workDl mode (rx + 4) dl ulGrants).1.popped.bind DlGrantRecord.data := by
  obtain ⟨same, npdsch, sib1⟩ := putUlDci_same w ulGrants
  have taken : Settled (rx + 4) ((w.putUlDci ulGrants).2.takeGrant mode dl (rx + 4)).2.2.2 :=
    takeGrant_settled (settled.of_same same npdsch sib1) handed
  have queue := takeGrant_queue (w.putUlDci ulGrants).2 mode dl (rx + 4)
  rw [same.dlPendingGrants] at queue
  have only := takeGrant_sib1_only handed (w.putUlDci ulGrants).2 mode (rx + 4)
  simp only [workDl] at queued ⊢
  rw [← queue] at queued
  generalize (w.putUlDci ulGrants).2.takeGrant mode dl (rx + 4) = result at *
  rcases popGrant_cases result.2.2.2 ((rx + 4) % 10240) with none | ⟨r, rest, head, -, sfn, sfidx, popped⟩
  · rw [none]
    simp only
    split
    · rename_i put
      simp only [Bool.and_eq_true] at put
      exact putNpdsch_settled taken put.1.2
    · exact ⟨taken.later, rfl⟩
  · obtain ⟨y, isQueued⟩ := queued r (by rw [head]; exact List.mem_cons_self)
    obtain ⟨n, size, begins⟩ := isQueued.begins
    -- the start of a grant is never a TTI in which the NPDSCH pauses
    have suits := rarTx_suits isQueued.valid
    rw [isNpdschSf_iff] at suits
    have startSfn := begins.startSfn
    have startSfidx := begins.startSfidx
    have valid : isValidDlSf ((rx + 4) % 10240) = true := by
      rw [isValidDlSf_mod, isValidDlSf_iff]
      omega
    rw [popped]
    simp only [only (by omega), valid, configure, Bool.not_false, Bool.and_self, if_true]
    exact putNpdsch_begun taken begins size isQueued.notBcch

/-- What is put on the queue, and for whom. -/
theorem workDl_pushed {rx : Nat} {o : TtiLog} {dl : DlSchedPhy} (handed : Handed rx o dl) (w : DlWorker)
    (mode : NbiotMode) (ulGrants : List UlSchedGrant) (r : DlGrantRecord)
    (pushed : (w.workDl mode (rx + 4) dl ulGrants).1.pushed = some r) :
    Queued (rx + 4) r ∧
      (r.data = some (.rarPayload 0) ∨ (o.pre.dlUserDue (rx % 10240)).isSome) := by
  have taken : ((w.putUlDci ulGrants).2.takeGrant mode dl (rx + 4)).2.2.1.map Prod.snd = some r := pushed
  cases handed with
  | nothing none =>
      rw [takeGrant_nothing _ none] at taken
      cases taken
  | sib1 _ only =>
      subst only
      rw [takeGrant_sib1 _ Nat.one_pos rfl] at taken
      cases taken
  | sib2 _ _ only =>
      subst only
      rw [takeGrant_sib2 _ Nat.one_pos rfl rfl] at taken
      cases taken
  | rar _ rnti _ valid grants dci =>
      rw [takeGrant_dci _ grants (by rw [dci]; rfl) (by rw [dci])] at taken
      cases taken
      refine ⟨⟨valid, ⟨1, Nat.one_pos, ?_⟩, ?_⟩, .inl ?_⟩
      · rw [recordOf, dci]
        exact rar_beginsAt mode (rx + 4) rnti
      · intro b data
        rw [recordOf, dci] at data
        cases data
        rfl
      · rw [recordOf, dci]
  | user user ue due _ valid _ grants dci npdcch data =>
      rw [takeGrant_dci _ grants (handed_noSib1 dci) npdcch] at taken
      cases taken
      have size := Sched.iSfFor_nofSf ue.getRequestedDlBytes.2
      refine ⟨⟨valid, ⟨iSfToNSfNpdsch.getD (SfGrid.iSfFor ue.getRequestedDlBytes.2) 0, by omega, ?_⟩, ?_⟩,
        .inr (by rw [due]; rfl)⟩
      · rw [recordOf, dci]
        exact user_beginsAt mode (rx + 4) ue.afterAlloc ue.getRequestedDlBytes.2
      · intro b there
        rcases data with none | some
        · rw [recordOf, none] at there
          cases there
        · rw [recordOf, some] at there
          cases there
          rfl

end DlWorker

/-! ## What is written -/

namespace Memory

theorem write_other (mem : Memory) {buffer b : TxBuffer} (bytes : List UInt8) (other : b ≠ buffer) :
    mem.write buffer bytes b = mem b := Function.update_of_ne other _ _

/-- A loop of writes, none of which is to the buffer. -/
theorem foldl_other {α : Type} {step : Memory → α → Memory} {b : TxBuffer} {elems : List α}
    (other : ∀ (mem : Memory), ∀ elem ∈ elems, step mem elem b = mem b) (mem : Memory) :
    elems.foldl step mem b = mem b := by
  induction elems generalizing mem with
  | nil => rfl
  | cons elem rest ih =>
      rw [List.foldl_cons, ih fun mem e inside => other mem e (List.mem_cons_of_mem _ inside)]
      exact other mem elem List.mem_cons_self

theorem getDlSched_other {known : Nat → Bool} {generatePdu : DlSchedData → List UInt8} {result : DlSchedRes}
    {b : TxBuffer} (data : ∀ elem ∈ result.data, b ≠ .ueTx elem.dci.alloc.rnti)
    (rar : result.rar ≠ [] → b.isRar = false) (mem : Memory) :
    mem.getDlSched known generatePdu result b = mem b := by
  have responses : ∀ (mem : Memory), ∀ elem ∈ result.rar.zipIdx, mem.writeRar elem b = mem b := by
    intro mem elem inside
    have notRar := rar (by rintro none; rw [none] at inside; cases inside)
    unfold writeRar
    split
    · apply write_other
      rintro rfl
      cases notRar
    · rfl
  have blocks : ∀ (mem : Memory), ∀ elem ∈ result.data, mem.writeData known generatePdu elem b = mem b := by
    intro mem elem inside
    unfold writeData
    split
    · exact write_other _ _ (data elem inside)
    · rfl
  rw [Memory.getDlSched, foldl_other responses, foldl_other blocks]

theorem macCalls_other {reused : Nat → List UInt8} {calls : List MacCall} {b : TxBuffer}
    (other : ∀ c ∈ calls, b ≠ .ueTx c.rnti) (mem : Memory) :
    calls.foldl (Memory.macCall reused) mem b = mem b := by
  apply foldl_other
  intro mem c inside
  have different := other c inside
  cases c with
  | ueAdd rnti => exact write_other _ _ different
  | ueRem rnti => exact write_other _ _ different

end Memory

/-! ## Runs -/

/-- The start of the grant is now or one of the next seven TTIs. -/
def DlGrantRecord.isAhead (r : DlGrantRecord) (tx : Nat) : Bool :=
  decide ((r.startTti + 10240 - tx % 10240) % 10240 < 8)

/-- No grant in the queue has missed its start; no response is sent while one is in the queue; and no
    UE enters or leaves while a grant of it is in the queue. -/
def EnbLog.BuffersKept (o : EnbLog) : Prop :=
  (∀ r ∈ o.phy.pre.dl.dlPendingGrants, r.isAhead o.sched.tx = true) ∧
    ((o.sched.pre.rarDue (o.sched.rx % 10240)).isSome →
      ∀ r ∈ o.phy.pre.dl.dlPendingGrants, r.data.any TxBuffer.isRar = false) ∧
    ∀ c ∈ o.phy.input.macCalls, ∀ r ∈ o.phy.pre.dl.dlPendingGrants, r.data ≠ some (.ueTx c.rnti)

instance (o : EnbLog) : Decidable o.BuffersKept := inferInstanceAs (Decidable (_ ∧ _ ∧ _))

/-- A grant that waits in front of the TTI sent at `tx`; for a user, the throttle still runs. -/
def Waiting (tx : Nat) (s : Sched) (r : DlGrantRecord) : Prop :=
  ∃ y, DlWorker.Queued y r ∧ y < tx ∧ tx ≤ rarTx y + 1 ∧
    ∀ rnti, r.data = some (.ueTx rnti) → s.allocActive = true ∧ s.lastAlloc = y % 10240

/-- The grants of a queue with what their buffers hold. -/
def queueBytes (mem : Memory) (queue : List DlGrantRecord) : List GrantBytes :=
  queue.filterMap fun r => r.data.map fun b => ⟨some r, mem b⟩

namespace TxEnb

/-- In front of the TTI received at `now`: what was assembled and not yet encoded is what the buffers
    of the queue hold. -/
structure Unwritten (now : Nat) (s : TxEnb) (past : List TxLog) : Prop where
  windows : Sched.Windows now s.enb.sched
  settled : DlWorker.Settled (now + 4) s.enb.phyMac.worker.dl
  waiting : ∀ r ∈ s.enb.phyMac.worker.dl.dlPendingGrants, Waiting (now + 4) s.enb.sched r
  bytes : past.filterMap TxLog.assembled =
    past.filterMap TxLog.encoded ++ queueBytes s.mem s.enb.phyMac.worker.dl.dlPendingGrants

theorem init_unwritten (start : Nat) : Unwritten start {} [] where
  windows := Sched.init_windows start
  settled := ⟨(fun _ _ inside => by cases inside), (fun _ _ inside => by cases inside),
    (fun on => by cases on), (fun some => by cases some)⟩
  waiting _ inside := by cases inside
  bytes := rfl

variable {mode : NbiotMode} {rx : Nat} {i : TxInput} {s s' : TxEnb} {o : TxLog} {past : List TxLog}

theorem tti_cases (stepped : s.tti mode rx i = some (s', o)) :
    s.enb.tti mode rx i.toEnbInput = some (s'.enb, o.enb) ∧
      s'.mem = (i.macCalls.foldl (Memory.macCall i.reused) s.mem).getDlSched
        (s.enb.phyMac.mac.calls i.macCalls).knows i.generatePdu o.enb.sched.dl ∧
      o.assembled = (o.enb.phy.work.dl.pushed.bind fun r => r.data.map fun b => ⟨some r, s'.mem b⟩) ∧
      o.encoded = (o.enb.phy.work.dl.npdsch.bind (MappedBlock.encodedFrom (rx + 4))).map fun b =>
        ⟨o.enb.phy.work.dl.popped, s'.mem b⟩ := by
  unfold tti at stepped
  split at stepped
  · cases stepped
  · rename_i enb log ran
    cases stepped
    exact ⟨ran, rfl, rfl, rfl⟩

/-- A grant that waits and has not missed its start. -/
theorem waiting_ahead {tx : Nat} {sched : Sched} {r : DlGrantRecord} (waiting : Waiting tx sched r)
    (ahead : r.isAhead tx = true) :
    ∃ y, DlWorker.Queued y r ∧ y < tx ∧ tx ≤ rarTx y ∧
      ∀ rnti, r.data = some (.ueTx rnti) → sched.allocActive = true ∧ sched.lastAlloc = y % 10240 := by
  obtain ⟨y, queued, before, upTo, user⟩ := waiting
  refine ⟨y, queued, before, ?_, user⟩
  obtain ⟨n, -, begins⟩ := queued.begins
  have startSfn := begins.startSfn
  have startSfidx := begins.startSfidx
  have near : (r.grant.startSfn * 10 + r.grant.startSfidx + 10240 - tx % 10240) % 10240 < 8 :=
    of_decide_eq_true ahead
  omega

/-- It still waits after the TTI. -/
theorem waiting_later {sched sched' : Sched} {c : TtiCalls} {log : TtiLog} {r : DlGrantRecord}
    (stepped : sched.tti rx c = some (sched', log)) (windows : Sched.Windows rx sched)
    (waiting : Waiting (rx + 4) sched r) (ahead : r.isAhead (rx + 4) = true) : Waiting (rx + 5) sched' r := by
  have carrier := Sched.tti_pre_sameCarrier stepped
  obtain ⟨y, queued, before, upTo, user⟩ := waiting_ahead waiting ahead
  refine ⟨y, queued, by omega, by omega, ?_⟩
  intro rnti data
  obtain ⟨active, last⟩ := user rnti data
  have near := (rarTx_le y).2
  exact (Sched.tti_dlOutcome stepped windows.ring).keeps_user
    (by rw [carrier.allocActive, active]) (by rw [carrier.lastAlloc, last]) before (by omega)

/-- A grant that is queued now waits for its start; that of a user sets the throttle running. -/
theorem waiting_fresh {sched sched' : Sched} {c : TtiCalls} {log : TtiLog} {r : DlGrantRecord}
    (stepped : sched.tti rx c = some (sched', log)) (windows : Sched.Windows rx sched)
    (queued : DlWorker.Queued (rx + 4) r)
    (kind : r.data = some (.rarPayload 0) ∨ (log.pre.dlUserDue (rx % 10240)).isSome) :
    Waiting (rx + 5) sched' r := by
  have near := (rarTx_le (rx + 4)).1
  refine ⟨rx + 4, queued, by omega, by omega, ?_⟩
  intro rnti data
  rcases kind with rar | due
  · rw [rar] at data
    cases data
  · have listed := Sched.tti_lists stepped windows.ring due
    obtain ⟨active, last, -⟩ := Sched.tti_served stepped windows.ring listed
    exact ⟨active, last⟩

theorem filterMap_snoc {α β : Type} (f : α → Option β) (xs : List α) (x : α) :
    (xs ++ [x]).filterMap f = xs.filterMap f ++ (f x).toList := by
  rw [List.filterMap_append]
  cases found : f x <;> simp [found]

theorem queueBytes_append (mem : Memory) (first second : List DlGrantRecord) :
    queueBytes mem (first ++ second) = queueBytes mem first ++ queueBytes mem second :=
  List.filterMap_append ..

theorem queueBytes_congr {mem mem' : Memory} {queue : List DlGrantRecord}
    (same : ∀ r ∈ queue, ∀ b, r.data = some b → mem' b = mem b) :
    queueBytes mem' queue = queueBytes mem queue := by
  apply List.filterMap_congr
  intro r inside
  cases data : r.data with
  | none => rfl
  | some b => simp [same r inside b data]

/-- Where the buffers are kept, a TTI writes to none that a queued grant points to. -/
theorem tti_mem (inv : Unwritten rx s past) (stepped : s.tti mode rx i = some (s', o))
    (kept : o.enb.BuffersKept) {r : DlGrantRecord}
    (inside : r ∈ s.enb.phyMac.worker.dl.dlPendingGrants) {b : TxBuffer} (data : r.data = some b) :
    s'.mem b = s.mem b := by
  obtain ⟨enb, mem, -, -⟩ := tti_cases stepped
  obtain ⟨sched, pre, macCalls, -⟩ := Enb.tti_dl enb
  have rxOf := (Sched.tti_cases sched).1
  have same := Sched.tti_pre_sameCarrier sched
  obtain ⟨ahead, responses, users⟩ := kept
  rw [pre] at ahead responses users
  rw [macCalls] at users
  rw [rxOf] at responses
  rw [mem, Memory.getDlSched_other, Memory.macCalls_other]
  · rintro c member rfl
    exact users c member r inside data
  · -- the throttle keeps two blocks of users further apart than a grant waits
    rintro elem member rfl
    have now := ahead r inside
    rw [TtiLog.tx, rxOf] at now
    obtain ⟨y, -, before, upTo, user⟩ := waiting_ahead (inv.waiting r inside) now
    obtain ⟨active, last⟩ := user _ data
    obtain ⟨-, -, elapsed⟩ := Sched.tti_served sched inv.windows.ring (List.ne_nil_of_mem member)
    have lastPre : o.enb.sched.pre.lastAlloc = y % 10240 := by rw [same.lastAlloc, last]
    have runs := Sched.throttle_runs lastPre before (by have := (rarTx_le y).2; omega)
    rw [elapsed (by rw [same.allocActive, active])] at runs
    cases runs
  · intro some
    have due : (o.enb.sched.pre.rarDue (rx % 10240)).isSome = true := by
      rcases Sched.tti_rarAllocs sched inv.windows.ring with ⟨-, none⟩ | ⟨rar, alloc, due, -⟩
      · rw [Sched.tti_rar sched, SfGrid.rarSchedResult, none] at some
        exact absurd rfl some
      · rw [due]
        rfl
    have notRar := responses due r inside
    rw [data] at notRar
    exact notRar

theorem tti_unwritten (inv : Unwritten rx s past) (stepped : s.tti mode rx i = some (s', o))
    (kept : o.enb.BuffersKept) : Unwritten (rx + 1) s' (past ++ [o]) := by
  have same := fun r inside b data => tti_mem (r := r) (b := b) inv stepped kept inside data
  obtain ⟨enb, mem, assembled, encoded⟩ := tti_cases stepped
  obtain ⟨sched, pre, macCalls, dl, ulGrants, worked⟩ := Enb.tti_dl enb
  have handed := Enb.tti_handed enb inv.windows.ring
  have queue := s.enb.phyMac.worker.dl.workDl_queue mode (rx + 4) o.enb.phy.input.dl ulGrants
  have new := DlWorker.workDl_pushed handed s.enb.phyMac.worker.dl mode ulGrants
  have settled := DlWorker.workDl_settled inv.settled handed mode ulGrants
  rw [worked] at queue new settled
  have after : ∀ r ∈ s.enb.phyMac.worker.dl.dlPendingGrants ++ o.enb.phy.work.dl.pushed.toList,
      Waiting (rx + 5) s'.enb.sched r := by
    intro r inside
    rcases List.mem_append.mp inside with old | fresh
    · have now := kept.1 r (by rw [pre]; exact old)
      rw [Sched.tti_tx sched] at now
      exact waiting_later sched inv.windows (inv.waiting r old) now
    · obtain ⟨queued, kind⟩ := new r (Option.mem_toList.mp fresh)
      exact waiting_fresh sched inv.windows queued kind
  obtain ⟨settled, encodes⟩ := settled (by
    intro r inside
    obtain ⟨y, queued, -⟩ := after r inside
    exact ⟨y, queued⟩)
  refine ⟨Sched.tti_windows inv.windows sched, settled, ?_, ?_⟩
  · intro r inside
    apply after
    rw [queue]
    exact List.mem_append_right _ inside
  · have pushed : o.assembled.toList = queueBytes s'.mem o.enb.phy.work.dl.pushed.toList := by
      rw [assembled]
      cases o.enb.phy.work.dl.pushed with
      | none => rfl
      | some r => cases data : r.data <;> simp [queueBytes, data]
    have popped : o.encoded.toList = queueBytes s'.mem o.enb.phy.work.dl.popped.toList := by
      rw [encoded, encodes]
      cases o.enb.phy.work.dl.popped with
      | none => rfl
      | some r => cases data : r.data <;> simp [queueBytes, data]
    have old := queueBytes_congr same
    calc (past ++ [o]).filterMap TxLog.assembled
        = past.filterMap TxLog.assembled ++ o.assembled.toList := filterMap_snoc TxLog.assembled past o
      _ = past.filterMap TxLog.encoded ++ queueBytes s'.mem
            (s.enb.phyMac.worker.dl.dlPendingGrants ++ o.enb.phy.work.dl.pushed.toList) := by
          rw [inv.bytes, pushed, queueBytes_append, old, List.append_assoc]
      _ = past.filterMap TxLog.encoded ++ o.encoded.toList ++
            queueBytes s'.mem s'.enb.phyMac.worker.dl.dlPendingGrants := by
          rw [queue, queueBytes_append, popped, List.append_assoc]
      _ = (past ++ [o]).filterMap TxLog.encoded ++
            queueBytes s'.mem s'.enb.phyMac.worker.dl.dlPendingGrants := by
          rw [filterMap_snoc]

/-- In every run in which the buffers of the queue are kept, the bytes handed to the encoder are, grant
    by grant, those that were assembled. -/
theorem transmitted_as_assembled {start : Nat} {inputs : List TxInput} {last : TxEnb} {log : List TxLog}
    (ran : run mode start inputs = some (last, log)) (kept : ∀ o ∈ log, o.enb.BuffersKept) :
    log.filterMap TxLog.encoded <+: log.filterMap TxLog.assembled := by
  have all := Ticking.run_invariant (I := Unwritten) (C := fun o => o.enb.BuffersKept)
    (fun _ _ _ _ _ _ inv stepped kept => tti_unwritten inv stepped kept) (init_unwritten start) ran kept
  exact ⟨_, all.bytes.symm⟩

/-- A preamble of 0x46 and 30 bytes waiting for 0x47. -/
def responseAndBlock : List TxInput :=
  { calls := ⟨rachDetected 0x46 0 ++ Sched.dlWaiting 0x47, []⟩, macCalls := [.ueAdd 0x47] } ::
    { generatePdu := fun _ => [1, 2, 3] } :: List.replicate 6 {}

/-- The response and the block are encoded as they were assembled. -/
theorem response_and_block_as_assembled : ∃ last log,
    run .standalone 12 responseAndBlock = some (last, log) ∧
      (log.filterMap TxLog.encoded).map GrantBytes.bytes = [[64, 0, 10, 64, 0, 0, 0x46, 0], [1, 2, 3]] ∧
      log.filterMap TxLog.encoded <+: log.filterMap TxLog.assembled := by
  have checked : ((run .standalone 12 responseAndBlock).any fun r =>
      (r.2.all fun o => decide o.enb.BuffersKept) &&
        decide ((r.2.filterMap TxLog.encoded).map GrantBytes.bytes =
          [[64, 0, 10, 64, 0, 0, 0x46, 0], [1, 2, 3]])) = true := by decide +kernel
  obtain ⟨⟨last, log⟩, ran, facts⟩ := Option.any_eq_true .. |>.mp checked
  simp only [Bool.and_eq_true, List.all_eq_true, decide_eq_true_eq] at facts
  exact ⟨last, log, ran, facts.2, transmitted_as_assembled ran facts.1⟩

/-- Two responses with DCIs at TTIs 16 and 17: at TTI 21 the first goes out with the bytes of the
    second, which names 0x47. -/
theorem response_overwritten : ∃ last log,
    run .standalone 12 ({ calls := ⟨rachDetected 0x46 0 ++ rachDetected 0x47 1, []⟩ } ::
      List.replicate 6 {}) = some (last, log) ∧
      ¬ log.filterMap TxLog.encoded <+: log.filterMap TxLog.assembled := by
  have checked : ((run .standalone 12 ({ calls := ⟨rachDetected 0x46 0 ++ rachDetected 0x47 1, []⟩ } ::
      List.replicate 6 {})).any fun r =>
        decide ((r.2.filterMap TxLog.encoded).head?.map GrantBytes.bytes = some [64, 0, 10, 64, 0, 0, 0x47, 0]) &&
        decide ((r.2.filterMap TxLog.assembled).head?.map GrantBytes.bytes =
          some [64, 0, 10, 64, 0, 0, 0x46, 0])) = true := by decide +kernel
  obtain ⟨⟨last, log⟩, ran, facts⟩ := Option.any_eq_true .. |>.mp checked
  simp only [Bool.and_eq_true, decide_eq_true_eq] at facts
  refine ⟨last, log, ran, ?_⟩
  rintro ⟨rest, whole⟩
  obtain ⟨encoded, assembled⟩ := facts
  rw [← whole] at assembled
  cases first : log.filterMap TxLog.encoded with
  | nil =>
      rw [first] at encoded
      cases encoded
  | cons g more =>
      rw [first] at encoded assembled
      simp only [List.head?_cons, List.cons_append, Option.map_some, Option.some.injEq] at encoded assembled
      rw [encoded] at assembled
      revert assembled
      decide

end TxEnb

end SonicaEnb
