import Mathlib.Data.Nat.Digits.Defs
import SonicaEnb.Mac.UePdu

/-! # The contention resolution identity

The first six bytes of a CCCH message come back to the UE in the next downlink
PDU, and a UE that does not find its own there gives up. On the way the bytes
stand in a 64-bit number, written through a byte pointer and read by shifts.
-/

namespace SonicaEnb

/-- A `sch_subh` of a PDU that is being built. -/
structure TxSubh where
  lcid : Nat := 0
  nofBytes : Nat := 0
  wPayloadCe : List UInt8 := List.replicate 64 0
  deriving Repr, DecidableEq

/-- What `write_payload` copies of a control element. -/
def TxSubh.payload (subh : TxSubh) : List UInt8 := subh.wPayloadCe.take subh.nofBytes

/-- A `sch_pdu` that is being built: `rem_len`, the headroom of its buffer and the subheaders, of which
    the first `nofSubheaders` are in use and the last of these is the current one. What a deleted
    subheader held stays in its place. -/
structure TxPdu where
  remLen : Nat
  headroom : Nat
  subheaders : List TxSubh := List.replicate maxSubheaders {}
  nofSubheaders : Nat := 0
  deriving Repr, DecidableEq

/-- The bytes `set_con_res_id` writes. -/
def conResIdBytes (conResId : Nat) : List UInt8 :=
  [40, 32, 24, 16, 8, 0].map fun s => UInt8.ofNat ((conResId &&& (0xff <<< s)) >>> s)

namespace TxPdu

/-- `new_subh`; `max_subheaders` of `mac_msg_dl` is that of `mac_msg_ul`. -/
def newSubh (p : TxPdu) : Option TxPdu :=
  if p.nofSubheaders < maxSubheaders - 1 ∧ p.remLen > 0 ∧ p.headroom > 1 then
    some { p with nofSubheaders := p.nofSubheaders + 1 }
  else none

/-- `has_space_ce` -/
def hasSpaceCe (p : TxPdu) (nbytes : Nat) : Bool := p.remLen ≥ nbytes + 1

/-- `set_con_res_id` on the current subheader. -/
def setConResId (p : TxPdu) (conResId : Nat) : Bool × TxPdu :=
  if p.hasSpaceCe 6 then
    (true, { p with
      remLen := p.remLen - 7
      subheaders := p.subheaders.modify (p.nofSubheaders - 1) fun subh =>
        { lcid := DlSchLcid.conResId.code
          nofBytes := 6
          wPayloadCe := conResIdBytes conResId ++ subh.wPayloadCe.drop 6 } })
  else (false, p)

/-- There is room for a subheader and six bytes. -/
structure RoomForConRes (p : TxPdu) : Prop where
  slots : p.subheaders.length = maxSubheaders
  few : p.nofSubheaders < maxSubheaders - 1
  headroom : 1 < p.headroom
  space : 7 ≤ p.remLen

/-- `p'` is `p` with a contention resolution element of the given bytes behind the others. -/
structure AddsConRes (p p' : TxPdu) (bytes : List UInt8) : Prop where
  count : p'.nofSubheaders = p.nofSubheaders + 1
  added : ∃ subh, p'.subheaders[p.nofSubheaders]? = some subh ∧
    subh.lcid = DlSchLcid.conResId.code ∧ subh.payload = bytes
  others : ∀ i : Nat, i ≠ p.nofSubheaders → p'.subheaders[i]? = p.subheaders[i]?

end TxPdu

/-- `allocate_ce` -/
def Ue.allocateCe (ue : Ue) (p : TxPdu) (lcid : Nat) : TxPdu :=
  if lcid = DlSchLcid.conResId.code then
    match p.newSubh with
    | none => p
    | some p => (p.setConResId ue.conresId).2
  else p

theorem Ue.allocateCe_adds (ue : Ue) {p : TxPdu} (room : p.RoomForConRes) :
    p.AddsConRes (ue.allocateCe p DlSchLcid.conResId.code) (conResIdBytes ue.conresId) := by
  have enough : p.remLen ≥ 6 + 1 := room.space
  have nonempty : p.remLen > 0 := by omega
  have new : p.newSubh = some { p with nofSubheaders := p.nofSubheaders + 1 } := by
    simp [TxPdu.newSubh, room.few, room.headroom, nonempty]
  have inside : p.nofSubheaders < p.subheaders.length := by
    have few := room.few
    rw [room.slots]
    omega
  simp only [Ue.allocateCe, new, if_true, TxPdu.setConResId, TxPdu.hasSpaceCe, enough, decide_true,
    Nat.add_sub_cancel]
  refine ⟨rfl, ?_, ?_⟩
  · have current := congrArg (Option.map fun subh : TxSubh =>
      { lcid := DlSchLcid.conResId.code
        nofBytes := 6
        wPayloadCe := conResIdBytes ue.conresId ++ subh.wPayloadCe.drop 6 : TxSubh })
      (List.getElem?_eq_getElem inside)
    exact ⟨_, (List.getElem?_modify_eq ..).trans current, rfl, List.take_left' rfl⟩
  · intro i other
    exact List.getElem?_modify_ne _ _ (Ne.symm other)

/-! ## Six bytes in a number -/

/-- The loop of `process_pdu` that writes the bytes of `conres_id` through `ue_cri_ptr`. -/
def copyConres (bytes pkt : List UInt8) : List UInt8 :=
  (List.range 6).foldl (fun bytes i => bytes.set (6 - i - 1) (pkt.getD i 0)) bytes

/-- A number in memory, its lowest byte first. -/
def littleEndian (bytes : List UInt8) : Nat := Nat.ofDigits 256 (bytes.map UInt8.toNat)

theorem six_bytes {l : List UInt8} (long : 6 ≤ l.length) :
    ∃ a b c d e f rest, l = a :: b :: c :: d :: e :: f :: rest := by
  rcases l with _ | ⟨a, _ | ⟨b, _ | ⟨c, _ | ⟨d, _ | ⟨e, _ | ⟨f, rest⟩⟩⟩⟩⟩⟩
  all_goals simp only [List.length_cons, List.length_nil] at long
  all_goals first | omega | exact ⟨a, b, c, d, e, f, rest, rfl⟩

/-- What the loop leaves in memory is the number that `saveConres` names. -/
theorem copyConres_littleEndian {bytes pkt : List UInt8} (word : bytes.length = 8)
    (long : 6 ≤ pkt.length) :
    littleEndian (copyConres bytes pkt) = Ue.saveConres (littleEndian bytes) pkt := by
  obtain ⟨a, b, c, d, e, f, rest, rfl⟩ := six_bytes long
  obtain ⟨m₀, m₁, m₂, m₃, m₄, m₅, high, rfl⟩ := six_bytes (by omega : 6 ≤ bytes.length)
  have enough : ¬ (a :: b :: c :: d :: e :: f :: rest).length < 6 := not_lt.mpr long
  have loop : copyConres (m₀ :: m₁ :: m₂ :: m₃ :: m₄ :: m₅ :: high)
      (a :: b :: c :: d :: e :: f :: rest) = f :: e :: d :: c :: b :: a :: high := rfl
  rw [loop, Ue.saveConres, if_neg enough]
  simp only [littleEndian, List.map_cons, Nat.ofDigits_cons, List.take_succ_cons, List.take_zero,
    List.foldl_cons, List.foldl_nil]
  have hm₀ := m₀.toNat_lt
  have hm₁ := m₁.toNat_lt
  have hm₂ := m₂.toNat_lt
  have hm₃ := m₃.toNat_lt
  have hm₄ := m₄.toNat_lt
  have hm₅ := m₅.toNat_lt
  generalize Nat.ofDigits 256 (high.map UInt8.toNat) = top
  omega

theorem byte_of_number (x s : Nat) : (x &&& (0xff <<< s)) >>> s = x / 2 ^ s % 256 := by
  rw [Nat.shiftRight_and_distrib, Nat.shiftLeft_shiftRight, Nat.shiftRight_eq_div_pow]
  exact Nat.and_two_pow_sub_one_eq_mod _ 8

/-- The number holds the bytes until they are written. -/
theorem conResIdBytes_saveConres (conresId : Nat) {sdu : List UInt8} (long : 6 ≤ sdu.length) :
    conResIdBytes (Ue.saveConres conresId sdu) = sdu.take 6 := by
  obtain ⟨a, b, c, d, e, f, rest, rfl⟩ := six_bytes long
  have enough : ¬ (a :: b :: c :: d :: e :: f :: rest).length < 6 := not_lt.mpr long
  have byte : ∀ {x : Nat} {y : UInt8}, x = y.toNat → UInt8.ofNat x = y := by
    rintro x y rfl
    exact UInt8.ofNat_toNat
  have ha := a.toNat_lt
  have hb := b.toNat_lt
  have hc := c.toNat_lt
  have hd := d.toNat_lt
  have he := e.toNat_lt
  have hf := f.toNat_lt
  simp only [conResIdBytes, List.map_cons, List.map_nil, byte_of_number, Ue.saveConres, if_neg enough,
    List.take_succ_cons, List.take_zero, List.foldl_cons, List.foldl_nil, List.cons.injEq, and_true]
  refine ⟨byte ?_, byte ?_, byte ?_, byte ?_, byte ?_, byte ?_⟩
  all_goals omega

/-! ## PDUs with and without a CCCH SDU -/

namespace RxPdu

/-- A Msg3: the subheader of a CCCH SDU, which is the last one, a DPR byte and the SDU. -/
structure IsMsg3 (pdu : RxPdu) (dpr : UInt8) (sdu : List UInt8) : Prop where
  len : pdu.len = 2 + sdu.length
  ccch : (pdu.buf 0).toNat % 32 = 0
  last : (pdu.buf 0).toNat / 32 % 2 = 0
  dpr : pdu.buf 1 = dpr
  sdu : pdu.buf.read 2 sdu.length = sdu

/-- `process_pdu` finds no CCCH SDU in the PDU. -/
def NoCcch (pdu : RxPdu) : Prop :=
  ∀ subh ∈ parsePacket (Ue.stripDpr pdu).1 (Ue.stripDpr pdu).2.1, subh.lcid ≠ .sdu 0

instance (pdu : RxPdu) : Decidable pdu.NoCcch :=
  inferInstanceAs (Decidable (∀ subh ∈ parsePacket (Ue.stripDpr pdu).1 (Ue.stripDpr pdu).2.1, _))

end RxPdu

namespace Ue

variable {known : Nat → Bool} {ue : Ue} {pdu : RxPdu} {dpr : UInt8} {sdu : List UInt8}

/-- The DPR byte out, a Msg3 is read as one SDU. -/
theorem parsePacket_msg3 (msg3 : pdu.IsMsg3 dpr sdu) :
    parsePacket (stripDpr pdu).1 (stripDpr pdu).2.1 = [⟨.sdu 0, sdu.length, 1⟩] := by
  have stripped : stripDpr pdu =
      (fun i => if i = 0 then pdu.buf 0 else pdu.buf (i + 1), (pdu.len : Int) - 1, pdu.buf 1) :=
    if_pos msg3.ccch
  have first : SchSubh.readSubheader (stripDpr pdu).1 0 = (false, { lcid := .sdu 0, nofBytes := 0 }, 1) := by
    simp [stripped, SchSubh.readSubheader, msg3.ccch, msg3.last, UlSchLcid.ofCode, UlSchLcid.isSdu]
  have chain : readSubheaders (stripDpr pdu).1 (stripDpr pdu).2.1 maxSubheaders [] 0 =
      ([{ lcid := .sdu 0, nofBytes := 0 }], 1) := by
    rw [maxSubheaders, readSubheaders, first]
    rfl
  have rest : (pdu.len : Int) - 1 - 0 - 1 = sdu.length := by rw [msg3.len]; omega
  have left : ((stripDpr pdu).2.1 : Int) = (pdu.len : Int) - 1 := by rw [stripped]
  have size : 0 ≤ (sdu.length : Int) := by omega
  simp only [parsePacket, chain, readPayloads, correctLast, List.getLast?_singleton,
    List.dropLast_singleton, List.map_nil, List.sum_nil]
  rw [left, Nat.cast_zero, rest, if_pos size]
  rfl

theorem sduBytes_msg3 (msg3 : pdu.IsMsg3 dpr sdu) :
    SchSubh.sduBytes ⟨.sdu 0, sdu.length, 1⟩ (stripDpr pdu).1 = sdu := by
  have stripped : (stripDpr pdu).1 = fun i => if i = 0 then pdu.buf 0 else pdu.buf (i + 1) := by
    rw [stripDpr, if_pos msg3.ccch]
  refine Eq.trans ?_ msg3.sdu
  simp only [SchSubh.sduBytes, Buffer.read, stripped]
  apply List.map_congr_left
  intro i _
  have behind : 1 + i ≠ 0 := by omega
  rw [if_neg behind, show 1 + i + 1 = 2 + i by omega]

/-- A Msg3 is delivered, its identity is kept and its DPR reported. -/
theorem processPdu_msg3 (known : Nat → Bool) (ue : Ue) (msg3 : pdu.IsMsg3 dpr sdu)
    (some : sdu.any (· ≠ 0) = true) :
    ue.processPdu known pdu =
      ({ ue with conresId := saveConres ue.conresId sdu },
        .writePdu ue.rnti 0 sdu :: reportDemand ue.rnti 0 dpr false) := by
  have report : (stripDpr pdu).2.2 = dpr := by rw [stripDpr, if_pos msg3.ccch, msg3.dpr]
  have routed : routePdu 0 sdu = true := by rw [routePdu, some]; rfl
  have most : (sdu.length : Int) > -99 := by omega
  simp only [processPdu, parsePacket_msg3 msg3, processCes, UlSchLcid.isSdu, if_true, List.foldl_cons,
    List.foldl_nil, processSdu, sduBytes_msg3 msg3, routed, report, most]
  rfl

theorem processCes_conresId (known : Nat → Bool) (buf : Buffer) (subhs : List SchSubh) (ue : Ue) :
    (processCes known buf subhs ue).1.conresId = ue.conresId := by
  induction subhs generalizing ue with
  | nil => rfl
  | cons subh rest ih =>
      simp only [processCes]
      split
      · exact ih ue
      · refine (ih _).trans ?_
        unfold processCe
        split
        · simp only
          split <;> rfl
        all_goals rfl

/-- SDUs of other logical channels leave the identity alone. -/
theorem processSdus_conresId {rnti : Nat} {buf : Buffer} {subhs : List SchSubh} {st : SduLoop}
    (noCcch : ∀ subh ∈ subhs, subh.lcid ≠ .sdu 0) :
    (subhs.foldl (processSdu rnti buf) st).conresId = st.conresId := by
  induction subhs generalizing st with
  | nil => rfl
  | cons subh rest ih =>
      obtain ⟨here, later⟩ := List.forall_mem_cons.mp noCcch
      refine (ih later).trans ?_
      unfold processSdu
      split
      · rename_i lcid is
        have other : lcid ≠ 0 := by
          rintro rfl
          exact here is
        simp [other]
      · rfl

theorem processPdu_noCcch (noCcch : pdu.NoCcch) :
    (ue.processPdu known pdu).1.conresId = ue.conresId := by
  have kept := processCes_conresId known (stripDpr pdu).1
    (parsePacket (stripDpr pdu).1 (stripDpr pdu).2.1) ue
  exact (processSdus_conresId noCcch).trans kept

theorem processPdus_noCcch {later : List ((Nat → Bool) × RxPdu)} (noCcch : ∀ q ∈ later, q.2.NoCcch) :
    (later.foldl (fun ue q => (ue.processPdu q.1 q.2).1) ue).conresId = ue.conresId := by
  induction later generalizing ue with
  | nil => rfl
  | cons q rest ih =>
      obtain ⟨here, later⟩ := List.forall_mem_cons.mp noCcch
      exact (ih later).trans (processPdu_noCcch here)

theorem reportDemand_rlc (rnti lcidMostData : Nat) (dpr : UInt8) (bsrReceived : Bool) :
    (reportDemand rnti lcidMostData dpr bsrReceived).filter (fun e => e.rlcRnti?.isSome) = [] := by
  unfold reportDemand
  split <;> split <;> rfl

end Ue

/-- Whatever the object held before, a Msg3 is delivered without its DPR byte, and a contention
    resolution element added later holds its first six bytes, with any PDUs in between that bring no
    CCCH SDU. -/
theorem msg3_identity_returned {known : Nat → Bool} {ue : Ue} {pdu : RxPdu} {dpr : UInt8}
    {sdu : List UInt8} (msg3 : pdu.IsMsg3 dpr sdu) (long : 6 ≤ sdu.length)
    (some : sdu.any (· ≠ 0) = true) {later : List ((Nat → Bool) × RxPdu)}
    (noCcch : ∀ q ∈ later, q.2.NoCcch) :
    (ue.processPdu known pdu).2.filter (fun e => e.rlcRnti?.isSome) = [.writePdu ue.rnti 0 sdu] ∧
      ∀ p : TxPdu, p.RoomForConRes →
        let now := later.foldl (fun ue q => (ue.processPdu q.1 q.2).1) (ue.processPdu known pdu).1
        p.AddsConRes (now.allocateCe p DlSchLcid.conResId.code) (sdu.take 6) := by
  rw [Ue.processPdu_msg3 known ue msg3 some]
  constructor
  · rw [List.filter_cons_of_pos rfl, Ue.reportDemand_rlc]
  · intro p room
    have adds := Ue.allocateCe_adds (later.foldl (fun ue q => (ue.processPdu q.1 q.2).1)
      { ue with conresId := Ue.saveConres ue.conresId sdu }) room
    rw [Ue.processPdus_noCcch noCcch] at adds
    rwa [conResIdBytes_saveConres ue.conresId long] at adds

/-- A Msg3, then a PDU of the third logical channel and a C-RNTI. -/
theorem identity_behind_two_pdus :
    let ue : Ue := { rnti := 0x46 }
    let msg3 : RxPdu := ⟨Buffer.ofList [0, 5, 1, 2, 3, 4, 5, 6, 7], 9⟩
    let later : List ((Nat → Bool) × RxPdu) :=
      [(fun _ => true, ⟨Buffer.ofList [3, 1, 2], 3⟩), (fun _ => true, ⟨Buffer.ofList [0x1b, 0x12, 0x34], 3⟩)]
    let now := later.foldl (fun ue q => (ue.processPdu q.1 q.2).1) (ue.processPdu (fun _ => true) msg3).1
    let p : TxPdu := { remLen := 50, headroom := 100 }
    (ue.processPdu (fun _ => true) msg3).2.filter (fun e => e.rlcRnti?.isSome) =
        [.writePdu 0x46 0 [1, 2, 3, 4, 5, 6, 7]] ∧
      p.AddsConRes (now.allocateCe p DlSchLcid.conResId.code) [1, 2, 3, 4, 5, 6] := by
  intro ue msg3 later now p
  have isMsg3 : msg3.IsMsg3 5 [1, 2, 3, 4, 5, 6, 7] := ⟨rfl, by decide, by decide, rfl, rfl⟩
  have others : ∀ q ∈ later, q.2.NoCcch := by decide
  have returned := @msg3_identity_returned (fun _ => true) ue msg3 5 _ isMsg3 (by decide) (by decide)
    later others
  exact ⟨returned.1, returned.2 p ⟨rfl, by decide, by decide, by decide⟩⟩

end SonicaEnb
