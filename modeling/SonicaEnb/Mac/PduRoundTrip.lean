import SonicaEnb.Mac.PduElements
import SonicaEnb.Mac.PduRead

/-! # MAC PDUs from one end to the other

What RLC gives for a block of the scheduler is in the packet, which has the length of
the block, and a reader finds it there with the identities in front. The reader of
the eNB hands to RLC what the same writer put into an uplink packet.
-/

namespace SonicaEnb

theorem MacElement.Valid.readable {isUl : Bool} {e : MacElement} (valid : e.Valid isUl) : e.Readable isUl where
  lcid := valid.lcid.trans (by decide)
  sdu := fun sdu => (valid.sdu sdu).2
  element := valid.element

namespace SchPdu

variable {p : SchPdu} {isUl : Bool} {pduLen : Nat} {es : List MacElement}

theorem paddingElement_readable (isUl : Bool) : (paddingElement []).Readable isUl where
  lcid := by decide
  sdu := fun sdu => by cases sdu
  element := fun _ => by cases isUl <;> rfl

/-- A reader of the bytes of the packet finds what the PDU holds. -/
theorem Fills.readBack (fills : p.Fills isUl pduLen es) (some : 0 < pduLen)
    (few : es.length + 2 < maxSubheaders) :
    ∃ (buf : ByteBuffer) (front : List MacElement) (last : MacElement),
      p.writePacket = .some buf ∧ buf.nBytes = pduLen ∧ Written es front last ∧
      ∀ rx : Buffer, (∀ i < pduLen, rx i = buf.byte i) →
        (SchRead.parsePacket isUl rx pduLen).map (fun subh => subh.element rx) = front ++ [last] := by
  obtain ⟨buf, packed, length, stands⟩ := fills.writePacket
  obtain ⟨front, last, written, packet⟩ := fills.packet some
  have total := congrArg List.length packet
  have whole := fills.whole
  have header := fills.header_length
  have size := fills.length
  have sizes := SchRead.sizes_eq front
  have nBytes := fills.nBytes
  rw [List.length_append, List.length_append, List.length_replicate, List.length_append,
    SchRead.writeChain_length, List.flatMap_append, List.flatMap_singleton, List.length_append] at total
  have exact : pduLen = (front.map MacElement.size).sum + (1 + last.bytes.length) := by omega
  have readable : ∀ e ∈ front, e.Readable isUl := by
    intro e member
    rcases written.empty e member with element | rfl
    · exact (fills.valid e element).readable
    · exact paddingElement_readable isUl
  have small : last.lcid < 32 := by
    rcases written.paddings last (List.mem_append_right _ List.mem_cons_self) with element | padding
    · exact (fills.valid last element).readable.lcid
    · rw [padding]
      decide
  have fewer := written.few
  refine ⟨buf, front, last, packed, length, written, fun rx same => ?_⟩
  have place : Buffer.Holds rx 0 (writeChain ((front ++ [last]).map MacElement.subh) ++
      (front ++ [last]).flatMap MacElement.bytes) := by
    rw [packet, Region.holds_iff] at stands
    refine Region.holds_iff.mpr fun i inside => ?_
    have within : i < pduLen := by
      rw [List.length_append, SchRead.writeChain_length, List.flatMap_append, List.flatMap_singleton,
        List.length_append] at inside
      omega
    rw [Nat.zero_add, same i within]
    exact stands i inside
  have read := SchRead.parsePacket_elements readable small (by omega) place
  rwa [← exact] at read

end SchPdu

/-! ## The blocks of the scheduler -/

namespace Ue

open SchPdu

variable {ρ : Type} {readPdu : ρ → Nat → Nat → Option (List UInt8) × ρ}

/-- The contention resolution elements of a block. -/
def identities (ue : Ue) (block : DlSchedData) : List MacElement :=
  List.replicate (block.pdu.countP fun elem => elem.lcid == DlSchLcid.conResId.code)
    (conResElement ue.conresId)

theorem count_ces (ces : List DlSchLcid) :
    ((ces.map fun ce => (⟨ce.code, 0⟩ : DlSchedPdu)).countP fun elem =>
      elem.lcid == DlSchLcid.conResId.code) = ces.count .conResId ∧
      7 * ces.count .conResId ≤ cesTotalBytes ces := by
  induction ces with
  | nil => exact ⟨rfl, le_rfl⟩
  | cons ce rest ih =>
      obtain ⟨same, room⟩ := ih
      rw [List.map_cons, List.countP_cons, same, List.count_cons]
      unfold cesTotalBytes at room ⊢
      rw [List.map_cons, List.sum_cons]
      cases ce with
      | conResId => exact ⟨rfl, by change 7 * (_ + 1) ≤ 7 + _; omega⟩
      | ccch | reserved | scellActivation4Octet | scellActivation | taCmd | drxCmd | padding =>
          exact ⟨rfl, by change 7 * (_ + 0) ≤ _; omega⟩

/-- The PDU of a block holds the identities and what RLC gives. -/
theorem allocateAll_block (ue : Ue) (sched : SchedUe) {iSf : Nat} (kind : iSf = 0 ∨ iSf = 2)
    (channels : sched.lch.length = maxLc) {p : SchPdu}
    (fills : p.Fills false (sched.generateFormatN1 iSf).1.tbs []) (rlc : ρ) :
    ∃ (q : SchPdu) (rlc' : ρ) (given : List MacElement),
      q.Fills false (sched.generateFormatN1 iSf).1.tbs
        (ue.identities (sched.generateFormatN1 iSf).1 ++ given) ∧
      Gives readPdu rlc given rlc' ∧ (∀ e ∈ given, e.isSdu = true) ∧
      ue.allocateAll readPdu (sched.generateFormatN1 iSf).1.pdu p rlc = (q, rlc') := by
  set ces := (allocateMacCes sched.pendingCes (sched.blockBytes iSf)).1
  set left := (allocateMacCes sched.pendingCes (sched.blockBytes iSf)).2.2
  set sdus := (allocateMacSdus sched.lch left).1
  have tbs : (sched.generateFormatN1 iSf).1.tbs = sched.blockBytes iSf := rfl
  have pdu : (sched.generateFormatN1 iSf).1.pdu = (ces.map fun ce => ⟨ce.code, 0⟩) ++ sdus := rfl
  have small := sched.blockBytes_le kind
  have space : cesTotalBytes ces + left = sched.blockBytes iSf := allocateMacCes_space _ _
  obtain ⟨counted, room⟩ := count_ces ces
  have slots : maxSubheaders = 20 := rfl
  have isSdu : ∀ elem ∈ sdus, elem.lcid ≤ 17 := by
    intro elem member
    have channel := allocateMacSdusLoop_lcid _ _ _ elem member
    rw [channels, maxLc] at channel
    omega
  have others : (sdus.countP fun elem => elem.lcid == DlSchLcid.conResId.code) = 0 := by
    rw [List.countP_eq_zero]
    intro elem member
    have channel := isSdu elem member
    rw [beq_iff_eq]
    change elem.lcid ≠ 28
    omega
  have all : p.remLen = sched.blockBytes iSf := fills.space
  obtain ⟨q, filled, first⟩ := ue.allocateAll_ces readPdu ces fills
    (by rw [List.length_nil]; omega) (by omega) rlc
  obtain ⟨q', rlc', given, filled', gives, isSdus, second⟩ :=
    ue.allocateAll_sdus readPdu isSdu filled rlc
  refine ⟨q', rlc', given, ?_, gives, isSdus, ?_⟩
  · rw [identities, pdu, List.countP_append, counted, others]
    exact filled'
  · rw [pdu, allocateAll_append, first]
    exact second

theorem split_block {ue : Ue} {block : DlSchedData} {given : List MacElement}
    (isSdu : ∀ e ∈ given, e.isSdu = true) :
    cesOf (ue.identities block ++ given) = ue.identities block ∧ sdusOf (ue.identities block ++ given) = given := by
  have ces : ∀ e ∈ ue.identities block, e.isSdu = false := by
    intro e member
    rw [List.eq_of_mem_replicate member]
    rfl
  have noCe : given.filter (fun e => !e.isSdu) = [] := by
    rw [List.filter_eq_nil_iff]
    intro e member
    rw [isSdu e member]
    decide
  constructor
  · rw [cesOf, List.filter_append, noCe, List.append_nil, List.filter_eq_self]
    intro e member
    rw [ces e member]
    rfl
  · have none : (ue.identities block).filter MacElement.isSdu = [] := sdusOf_nil_of ces
    rw [sdusOf, List.filter_append, none, List.nil_append, List.filter_eq_self]
    exact isSdu

theorem block_pos (sched : SchedUe) {iSf : Nat} (kind : iSf = 0 ∨ iSf = 2) :
    0 < (sched.generateFormatN1 iSf).1.tbs := by
  have all : ∀ mcs ≤ 12, ∀ iSf ∈ [0, 2], 0 < tbsNbiot mcs iSf / 8 := by decide
  exact all _ (SchedUe.selectMcs_least sched.getRequestedDlBytes.2 iSf).1 iSf (by simpa using kind)

variable (readPdu) in
/-- The PDU of a block before it is written. -/
theorem generatePdu_filled (ue : Ue) (sched : SchedUe) {iSf : Nat} (kind : iSf = 0 ∨ iSf = 2)
    (channels : sched.lch.length = maxLc) {macMsgDl : SchPdu}
    (slots : macMsgDl.subheaders.length = maxSubheaders) (buffer : ByteBuffer) (rlc : ρ) :
    ∃ (q : SchPdu) (rlc' : ρ) (given : List MacElement),
      q.Fills false (sched.generateFormatN1 iSf).1.tbs
        (ue.identities (sched.generateFormatN1 iSf).1 ++ given) ∧
      Gives readPdu rlc given rlc' ∧ (∀ e ∈ given, e.isSdu = true) ∧
      ue.generatePdu readPdu macMsgDl buffer (sched.generateFormatN1 iSf).1.pdu
        (sched.generateFormatN1 iSf).1.tbs rlc = (q.writePacket, rlc') := by
  have capacity : 130 ≤ maxBufferSizeBytes - bufferHeaderOffset := by decide
  have empty : (macMsgDl.initTx buffer.clear (sched.generateFormatN1 iSf).1.tbs false).Fills false
      (sched.generateFormatN1 iSf).1.tbs [] :=
    initTx_fills macMsgDl slots buffer false ((sched.blockBytes_le kind).trans capacity)
  obtain ⟨q, rlc', given, filled, gives, isSdu, goes⟩ := ue.allocateAll_block sched kind channels empty rlc
  refine ⟨q, rlc', given, filled, gives, isSdu, ?_⟩
  rw [generatePdu]
  change ((ue.allocateAll readPdu (sched.generateFormatN1 iSf).1.pdu _ rlc).1.writePacket,
    (ue.allocateAll readPdu (sched.generateFormatN1 iSf).1.pdu _ rlc).2) = _
  rw [goes]

end Ue

/-- Whatever RLC answers, the object and its buffer held before, a block gets a packet of its size, with
    the bytes of everything RLC gave in it. -/
theorem block_is_filled (ue : Ue) (sched : SchedUe) {iSf : Nat} (kind : iSf = 0 ∨ iSf = 2)
    (channels : sched.lch.length = maxLc) {macMsgDl : SchPdu}
    (slots : macMsgDl.subheaders.length = maxSubheaders) (buffer : ByteBuffer) {ρ : Type}
    (readPdu : ρ → Nat → Nat → Option (List UInt8) × ρ) (rlc : ρ) :
    let block := (sched.generateFormatN1 iSf).1
    ∃ (buf : ByteBuffer) (rlc' : ρ) (given : List MacElement) (header : List UInt8) (padding : Nat),
      ue.generatePdu readPdu macMsgDl buffer block.pdu block.tbs rlc = (some buf, rlc') ∧
      SchPdu.Gives readPdu rlc given rlc' ∧ buf.nBytes = block.tbs ∧
      (header ++ given.flatMap MacElement.bytes ++ List.replicate padding 0).length = block.tbs ∧
      Region.Holds buf.buffer buf.msg
        (header ++ given.flatMap MacElement.bytes ++ List.replicate padding 0) := by
  intro block
  obtain ⟨q, rlc', given, filled, gives, isSdu, goes⟩ :=
    ue.generatePdu_filled readPdu sched kind channels slots buffer rlc
  obtain ⟨buf, packed, length, stands⟩ := filled.writePacket
  have bytes : sduBytes (ue.identities block ++ given) = given.flatMap MacElement.bytes := by
    rw [sduBytes, (Ue.split_block isSdu).2]
  rw [bytes] at stands
  refine ⟨buf, rlc', given, q.header, q.numPadding, by rw [goes, packed], gives, length, ?_, stands⟩
  have whole := filled.whole
  have nBytes := filled.nBytes
  have header := filled.header_length
  have size : q.pduLen = block.tbs := filled.length
  rw [bytes] at nBytes
  rw [List.length_append, List.length_append, List.length_replicate]
  omega

/-- An identity and bytes of two channels, of which RLC cuts the second. -/
def someSched : SchedUe where
  rnti := 70
  pendingCes := [.conResId]
  lch := [⟨.both, 9, 0, 0⟩, ⟨.both, 30, 0, 0⟩, {}, {}, {}, {}]

/-- An RLC that answers with what it is given beforehand. -/
def scripted (answers : List (List UInt8)) (_ requested : Nat) : Option (List UInt8) × List (List UInt8) :=
  match answers with
  | [] => (none, [])
  | bytes :: later => (some (bytes.take requested), later)

/-- A `mac_msg_dl` nothing was done with. -/
def freshPdu : SchPdu where
  remLen := 0
  headroom := 0
  pduLen := 0
  isUl := false
  lastSduIdx := none
  buf := { buffer := fun _ => 0 }

theorem block_is_filled_scripted :
    let ue : Ue := { rnti := 70, conresId := 0x010203040506 }
    let block := (someSched.generateFormatN1 2).1
    ∃ (buf : ByteBuffer) (rlc' : List (List UInt8)) (given : List MacElement) (header : List UInt8)
      (padding : Nat),
      ue.generatePdu scripted freshPdu freshPdu.buf block.pdu block.tbs [[1, 2, 3], [], [4, 5, 6]] =
        (some buf, rlc') ∧
      SchPdu.Gives scripted [[1, 2, 3], [], [4, 5, 6]] given rlc' ∧ buf.nBytes = block.tbs ∧
      (header ++ given.flatMap MacElement.bytes ++ List.replicate padding 0).length = block.tbs ∧
      Region.Holds buf.buffer buf.msg
        (header ++ given.flatMap MacElement.bytes ++ List.replicate padding 0) := by
  intro ue block
  exact block_is_filled ue someSched (.inr rfl) rfl rfl freshPdu.buf scripted _

/-- A UE that reads the packet of a block finds the identities and, in the order RLC gave them, the SDUs,
    each with its logical channel and all its bytes. -/
theorem block_is_read (ue : Ue) (sched : SchedUe) {iSf : Nat} (kind : iSf = 0 ∨ iSf = 2)
    (channels : sched.lch.length = maxLc) {macMsgDl : SchPdu}
    (slots : macMsgDl.subheaders.length = maxSubheaders) (buffer : ByteBuffer) {ρ : Type}
    (readPdu : ρ → Nat → Nat → Option (List UInt8) × ρ) (rlc : ρ) :
    let block := (sched.generateFormatN1 iSf).1
    ∃ (buf : ByteBuffer) (rlc' : ρ) (given : List MacElement),
      ue.generatePdu readPdu macMsgDl buffer block.pdu block.tbs rlc = (.some buf, rlc') ∧
      SchPdu.Gives readPdu rlc given rlc' ∧
      ((ue.identities block ++ given).length + 2 < maxSubheaders →
        ∀ rx : Buffer, (∀ i < block.tbs, rx i = buf.byte i) →
          ((SchRead.parsePacket false rx block.tbs).map fun subh => subh.element rx).filter
            (fun e => e.lcid != DlSchLcid.padding.code) = ue.identities block ++ given) := by
  intro block
  obtain ⟨q, rlc', given, filled, gives, isSdu, goes⟩ :=
    ue.generatePdu_filled readPdu sched kind channels slots buffer rlc
  obtain ⟨buf, packed, -, -⟩ := filled.writePacket
  have some : 0 < block.tbs := Ue.block_pos sched kind
  refine ⟨buf, rlc', given, by rw [goes, packed], gives, fun few rx same => ?_⟩
  obtain ⟨buf', front, last, packed', -, written, read⟩ := filled.readBack some few
  cases packed.symm.trans packed'
  rw [read rx same, written.elements, (Ue.split_block isSdu).1, (Ue.split_block isSdu).2]

theorem block_is_read_scripted :
    let ue : Ue := { rnti := 70, conresId := 0x010203040506 }
    let block := (someSched.generateFormatN1 2).1
    ∃ (buf : ByteBuffer) (rlc' : List (List UInt8)) (given : List MacElement),
      ue.generatePdu scripted freshPdu freshPdu.buf block.pdu block.tbs [[1, 2, 3], [], [4, 5, 6]] =
        (.some buf, rlc') ∧
      SchPdu.Gives scripted [[1, 2, 3], [], [4, 5, 6]] given rlc' ∧
      ((ue.identities block ++ given).length + 2 < maxSubheaders →
        ∀ rx : Buffer, (∀ i < block.tbs, rx i = buf.byte i) →
          ((SchRead.parsePacket false rx block.tbs).map fun subh => subh.element rx).filter
            (fun e => e.lcid != DlSchLcid.padding.code) = ue.identities block ++ given) := by
  intro ue block
  exact block_is_read ue someSched (.inr rfl) rfl rfl freshPdu.buf scripted _

/-! ## The uplink -/

namespace Ue

variable {known : Nat → Bool} {ue : Ue} {rnti : Nat} {buf : Buffer}

/-- What the second loop of `process_pdu` writes for the elements of a PDU. -/
def sduWrites (rnti : Nat) (es : List MacElement) : List UlEffect :=
  ((sdusOf es).filter fun e => routePdu e.lcid e.bytes).map fun e => .writePdu rnti e.lcid e.bytes

theorem processSdu_writes (st : SduLoop) (subh : RxSubh) :
    (processSdu rnti buf st subh.toUl).writes = st.writes ++ sduWrites rnti [subh.element buf] := by
  unfold sduWrites sdusOf
  rw [List.filter_singleton]
  by_cases sdu : subh.lcid ≤ 17
  · have lcid : subh.toUl.lcid = .sdu subh.lcid := if_pos sdu
    have isSdu : (subh.element buf).isSdu = true := decide_eq_true sdu
    rw [isSdu, processSdu, lcid]
    change (if routePdu subh.lcid (subh.bytes buf) then
        st.writes ++ [.writePdu rnti subh.lcid (subh.bytes buf)] else st.writes) =
      st.writes ++ List.map _ (List.filter _ [subh.element buf])
    rw [List.filter_singleton]
    change _ = _ ++ List.map _ (bif routePdu subh.lcid (subh.bytes buf) then _ else _)
    cases routePdu subh.lcid (subh.bytes buf) with
    | true => rfl
    | false => exact (List.append_nil _).symm
  · have lcid : ∀ l, subh.toUl.lcid ≠ .sdu l := by
      intro l is
      have kind := SchRead.isSdu_ofCode subh.lcid
      rw [show UlSchLcid.ofCode subh.lcid = .sdu l from is] at kind
      exact sdu (of_decide_eq_true kind.symm)
    have isSdu : (subh.element buf).isSdu = false := decide_eq_false sdu
    rw [isSdu, processSdu]
    split
    · rename_i l is
      exact absurd is (lcid l)
    · exact (List.append_nil _).symm

theorem sduWrites_append (rnti : Nat) (first second : List MacElement) :
    sduWrites rnti (first ++ second) = sduWrites rnti first ++ sduWrites rnti second := by
  unfold sduWrites sdusOf
  rw [List.filter_append, List.filter_append, List.map_append]

theorem processSdus_elements (subhs : List RxSubh) (st : SduLoop) :
    ((subhs.map RxSubh.toUl).foldl (processSdu rnti buf) st).writes =
      st.writes ++ sduWrites rnti (subhs.map fun subh => subh.element buf) := by
  induction subhs generalizing st with
  | nil => exact (List.append_nil _).symm
  | cons subh rest ih =>
      rw [List.map_cons, List.foldl_cons, ih, processSdu_writes, List.append_assoc, ← sduWrites_append]
      rfl

theorem sduWrites_rlc (rnti : Nat) (es : List MacElement) :
    (sduWrites rnti es).filter (fun e => e.rlcRnti?.isSome) = sduWrites rnti es := by
  rw [List.filter_eq_self]
  intro e member
  obtain ⟨_, -, rfl⟩ := List.mem_map.mp member
  rfl

theorem processCes_rlc (subhs : List SchSubh) :
    ((processCes known buf subhs ue).2.1).filter (fun e => e.rlcRnti?.isSome) = [] := by
  rw [List.filter_eq_nil_iff]
  intro e member
  cases e with
  | writePdu => exact absurd member writePdu_not_processCes
  | sched => exact Bool.false_ne_true

/-- What RLC gets of a PDU that has no DPR byte. -/
theorem processPdu_rlc {pdu : RxPdu} (noDpr : (pdu.buf 0).toNat % 32 ≠ 0) :
    (ue.processPdu known pdu).2.filter (fun e => e.rlcRnti?.isSome) =
      sduWrites (ue.processPdu known pdu).1.rnti
        ((SchRead.parsePacket true pdu.buf pdu.len).map fun subh => subh.element pdu.buf) := by
  have whole : stripDpr pdu = (pdu.buf, (pdu.len : Int), 0) := if_neg noDpr
  unfold processPdu
  rw [whole]
  dsimp only
  rw [List.filter_append, List.filter_append, processCes_rlc, reportDemand_rlc, SchRead.parsePacket_toUl,
    processSdus_elements, List.nil_append, List.nil_append, List.append_nil, sduWrites_rlc]

end Ue

/-- The packet has the SDUs of the PDU. -/
theorem SchPdu.Written.sdus {es front : List MacElement} {last : MacElement}
    (written : SchPdu.Written es front last) : sdusOf (front ++ [last]) = sdusOf es := by
  have inner := congrArg sdusOf written.elements
  have noCe : sdusOf (cesOf es) = [] := by
    apply sdusOf_nil_of
    intro e member
    simpa using List.of_mem_filter member
  have again : sdusOf (sdusOf es) = sdusOf es := by
    rw [sdusOf, List.filter_eq_self]
    exact fun e member => List.of_mem_filter member
  have both : sdusOf ((front ++ [last]).filter fun e => e.lcid != DlSchLcid.padding.code) =
      sdusOf (front ++ [last]) := by
    rw [sdusOf, List.filter_filter]
    apply List.filter_congr
    intro e _
    cases sdu : e.isSdu with
    | false => rfl
    | true =>
        have lcid : e.lcid ≤ 17 := of_decide_eq_true sdu
        have other : e.lcid ≠ DlSchLcid.padding.code := by
          change e.lcid ≠ 31
          omega
        rw [Bool.true_and]
        exact bne_iff_ne.mpr other
  have split : sdusOf (cesOf es ++ sdusOf es) = sdusOf (cesOf es) ++ sdusOf (sdusOf es) :=
    List.filter_append ..
  rw [← both, inner, split, noCe, again, List.nil_append]

/-- RLC gets of a packet every SDU that was put into it, once and in their order, under the RNTI that the
    control elements leave the UE with. All-zero CCCH messages are dropped. -/
theorem packet_is_delivered {p : SchPdu} {pduLen : Nat} {es : List MacElement} (fills : p.Fills true pduLen es)
    (some : 0 < pduLen) (few : es.length + 2 < maxSubheaders) (known : Nat → Bool) (ue : Ue) :
    ∃ buf : ByteBuffer, p.writePacket = .some buf ∧
      ∀ pdu : RxPdu, pdu.len = pduLen → (∀ i < pduLen, pdu.buf i = buf.byte i) →
        (pdu.buf 0).toNat % 32 ≠ 0 →
        (ue.processPdu known pdu).2.filter (fun e => e.rlcRnti?.isSome) =
          ((sdusOf es).filter fun e => Ue.routePdu e.lcid e.bytes).map fun e =>
            .writePdu (ue.processPdu known pdu).1.rnti e.lcid e.bytes := by
  obtain ⟨buf, front, last, packed, -, written, read⟩ := fills.readBack some few
  refine ⟨buf, packed, fun pdu len same noDpr => ?_⟩
  have sdus : sdusOf (front ++ [last]) = sdusOf es := written.sdus
  rw [Ue.processPdu_rlc noDpr, len, read pdu.buf same, Ue.sduWrites, sdus]

/-- A PDU with an SDU of the third channel and padding behind it. -/
theorem packet_is_delivered_three :
    let ue : Ue := { rnti := 70 }
    ∃ (p : SchPdu) (buf : ByteBuffer), p.Fills true 9 [⟨3, [7, 8]⟩] ∧ p.writePacket = .some buf ∧
      ∀ pdu : RxPdu, pdu.len = 9 → (∀ i < 9, pdu.buf i = buf.byte i) → (pdu.buf 0).toNat % 32 ≠ 0 →
        (ue.processPdu (fun _ => true) pdu).2.filter (fun e => e.rlcRnti?.isSome) =
          [.writePdu (ue.processPdu (fun _ => true) pdu).1.rnti 3 [7, 8]] := by
  intro ue
  have empty : (freshPdu.initTx freshPdu.buf.clear 9 true).Fills true 9 [] :=
    freshPdu.initTx_fills rfl freshPdu.buf true (by decide)
  have space : 2 ≤ (freshPdu.initTx freshPdu.buf.clear 9 true).getSduSpace := by
    rw [empty.getSduSpace]
    decide
  obtain ⟨p, filled, -⟩ := empty.setSdu_gives (by decide) (by decide : 3 ≤ 17) space
    (show scripted [[7, 8]] 3 2 = (some [7, 8], []) from rfl) (by decide) (by decide)
  obtain ⟨buf, packed, delivered⟩ := packet_is_delivered filled (by decide) (by decide) (fun _ => true) ue
  exact ⟨p, buf, filled, packed, delivered⟩

end SonicaEnb
