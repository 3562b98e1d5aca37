import SonicaEnb.Lib.Bits
import SonicaEnb.Mac.PduRead
import SonicaEnb.Phy.Msg3Timing
import SonicaEnb.Phy.Transmit

/-! # What a UE reads in a response

`rar_pdu` reads a random access response back: subheaders until the one without an E
bit, then a payload for every answer. A subheader without a preamble is a backoff
indicator, which a response may begin with. From its grant a UE computes when and how
to send its Msg3.
-/

namespace SonicaEnb

/-! ## Writing -/

/-- The subheaders that `rar_pdu::write_packet` writes. -/
def rarHeader (backoff : Option Nat) (grants : List DlSchedRarGrant) : List UInt8 :=
  (backoff.toList.map fun bi => .ofNat ((bi &&& 0xf) ||| if 0 < grants.length then 1 <<< 7 else 0)) ++
    grants.zipIdx.map fun g => g.1.writeSubheader (g.2 + 1 == grants.length)

/-- `rar_pdu::write_packet`. Where the subheaders and the payload do not fit into the PDU, the length that
    `bzero` is called with comes round, and nothing is said of the bytes. -/
def rarWritePacket (backoff : Option Nat) (grants : List DlSchedRarGrant) (pduLen : Nat) : Option (List UInt8) :=
  let bytes := rarHeader backoff grants ++ grants.flatMap DlSchedRarGrant.writePayload
  if bytes.length ≤ pduLen then some (bytes ++ List.replicate (pduLen - bytes.length) 0) else none

theorem rarPayloads_length (grants : List DlSchedRarGrant) :
    (grants.flatMap DlSchedRarGrant.writePayload).length = 6 * grants.length := by
  rw [List.length_flatMap, List.map_congr_left fun g _ => (rfl : g.writePayload.length = 6), List.map_const',
    List.sum_replicate_nat, Nat.mul_comm]

/-! ## Reading -/

/-- `rar_subh` -/
structure RarSubh where
  hasRapid : Bool := false
  preamble : Nat := 0
  ta : Nat := 0
  tempRnti : Nat := 0
  grant : List Nat := List.replicate 20 0
  deriving Repr, DecidableEq

namespace RarSubh

/-- `init` leaves the preamble and the type. -/
def init (subh : RarSubh) : RarSubh := { subh with ta := 0, tempRnti := 0, grant := List.replicate 20 0 }

/-- `read_subheader`: the E bit, the subheader, and the backoff indicator of one without preamble. -/
def readSubheader (subh : RarSubh) (buf : Buffer) (ptr : Nat) : Bool × RarSubh × Option Nat :=
  let byte := (buf ptr).toNat
  let eBit := byte &&& 0x80 != 0
  if byte &&& 0x40 != 0 then (eBit, { subh with hasRapid := true, preamble := byte &&& 0x3f }, none)
  else (eBit, { subh with hasRapid := false }, some (byte &&& 0xf))

def readPayload (subh : RarSubh) (buf : Buffer) (ptr : Nat) : RarSubh × Nat :=
  if subh.hasRapid then
    let byte i := (buf (ptr + i)).toNat
    let bit mask := if byte 1 &&& mask != 0 then 1 else 0
    ({ subh with
       ta := (byte 0 &&& 0x7f) <<< 4 ||| (byte 1 &&& 0xf0) >>> 4
       grant := [bit 0x8, bit 0x4, bit 0x2, bit 0x1] ++ bitUnpack (byte 2) 8 ++ bitUnpack (byte 3) 8
       tempRnti := byte 4 <<< 8 ||| byte 5 }, ptr + 6)
  else (subh, ptr)

end RarSubh

/-- `rar_pdu`. Nothing takes a backoff indicator back once one was read. -/
structure RarPdu where
  subheaders : List RarSubh := List.replicate 16 {}
  nofSubheaders : Nat := 0
  backoff : Option Nat := none
  deriving Repr, DecidableEq

namespace RarPdu

def maxSubheaders (p : RarPdu) : Nat := p.subheaders.length

/-- The subheaders in use. -/
def used (p : RarPdu) : List RarSubh := p.subheaders.take p.nofSubheaders

/-- One turn of the loop over subheaders, with its E bit. -/
def readNext (p : RarPdu) (buf : Buffer) (ptr : Nat) : Bool × RarPdu :=
  let (eBit, subh, backoff) := (p.subheaders.getD p.nofSubheaders {}).readSubheader buf ptr
  (eBit, { subheaders := p.subheaders.set p.nofSubheaders subh
           nofSubheaders := p.nofSubheaders + 1
           backoff := backoff.or p.backoff })

/-- The loop of `parse_packet`: a subheader that promises another one must not be the last byte. -/
def readSubheaders (buf : Buffer) (pduLen : Nat) : Nat → RarPdu → Nat → RarPdu × Nat
  | 0, p, ptr => (p, ptr)
  | turns + 1, p, ptr =>
      let (eBit, p) := p.readNext buf ptr
      if eBit then
        if pduLen ≤ ptr + 1 then ({ p with nofSubheaders := 0 }, ptr + 1)
        else if p.nofSubheaders + 1 < p.maxSubheaders then readSubheaders buf pduLen turns p (ptr + 1)
        else (p, ptr + 1)
      else (p, ptr + 1)

def readPayloads (buf : Buffer) : List RarSubh → Nat → List RarSubh
  | [], _ => []
  | subh :: rest, ptr =>
      let (subh, ptr) := subh.readPayload buf ptr
      subh :: readPayloads buf rest ptr

/-- `init_rx` -/
def initRx (p : RarPdu) : RarPdu :=
  { p with subheaders := p.subheaders.map RarSubh.init, nofSubheaders := 0 }

/-- `parse_packet` after `init_rx`. -/
def parsePacket (p : RarPdu) (buf : Buffer) (pduLen : Nat) : RarPdu :=
  let (p, ptr) := p.initRx.readSubheaders buf pduLen p.maxSubheaders 0
  { p with subheaders := readPayloads buf p.used ptr ++ p.subheaders.drop p.nofSubheaders }

end RarPdu

/-! ## The grant of a Msg3 -/

/-- `srslte_nbiot_dci_rar_grant_unpack` -/
def nbiotDciRarGrantUnpack (grant : List Nat) : NbiotDciRarGrant :=
  let (scSpacing, y) := Bits.take grant 1
  let (iSc, y) := Bits.take y 6
  let (iDelay, y) := Bits.take y 2
  let (nRep, y) := Bits.take y 3
  let (iMcs, _) := Bits.take y 3
  { scSpacing, iSc, iDelay, nRep, iMcs }

/-- `srslte_npusch_sc_spacing_t` -/
inductive NpuschScSpacing where
  | khz15
  | khz3_75
  deriving Repr, DecidableEq

/-- `srslte_mod_t`, as far as an NPUSCH uses it. -/
inductive NpuschMod where
  | bpsk
  | qpsk
  deriving Repr, DecidableEq

/-- The grant of a Msg3, which has a spacing and a modulation of its own. -/
structure RarUlGrant extends RaNbiotUlGrant where
  scSpacing : NpuschScSpacing
  mod : NpuschMod
  deriving Repr, DecidableEq

def k0TableRarGrant : List Nat := [12, 16, 32, 64]

/-- `srslte_nbiot_dci_rar_to_ul_grant` with `srslte_ra_nbiot_ul_rar_dci_to_grant`. The slots stay those
    of a single resource unit. -/
def nbiotDciRarToUlGrant (rar : NbiotDciRarGrant) (rxTti : Nat) : Option RarUlGrant :=
  let dci : RaNbiotUlDci := { iRep := rar.nRep, iSc := rar.iSc, iMcs := rar.iMcs, iDelay := rar.iDelay }
  let scSpacing := if rar.scSpacing = 1 then NpuschScSpacing.khz15 else .khz3_75
  (raNbiotUlDciToGrant dci rxTti).bind fun grant =>
    let k0 := k0TableRarGrant.getD dci.iDelay 0
    let nofRu := match dci.iMcs with
      | 0 => some 4
      | 1 => some 3
      | 2 => some 1
      | _ => none
    nofRu.map fun nofRu =>
      { toRaNbiotUlGrant := { grant with k0, txTti := (rxTti + k0 + 1) % 10240, nofRu, tbs := 88 }
        scSpacing
        mod :=
          if scSpacing = .khz15 ∧ dci.iSc > 11 then .qpsk
          else if dci.iSc ≤ 11 then if dci.iMcs = 0 then .bpsk else .qpsk
          else if grant.qm = 1 then .bpsk else .qpsk }

/-! ## One answer -/

/-- What a UE learns from an answer. -/
structure RarAnswer where
  preamble : Nat
  ta : Nat
  tempRnti : Nat
  grant : NbiotDciRarGrant
  deriving Repr, DecidableEq

def RarSubh.answer (subh : RarSubh) : RarAnswer :=
  ⟨subh.preamble, subh.ta, subh.tempRnti, nbiotDciRarGrantUnpack subh.grant⟩

def RarPdu.answers (p : RarPdu) : List RarAnswer := (p.used.filter RarSubh.hasRapid).map RarSubh.answer

/-- The bits of the grant that are sent. -/
def NbiotDciRarGrant.sent (grant : NbiotDciRarGrant) : NbiotDciRarGrant where
  scSpacing := grant.scSpacing % 2 ^ 1
  iSc := grant.iSc % 2 ^ 6
  iDelay := grant.iDelay % 2 ^ 2
  nRep := grant.nRep % 2 ^ 3
  iMcs := grant.iMcs % 2 ^ 3

/-- The bits of the answer that are sent. -/
def DlSchedRarGrant.answer (g : DlSchedRarGrant) : RarAnswer :=
  ⟨g.data.preambleIdx % 64, g.data.taCmd % 2048, g.data.tempCrnti % 65536, g.grant.sent⟩

theorem rarPack_eq (grant : NbiotDciRarGrant) :
    rarPack grant = Bits.unpack grant.scSpacing 1 ++ (Bits.unpack grant.iSc 6 ++ (Bits.unpack grant.iDelay 2 ++
      (Bits.unpack grant.nRep 3 ++ (Bits.unpack grant.iMcs 3 ++ List.replicate 5 0)))) := by
  simp only [rarPack, List.append_assoc]
  rfl

theorem rarPack_length (grant : NbiotDciRarGrant) : (rarPack grant).length = 20 := by
  simp [rarPack_eq]

theorem rarPack_binary (grant : NbiotDciRarGrant) : ∀ b ∈ rarPack grant, b < 2 := by
  intro b inside
  simp only [rarPack_eq, List.mem_append, List.mem_replicate] at inside
  rcases inside with here | here | here | here | here | ⟨-, rfl⟩
  · exact Bits.mem_unpack_lt here
  · exact Bits.mem_unpack_lt here
  · exact Bits.mem_unpack_lt here
  · exact Bits.mem_unpack_lt here
  · exact Bits.mem_unpack_lt here
  · exact Nat.two_pos

/-- The grant is unpacked as far as its fields hold it. -/
theorem nbiotDciRarGrantUnpack_pack (grant : NbiotDciRarGrant) :
    nbiotDciRarGrantUnpack (rarPack grant) = grant.sent := by
  simp only [nbiotDciRarGrantUnpack, rarPack_eq, Bits.take_unpack, NbiotDciRarGrant.sent]

/-- What the loop goes by. -/
def RarSubh.kind (subh : RarSubh) : Bool × Nat := (subh.hasRapid, subh.preamble)

def DlSchedRarGrant.kind (g : DlSchedRarGrant) : Bool × Nat := (true, g.data.preambleIdx % 64)

theorem writeSubheader_value (g : DlSchedRarGrant) (isLast : Bool) :
    (g.writeSubheader isLast).toNat = (if isLast then 0 else 128) + (64 + g.data.preambleIdx % 64) := by
  have mask : g.data.preambleIdx &&& 0x3f = g.data.preambleIdx % 64 := Nat.and_two_pow_sub_one_eq_mod _ 6
  have small := Nat.mod_lt g.data.preambleIdx (by decide : 0 < 64)
  have low : 2 ^ 6 * 1 ||| g.data.preambleIdx % 64 = 2 ^ 6 * 1 + g.data.preambleIdx % 64 :=
    (Nat.two_pow_add_eq_or_of_lt small 1).symm
  rw [DlSchedRarGrant.writeSubheader, mask]
  cases isLast with
  | true =>
      rw [if_pos rfl, if_pos rfl, Nat.zero_or]
      change (UInt8.ofNat (2 ^ 6 * 1 ||| g.data.preambleIdx % 64)).toNat = _
      rw [low, SchRead.byte_toNat (by omega)]
      omega
  | false =>
      have both : 2 ^ 7 * 1 ||| (2 ^ 6 * 1 + g.data.preambleIdx % 64) =
          2 ^ 7 * 1 + (2 ^ 6 * 1 + g.data.preambleIdx % 64) :=
        (Nat.two_pow_add_eq_or_of_lt (by omega) 1).symm
      rw [if_neg (by decide), if_neg (by decide)]
      change (UInt8.ofNat (2 ^ 7 * 1 ||| 2 ^ 6 * 1 ||| g.data.preambleIdx % 64)).toNat = _
      rw [Nat.or_assoc, low, both, SchRead.byte_toNat (by omega)]
      omega

variable {buf : Buffer} {ptr : Nat}

theorem RarSubh.readSubheader_rapid (subh : RarSubh) {g : DlSchedRarGrant} {isLast : Bool}
    (stands : buf ptr = g.writeSubheader isLast) :
    subh.readSubheader buf ptr =
      (!isLast, { subh with hasRapid := true, preamble := g.data.preambleIdx % 64 }, none) := by
  have value : (buf ptr).toNat = _ := congrArg UInt8.toNat stands |>.trans (writeSubheader_value g isLast)
  have small := Nat.mod_lt g.data.preambleIdx (by decide : 0 < 64)
  have eBit : ((buf ptr).toNat &&& 0x80 != 0) = !isLast := by
    rw [show (0x80 : Nat) = 2 ^ 7 from rfl, Bits.and_bit, value]
    cases isLast with
    | true => simp; omega
    | false => simp; omega
  have rapid : ((buf ptr).toNat &&& 0x40 != 0) = true := by
    rw [show (0x40 : Nat) = 2 ^ 6 from rfl, Bits.and_bit, value, decide_eq_true_eq]
    split <;> omega
  have preamble : (buf ptr).toNat &&& 0x3f = g.data.preambleIdx % 64 := by
    rw [show (0x3f : Nat) = 2 ^ 6 - 1 from rfl, Nat.and_two_pow_sub_one_eq_mod, value]
    split <;> omega
  simp only [RarSubh.readSubheader, eBit, rapid, preamble, if_true]

/-- The bytes of a payload. -/
theorem writePayload_values (g : DlSchedRarGrant) (stands : buf.Holds ptr g.writePayload) :
    (buf ptr).toNat = g.data.taCmd / 16 % 128 ∧
      (buf (ptr + 1)).toNat = 16 * (g.data.taCmd % 16) + Bits.number ((rarPack g.grant).take 4) ∧
      (buf (ptr + 2)).toNat = Bits.number (((rarPack g.grant).drop 4).take 8) ∧
      (buf (ptr + 3)).toNat = Bits.number (((rarPack g.grant).drop 12).take 8) ∧
      (buf (ptr + 4)).toNat = g.data.tempCrnti / 256 % 256 ∧
      (buf (ptr + 5)).toNat = g.data.tempCrnti % 256 := by
  have binary := rarPack_binary g.grant
  have length := rarPack_length g.grant
  have small {bits : List Nat} {n : Nat} (some : bits.length = n) (inside : ∀ b ∈ bits, b ∈ rarPack g.grant) :
      Bits.number bits < 2 ^ n := by
    rw [← some]
    exact Bits.number_lt fun b here => binary b (inside b here)
  have first : Bits.number ((rarPack g.grant).take 4) < 2 ^ 4 :=
    small (by simp [length]) fun b here => List.mem_of_mem_take here
  have second : Bits.number (((rarPack g.grant).drop 4).take 8) < 2 ^ 8 :=
    small (by simp [length]) fun b here => List.mem_of_mem_drop (List.mem_of_mem_take here)
  have third : Bits.number (((rarPack g.grant).drop 12).take 8) < 2 ^ 8 :=
    small (by simp [length]) fun b here => List.mem_of_mem_drop (List.mem_of_mem_take here)
  have taHigh : (g.data.taCmd &&& 0x7f0) >>> 4 = g.data.taCmd / 16 % 128 := Bits.masked_field _ 7 4
  have taLow : g.data.taCmd &&& 0xf = g.data.taCmd % 16 := Nat.and_two_pow_sub_one_eq_mod _ 4
  have rntiHigh : (g.data.tempCrnti &&& 0xff00) >>> 8 = g.data.tempCrnti / 256 % 256 := Bits.masked_field _ 8 8
  have rntiLow : g.data.tempCrnti &&& 0xff = g.data.tempCrnti % 256 := Nat.and_two_pow_sub_one_eq_mod _ 8
  have both := Bits.shift_or (g.data.taCmd % 16) first
  obtain ⟨b0, b1, b2, b3, b4, b5, -⟩ := stands
  refine ⟨?_, ?_, ?_, ?_, ?_, ?_⟩
  · rw [b0, taHigh, SchRead.byte_toNat (by omega)]
  · rw [b1, taLow]
    change (UInt8.ofNat ((g.data.taCmd % 16) <<< 4 ||| Bits.number _)).toNat = _
    rw [both, SchRead.byte_toNat (by omega)]
    omega
  · change (buf (ptr + 1 + 1)).toNat = _
    rw [b2]
    exact SchRead.byte_toNat second
  · change (buf (ptr + 1 + 1 + 1)).toNat = _
    rw [b3]
    exact SchRead.byte_toNat third
  · change (buf (ptr + 1 + 1 + 1 + 1)).toNat = _
    rw [b4, rntiHigh, SchRead.byte_toNat (by omega)]
  · change (buf (ptr + 1 + 1 + 1 + 1 + 1)).toNat = _
    rw [b5, rntiLow, SchRead.byte_toNat (by omega)]

/-- The grant is put together again from its three bytes. -/
theorem grant_pieces {bits : List Nat} (length : bits.length = 20) (binary : ∀ b ∈ bits, b < 2) (high : Nat) :
    Bits.unpack (2 ^ 4 * high + Bits.number (bits.take 4)) 4 ++
        Bits.unpack (Bits.number ((bits.drop 4).take 8)) 8 ++
          Bits.unpack (Bits.number ((bits.drop 12).take 8)) 8 = bits := by
  have piece {part : List Nat} {n : Nat} (size : part.length = n) (inside : ∀ b ∈ part, b ∈ bits) :
      Bits.unpack (Bits.number part) n = part := by
    rw [← size]
    exact Bits.unpack_number fun b here => binary b (inside b here)
  rw [Bits.unpack_above, piece (by simp [length]) fun b here => List.mem_of_mem_take here,
    piece (by simp [length]) fun b here => List.mem_of_mem_drop (List.mem_of_mem_take here),
    piece (by simp [length]) fun b here => List.mem_of_mem_drop (List.mem_of_mem_take here)]
  have last : (bits.drop 12).take 8 = bits.drop 12 := List.take_of_length_le (by simp [length])
  have behind : (bits.drop 4).drop 8 = bits.drop 12 := by rw [List.drop_drop]
  rw [last, ← behind, List.append_assoc, List.take_append_drop, List.take_append_drop]

/-- A payload of six bytes is read as it was written. -/
theorem RarSubh.readPayload_written (subh : RarSubh) {g : DlSchedRarGrant} (kind : subh.kind = g.kind)
    (stands : buf.Holds ptr g.writePayload) :
    (subh.readPayload buf ptr).1.hasRapid = true ∧ (subh.readPayload buf ptr).1.answer = g.answer ∧
      (subh.readPayload buf ptr).2 = ptr + 6 := by
  obtain ⟨rapid, preamble⟩ := Prod.mk.inj kind
  obtain ⟨v0, v1, v2, v3, v4, v5⟩ := writePayload_values g stands
  have grant := grant_pieces (rarPack_length g.grant) (rarPack_binary g.grant) (g.data.taCmd % 16)
  rw [show (2 ^ 4 : Nat) = 16 from rfl, ← v1, ← v2, ← v3] at grant
  have small : Bits.number ((rarPack g.grant).take 4) < 16 := by
    have bound := Bits.number_lt fun b here => rarPack_binary g.grant b (List.mem_of_mem_take (i := 4) here)
    rwa [List.length_take, rarPack_length] at bound
  have first (n : Nat) : [if n &&& 0x8 != 0 then 1 else 0, if n &&& 0x4 != 0 then 1 else 0,
      if n &&& 0x2 != 0 then 1 else 0, if n &&& 0x1 != 0 then 1 else 0] = Bits.unpack n 4 := by
    change [if n &&& 2 ^ 3 != 0 then 1 else 0, if n &&& 2 ^ 2 != 0 then 1 else 0,
      if n &&& 2 ^ 1 != 0 then 1 else 0, if n &&& 2 ^ 0 != 0 then 1 else 0] = _
    rw [Bits.bit_of_mask, Bits.bit_of_mask, Bits.bit_of_mask, Bits.bit_of_mask]
    rfl
  have ta : ((buf ptr).toNat &&& 0x7f) <<< 4 ||| ((buf (ptr + 1)).toNat &&& 0xf0) >>> 4 =
      g.data.taCmd % 2048 := by
    have high : (buf ptr).toNat &&& 0x7f = (buf ptr).toNat % 128 := Nat.and_two_pow_sub_one_eq_mod _ 7
    have low : ((buf (ptr + 1)).toNat &&& 0xf0) >>> 4 = (buf (ptr + 1)).toNat / 16 % 16 :=
      Bits.masked_field _ 4 4
    have below : (buf (ptr + 1)).toNat / 16 % 16 < 2 ^ 4 := Nat.mod_lt _ (by decide)
    rw [high, low, Bits.shift_or _ below, v0, v1]
    omega
  have tempRnti : (buf (ptr + 4)).toNat <<< 8 ||| (buf (ptr + 5)).toNat = g.data.tempCrnti % 65536 := by
    rw [Bits.shift_or _ (UInt8.toNat_lt _), v4, v5]
    omega
  simp only [RarSubh.readPayload, rapid, if_true, RarSubh.answer, DlSchedRarGrant.answer, Nat.add_zero,
    first, ta, tempRnti, preamble, true_and, and_true]
  rw [show bitUnpack = Bits.unpack from rfl, grant, nbiotDciRarGrantUnpack_pack]

/-! ## All answers -/

/-- The subheaders of several answers. -/
def rarChain : List DlSchedRarGrant → List UInt8
  | [] => []
  | [g] => [g.writeSubheader true]
  | g :: next :: rest => g.writeSubheader false :: rarChain (next :: rest)

theorem rarChain_eq (grants : List DlSchedRarGrant) (k : Nat) :
    ((grants.zipIdx k).map fun g => g.1.writeSubheader (g.2 + 1 == k + grants.length)) = rarChain grants := by
  induction grants generalizing k with
  | nil => rfl
  | cons g rest ih =>
      rw [List.zipIdx_cons, List.map_cons]
      have later : k + (g :: rest).length = k + 1 + rest.length := by
        rw [List.length_cons]
        omega
      rw [later, ih (k + 1)]
      cases rest with
      | nil => simp [rarChain]
      | cons next rest =>
          have more : (k + 1 == k + 1 + (next :: rest).length) = false := by simp
          simp only [more, rarChain]

theorem rarChain_length (grants : List DlSchedRarGrant) : (rarChain grants).length = grants.length := by
  rw [← rarChain_eq grants 0, List.length_map, List.length_zipIdx]

namespace RarPdu

variable {p : RarPdu}

theorem readNext_spec {eBit : Bool} {subh : RarSubh} {backoff : Option Nat}
    (room : p.nofSubheaders < p.maxSubheaders)
    (read : (p.subheaders.getD p.nofSubheaders {}).readSubheader buf ptr = (eBit, subh, backoff)) :
    ∃ q, p.readNext buf ptr = (eBit, q) ∧ q.used = p.used ++ [subh] ∧ q.maxSubheaders = p.maxSubheaders ∧
      q.nofSubheaders = p.nofSubheaders + 1 ∧ q.backoff = backoff.or p.backoff := by
  have size : (p.subheaders.set p.nofSubheaders subh).length = p.subheaders.length := List.length_set
  rw [readNext, read]
  refine ⟨_, rfl, ?_, size, rfl, rfl⟩
  have inside : p.nofSubheaders < (p.subheaders.set p.nofSubheaders subh).length := by
    rwa [List.length_set]
  rw [used, used, List.take_succ_eq_append_getElem inside, List.getElem_set_self,
    List.take_set_of_le (Nat.le_refl _)]

theorem readSubheaders_more {q : RarPdu} {pduLen : Nat} (turns : Nat) (next : p.readNext buf ptr = (true, q))
    (goesOn : ptr + 1 < pduLen) (fitsIn : q.nofSubheaders + 1 < q.maxSubheaders) :
    readSubheaders buf pduLen (turns + 1) p ptr = readSubheaders buf pduLen turns q (ptr + 1) := by
  rw [readSubheaders, next]
  simp only [if_true, if_neg (Nat.not_le_of_lt goesOn), if_pos fitsIn]

theorem readSubheaders_stop {q : RarPdu} (pduLen turns : Nat) (next : p.readNext buf ptr = (false, q)) :
    readSubheaders buf pduLen (turns + 1) p ptr = (q, ptr + 1) := by
  rw [readSubheaders, next]
  rfl

/-- The loop reads the subheaders of all answers and stops at the last one. -/
theorem readSubheaders_chain {grants : List DlSchedRarGrant} {pduLen turns : Nat} (some : grants ≠ [])
    (stands : buf.Holds ptr (rarChain grants)) (few : p.nofSubheaders + grants.length < p.maxSubheaders)
    (enough : grants.length ≤ turns) (fits : ptr + grants.length ≤ pduLen) :
    ∃ q, readSubheaders buf pduLen turns p ptr = (q, ptr + grants.length) ∧ q.backoff = p.backoff ∧
      q.used.map RarSubh.kind = p.used.map RarSubh.kind ++ grants.map DlSchedRarGrant.kind := by
  induction grants generalizing p ptr turns with
  | nil => exact absurd rfl some
  | cons g rest ih =>
      rw [List.length_cons] at few enough fits
      obtain ⟨turns, rfl⟩ := Nat.exists_eq_succ_of_ne_zero (Nat.ne_of_gt (Nat.zero_lt_of_lt enough))
      have room : p.nofSubheaders < p.maxSubheaders := by omega
      cases rest with
      | nil =>
          obtain ⟨here, -⟩ := stands
          obtain ⟨q, next, read, -, -, backoff⟩ :=
            readNext_spec room (RarSubh.readSubheader_rapid (p.subheaders.getD p.nofSubheaders {}) here)
          refine ⟨q, readSubheaders_stop pduLen turns next, backoff, ?_⟩
          rw [read, List.map_append]
          rfl
      | cons following rest =>
          obtain ⟨here, later⟩ := stands
          obtain ⟨q, next, read, size, count, backoff⟩ :=
            readNext_spec room (RarSubh.readSubheader_rapid (p.subheaders.getD p.nofSubheaders {}) here)
          rw [List.length_cons] at few enough fits
          obtain ⟨last, ran, kept, kinds⟩ := ih (p := q) (by simp) later
            (by rw [count, size, List.length_cons]; omega) (Nat.le_of_succ_le_succ enough)
            (by rw [List.length_cons]; omega)
          refine ⟨last, ?_, kept.trans backoff, ?_⟩
          · have goesOn : ptr + 1 < pduLen := by omega
            have fitsIn : q.nofSubheaders + 1 < q.maxSubheaders := by omega
            have place : ptr + 1 + (following :: rest).length = ptr + (g :: following :: rest).length := by
              rw [List.length_cons (a := g)]
              omega
            rw [readSubheaders_more turns next goesOn fitsIn, ran, place]
          · rw [kinds, read, List.map_append, List.append_assoc]
            rfl

theorem readPayloads_written {grants : List DlSchedRarGrant} {subhs : List RarSubh}
    (kinds : subhs.map RarSubh.kind = grants.map DlSchedRarGrant.kind)
    (stands : buf.Holds ptr (grants.flatMap DlSchedRarGrant.writePayload)) :
    ((readPayloads buf subhs ptr).filter RarSubh.hasRapid).map RarSubh.answer =
      grants.map DlSchedRarGrant.answer := by
  induction grants generalizing subhs ptr with
  | nil =>
      rw [List.map_nil, List.map_eq_nil_iff] at kinds
      subst kinds
      rfl
  | cons g rest ih =>
      cases subhs with
      | nil => cases kinds
      | cons subh subhs =>
          obtain ⟨here, others⟩ := List.cons.inj kinds
          rw [List.flatMap_cons, Buffer.holds_append] at stands
          obtain ⟨rapid, answer, behind⟩ := subh.readPayload_written here stands.1
          have later := ih others stands.2
          rw [readPayloads]
          simp only [List.filter_cons_of_pos rapid, List.map_cons, answer, behind]
          exact congrArg _ later

theorem readPayloads_length (subhs : List RarSubh) (ptr : Nat) :
    (readPayloads buf subhs ptr).length = subhs.length := by
  induction subhs generalizing ptr with
  | nil => rfl
  | cons subh rest ih => rw [readPayloads, List.length_cons, List.length_cons, ih]

/-- What is in use after the payloads were read. -/
theorem used_parsed {q : RarPdu} {at' : Nat} (within : q.nofSubheaders ≤ q.maxSubheaders) :
    ({ q with subheaders := readPayloads buf q.used at' ++ q.subheaders.drop q.nofSubheaders } : RarPdu).used =
      readPayloads buf q.used at' := by
  apply List.take_left'
  rw [readPayloads_length, used, List.length_take]
  exact Nat.min_eq_left within

end RarPdu

/-! ## The whole response -/

theorem rarHeader_eq (backoff : Option Nat) (grants : List DlSchedRarGrant) :
    rarHeader backoff grants =
      (backoff.toList.map fun bi => .ofNat ((bi &&& 0xf) ||| if 0 < grants.length then 1 <<< 7 else 0)) ++
        rarChain grants := by
  have chain := rarChain_eq grants 0
  rw [Nat.zero_add] at chain
  rw [rarHeader, chain]

theorem rarHeader_length (backoff : Option Nat) (grants : List DlSchedRarGrant) :
    (rarHeader backoff grants).length = backoff.toList.length + grants.length := by
  rw [rarHeader_eq, List.length_append, List.length_map, rarChain_length]

/-- The subheader of a backoff indicator, which has an E bit when an answer follows. -/
theorem RarSubh.readSubheader_backoff (subh : RarSubh) {bi n : Nat}
    (stands : buf ptr = .ofNat ((bi &&& 0xf) ||| if 0 < n then 1 <<< 7 else 0)) :
    subh.readSubheader buf ptr = (decide (0 < n), { subh with hasRapid := false }, some (bi % 16)) := by
  have small := Nat.mod_lt bi (by decide : 0 < 16)
  have low : bi &&& 0xf = bi % 16 := Nat.and_two_pow_sub_one_eq_mod bi 4
  have value : (buf ptr).toNat = bi % 16 + if 0 < n then 128 else 0 := by
    rw [stands, low]
    split
    · rw [Nat.or_comm, Bits.shift_or 1 (by omega : bi % 16 < 2 ^ 7), SchRead.byte_toNat (by omega)]
      omega
    · rw [Nat.or_zero, SchRead.byte_toNat (by omega), Nat.add_zero]
  have eBit : ((buf ptr).toNat &&& 0x80 != 0) = decide (0 < n) := by
    rw [show (0x80 : Nat) = 2 ^ 7 from rfl, Bits.and_bit, value, decide_eq_decide]
    split <;> omega
  have noRapid : ((buf ptr).toNat &&& 0x40 != 0) = false := by
    rw [show (0x40 : Nat) = 2 ^ 6 from rfl, Bits.and_bit, value, decide_eq_false_iff_not]
    split <;> omega
  have indicator : (buf ptr).toNat &&& 0xf = bi % 16 := by
    rw [show (0xf : Nat) = 2 ^ 4 - 1 from rfl, Nat.and_two_pow_sub_one_eq_mod, value]
    split <;> omega
  simp only [RarSubh.readSubheader, eBit, noRapid, indicator, Bool.false_eq_true, if_false]

namespace RarPdu

variable {p : RarPdu}

/-- The loop never uses more subheaders than there are. -/
theorem readSubheaders_within (buf : Buffer) (pduLen turns : Nat) (ptr : Nat)
    (room : p.nofSubheaders < p.maxSubheaders) :
    (readSubheaders buf pduLen turns p ptr).1.nofSubheaders ≤
      (readSubheaders buf pduLen turns p ptr).1.maxSubheaders := by
  induction turns generalizing p ptr with
  | zero => exact Nat.le_of_lt room
  | succ turns ih =>
      have size : (p.readNext buf ptr).2.maxSubheaders = p.maxSubheaders := List.length_set
      have count : (p.readNext buf ptr).2.nofSubheaders = p.nofSubheaders + 1 := rfl
      rw [readSubheaders]
      dsimp only
      split
      · split
        · exact Nat.zero_le _
        · split
          · rename_i more
            exact ih _ (Nat.lt_of_succ_lt more)
          · rw [size, count]
            exact room
      · rw [size, count]
        exact room

/-- The loop reads the header of a response, of which the front has no preambles. -/
theorem readSubheaders_header {backoff : Option Nat} {grants : List DlSchedRarGrant} {pduLen : Nat}
    (fresh : p.nofSubheaders = 0) (some : 0 < backoff.toList.length + grants.length)
    (few : backoff.toList.length + grants.length < p.maxSubheaders)
    (fits : backoff.toList.length + grants.length ≤ pduLen) (stands : buf.Holds 0 (rarHeader backoff grants)) :
    ∃ q front, readSubheaders buf pduLen p.maxSubheaders p 0 = (q, (rarHeader backoff grants).length) ∧
      (∀ k ∈ front, Prod.fst k = false) ∧
      q.used.map RarSubh.kind = front ++ grants.map DlSchedRarGrant.kind ∧
      q.backoff = (backoff.map (· % 16)).or p.backoff := by
  have unused : p.used = [] := by rw [used, fresh, List.take_zero]
  rw [rarHeader_length]
  rw [rarHeader_eq] at stands
  cases backoff with
  | none =>
      simp only [Option.toList_none, List.length_nil, Nat.zero_add, List.map_nil, List.nil_append] at *
      have room : p.nofSubheaders + grants.length < p.maxSubheaders := by omega
      have upTo : 0 + grants.length ≤ pduLen := by omega
      obtain ⟨q, ran, kept, kinds⟩ :=
        readSubheaders_chain (List.length_pos_iff.mp some) stands room (Nat.le_of_lt few) upTo
      refine ⟨q, [], ?_, (fun _ inside => by cases inside), ?_, kept⟩
      · rw [ran, Nat.zero_add]
      · rw [kinds, unused]
        rfl
  | some bi =>
      simp only [Option.toList_some, List.length_singleton, List.map_cons, List.map_nil,
        List.singleton_append] at *
      obtain ⟨here, later⟩ := stands
      obtain ⟨turns, sized⟩ := Nat.exists_eq_succ_of_ne_zero (by omega : p.maxSubheaders ≠ 0)
      have first : p.nofSubheaders < p.maxSubheaders := by omega
      obtain ⟨q, next, read, size, count, kept⟩ :=
        readNext_spec first ((p.subheaders.getD p.nofSubheaders {}).readSubheader_backoff here)
      rw [unused, List.nil_append] at read
      rw [sized]
      have noRapid : ∀ k ∈ [(false, (p.subheaders.getD p.nofSubheaders {}).preamble)], Prod.fst k = false := by
        intro k inside
        rw [List.mem_singleton.mp inside]
      by_cases more : 0 < grants.length
      · rw [decide_eq_true more] at next
        have room : q.nofSubheaders + grants.length < q.maxSubheaders := by omega
        have enough : grants.length ≤ turns := by omega
        have upTo : 0 + 1 + grants.length ≤ pduLen := by omega
        obtain ⟨last, ran, same, kinds⟩ :=
          readSubheaders_chain (List.length_pos_iff.mp more) later room enough upTo
        have goesOn : 0 + 1 < pduLen := by omega
        have fitsIn : q.nofSubheaders + 1 < q.maxSubheaders := by omega
        refine ⟨last, _, ?_, noRapid, ?_, same.trans kept⟩
        · rw [readSubheaders_more turns next goesOn fitsIn, ran, Nat.zero_add]
        · rw [kinds, read]
          rfl
      · have none : grants = [] := List.length_eq_zero_iff.mp (Nat.eq_zero_of_not_pos more)
        subst none
        refine ⟨q, _, readSubheaders_stop pduLen turns next, noRapid, ?_, kept⟩
        rw [read]
        rfl

/-- Subheaders without a preamble have no payload. -/
theorem readPayloads_behind {front : List (Bool × Nat)} {grants : List DlSchedRarGrant} {subhs : List RarSubh}
    (noRapid : ∀ k ∈ front, Prod.fst k = false)
    (kinds : subhs.map RarSubh.kind = front ++ grants.map DlSchedRarGrant.kind)
    (stands : buf.Holds ptr (grants.flatMap DlSchedRarGrant.writePayload)) :
    ((readPayloads buf subhs ptr).filter RarSubh.hasRapid).map RarSubh.answer =
      grants.map DlSchedRarGrant.answer := by
  induction front generalizing subhs with
  | nil => exact readPayloads_written kinds stands
  | cons k front ih =>
      cases subhs with
      | nil => cases kinds
      | cons subh subhs =>
          obtain ⟨here, others⟩ := List.cons.inj kinds
          obtain ⟨first, later⟩ := List.forall_mem_cons.mp noRapid
          have none : subh.hasRapid = false := (congrArg Prod.fst here).trans first
          have skipped : subh.readPayload buf ptr = (subh, ptr) := by simp [RarSubh.readPayload, none]
          rw [readPayloads, skipped]
          simp only [List.filter_cons, none, Bool.false_eq_true, if_false]
          exact ih later others

theorem parsePacket_written (p : RarPdu) {backoff : Option Nat} {grants : List DlSchedRarGrant} {pduLen : Nat}
    (some : 0 < backoff.toList.length + grants.length)
    (few : backoff.toList.length + grants.length < p.maxSubheaders)
    (fits : backoff.toList.length + grants.length ≤ pduLen)
    (stands : buf.Holds 0 (rarHeader backoff grants ++ grants.flatMap DlSchedRarGrant.writePayload)) :
    (p.parsePacket buf pduLen).answers = grants.map DlSchedRarGrant.answer ∧
      (p.parsePacket buf pduLen).backoff = (backoff.map (· % 16)).or p.backoff := by
  rw [Buffer.holds_append, Nat.zero_add] at stands
  have size : p.initRx.maxSubheaders = p.maxSubheaders := List.length_map _
  rw [← size] at few
  obtain ⟨q, front, ran, noRapid, kinds, kept⟩ :=
    readSubheaders_header (p := p.initRx) rfl some few fits stands.1
  have within := readSubheaders_within (p := p.initRx) buf pduLen p.maxSubheaders 0 (Nat.zero_lt_of_lt few)
  rw [size] at ran
  rw [ran] at within
  rw [parsePacket, ran]
  refine ⟨?_, kept⟩
  rw [answers, used_parsed within]
  exact readPayloads_behind noRapid kinds stands.2

theorem rarContent_length (backoff : Option Nat) (grants : List DlSchedRarGrant) :
    (rarHeader backoff grants ++ grants.flatMap DlSchedRarGrant.writePayload).length =
      backoff.toList.length + 7 * grants.length := by
  rw [List.length_append, rarHeader_length, rarPayloads_length]
  omega

/-- MAC sets no backoff indicator, and `new_subh` gives it 15 subheaders. -/
theorem rarWritePacket_rarBytes {grants : List DlSchedRarGrant} {pduLen : Nat} (room : 0 < pduLen)
    (few : grants.length ≤ 15) (fits : 7 * grants.length ≤ pduLen) :
    rarWritePacket none grants pduLen = some (rarBytes grants pduLen) := by
  have size := rarContent_length none grants
  simp only [Option.toList_none, List.length_nil, Nat.zero_add] at size
  rw [rarWritePacket, rarBytes, if_pos room, List.take_of_length_le few]
  exact if_pos (size.le.trans fits)

theorem rarWritePacket_take {backoff : Option Nat} {grants : List DlSchedRarGrant} {pduLen rxLen : Nat}
    {bytes : List UInt8} (written : rarWritePacket backoff grants pduLen = some bytes)
    (fits : backoff.toList.length + 7 * grants.length ≤ rxLen) :
    ∃ padding, bytes.take rxLen =
      (rarHeader backoff grants ++ grants.flatMap DlSchedRarGrant.writePayload) ++ padding := by
  rw [← rarContent_length] at fits
  dsimp only [rarWritePacket] at written
  split at written
  · obtain rfl := Option.some.inj written
    rw [List.take_append, List.take_of_length_le fits]
    exact ⟨_, rfl⟩
  · cases written

end RarPdu

end SonicaEnb
