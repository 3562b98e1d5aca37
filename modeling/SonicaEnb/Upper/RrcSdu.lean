import Mathlib.Algebra.Ring.Int.Defs
import Mathlib.Data.Nat.Log
import SonicaEnb.Upper.BitRef

/-! # SDUs of RRC (`rrc.cc`)

RRC packs a message into a byte buffer from its `msg` on and hands the buffer to
RLC. `generate_sibs` takes the length from the `bit_ref`; `send_dl_ccch` and
`send_dl_dcch` add one to it. The buffer comes from a pool, or it is the one the NAS
PDU arrived in: behind the message stands what was there before.
-/

namespace SonicaEnb

/-! ## PER encoding (`asn1/asn1_utils.cc`, the unaligned variant) -/

namespace PackStep

/-- `pack_enum` without extensions. The type of a choice is packed so, unhandled. -/
def packEnum (e nofTypes : Nat) (handled : Bool) : List PackStep :=
  if nofTypes ≤ e then if handled then [.fail] else []
  else [.pack e (Nat.clog 2 nofTypes) handled]

/-- `pack_integer` with both bounds; what it packs is not handled. -/
def packInteger (n lb ub : Int) : List PackStep :=
  if lb ≤ n ∧ n ≤ ub then
    if lb = ub then [] else [.pack (n - lb).toNat (Nat.clog 2 ((ub - lb).toNat + 1)) false]
  else [.fail]

/-- `pack_length` -/
def packLength (val : Nat) : List PackStep :=
  if val < 128 then [.pack val 8 true]
  else if val < 16384 then [.pack 2 2 true, .pack val 14 true]
  else [.fail]

/-- `unbounded_octstring::pack` -/
def packOctstring (octets : List UInt8) : List PackStep :=
  packLength octets.length ++ octets.map fun octet => .pack octet.toNat 8 true

def packBool (present : Bool) : PackStep := .pack present.toNat 1 true

end PackStep

open PackStep

/-! ## Messages (`rrc_asn1_nbiot.cc`) -/

/-- A `DL-DCCH-Message-NB` of type `c1`: option `id` of eight, with a transaction id and critical
extensions that are the first choice twice. -/
def dlDcchMsg (id tid : Nat) (ies : List PackStep) : List PackStep :=
  packEnum 0 2 false ++ packEnum id 8 false ++ packInteger tid 0 3 ++ packEnum 0 2 false ++
    packEnum 0 2 false ++ ies

/-- `dl_info_transfer_nb_s` as `write_dl_info` fills it. -/
def dlInfoTransfer (dedInfoNas : List UInt8) : List PackStep :=
  dlDcchMsg 0 0 ([packBool false, packBool false] ++ packOctstring dedInfoNas)

/-- `rrc_conn_release_nb_s` as `send_connection_release` fills it: five optional fields not present,
cause `other`. -/
def rrcConnRelease (tid : Nat) : List PackStep :=
  dlDcchMsg 2 tid (List.replicate 5 (packBool false) ++ packEnum 1 4 true)

/-- What `send_connection_setup` takes from the configuration; enumerations by their place. -/
structure DedicatedCfg where
  periodicBsrTimer : Option Nat
  retxBsrTimer : Nat
  timeAlignTimerDed : Nat
  lcChSrProhibitTimer : Nat
  npdcchNumRepeats : Nat
  npdcchStartSfUss : Nat
  npdcchOffsetUss : Nat
  ackNackNumRepeats : Option Nat
  npuschAllSymbols : Option Bool
  groupHopDisabled : Bool

/-- `srb_to_add_mod_nb_r13_s::pack` with the default values of both parts. -/
def srbToAddMod : List PackStep :=
  [.pack 0 1 false, packBool true, packBool true] ++ packEnum 1 2 false ++ packEnum 1 2 false

/-- `mac_main_cfg_nb_r13_s::pack` -/
def macMainCfg (cfg : DedicatedCfg) : List PackStep :=
  [.pack 0 1 false, packBool true, packBool false, packBool true] ++
    [packBool cfg.periodicBsrTimer.isSome] ++
    (cfg.periodicBsrTimer.elim [] fun timer => packEnum timer 8 true) ++
    packEnum cfg.retxBsrTimer 8 true ++ packEnum cfg.timeAlignTimerDed 8 true ++
    packEnum 1 2 false ++ packEnum cfg.lcChSrProhibitTimer 8 true

/-- `phys_cfg_ded_nb_r13_s::pack` -/
def physCfgDed (cfg : DedicatedCfg) : List PackStep :=
  [.pack 0 1 false, packBool false, packBool true, packBool true, packBool true] ++
    packEnum cfg.npdcchNumRepeats 16 true ++ packEnum cfg.npdcchStartSfUss 8 true ++
    packEnum cfg.npdcchOffsetUss 4 true ++
    [packBool cfg.ackNackNumRepeats.isSome, packBool cfg.npuschAllSymbols.isSome,
      packBool cfg.groupHopDisabled] ++
    (cfg.ackNackNumRepeats.elim [] fun repeats => packEnum repeats 8 true) ++
    (cfg.npuschAllSymbols.elim [] fun all => [packBool all]) ++
    packInteger 0 (-8) 7

/-- `rrc_conn_setup_nb_s` on DL-CCCH as `send_connection_setup` fills it. -/
def rrcConnSetup (tid : Nat) (cfg : DedicatedCfg) : List PackStep :=
  packEnum 0 2 false ++ packEnum 3 8 false ++ packInteger tid 0 3 ++ packEnum 0 2 false ++
    packEnum 0 2 false ++ [packBool false, packBool false] ++
    [.pack 0 1 false, packBool true, packBool false, packBool false, packBool true, packBool true,
      packBool false] ++
    srbToAddMod ++ packEnum 0 2 false ++ macMainCfg cfg ++ physCfgDed cfg

/-! ## Byte buffers (`common/common.h`) -/

/-- `SRSLTE_BUFFER_HEADER_OFFSET` -/
def bufferHeaderOffset : Nat := 1020

/-- `SRSLTE_MAX_BUFFER_SIZE_BYTES` -/
def maxBufferSizeBytes : Nat := 97896 / 8 + bufferHeaderOffset

/-- `byte_buffer_t`; `msg` is a place in `buffer`. -/
structure ByteBuffer where
  buffer : Nat → UInt8
  msg : Nat := bufferHeaderOffset
  nBytes : Nat := 0

namespace ByteBuffer

/-- `msg[i]` -/
def byte (b : ByteBuffer) (i : Nat) : UInt8 := b.buffer (b.msg + i)

/-- `clear`; the bytes stay. -/
def clear (b : ByteBuffer) : ByteBuffer := { b with msg := bufferHeaderOffset, nBytes := 0 }

/-- `get_tailroom`, an unsigned number of 32 bits. -/
def getTailroom (b : ByteBuffer) : Nat :=
  (((maxBufferSizeBytes : Int) - b.msg - b.nBytes) % 2 ^ 32).toNat

/-- `bit_ref(pdu->msg, pdu->get_tailroom())` -/
def bitRef (b : ByteBuffer) : BitRef := .start b.byte b.getTailroom

/-- The buffer with what its `bit_ref` wrote, and a length. -/
def written (b : ByteBuffer) (bref : BitRef) (nBytes : Nat) : ByteBuffer :=
  { b with buffer := fun a => if b.msg ≤ a then bref.mem (a - b.msg) else b.buffer a, nBytes }

@[simp] theorem written_nBytes (b : ByteBuffer) (bref : BitRef) (nBytes : Nat) :
    (b.written bref nBytes).nBytes = nBytes := rfl

theorem written_byte (b : ByteBuffer) (bref : BitRef) (nBytes i : Nat) :
    (b.written bref nBytes).byte i = bref.mem i := by
  unfold byte written
  dsimp only
  rw [if_pos (Nat.le_add_right _ _), Nat.add_sub_cancel_left]

end ByteBuffer

/-! ## Sending -/

/-- `RB_ID_SRB0` -/
def rbIdSrb0 : Nat := 0

/-- `RB_ID_SRB1BIS` -/
def rbIdSrb1bis : Nat := 3

/-- What `write_sdu` of RLC is called with. -/
structure RlcSdu where
  lcid : Nat
  pdu : ByteBuffer

namespace RrcUe

/-- `send_dl_ccch`; `allocated` is what the pool gives. -/
def sendDlCcch (allocated : Option ByteBuffer) (dlCcchMsg : List PackStep) : Option RlcSdu :=
  match allocated with
  | none => none
  | some pdu =>
      let (code, bref) := pdu.bitRef.packMsg dlCcchMsg
      if code ≠ .success then none
      else some ⟨rbIdSrb0, pdu.written bref (1 + bref.distanceBytes)⟩

/-- `send_dl_dcch`; without a `pdu` one is allocated. -/
def sendDlDcch (pdu allocated : Option ByteBuffer) (dlDcchMsg : List PackStep) : Option RlcSdu :=
  match pdu.or allocated with
  | none => none
  | some pdu =>
      let (code, bref) := pdu.bitRef.packMsg dlDcchMsg
      if code = .errorEncodeFail then none
      else some ⟨rbIdSrb1bis, pdu.written bref (1 + bref.distanceBytes)⟩

end RrcUe

/-- A buffer of `generate_sibs`; that packing failed is only logged. -/
def sibBuffer (allocated : ByteBuffer) (msg : List PackStep) : ByteBuffer :=
  let bref := (allocated.bitRef.packMsg msg).2
  allocated.written bref bref.distanceBytes

/-- `write_dl_info` for a user: the NAS PDU is copied out of `sdu`, and the message goes into the same
buffer. -/
def writeDlInfo (sdu : ByteBuffer) (allocated : Option ByteBuffer) : Option RlcSdu :=
  let dedInfoNas := (List.range sdu.nBytes).map sdu.byte
  RrcUe.sendDlDcch (some sdu.clear) allocated (dlInfoTransfer dedInfoNas)

/-! ## Messages that pack -/

/-- Bytes that packing a message into the buffer produces. -/
def packedBytes (pdu : ByteBuffer) (msg : List PackStep) : Nat :=
  BitRef.bytesOf (pdu.bitRef.packSteps msg).2.distance

/-- A message without a check of its own that fails packs into a buffer with room for its bits. -/
theorem packMsg_fits (pdu : ByteBuffer) {msg : List PackStep} (packable : ∀ step ∈ msg, step.Packable)
    (fits : msgBits msg ≤ 8 * pdu.getTailroom) :
    (pdu.bitRef.packMsg msg).1 = .success ∧ packedBytes pdu msg = BitRef.bytesOf (msgBits msg) := by
  have start : pdu.bitRef.distance = 0 := rfl
  obtain ⟨packs, distance⟩ := BitRef.packSteps_fits (b := pdu.bitRef) packable
    (by rw [start, Nat.zero_add]; exact fits)
  rw [start, Nat.zero_add] at distance
  exact ⟨BitRef.packMsg_of_steps packs, congrArg BitRef.bytesOf distance⟩

theorem packLength_bits {val : Nat} (inside : val < 16384) :
    (∀ step ∈ packLength val, step.Packable) ∧
      msgBits (packLength val) = if val < 128 then 8 else 16 := by
  unfold packLength
  by_cases short : val < 128
  · rw [if_pos short, if_pos short]
    exact ⟨by simp [Packable], rfl⟩
  · rw [if_neg short, if_neg short, if_pos inside]
    exact ⟨by simp [Packable], rfl⟩

theorem octets_bits (octets : List UInt8) :
    msgBits (octets.map fun octet => .pack octet.toNat 8 true) = 8 * octets.length := by
  induction octets with
  | nil => rfl
  | cons octet later ih =>
      rw [List.map_cons, msgBits_cons, ih, List.length_cons, Nat.mul_succ, Nat.add_comm]
      rfl

theorem packOctstring_bits {octets : List UInt8} (inside : octets.length < 16384) :
    (∀ step ∈ packOctstring octets, step.Packable) ∧
      msgBits (packOctstring octets) = (if octets.length < 128 then 8 else 16) + 8 * octets.length := by
  obtain ⟨packable, bits⟩ := packLength_bits inside
  unfold packOctstring
  refine ⟨fun step mem => ?_, ?_⟩
  · rcases List.mem_append.mp mem with length | octet
    · exact packable step length
    · obtain ⟨-, -, rfl⟩ := List.mem_map.mp octet
      exact (by decide : 8 < 32)
  · rw [msgBits_append, bits, octets_bits]

/-- DLInformationTransfer has ten bits in front of the NAS PDU. -/
theorem dlInfoTransfer_bits (nas : List UInt8) (inside : nas.length < 16384) :
    (∀ step ∈ dlInfoTransfer nas, step.Packable) ∧
      msgBits (dlInfoTransfer nas) = 10 + ((if nas.length < 128 then 8 else 16) + 8 * nas.length) := by
  obtain ⟨packable, bits⟩ := packOctstring_bits inside
  have split : dlInfoTransfer nas = dlDcchMsg 0 0 [packBool false, packBool false] ++ packOctstring nas := by
    unfold dlInfoTransfer dlDcchMsg
    simp only [List.append_assoc]
  rw [split]
  refine ⟨fun step mem => ?_, ?_⟩
  · rcases List.mem_append.mp mem with front | octets
    · have frontPackable : ∀ step ∈ dlDcchMsg 0 0 [packBool false, packBool false], step.Packable := by
        decide +kernel
      exact frontPackable step front
    · exact packable step octets
  · rw [msgBits_append, bits]
    rfl

/-! ## The length of an SDU -/

/-- RLC gets one byte behind the message as well, and that is the one the buffer had there. -/
structure Surplus (pdu : ByteBuffer) (msg : List PackStep) (sdu : ByteBuffer) : Prop where
  length : sdu.nBytes = packedBytes pdu msg + 1
  leftOver : sdu.byte (packedBytes pdu msg) = pdu.byte (packedBytes pdu msg)

theorem Surplus.length_ne {pdu sdu : ByteBuffer} {msg : List PackStep} (surplus : Surplus pdu msg sdu) :
    sdu.nBytes ≠ packedBytes pdu msg := by
  rw [surplus.length]
  exact Nat.succ_ne_self _

section

variable {pdu : ByteBuffer} {msg : List PackStep} (packs : (pdu.bitRef.packMsg msg).1 = .success)
include packs

theorem sibBuffer_nBytes : (sibBuffer pdu msg).nBytes = packedBytes pdu msg :=
  (BitRef.packMsg_success packs).1

theorem written_surplus :
    Surplus pdu msg
      (pdu.written (pdu.bitRef.packMsg msg).2 (1 + (pdu.bitRef.packMsg msg).2.distanceBytes)) := by
  obtain ⟨bytes, behind⟩ := BitRef.packMsg_success packs
  refine ⟨?_, ?_⟩
  · rw [ByteBuffer.written_nBytes, Nat.add_comm]
    exact congrArg (· + 1) bytes
  · rw [ByteBuffer.written_byte]
    exact behind _ (Nat.le_refl _)

theorem sendDlCcch_packed :
    ∃ sdu, RrcUe.sendDlCcch (some pdu) msg = some ⟨rbIdSrb0, sdu⟩ ∧ Surplus pdu msg sdu := by
  refine ⟨_, ?_, written_surplus packs⟩
  unfold RrcUe.sendDlCcch
  dsimp only
  rw [if_neg (not_not.mpr packs)]

theorem sendDlDcch_packed (given allocated : Option ByteBuffer) (used : given.or allocated = some pdu) :
    ∃ sdu, RrcUe.sendDlDcch given allocated msg = some ⟨rbIdSrb1bis, sdu⟩ ∧ Surplus pdu msg sdu := by
  refine ⟨_, ?_, written_surplus packs⟩
  unfold RrcUe.sendDlDcch
  rw [used]
  dsimp only
  rw [packs, if_neg (by decide)]

end

/-- For no message that packs is the length RLC gets the number of bytes packed, which is what
`generate_sibs` sets. -/
theorem sduLength_never (pdu : ByteBuffer) (msg : List PackStep)
    (packs : (pdu.bitRef.packMsg msg).1 = .success) :
    (sibBuffer pdu msg).nBytes = packedBytes pdu msg ∧
      (∃ sdu, RrcUe.sendDlCcch (some pdu) msg = some ⟨rbIdSrb0, sdu⟩ ∧
        sdu.nBytes ≠ packedBytes pdu msg ∧ Surplus pdu msg sdu) ∧
      ∀ given allocated : Option ByteBuffer, given.or allocated = some pdu →
        ∃ sdu, RrcUe.sendDlDcch given allocated msg = some ⟨rbIdSrb1bis, sdu⟩ ∧
          sdu.nBytes ≠ packedBytes pdu msg ∧ Surplus pdu msg sdu := by
  refine ⟨sibBuffer_nBytes packs, ?_, fun given allocated used => ?_⟩
  · obtain ⟨sdu, sent, surplus⟩ := sendDlCcch_packed packs
    exact ⟨sdu, sent, surplus.length_ne, surplus⟩
  · obtain ⟨sdu, sent, surplus⟩ := sendDlDcch_packed packs given allocated used
    exact ⟨sdu, sent, surplus.length_ne, surplus⟩

/-- The SDU of a NAS PDU: four bytes more than the PDU, or five from 128 bytes on, where three or four
are packed. What follows the message in it was in the buffer before. -/
theorem writeDlInfo_sdu {sdu : ByteBuffer} (inside : sdu.nBytes ≤ 12233) (allocated : Option ByteBuffer) :
    ∃ pdu, writeDlInfo sdu allocated = some ⟨rbIdSrb1bis, pdu⟩ ∧
      pdu.nBytes = sdu.nBytes + (if sdu.nBytes < 128 then 4 else 5) ∧
      pdu.byte (pdu.nBytes - 1) = sdu.clear.byte (pdu.nBytes - 1) := by
  have copied : ((List.range sdu.nBytes).map sdu.byte).length = sdu.nBytes := by simp
  obtain ⟨packable, bits⟩ := dlInfoTransfer_bits ((List.range sdu.nBytes).map sdu.byte) (by omega)
  rw [copied] at bits
  have room : sdu.clear.getTailroom = 12237 := rfl
  obtain ⟨packs, bytes⟩ := packMsg_fits sdu.clear packable (by rw [bits, room]; split <;> omega)
  obtain ⟨pdu, sent, surplus⟩ := sendDlDcch_packed packs (some sdu.clear) allocated rfl
  have length := surplus.length
  refine ⟨pdu, sent, ?_, ?_⟩
  · rw [length, bytes, bits, BitRef.bytesOf]
    split <;> omega
  · rw [length]
    exact surplus.leftOver

/-! ## A release, a setup and a NAS PDU -/

/-- A buffer of the pool that was in use. -/
def usedBuffer : ByteBuffer := { buffer := fun _ => 0xaa }

/-- The values of `rr_nb.conf`. -/
def rrNbConf : DedicatedCfg where
  periodicBsrTimer := some 2
  retxBsrTimer := 5
  timeAlignTimerDed := 7
  lcChSrProhibitTimer := 1
  npdcchNumRepeats := 1
  npdcchStartSfUss := 2
  npdcchOffsetUss := 0
  ackNackNumRepeats := some 1
  npuschAllSymbols := some true
  groupHopDisabled := false

theorem release_packs :
    (usedBuffer.bitRef.packMsg (rrcConnRelease 0)).1 = .success ∧
      packedBytes usedBuffer (rrcConnRelease 0) = 2 :=
  packMsg_fits usedBuffer (by decide +kernel) (by decide +kernel)

theorem setup_packs :
    (usedBuffer.bitRef.packMsg (rrcConnSetup 0 rrNbConf)).1 = .success ∧
      packedBytes usedBuffer (rrcConnSetup 0 rrNbConf) = 9 :=
  packMsg_fits usedBuffer (by decide +kernel) (by decide +kernel)

theorem release_or_setup_surplus :
    (∃ sdu, RrcUe.sendDlCcch (some usedBuffer) (rrcConnSetup 0 rrNbConf) = some ⟨rbIdSrb0, sdu⟩ ∧
        Surplus usedBuffer (rrcConnSetup 0 rrNbConf) sdu) ∧
      ∃ sdu, RrcUe.sendDlDcch none (some usedBuffer) (rrcConnRelease 0) = some ⟨rbIdSrb1bis, sdu⟩ ∧
        Surplus usedBuffer (rrcConnRelease 0) sdu := by
  obtain ⟨-, ⟨setup, setupSent, -, setupSurplus⟩, -⟩ :=
    sduLength_never usedBuffer (rrcConnSetup 0 rrNbConf) setup_packs.1
  obtain ⟨-, -, dcch⟩ := sduLength_never usedBuffer (rrcConnRelease 0) release_packs.1
  obtain ⟨release, releaseSent, -, releaseSurplus⟩ := dcch none (some usedBuffer) rfl
  exact ⟨⟨setup, setupSent, setupSurplus⟩, release, releaseSent, releaseSurplus⟩

/-- A release of two bytes goes to RLC with three, a setup of nine with ten, and a NAS PDU of two, whose
message has five, with six; the last one is the buffer's. -/
theorem stale_byte_sent :
    (packedBytes usedBuffer (rrcConnRelease 0) = 2 ∧
        ∃ release, RrcUe.sendDlDcch none (some usedBuffer) (rrcConnRelease 0) =
            some ⟨rbIdSrb1bis, release⟩ ∧
          release.nBytes = 3 ∧ release.byte 2 = 0xaa) ∧
      packedBytes usedBuffer (rrcConnSetup 0 rrNbConf) = 9 ∧
        (∃ setup, RrcUe.sendDlCcch (some usedBuffer) (rrcConnSetup 0 rrNbConf) =
            some ⟨rbIdSrb0, setup⟩ ∧
          setup.nBytes = 10 ∧ setup.byte 9 = 0xaa) ∧
      ∃ nas, writeDlInfo { usedBuffer with nBytes := 2 } none = some ⟨rbIdSrb1bis, nas⟩ ∧
        nas.nBytes = 6 ∧ nas.byte 5 = 0xaa := by
  obtain ⟨releasePacks, releaseBytes⟩ := release_packs
  obtain ⟨setupPacks, setupBytes⟩ := setup_packs
  obtain ⟨release, releaseSent, releaseLength, releaseLeft⟩ :=
    sendDlDcch_packed releasePacks none (some usedBuffer) rfl
  obtain ⟨setup, setupSent, setupLength, setupLeft⟩ := sendDlCcch_packed setupPacks
  rw [releaseBytes] at releaseLength releaseLeft
  rw [setupBytes] at setupLength setupLeft
  obtain ⟨nas, nasSent, nasLength, nasLeft⟩ :=
    writeDlInfo_sdu (show ByteBuffer.nBytes { usedBuffer with nBytes := 2 } ≤ 12233 by decide) none
  have six : nas.nBytes = 6 := nasLength
  rw [six] at nasLeft
  exact ⟨⟨releaseBytes, release, releaseSent, releaseLength, releaseLeft⟩, setupBytes,
    ⟨setup, setupSent, setupLength, setupLeft⟩, nas, nasSent, six, nasLeft⟩

end SonicaEnb
