import SonicaEnb.Lib.Region
import SonicaEnb.Mac.ConRes
import SonicaEnb.Upper.RrcSdu

/-! # Building a MAC PDU

`ue::generate_pdu` asks RLC for the bytes of every SDU and then writes the subheaders
and control elements in front of them, into the headroom of the buffer. The space of
the last SDU is counted without its length field, which `write_packet` leaves out
unless padding follows. RLC answers with as many bytes as it likes.
-/

namespace SonicaEnb

/-- `sch_subh::sizeof_ce` of a `SCH_SUBH_TYPE` -/
def sizeofCe (isUl : Bool) (lcid : Nat) : Nat :=
  if isUl then (UlSchLcid.ofCode lcid).ceSize
  else
    match lcid with
    | 24 => 4
    | 27 => 1
    | 28 => 6
    | 29 => 1
    | _ => 0

/-- `sch_pdu::size_header_sdu` -/
def sizeHeaderSdu (nbytes : Nat) : Nat := if nbytes < 128 then 2 else 3

/-- `is_sdu`, which asks the uplink table in both directions. -/
def isSduLcid (lcid : Nat) : Bool := decide (lcid ≤ 17)

namespace TxSubh

def isSdu (subh : TxSubh) : Bool := isSduLcid subh.lcid

def getHeaderSize (subh : TxSubh) (isLast : Bool) : Nat :=
  if !isLast && subh.isSdu then sizeHeaderSdu subh.nofBytes else 1

def writeSubheader (subh : TxSubh) (isLast : Bool) : List UInt8 :=
  .ofNat ((if isLast then 0 else 1 <<< 5) ||| subh.lcid &&& 0x1f) ::
    if subh.isSdu && !isLast then
      if subh.nofBytes ≥ 128 then
        [.ofNat (1 <<< 7 ||| (subh.nofBytes &&& 0x7f00) >>> 8), .ofNat (subh.nofBytes &&& 0xff)]
      else [.ofNat (subh.nofBytes &&& 0x7f)]
    else []

/-- `write_payload` of a control element. -/
def writePayload (subh : TxSubh) (isUl : Bool) : List UInt8 :=
  subh.wPayloadCe.take (sizeofCe isUl subh.lcid)

/-- `set_padding` of a new `sch_subh`. -/
def padding (paddingLen : Nat) : TxSubh := { lcid := DlSchLcid.padding.code, nofBytes := paddingLen }

end TxSubh

/-- A `sch_pdu` that is being built, with the buffer it is built in. -/
structure SchPdu extends TxPdu where
  pduLen : Nat
  isUl : Bool
  lastSduIdx : Option Nat
  buf : ByteBuffer

namespace SchPdu

/-- `init_tx`; what the subheaders hold of control elements stays. -/
def initTx (p : SchPdu) (buffer : ByteBuffer) (pduLenBytes : Nat) (isUlsch : Bool) : SchPdu :=
  { remLen := pduLenBytes
    headroom := buffer.msg
    subheaders := p.subheaders.map fun subh => { subh with lcid := 0, nofBytes := 0 }
    nofSubheaders := 0
    pduLen := pduLenBytes
    isUl := isUlsch
    lastSduIdx := none
    buf := buffer }

def newSubh (p : SchPdu) : Option SchPdu := p.toTxPdu.newSubh.map fun tx => { p with toTxPdu := tx }

def delSubh (p : SchPdu) : SchPdu := { p with nofSubheaders := p.nofSubheaders - 1 }

def setConResId (p : SchPdu) (conResId : Nat) : SchPdu :=
  { p with toTxPdu := (p.toTxPdu.setConResId conResId).2 }

/-- The subheaders in use. -/
def used (p : SchPdu) : List TxSubh := p.subheaders.take p.nofSubheaders

/-- The length field that the last SDU needs as soon as another one follows. -/
def lastHeader (p : SchPdu) : Nat :=
  match p.lastSduIdx with
  | none => 0
  | some i => sizeHeaderSdu (p.subheaders.getD i {}).nofBytes - 1

def getSduSpace (p : SchPdu) : Nat := min (p.remLen - p.lastHeader - 1) p.buf.getTailroom

/-- `update_space_sdu` for an SDU on the current subheader. -/
def updateSpaceSdu (p : SchPdu) (nbytes : Nat) : SchPdu :=
  if nbytes ≤ p.getSduSpace then
    { p with remLen := p.remLen - (nbytes + 1 + p.lastHeader), lastSduIdx := some (p.nofSubheaders - 1) }
  else p

def addSdu (p : SchPdu) (sduSz : Nat) : SchPdu := { p with buf := { p.buf with nBytes := p.buf.nBytes + sduSz } }

/-- A change of the current subheader. -/
def modifyCurrent (p : SchPdu) (f : TxSubh → TxSubh) : SchPdu :=
  { p with subheaders := p.subheaders.modify (p.nofSubheaders - 1) f }

/-- RLC puts bytes at `get_current_sdu_ptr`. -/
def putSdu (p : SchPdu) (bytes : List UInt8) : SchPdu :=
  { p with buf := { p.buf with buffer := Region.write p.buf.buffer (p.buf.msg + p.buf.nBytes) bytes } }

section Rlc

-- `read_pdu` of RLC: for a logical channel and a number of bytes it answers bytes, or a negative number
variable {ρ : Type} (readPdu : ρ → Nat → Nat → Option (List UInt8) × ρ)

/-- `sch_subh::set_sdu` on the current subheader. -/
def setSdu (p : SchPdu) (lcid requestedBytes : Nat) (rlc : ρ) : Int × SchPdu × ρ :=
  if requestedBytes ≤ p.getSduSpace then
    let p := p.modifyCurrent fun subh => { subh with lcid }
    match readPdu rlc lcid requestedBytes with
    | (none, rlc) => (-1, p, rlc)
    | (some bytes, rlc) =>
        let p := p.putSdu bytes
        if bytes.length = 0 then (0, p, rlc)
        else
          let p := p.modifyCurrent fun subh => { subh with nofBytes := bytes.length }
          if bytes.length > requestedBytes then (-1, p, rlc)
          else (bytes.length, (p.updateSpaceSdu bytes.length).addSdu bytes.length, rlc)
  else (-1, p, rlc)

/-- The loop of `ue::allocate_sdu`. Every turn but the last takes a byte off `sduLen`. -/
def allocateSduLoop : Nat → SchPdu → Nat → Nat → ρ → SchPdu × ρ
  | 0, p, _, _, rlc => (p, rlc)
  | fuel + 1, p, lcid, sduLen, rlc =>
      if sduLen ≥ 2 then
        match p.newSubh with
        | none => (p, rlc)
        | some p =>
            let (n, p, rlc) := p.setSdu readPdu lcid sduLen rlc
            if n > 0 then allocateSduLoop fuel p lcid (sduLen - n.toNat) rlc
            else (p.delSubh, rlc)
      else (p, rlc)

/-- `ue::allocate_sdu` -/
def allocateSdu (p : SchPdu) (lcid totalSduLen : Nat) (rlc : ρ) : SchPdu × ρ :=
  let sduLen := min totalSduLen p.getSduSpace
  p.allocateSduLoop readPdu sduLen lcid sduLen rlc

end Rlc

/-- `ue::allocate_ce` -/
def allocateCe (p : SchPdu) (ue : Ue) (lcid : Nat) : SchPdu :=
  { p with toTxPdu := ue.allocateCe p.toTxPdu lcid }

/-! ## The packet -/

/-- Padding of more than two bytes takes a subheader at the end. -/
def multibytePadding (p : SchPdu) : Bool := decide (p.remLen > 2)

/-- Padding of one or two bytes is as many subheaders in front. -/
def onetwoPadding (p : SchPdu) : Nat := if p.multibytePadding then 0 else p.remLen

def numPadding (p : SchPdu) : Nat :=
  if p.multibytePadding then
    p.remLen - 1 -
      match p.lastSduIdx with
      | none => 0
      | some i => (p.subheaders.getD i {}).getHeaderSize false - 1
  else 0

/-- `is_last` of the subheader at `i` when it is an SDU. -/
def isLastSdu (p : SchPdu) (i : Nat) : Bool := !p.multibytePadding && p.lastSduIdx == some i

def headerSz (p : SchPdu) : Nat :=
  (p.used.zipIdx.map fun s => s.1.getHeaderSize (p.isLastSdu s.2)).sum +
    if p.multibytePadding then 1 else p.onetwoPadding

def cePayloadSz (p : SchPdu) : Nat := ((p.used.filter fun subh => !subh.isSdu).map TxSubh.nofBytes).sum

/-- The subheaders and the control elements, as they are written through `ptr`. -/
def header (p : SchPdu) : List UInt8 :=
  (List.replicate p.onetwoPadding
    ((TxSubh.padding 0).writeSubheader !decide (p.pduLen > p.onetwoPadding))).flatten ++
  (p.used.zipIdx.filter fun s => !s.1.isSdu).flatMap (fun s =>
    s.1.writeSubheader (p.lastSduIdx.isNone && !p.multibytePadding && s.2 + 1 == p.nofSubheaders)) ++
  (if p.lastSduIdx.isNone then []
    else (p.used.zipIdx.filter fun s => s.1.isSdu).flatMap fun s => s.1.writeSubheader (p.isLastSdu s.2)) ++
  (if p.multibytePadding then (TxSubh.padding p.numPadding).writeSubheader true else []) ++
  (p.used.filter fun subh => !subh.isSdu).flatMap fun subh => subh.writePayload p.isUl

/-- The buffer with the header in front of the SDUs. -/
def rewound (p : SchPdu) : ByteBuffer :=
  let totalHeaderSize := p.headerSz + p.cePayloadSz
  { buffer := Region.write p.buf.buffer (p.buf.msg - totalHeaderSize) p.header
    msg := p.buf.msg - totalHeaderSize
    nBytes := p.buf.nBytes + totalHeaderSize }

/-- The buffer with the padding behind the SDUs. -/
def padded (p : SchPdu) : ByteBuffer :=
  { p.rewound with
    buffer := Region.write p.rewound.buffer (p.rewound.msg + p.rewound.nBytes) (List.replicate p.numPadding 0)
    nBytes := p.rewound.nBytes + p.numPadding }

/-- `sch_pdu::write_packet`; without a packet it answers a null pointer. -/
def writePacket (p : SchPdu) : Option ByteBuffer :=
  if p.buf.msg < p.headerSz + p.cePayloadSz then none
  else if p.rewound.getTailroom < p.numPadding then none
  else if p.padded.nBytes ≠ p.pduLen then none
  else some p.padded

end SchPdu

/-- The elements of `ue::generate_pdu`, one after the other. -/
def Ue.allocateAll {ρ : Type} (readPdu : ρ → Nat → Nat → Option (List UInt8) × ρ) (ue : Ue) :
    List DlSchedPdu → SchPdu → ρ → SchPdu × ρ
  | [], p, rlc => (p, rlc)
  | elem :: rest, p, rlc =>
      if elem.lcid ≤ 26 then
        let (p, rlc) := p.allocateSdu readPdu elem.lcid elem.nbytes rlc
        ue.allocateAll readPdu rest p rlc
      else ue.allocateAll readPdu rest (p.allocateCe ue elem.lcid) rlc

/-- `ue::generate_pdu`, for the object `mac_msg_dl` and the buffer as the last call left them. -/
def Ue.generatePdu {ρ : Type} (readPdu : ρ → Nat → Nat → Option (List UInt8) × ρ) (ue : Ue)
    (macMsgDl : SchPdu) (buffer : ByteBuffer) (pdu : List DlSchedPdu) (grantSize : Nat) (rlc : ρ) :
    Option ByteBuffer × ρ :=
  let (p, rlc) := ue.allocateAll readPdu pdu (macMsgDl.initTx buffer.clear grantSize false) rlc
  (p.writePacket, rlc)

end SonicaEnb
