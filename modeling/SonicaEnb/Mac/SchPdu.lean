import Mathlib.Algebra.Ring.Int.Defs
import Mathlib.Algebra.Ring.Nat
import Mathlib.Data.List.Basic

/-! # Reading an UL-SCH PDU

`sch_pdu::parse_packet` walks a chain of subheaders and then hands each of them
its payload. A buffer is larger than what was received into it and the parser
does not look at its end, so a buffer has a byte at every position.
-/

namespace SonicaEnb

/-- A received buffer, read from a pointer on. -/
def Buffer : Type := Nat → UInt8

def Buffer.ofList (bytes : List UInt8) : Buffer := fun i => bytes.getD i 0

/-- `count` bytes from position `ptr` on. -/
def Buffer.read (buf : Buffer) (ptr count : Nat) : List UInt8 :=
  (List.range count).map fun i => buf (ptr + i)

/-- `srslte::ul_sch_lcid`, the values a UL subheader can hold. -/
inductive UlSchLcid where
  | sdu (lcid : Nat)
  | reserved (lcid : Nat)
  | phrReport
  | crnti
  | truncBsr
  | shortBsr
  | longBsr
  | padding
  deriving Repr, DecidableEq

namespace UlSchLcid

/-- Values up to `RESERVED` are SDUs. -/
def ofCode (code : Nat) : UlSchLcid :=
  if code ≤ 17 then sdu code
  else
    match code with
    | 26 => phrReport
    | 27 => crnti
    | 28 => truncBsr
    | 29 => shortBsr
    | 30 => longBsr
    | 31 => padding
    | other => reserved other

def isSdu : UlSchLcid → Bool
  | sdu _ => true
  | _ => false

def ceSize : UlSchLcid → Nat
  | phrReport => 1
  | crnti => 2
  | truncBsr => 1
  | shortBsr => 1
  | longBsr => 3
  | _ => 0

end UlSchLcid

/-- `sch_subh`; the payload is a position in the buffer. -/
structure SchSubh where
  lcid : UlSchLcid
  nofBytes : Nat
  payload : Nat := 0
  deriving Repr, DecidableEq

namespace SchSubh

/-- `size_plus_header`, where the length field takes one byte below 128 and two from there on. -/
def sizePlusHeader (subh : SchSubh) : Nat :=
  if subh.lcid.isSdu then (if subh.nofBytes < 128 then 2 else 3) + subh.nofBytes
  else 1 + subh.nofBytes

/-- `read_subheader`: whether another one follows, the subheader and the position behind it. -/
def readSubheader (buf : Buffer) (ptr : Nat) : Bool × SchSubh × Nat :=
  let first := (buf ptr).toNat
  let eBit := first / 32 % 2 == 1
  let lcid := UlSchLcid.ofCode (first % 32)
  if lcid.isSdu then
    if eBit then
      let second := (buf (ptr + 1)).toNat
      if second ≥ 128 then
        (eBit, { lcid, nofBytes := second % 128 * 256 + (buf (ptr + 2)).toNat }, ptr + 3)
      else (eBit, { lcid, nofBytes := second % 128 }, ptr + 2)
    else (eBit, { lcid, nofBytes := 0 }, ptr + 1)
  else (eBit, { lcid, nofBytes := lcid.ceSize }, ptr + 1)

/-- `get_c_rnti` -/
def getCRnti (subh : SchSubh) (buf : Buffer) : Nat :=
  (buf subh.payload).toNat * 256 + (buf (subh.payload + 1)).toNat

/-- `btable` -/
def btable : List Nat :=
  [0, 1, 10, 12, 14, 17, 19, 22, 26, 31, 36, 42, 49, 57, 67, 78,
    91, 107, 125, 146, 171, 200, 234, 274, 321, 376, 440, 515, 603, 706, 826, 967,
    1132, 1326, 1552, 1817, 2127, 2490, 2915, 3413, 3995, 4667, 5476, 6411, 7505, 8787, 10287, 12043,
    14099, 16507, 19325, 22624, 26487, 31009, 36304, 42502, 49759, 58255, 68201, 79846, 93479, 109439,
    128125, 150000]

/-- `get_bsr` of a short or truncated report: the size under the group the report names. -/
def getShortBsr (subh : SchSubh) (buf : Buffer) : Nat :=
  let index := (buf subh.payload).toNat % 64
  if index = 0 then 0 else if index < 63 then btable.getD (1 + index) 0 else btable.getD 63 0

/-- The bytes of an SDU, `get_sdu_ptr` and `get_payload_size`. -/
def sduBytes (subh : SchSubh) (buf : Buffer) : List UInt8 := buf.read subh.payload subh.nofBytes

end SchSubh

/-- `max_subheaders` of `mac_msg_ul` -/
def maxSubheaders : Nat := 20

/-- The loop of `pdu::parse_packet` over the subheaders. A chain that goes on behind the PDU is
    dropped whole. `pduLen` is compared as a signed number. -/
def readSubheaders (buf : Buffer) (pduLen : Int) :
    Nat → List SchSubh → Nat → List SchSubh × Nat
  | 0, subhs, ptr => (subhs, ptr)
  | turns + 1, subhs, ptr =>
      let (more, subh, ptr) := SchSubh.readSubheader buf ptr
      let subhs := subhs ++ [subh]
      if more then
        if pduLen ≤ ptr then ([], ptr)
        else if subhs.length + 1 < maxSubheaders then readSubheaders buf pduLen turns subhs ptr
        else (subhs, ptr)
      else (subhs, ptr)

/-- `read_payload` for one subheader after the other. -/
def readPayloads : List SchSubh → Nat → List SchSubh
  | [], _ => []
  | subh :: rest, ptr => { subh with payload := ptr } :: readPayloads rest (ptr + subh.nofBytes)

/-- The size of the last subheader's payload is what the others leave. -/
def correctLast (pduLen : Int) (subhs : List SchSubh) : List SchSubh :=
  match subhs.getLast? with
  | none => []
  | some last =>
      let readLen := (subhs.dropLast.map SchSubh.sizePlusHeader).sum
      let nSub := pduLen - readLen - 1
      if 0 ≤ nSub then subhs.dropLast ++ [{ last with nofBytes := nSub.toNat }] else []

/-- `sch_pdu::parse_packet` -/
def parsePacket (buf : Buffer) (pduLen : Int) : List SchSubh :=
  let (subhs, ptr) := readSubheaders buf pduLen maxSubheaders [] 0
  correctLast pduLen (readPayloads subhs ptr)

/-- A C-RNTI control element with the RNTI 0x1234, then five bytes on LCID 3. -/
example : parsePacket (Buffer.ofList [0x3b, 0x03, 0x12, 0x34, 1, 2, 3, 4, 5]) 9 =
    [⟨.crnti, 2, 2⟩, ⟨.sdu 3, 5, 4⟩] := by decide

end SonicaEnb
