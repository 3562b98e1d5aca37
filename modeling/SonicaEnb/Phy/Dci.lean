import SonicaEnb.Lib.Bits
import SonicaEnb.Phy.RaNbiot

/-! # Control information on the NPDCCH

The eNB packs a DCI of format N0 or N1 into 23 bits and puts them on both control
channel elements. A UE tries every format at every location until the CRC gives its
RNTI, and unpacks what it found into a grant. Here is `dci_nbiot.c` with the search
of `ue_dl_nbiot.c`; the channel and the decoder of the NPDCCH are a parameter.
-/

namespace SonicaEnb

/-! ## Messages -/

/-- The formats of `srslte_dci_format_t` that NB-IoT has; `format0` stands for the rest. -/
inductive DciFormat where
  | format0
  | formatN0
  | formatN1
  | formatN2
  deriving Repr, DecidableEq

/-- `SRSLTE_DCI_MAX_BITS` -/
def dciMaxBits : Nat := 128

/-- `srslte_dci_msg_t`, zeroed at first. -/
structure DciMsg where
  payload : List Nat := List.replicate dciMaxBits 0
  nofBits : Nat := 0
  format : DciFormat := .format0
  deriving Repr, DecidableEq

/-- The fields of `srslte_ra_nbiot_dl_dci_t` that only a UE fills in, with the others. -/
structure UeDlDci extends RaNbiotDlDci where
  nprachStart : Nat := 0
  nprachSc : Nat := 0
  dciSfRepNum : Nat := 0
  dirIndicationInfo : Nat := 0
  deriving Repr, DecidableEq

/-- `srslte_ra_nbiot_ul_dci_t` with the repetition number of the DCI, which the eNB leaves at 0. -/
structure UlDciFields extends RaNbiotUlDci where
  dciSfRepNum : Nat := 0
  deriving Repr, DecidableEq

def dciFormatN0Sizeof : Nat := 23

def dciFormatN1Sizeof : Nat := dciFormatN0Sizeof

def dciFormatN2Sizeof : Nat := 15

/-- Write from the front of the payload on. -/
def DciMsg.write (msg : DciMsg) (bits : List Nat) : DciMsg :=
  { msg with payload := bits ++ msg.payload.drop bits.length, nofBits := bits.length }

/-- The reserved HARQ bits are skipped, whatever stands there; the rest is padded. -/
def dciFormatN1Pack (data : RaNbiotDlDci) (msg : DciMsg) (crcIsCrnti : Bool) : DciMsg :=
  let y := [1, data.alloc.isRa.toNat]
  let (y, lastBitsVal) :=
    if data.alloc.isRa then (y, 1)
    else
      let y := y ++ Bits.unpack data.alloc.iDelay 3 ++ Bits.unpack data.alloc.iSf 3 ++
        Bits.unpack data.mcsIdx 4 ++ Bits.unpack data.alloc.iRep 4
      let y := y ++ [if crcIsCrnti then 0 else data.ndi.toNat]
      let y := y ++ if crcIsCrnti then (msg.payload.drop y.length).take 4 else Bits.unpack data.alloc.harqAck 4
      (y, 0)
  msg.write (y ++ List.replicate (dciFormatN1Sizeof - y.length) lastBitsVal)

/-- `srslte_dci_msg_pack_npdsch`; `none` is its error return. -/
def dciMsgPackNpdsch (data : RaNbiotDlDci) (format : DciFormat) (msg : DciMsg) (crcIsCrnti : Bool) :
    Option DciMsg :=
  match format with
  | .formatN1 => some (dciFormatN1Pack data { msg with format := .formatN1 } crcIsCrnti)
  | _ => none

def dciFormatN0Unpack (msg : DciMsg) : Option UlDciFields :=
  if msg.nofBits ≠ dciFormatN1Sizeof then none
  else
    let (format, y) := Bits.take msg.payload 1
    let (iSc, y) := Bits.take y 6
    let (iRu, y) := Bits.take y 3
    let (iDelay, y) := Bits.take y 2
    let (iMcs, y) := Bits.take y 4
    let (iRv, y) := Bits.take y 1
    let (iRep, y) := Bits.take y 3
    let (ndi, y) := Bits.take y 1
    let (dciSfRepNum, _) := Bits.take y 2
    some { format, iSc, iRu, iDelay, iMcs, iRv, iRep, ndi := ndi != 0, dciSfRepNum }

/-- The fields of an NPDCCH order are set to all ones. -/
def dciFormatN1Unpack (msg : DciMsg) (data : UeDlDci) (crcIsCrnti : Bool) : Option UeDlDci :=
  if msg.nofBits ≠ dciFormatN1Sizeof then none
  else
    let (format, y) := Bits.take msg.payload 1
    let (isRa, y) := Bits.take y 1
    if isRa ≠ 0 then
      let (nprachStart, y) := Bits.take y 2
      let (nprachSc, _) := Bits.take y 6
      some { data with
        format, dciIsN2 := false, mcsIdx := 0xffff, ndi := true, nprachStart, nprachSc, dciSfRepNum := 0xffff
        alloc := { data.alloc with
          isRa := true, iDelay := 0xffff, iSf := 0xffff, iRep := 0xffff, harqAck := 0xffff } }
    else
      let (iDelay, y) := Bits.take y 3
      let (iSf, y) := Bits.take y 3
      let (mcsIdx, y) := Bits.take y 4
      let (iRep, y) := Bits.take y 4
      let (ndi, y) := Bits.take y 1
      let (harqAck, y) := Bits.take y 4
      let (dciSfRepNum, _) := Bits.take y 2
      some { data with
        format, dciIsN2 := false, mcsIdx, ndi := if crcIsCrnti then ndi != 0 else data.ndi, dciSfRepNum
        alloc := { data.alloc with isRa := false, iDelay, iSf, iRep, harqAck } }

def dciFormatN2Unpack (msg : DciMsg) (data : UeDlDci) : Option UeDlDci :=
  if msg.nofBits ≠ dciFormatN2Sizeof then none
  else
    let (format, y) := Bits.take msg.payload 1
    if format = 0 then
      let (dirIndicationInfo, _) := Bits.take y 8
      some { data with format, dciIsN2 := true, dirIndicationInfo }
    else
      let (iSf, y) := Bits.take y 3
      let (mcsIdx, y) := Bits.take y 4
      let (iRep, y) := Bits.take y 4
      let (dciSfRepNum, _) := Bits.take y 3
      some { data with
        format, dciIsN2 := true, mcsIdx, dciSfRepNum, alloc := { data.alloc with iSf, iRep } }

def dciMsgUnpackNpdsch (msg : DciMsg) (data : UeDlDci) (crcIsCrnti : Bool) : Option UeDlDci :=
  match msg.format with
  | .formatN1 => dciFormatN1Unpack msg data crcIsCrnti
  | .formatN2 => dciFormatN2Unpack msg data
  | _ => none

def dciMsgUnpackNpusch (msg : DciMsg) : Option UlDciFields :=
  match msg.format with
  | .formatN0 => dciFormatN0Unpack msg
  | _ => none

/-- `SRSLTE_RNTI_ISUSER` -/
def rntiIsUser (rnti : Nat) : Bool := decide (0x000B ≤ rnti) && decide (rnti ≤ 0xFFF3)

/-- `srslte_nbiot_dci_msg_to_dl_grant`; the DCI comes back with its limits. -/
def nbiotDciMsgToDlGrant (msg : DciMsg) (msgRnti sfn sfIdx rMax : Nat) (mode : NbiotMode) :
    Option (UeDlDci × RaNbiotDlGrant) :=
  (dciMsgUnpackNpdsch msg {} (rntiIsUser msgRnti)).bind fun dlDci =>
    (raNbiotDlDciToGrant dlDci.toRaNbiotDlDci sfn sfIdx rMax false mode).map fun grant =>
      ({ dlDci with toRaNbiotDlDci := limitDlDci dlDci.toRaNbiotDlDci }, grant)

/-- `srslte_nbiot_dci_msg_to_ul_grant` at 15 kHz. -/
def nbiotDciMsgToUlGrant (msg : DciMsg) (rxTti : Nat) : Option (UlDciFields × RaNbiotUlGrant) :=
  (dciMsgUnpackNpusch msg).bind fun ulDci =>
    (raNbiotUlDciToGrant ulDci.toRaNbiotUlDci rxTti).map fun grant => (ulDci, grant)

/-! ## The search of a UE -/

/-- `srslte_dci_location_t` -/
structure DciLocation where
  l : Nat
  ncce : Nat
  deriving Repr, DecidableEq

/-- `srslte_npdcch_ue_locations` -/
def npdcchUeLocations (maxCandidates : Nat) : List DciLocation := [⟨2, 0⟩, ⟨1, 0⟩, ⟨1, 1⟩].take maxCandidates

/-- Where the eNB puts every DCI. -/
def enbDciLocation : DciLocation := ⟨2, 0⟩

/-- What the decoder of the NPDCCH makes of a subframe: the bits of a message at a location and the
    remainder of its CRC, or nothing when the location is too weak to be tried. -/
abbrev NpdcchDecoder : Type := DciLocation → Nat → Option (List Nat × Nat)

/-- `srslte_npdcch_decode_msg`; a location that is not tried leaves message and remainder as they were. -/
def npdcchDecodeMsg (decode : NpdcchDecoder) (location : DciLocation) (format : DciFormat)
    (found : DciMsg × Nat) : DciMsg × Nat :=
  let nofBits := if format = .formatN2 then 15 else 23
  match decode location nofBits with
  | none => found
  | some (payload, crcRem) =>
      let format :=
        if format = .formatN0 ∨ format = .formatN1 then
          if payload.headD 0 = 0 then .formatN0 else .formatN1
        else format
      (⟨payload, nofBits, format⟩, crcRem)

/-- The loop of `dci_blind_search`. -/
def dciBlindSearchLoop (decode : NpdcchDecoder) (format : DciFormat) (rnti : Nat) :
    List DciLocation → DciMsg × Nat → Option DciMsg
  | [], _ => none
  | location :: rest, found =>
      let found := npdcchDecodeMsg decode location format found
      if found.2 = rnti ∧ found.1.format = format then some found.1
      else dciBlindSearchLoop decode format rnti rest found

/-- `dci_blind_search`; without an RNTI there is nothing to look for. -/
def dciBlindSearch (decode : NpdcchDecoder) (locations : List DciLocation) (rnti : Nat) (msg : DciMsg)
    (format : DciFormat) : Option DciMsg :=
  if rnti = 0 then none else dciBlindSearchLoop decode format rnti locations (msg, 0)

/-- `SRSLTE_RNTI_ISSIRAPA` -/
def rntiIsSirapa (rnti : Nat) : Bool :=
  rnti == siRnti || rnti == pRnti || decide (0x0001 ≤ rnti) && decide (rnti ≤ 0x000A)

/-- `srslte_nbiot_ue_dl_find_dl_dci`. What a search in vain leaves in the message is of no effect on
    the next one, which starts with a remainder of 0. -/
def ueFindDlDci (decode : NpdcchDecoder) (rnti : Nat) (msg : DciMsg) : Option DciMsg :=
  if rntiIsSirapa rnti then
    [DciFormat.formatN1, .formatN2].findSome? (dciBlindSearch decode (npdcchUeLocations 1) rnti msg)
  else [DciFormat.formatN0, .formatN1].findSome? (dciBlindSearch decode (npdcchUeLocations 3) rnti msg)

/-! ## What a UE makes of a DCI -/

/-- The bits `sonica_enb_dl_nbiot_put_npdcch_dl` hands to the coder. -/
def putNpdcchDl (dci : RaNbiotDlDci) : Option (List Nat) :=
  (dciMsgPackNpdsch dci .formatN1 {} false).map fun msg => msg.payload.take msg.nofBits

/-- A DCI that schedules an NPDSCH, with fields that fit into format N1. -/
structure RaNbiotDlDci.FitsN1 (dci : RaNbiotDlDci) : Prop where
  noOrder : dci.alloc.isRa = false
  noSib1 : dci.alloc.hasSib1 = false
  notN2 : dci.dciIsN2 = false
  iDelay : dci.alloc.iDelay < 2 ^ 3
  iSf : dci.alloc.iSf < 2 ^ 3
  mcsIdx : dci.mcsIdx < 2 ^ 4
  iRep : dci.alloc.iRep < 2 ^ 4
  harqAck : dci.alloc.harqAck < 2 ^ 4

structure RaNbiotUlDci.FitsN0 (dci : RaNbiotUlDci) : Prop where
  iSc : dci.iSc < 2 ^ 6
  iRu : dci.iRu < 2 ^ 3
  iDelay : dci.iDelay < 2 ^ 2
  iMcs : dci.iMcs < 2 ^ 4
  iRv : dci.iRv < 2
  iRep : dci.iRep < 2 ^ 3

/-- The fields of format N1 in a row. -/
def RaNbiotDlDci.bitsN1 (dci : RaNbiotDlDci) : List Nat :=
  Bits.unpack 1 1 ++ (Bits.unpack 0 1 ++ (Bits.unpack dci.alloc.iDelay 3 ++ (Bits.unpack dci.alloc.iSf 3 ++
    (Bits.unpack dci.mcsIdx 4 ++ (Bits.unpack dci.alloc.iRep 4 ++ (Bits.unpack dci.ndi.toNat 1 ++
      (Bits.unpack dci.alloc.harqAck 4 ++ Bits.unpack 0 2)))))))

/-- The fields of format N0 in a row. -/
def RaNbiotUlDci.bitsN0 (dci : RaNbiotUlDci) : List Nat :=
  Bits.unpack 0 1 ++ (Bits.unpack dci.iSc 6 ++ (Bits.unpack dci.iRu 3 ++ (Bits.unpack dci.iDelay 2 ++
    (Bits.unpack dci.iMcs 4 ++ (Bits.unpack dci.iRv 1 ++ (Bits.unpack dci.iRep 3 ++
      (Bits.unpack dci.ndi.toNat 1 ++ Bits.unpack 0 2)))))))

/-- What is left of a DCI of format N1: who has no C-RNTI does not look at the new data indicator. -/
def RaNbiotDlDci.heard (dci : RaNbiotDlDci) (crcIsCrnti : Bool) : UeDlDci where
  format := 1
  mcsIdx := dci.mcsIdx
  ndi := crcIsCrnti && dci.ndi
  alloc := { iDelay := dci.alloc.iDelay, iSf := dci.alloc.iSf, iRep := dci.alloc.iRep,
             harqAck := dci.alloc.harqAck }

theorem DciMsg.write_front (msg : DciMsg) (bits : List Nat) :
    (msg.write bits).payload.take (msg.write bits).nofBits = bits := List.take_left

theorem putNpdcchDl_eq {dci : RaNbiotDlDci} (noOrder : dci.alloc.isRa = false) :
    putNpdcchDl dci = some dci.bitsN1 := by
  simp only [putNpdcchDl, dciMsgPackNpdsch, Option.map_some, dciFormatN1Pack, noOrder, DciMsg.write_front,
    Bool.false_eq_true, if_false, RaNbiotDlDci.bitsN1, Bits.unpack_bool]
  simp [dciFormatN1Sizeof, dciFormatN0Sizeof]
  rfl

theorem bool_of_bit (b : Bool) : (b.toNat % 2 ^ 1 != 0) = b := by cases b <;> rfl

theorem RaNbiotDlDci.FitsN1.unpack {dci : RaNbiotDlDci} (fits : dci.FitsN1) (crcIsCrnti : Bool) :
    dciMsgUnpackNpdsch ⟨dci.bitsN1, 23, .formatN1⟩ {} crcIsCrnti = some (dci.heard crcIsCrnti) := by
  simp only [dciMsgUnpackNpdsch, dciFormatN1Unpack, dciFormatN1Sizeof, dciFormatN0Sizeof,
    RaNbiotDlDci.bitsN1, Bits.take_unpack, Bits.take_unpack_last, bool_of_bit, Nat.mod_eq_of_lt fits.iDelay,
    Nat.mod_eq_of_lt fits.iSf, Nat.mod_eq_of_lt fits.mcsIdx, Nat.mod_eq_of_lt fits.iRep,
    Nat.mod_eq_of_lt fits.harqAck]
  cases crcIsCrnti <;> rfl

theorem RaNbiotUlDci.FitsN0.unpack {dci : RaNbiotUlDci} (fits : dci.FitsN0) :
    dciMsgUnpackNpusch ⟨dci.bitsN0, 23, .formatN0⟩ =
      some { toRaNbiotUlDci := { dci with format := 0 } } := by
  simp only [dciMsgUnpackNpusch, dciFormatN0Unpack, dciFormatN1Sizeof, dciFormatN0Sizeof,
    RaNbiotUlDci.bitsN0, Bits.take_unpack, Bits.take_unpack_last, bool_of_bit, Nat.mod_eq_of_lt fits.iSc,
    Nat.mod_eq_of_lt fits.iRu, Nat.mod_eq_of_lt fits.iDelay, Nat.mod_eq_of_lt fits.iMcs,
    Nat.mod_eq_of_lt fits.iRep]
  have rv : dci.iRv % 2 ^ 1 = dci.iRv := Nat.mod_eq_of_lt fits.iRv
  rw [rv]
  rfl

/-! ## The search -/

/-- The format that the first bit tells apart. -/
def formatOf (bits : List Nat) : DciFormat := if bits.headD 0 = 0 then .formatN0 else .formatN1

/-- The decoder gets 23 bits as they were sent, and no other location has the RNTI in its CRC. -/
structure Hears (decode : NpdcchDecoder) (bits : List Nat) (rnti : Nat) : Prop where
  here : decode enbDciLocation 23 = some (bits, rnti)
  elsewhere : ∀ location nofBits payload crcRem, decode location nofBits = some (payload, crcRem) →
    location ≠ enbDciLocation → crcRem ≠ rnti

/-- A subframe with nothing but the message in it. -/
def clearChannel (bits : List Nat) (rnti : Nat) : NpdcchDecoder := fun location nofBits =>
  if location = enbDciLocation ∧ nofBits = 23 then some (bits, rnti) else none

theorem clearChannel_hears (bits : List Nat) (rnti : Nat) : Hears (clearChannel bits rnti) bits rnti where
  here := rfl
  elsewhere location nofBits payload crcRem read other := by
    simp [clearChannel, other] at read

section

variable {decode : NpdcchDecoder} {bits : List Nat} {rnti : Nat} {format : DciFormat}

theorem Hears.decodeMsg (hears : Hears decode bits rnti) (common : format = .formatN0 ∨ format = .formatN1)
    (found : DciMsg × Nat) :
    npdcchDecodeMsg decode enbDciLocation format found = (⟨bits, 23, formatOf bits⟩, rnti) := by
  rcases common with rfl | rfl <;> simp [npdcchDecodeMsg, hears.here, formatOf]

theorem Hears.search_elsewhere (hears : Hears decode bits rnti) (locations : List DciLocation)
    (others : ∀ location ∈ locations, location ≠ enbDciLocation) (found : DciMsg × Nat)
    (wrong : found.2 = rnti → found.1.format ≠ format) :
    dciBlindSearchLoop decode format rnti locations found = none := by
  induction locations generalizing found with
  | nil => rfl
  | cons location rest ih =>
      have next : (npdcchDecodeMsg decode location format found).2 = rnti →
          (npdcchDecodeMsg decode location format found).1.format ≠ format := by
        intro same
        cases read : decode location (if format = .formatN2 then 15 else 23) with
        | none =>
            simp only [npdcchDecodeMsg, read] at same ⊢
            exact wrong same
        | some answer =>
            simp only [npdcchDecodeMsg, read] at same
            exact absurd same (hears.elsewhere _ _ _ _ read (others location List.mem_cons_self))
      rw [dciBlindSearchLoop, if_neg fun both => next both.1 both.2]
      exact ih (fun other inside => others other (.tail _ inside)) _ next

theorem Hears.search (hears : Hears decode bits rnti) (common : format = .formatN0 ∨ format = .formatN1)
    (addressed : rnti ≠ 0) (msg : DciMsg) {rest : List DciLocation}
    (others : ∀ location ∈ rest, location ≠ enbDciLocation) :
    dciBlindSearch decode (enbDciLocation :: rest) rnti msg format =
      if formatOf bits = format then some ⟨bits, 23, format⟩ else none := by
  rw [dciBlindSearch, if_neg addressed, dciBlindSearchLoop, hears.decodeMsg common]
  by_cases same : formatOf bits = format
  · simp [same]
  · rw [if_neg fun both => same both.2, if_neg same]
    exact hears.search_elsewhere rest others _ fun _ => same

theorem npdcchUeLocations_one : npdcchUeLocations 1 = [enbDciLocation] := rfl

theorem npdcchUeLocations_three : npdcchUeLocations 3 = enbDciLocation :: [⟨1, 0⟩, ⟨1, 1⟩] := rfl

theorem elsewhere_three : ∀ location ∈ [DciLocation.mk 1 0, ⟨1, 1⟩], location ≠ enbDciLocation := by decide

/-- A downlink DCI is found with whatever RNTI it was sent. -/
theorem Hears.findDl (hears : Hears decode bits rnti) (addressed : rnti ≠ 0)
    (dl : formatOf bits = .formatN1) (msg : DciMsg) :
    ueFindDlDci decode rnti msg = some ⟨bits, 23, .formatN1⟩ := by
  have notN0 : ¬ formatOf bits = .formatN0 := by simp [dl]
  unfold ueFindDlDci
  split
  · rw [npdcchUeLocations_one, List.findSome?_cons, hears.search (.inr rfl) addressed msg (by simp), if_pos dl]
  · simp only [npdcchUeLocations_three, List.findSome?_cons,
      hears.search (.inl rfl) addressed msg elsewhere_three, if_neg notN0,
      hears.search (.inr rfl) addressed msg elsewhere_three, if_pos dl]

/-- An uplink DCI is found by a UE that looks for format N0. -/
theorem Hears.findUl (hears : Hears decode bits rnti) (addressed : rnti ≠ 0)
    (specific : rntiIsSirapa rnti = false) (ul : formatOf bits = .formatN0) (msg : DciMsg) :
    ueFindDlDci decode rnti msg = some ⟨bits, 23, .formatN0⟩ := by
  unfold ueFindDlDci
  simp only [specific, Bool.false_eq_true, if_false, npdcchUeLocations_three, List.findSome?_cons,
    hears.search (.inl rfl) addressed msg elsewhere_three, if_pos ul]

end

/-! ## From grant to grant -/

/-- What a UE has from the NPDCCH. -/
inductive UeGrant where
  | dl (dci : UeDlDci) (grant : RaNbiotDlGrant)
  | ul (dci : UlDciFields) (grant : RaNbiotUlGrant)

/-- `srslte_nbiot_ue_dl_decode_npdcch` of a UE without a grant, and what `subframe_handler` makes of the
    DCI it finds. -/
def ueNpdcch (decode : NpdcchDecoder) (rnti tti : Nat) (mode : NbiotMode) : Option UeGrant :=
  if isValidDlSf tti then
    (ueFindDlDci decode rnti {}).bind fun msg =>
      if msg.format = .formatN0 then (nbiotDciMsgToUlGrant msg tti).map fun g => .ul g.1 g.2
      else (nbiotDciMsgToDlGrant msg rnti (tti / 10) (tti % 10) 64 mode).map fun g => .dl g.1 g.2
  else none

/-- The conversion does not look at the fields that a UE does not hear. -/
theorem RaNbiotDlDci.FitsN1.heard_grant {dci : RaNbiotDlDci} (fits : dci.FitsN1) (crcIsCrnti : Bool)
    (sfn sfIdx rMax : Nat) (mode : NbiotMode) :
    raNbiotDlDciToGrant (dci.heard crcIsCrnti).toRaNbiotDlDci sfn sfIdx rMax false mode =
      raNbiotDlDciToGrant dci sfn sfIdx rMax false mode := by
  simp only [raNbiotDlDciToGrant, limitDlDci, RaNbiotDlDci.heard, raK0FromDci, raNRepFromDci, raNSfFromDci,
    fits.noSib1, fits.notN2, Bool.false_eq_true, if_false]
  rfl

theorem formatOf_bitsN1 (dci : RaNbiotDlDci) : formatOf dci.bitsN1 = .formatN1 := rfl

theorem formatOf_bitsN0 (dci : RaNbiotUlDci) : formatOf dci.bitsN0 = .formatN0 := rfl

variable {decode : NpdcchDecoder} {rnti tti : Nat} {mode : NbiotMode}

/-- A UE gets the grant the eNB has for the DCI, and the indicator if it has a C-RNTI. -/
theorem RaNbiotDlDci.FitsN1.understood {dci : RaNbiotDlDci} (fits : dci.FitsN1)
    (hears : Hears decode dci.bitsN1 rnti) (addressed : rnti ≠ 0) (valid : isValidDlSf tti = true)
    {grant : RaNbiotDlGrant}
    (made : raNbiotDlDciToGrant dci (tti / 10) (tti % 10) 64 false mode = some grant) :
    ∃ ueDci : UeDlDci, ueNpdcch decode rnti tti mode = some (.dl ueDci grant) ∧
      ueDci.ndi = (rntiIsUser rnti && dci.ndi) := by
  let heard := dci.heard (rntiIsUser rnti)
  refine ⟨{ heard with toRaNbiotDlDci := limitDlDci heard.toRaNbiotDlDci }, ?_, rfl⟩
  simp only [ueNpdcch, valid, if_true, hears.findDl addressed (formatOf_bitsN1 dci), Option.bind_some,
    nbiotDciMsgToDlGrant, fits.unpack, fits.heard_grant, made, Option.map_some, reduceCtorEq, if_false]
  rfl

theorem RaNbiotUlDci.FitsN0.understood {dci : RaNbiotUlDci} (fits : dci.FitsN0)
    (hears : Hears decode dci.bitsN0 rnti) (addressed : rntiIsUser rnti = true)
    (valid : isValidDlSf tti = true) {grant : RaNbiotUlGrant}
    (made : raNbiotUlDciToGrant dci tti = some grant) :
    ∃ ueDci : UlDciFields, ueNpdcch decode rnti tti mode = some (.ul ueDci grant) ∧ ueDci.ndi = dci.ndi := by
  have inside : 0x000B ≤ rnti ∧ rnti ≤ 0xFFF3 := by simpa [rntiIsUser] using addressed
  have specific : rntiIsSirapa rnti = false := by
    simp only [rntiIsSirapa, siRnti, pRnti, Bool.or_eq_false_iff, beq_eq_false_iff_ne, Bool.and_eq_false_iff,
      decide_eq_false_iff_not]
    omega
  have same : raNbiotUlDciToGrant { dci with format := 0 } tti = some grant := made
  refine ⟨{ toRaNbiotUlDci := { dci with format := 0 } }, ?_, rfl⟩
  simp only [ueNpdcch, valid, if_true, hears.findUl (by omega) specific (formatOf_bitsN0 dci),
    Option.bind_some, nbiotDciMsgToUlGrant, fits.unpack, same, Option.map_some]

end SonicaEnb
