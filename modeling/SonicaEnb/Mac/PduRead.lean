import SonicaEnb.Mac.PduPacket

/-! # Reading a packet back

`parse_packet` is the same for both directions but for the sizes of the control
elements. It finds in a packet what was put into the PDU, behind the padding that
stands in front: every control element and every SDU with all its bytes.
-/

namespace SonicaEnb

/-- The bytes stand in the buffer. -/
def Buffer.Holds (buf : Buffer) (ptr : Nat) (bytes : List UInt8) : Prop := Region.Holds buf ptr bytes

theorem Buffer.holds_append {buf : Buffer} {ptr : Nat} {xs ys : List UInt8} :
    buf.Holds ptr (xs ++ ys) ↔ buf.Holds ptr xs ∧ buf.Holds (ptr + xs.length) ys := Region.holds_append

/-- A `sch_subh` that is read; the payload is a position in the buffer. -/
structure RxSubh where
  lcid : Nat
  nofBytes : Nat
  payload : Nat := 0
  deriving Repr, DecidableEq

namespace RxSubh

def sizePlusHeader (subh : RxSubh) : Nat :=
  if isSduLcid subh.lcid then sizeHeaderSdu subh.nofBytes + subh.nofBytes else 1 + subh.nofBytes

/-- `read_subheader` -/
def readSubheader (isUl : Bool) (buf : Buffer) (ptr : Nat) : Bool × RxSubh × Nat :=
  let first := (buf ptr).toNat
  let eBit := first / 32 % 2 == 1
  let lcid := first % 32
  if isSduLcid lcid then
    if eBit then
      let second := (buf (ptr + 1)).toNat
      if second ≥ 128 then
        (eBit, { lcid, nofBytes := second % 128 * 256 + (buf (ptr + 2)).toNat }, ptr + 3)
      else (eBit, { lcid, nofBytes := second % 128 }, ptr + 2)
    else (eBit, { lcid, nofBytes := 0 }, ptr + 1)
  else (eBit, { lcid, nofBytes := sizeofCe isUl lcid }, ptr + 1)

/-- The bytes at `get_sdu_ptr`, or of a control element. -/
def bytes (subh : RxSubh) (buf : Buffer) : List UInt8 := buf.read subh.payload subh.nofBytes

/-- As `mac_msg_ul` has it. -/
def toUl (subh : RxSubh) : SchSubh := ⟨.ofCode subh.lcid, subh.nofBytes, subh.payload⟩

end RxSubh

/-- The element that was read. -/
def RxSubh.element (subh : RxSubh) (buf : Buffer) : MacElement := ⟨subh.lcid, subh.bytes buf⟩

/-- An element whose subheader can be read. -/
structure MacElement.Readable (isUl : Bool) (e : MacElement) : Prop where
  lcid : e.lcid < 32
  sdu : e.isSdu = true → e.bytes.length < 2 ^ 15
  element : e.isSdu = false → e.bytes.length = sizeofCe isUl e.lcid

namespace SchRead

/-- The loop of `parse_packet`, as `readSubheaders` has it for the uplink. -/
def readSubheaders (isUl : Bool) (buf : Buffer) (pduLen : Int) :
    Nat → List RxSubh → Nat → List RxSubh × Nat
  | 0, subhs, ptr => (subhs, ptr)
  | turns + 1, subhs, ptr =>
      let (more, subh, ptr) := RxSubh.readSubheader isUl buf ptr
      let subhs := subhs ++ [subh]
      if more then
        if pduLen ≤ ptr then ([], ptr)
        else if subhs.length + 1 < maxSubheaders then readSubheaders isUl buf pduLen turns subhs ptr
        else (subhs, ptr)
      else (subhs, ptr)

def readPayloads : List RxSubh → Nat → List RxSubh
  | [], _ => []
  | subh :: rest, ptr => { subh with payload := ptr } :: readPayloads rest (ptr + subh.nofBytes)

def correctLast (pduLen : Int) (subhs : List RxSubh) : List RxSubh :=
  match subhs.getLast? with
  | none => []
  | some last =>
      let readLen := (subhs.dropLast.map RxSubh.sizePlusHeader).sum
      let nSub := pduLen - readLen - 1
      if 0 ≤ nSub then subhs.dropLast ++ [{ last with nofBytes := nSub.toNat }] else []

/-- `sch_pdu::parse_packet` after `init_rx`. -/
def parsePacket (isUl : Bool) (buf : Buffer) (pduLen : Int) : List RxSubh :=
  let (subhs, ptr) := readSubheaders isUl buf pduLen maxSubheaders [] 0
  correctLast pduLen (readPayloads subhs ptr)

/-! ## The uplink -/

theorem isSdu_ofCode (lcid : Nat) : (UlSchLcid.ofCode lcid).isSdu = isSduLcid lcid := by
  unfold UlSchLcid.ofCode isSduLcid
  split
  · rename_i sdu
    rw [decide_eq_true sdu]
    rfl
  · rename_i other
    rw [decide_eq_false other]
    split <;> rfl

theorem readSubheader_toUl (buf : Buffer) (ptr : Nat) :
    SchSubh.readSubheader buf ptr =
      ((RxSubh.readSubheader true buf ptr).1, (RxSubh.readSubheader true buf ptr).2.1.toUl,
        (RxSubh.readSubheader true buf ptr).2.2) := by
  simp only [SchSubh.readSubheader, RxSubh.readSubheader, isSdu_ofCode]
  split
  · split
    · split <;> rfl
    · rfl
  · rfl

theorem readSubheaders_toUl (buf : Buffer) (pduLen : Int) (turns : Nat) (subhs : List RxSubh) (ptr : Nat) :
    SonicaEnb.readSubheaders buf pduLen turns (subhs.map RxSubh.toUl) ptr =
      ((readSubheaders true buf pduLen turns subhs ptr).1.map RxSubh.toUl,
        (readSubheaders true buf pduLen turns subhs ptr).2) := by
  induction turns generalizing subhs ptr with
  | zero => rfl
  | succ turns ih =>
      rw [SonicaEnb.readSubheaders, readSubheaders, readSubheader_toUl]
      dsimp only
      have added := ih (subhs ++ [(RxSubh.readSubheader true buf ptr).2.1])
        (RxSubh.readSubheader true buf ptr).2.2
      have count : (subhs.map RxSubh.toUl ++ [(RxSubh.readSubheader true buf ptr).2.1.toUl]).length =
          (subhs ++ [(RxSubh.readSubheader true buf ptr).2.1]).length := by
        rw [List.length_append, List.length_append, List.length_map]
        rfl
      rw [List.map_append, List.map_singleton] at added
      rw [count]
      split
      · split
        · rfl
        · split
          · exact added
          · rw [List.map_append, List.map_singleton]
      · rw [List.map_append, List.map_singleton]

theorem readPayloads_toUl (subhs : List RxSubh) (ptr : Nat) :
    SonicaEnb.readPayloads (subhs.map RxSubh.toUl) ptr = (readPayloads subhs ptr).map RxSubh.toUl := by
  induction subhs generalizing ptr with
  | nil => rfl
  | cons subh rest ih =>
      rw [List.map_cons, SonicaEnb.readPayloads, readPayloads, List.map_cons, ← ih]
      rfl

theorem sizePlusHeader_toUl (subh : RxSubh) : subh.toUl.sizePlusHeader = subh.sizePlusHeader := by
  unfold SchSubh.sizePlusHeader RxSubh.sizePlusHeader
  rw [show subh.toUl.lcid.isSdu = isSduLcid subh.lcid from isSdu_ofCode _]
  rfl

theorem correctLast_toUl (pduLen : Int) (subhs : List RxSubh) :
    SonicaEnb.correctLast pduLen (subhs.map RxSubh.toUl) = (correctLast pduLen subhs).map RxSubh.toUl := by
  rw [SonicaEnb.correctLast, correctLast, List.getLast?_map]
  cases subhs.getLast? with
  | none => rfl
  | some last =>
      have sizes : (subhs.map RxSubh.toUl).dropLast.map SchSubh.sizePlusHeader =
          subhs.dropLast.map RxSubh.sizePlusHeader := by
        rw [← List.map_dropLast, List.map_map]
        exact List.map_congr_left fun subh _ => sizePlusHeader_toUl subh
      rw [Option.map_some]
      dsimp only
      rw [sizes]
      split
      · rw [← List.map_dropLast, List.map_append]
        rfl
      · rfl

/-- The reader of both directions reads in the uplink what `mac_msg_ul` reads. -/
theorem parsePacket_toUl (buf : Buffer) (pduLen : Int) :
    SonicaEnb.parsePacket buf pduLen = (parsePacket true buf pduLen).map RxSubh.toUl := by
  have chain := readSubheaders_toUl buf pduLen maxSubheaders [] 0
  rw [List.map_nil] at chain
  rw [SonicaEnb.parsePacket, chain, parsePacket]
  dsimp only
  rw [readPayloads_toUl, correctLast_toUl]

/-! ## A chain of subheaders -/

theorem byte_toNat {n : Nat} (small : n < 256) : (UInt8.ofNat n).toNat = n := by
  rw [UInt8.toNat_ofNat']
  exact Nat.mod_eq_of_lt small

theorem first_byte {lcid : Nat} (small : lcid < 32) (isLast : Bool) :
    (UInt8.ofNat ((if isLast then 0 else 1 <<< 5) ||| lcid &&& 0x1f)).toNat =
      (if isLast then 0 else 32) + lcid := by
  have mask : lcid &&& 0x1f = lcid :=
    (Nat.and_two_pow_sub_one_eq_mod lcid 5).trans (Nat.mod_eq_of_lt small)
  rw [mask]
  cases isLast with
  | true =>
      rw [if_pos rfl, if_pos rfl, Nat.zero_or, Nat.zero_add]
      exact byte_toNat (by omega)
  | false =>
      have both : 2 ^ 5 * 1 ||| lcid = 2 ^ 5 * 1 + lcid :=
        (Nat.two_pow_add_eq_or_of_lt (by omega : lcid < 2 ^ 5) 1).symm
      rw [if_neg (by decide), if_neg (by decide)]
      change (UInt8.ofNat (2 ^ 5 * 1 ||| lcid)).toNat = _
      rw [both]
      exact byte_toNat (by omega)

theorem long_bytes {n : Nat} (small : n < 2 ^ 15) :
    (UInt8.ofNat (1 <<< 7 ||| (n &&& 0x7f00) >>> 8)).toNat = 128 + n / 256 ∧
      (UInt8.ofNat (n &&& 0xff)).toNat = n % 256 := by
  have high : (n &&& 0x7f00) >>> 8 = n / 256 := by
    have shifted : (n &&& 0x7f00) >>> 8 = n >>> 8 &&& 2 ^ 7 - 1 := Nat.shiftRight_and_distrib
    rw [shifted, Nat.and_two_pow_sub_one_eq_mod, Nat.shiftRight_eq_div_pow]
    omega
  have low : n &&& 0xff = n % 256 := Nat.and_two_pow_sub_one_eq_mod n 8
  have both : 2 ^ 7 * 1 ||| n / 256 = 2 ^ 7 * 1 + n / 256 :=
    (Nat.two_pow_add_eq_or_of_lt (by omega : n / 256 < 2 ^ 7) 1).symm
  rw [high, low]
  change (UInt8.ofNat (2 ^ 7 * 1 ||| n / 256)).toNat = _ ∧ _
  rw [both]
  exact ⟨byte_toNat (by omega), byte_toNat (by omega)⟩

theorem short_byte {n : Nat} (small : n < 128) : (UInt8.ofNat (n &&& 0x7f)).toNat = n := by
  have low : n &&& 0x7f = n := (Nat.and_two_pow_sub_one_eq_mod n 7).trans (Nat.mod_eq_of_lt small)
  rw [low]
  exact byte_toNat (by omega)

variable {isUl : Bool} {buf : Buffer} {ptr : Nat}

/-- What the loop has of an element that is not the last one. -/
def rxSubh (e : MacElement) : RxSubh := ⟨e.lcid, e.bytes.length, 0⟩

/-- A subheader that is not the last one is read with its length. -/
theorem readSubheader_more {e : MacElement} (small : e.lcid < 32)
    (sdu : e.isSdu = true → e.bytes.length < 2 ^ 15)
    (element : e.isSdu = false → e.bytes.length = sizeofCe isUl e.lcid)
    (stands : buf.Holds ptr (e.subh.writeSubheader false)) :
    RxSubh.readSubheader isUl buf ptr = (true, rxSubh e, ptr + e.headerSize) := by
  have first : (buf ptr).toNat = 32 + e.lcid := by
    rw [stands.1]
    exact first_byte small false
  have eBit : ((32 + e.lcid) / 32 % 2 == 1) = true := by
    rw [beq_iff_eq]
    omega
  have lcid : (32 + e.lcid) % 32 = e.lcid := by omega
  have length : e.subh.nofBytes = e.bytes.length := rfl
  have kind : e.subh.isSdu = isSduLcid e.lcid := rfl
  simp only [RxSubh.readSubheader, rxSubh, first, eBit, lcid, if_true]
  cases isSdu : isSduLcid e.lcid with
  | false =>
      rw [MacElement.headerSize, show e.isSdu = false from isSdu, element isSdu]
      rfl
  | true =>
      have size := sdu isSdu
      rw [MacElement.headerSize, if_pos (show e.isSdu = true from isSdu), sizeHeaderSdu]
      rw [TxSubh.writeSubheader, kind, isSdu, length] at stands
      by_cases long : e.bytes.length ≥ 128
      · have short : ¬ e.bytes.length < 128 := not_lt.mpr long
        simp only [Bool.not_false, Bool.and_self, if_true, if_pos long] at stands
        obtain ⟨-, second, third, -⟩ := stands
        obtain ⟨high, low⟩ := long_bytes size
        have value : (128 + e.bytes.length / 256) % 128 * 256 + e.bytes.length % 256 = e.bytes.length := by omega
        simp only [if_true, second, third, high, low, if_neg short, value, ge_iff_le, Nat.le_add_right]
      · have short : e.bytes.length < 128 := not_le.mp long
        simp only [Bool.not_false, Bool.and_self, if_true, if_neg long] at stands
        obtain ⟨-, second, -⟩ := stands
        have value : e.bytes.length % 128 = e.bytes.length := Nat.mod_eq_of_lt short
        simp only [if_true, second, short_byte short, if_neg long, if_pos short, value]

/-- The last subheader is read without a length. -/
theorem readSubheader_last {e : MacElement} (small : e.lcid < 32)
    (stands : buf.Holds ptr (e.subh.writeSubheader true)) :
    RxSubh.readSubheader isUl buf ptr =
      (false, ⟨e.lcid, if isSduLcid e.lcid then 0 else sizeofCe isUl e.lcid, 0⟩, ptr + 1) := by
  have first : (buf ptr).toNat = 0 + e.lcid := by
    rw [stands.1]
    exact first_byte small true
  have eBit : ((0 + e.lcid) / 32 % 2 == 1) = false := by
    rw [beq_eq_false_iff_ne]
    omega
  have lcid : (0 + e.lcid) % 32 = e.lcid := by omega
  simp only [RxSubh.readSubheader, first, eBit, lcid, Bool.false_eq_true, if_false]
  split <;> rfl

theorem writeChain_cons (subh : TxSubh) {rest : List TxSubh} (more : rest ≠ []) :
    writeChain (subh :: rest) = subh.writeSubheader false ++ writeChain rest := by
  obtain ⟨next, later, rfl⟩ := List.exists_cons_of_ne_nil more
  rfl

/-- The loop reads a chain to its end. -/
theorem readSubheaders_chain {front : List MacElement} {last : MacElement} {pduLen turns : Nat}
    {subhs : List RxSubh} (readable : ∀ e ∈ front, e.Readable isUl) (small : last.lcid < 32)
    (stands : buf.Holds ptr (writeChain ((front ++ [last]).map MacElement.subh)))
    (few : subhs.length + front.length + 1 < maxSubheaders) (enough : front.length < turns)
    (fits : ptr + (front.map MacElement.headerSize).sum < pduLen) :
    readSubheaders isUl buf pduLen turns subhs ptr =
      (subhs ++ front.map rxSubh ++ [⟨last.lcid, if isSduLcid last.lcid then 0 else sizeofCe isUl last.lcid, 0⟩],
        ptr + (front.map MacElement.headerSize).sum + 1) := by
  induction front generalizing subhs ptr turns with
  | nil =>
      obtain ⟨turns, rfl⟩ := Nat.exists_eq_succ_of_ne_zero (Nat.ne_of_gt enough)
      rw [readSubheaders, readSubheader_last small stands, List.map_nil, List.append_nil]
      rfl
  | cons e rest ih =>
      obtain ⟨turns, rfl⟩ := Nat.exists_eq_succ_of_ne_zero (Nat.ne_of_gt (Nat.zero_lt_of_lt enough))
      obtain ⟨here, later⟩ := List.forall_mem_cons.mp readable
      rw [List.cons_append, List.map_cons, writeChain_cons _ (by simp), Buffer.holds_append,
        TxSubh.writeSubheader_length, MacElement.getHeaderSize_false] at stands
      rw [List.map_cons, List.sum_cons] at fits
      rw [List.length_cons] at few enough
      have next : ¬ (pduLen : Int) ≤ (ptr + e.headerSize : Nat) := by omega
      have added : (subhs ++ [rxSubh e]).length = subhs.length + 1 := List.length_append
      have room : (subhs ++ [rxSubh e]).length + 1 < maxSubheaders := by omega
      have goes : readSubheaders isUl buf pduLen turns (subhs ++ [rxSubh e]) (ptr + e.headerSize) = _ :=
        ih later stands.2 (by omega) (by omega) (by omega)
      rw [readSubheaders, readSubheader_more here.lcid here.sdu here.element stands.1]
      dsimp only
      rw [if_pos rfl, if_neg next, if_pos room]
      refine goes.trans ?_
      rw [List.map_cons, List.map_cons, List.sum_cons, List.append_assoc subhs]
      simp only [List.singleton_append, Nat.add_assoc]

/-! ## The round trip -/

theorem readPayloads_append (first second : List RxSubh) (ptr : Nat) :
    readPayloads (first ++ second) ptr =
      readPayloads first ptr ++ readPayloads second (ptr + (first.map RxSubh.nofBytes).sum) := by
  induction first generalizing ptr with
  | nil => rfl
  | cons subh rest ih =>
      rw [List.cons_append, readPayloads, readPayloads, ih, List.map_cons, List.sum_cons, Nat.add_assoc]
      rfl

theorem readPayloads_elements {es : List MacElement}
    (stands : buf.Holds ptr (es.flatMap MacElement.bytes)) :
    (readPayloads (es.map rxSubh) ptr).map (fun subh => subh.element buf) = es ∧
      ((readPayloads (es.map rxSubh) ptr).map RxSubh.sizePlusHeader).sum = (es.map MacElement.size).sum := by
  induction es generalizing ptr with
  | nil => exact ⟨rfl, rfl⟩
  | cons e rest ih =>
      rw [List.flatMap_cons, Buffer.holds_append] at stands
      obtain ⟨later, sizes⟩ := ih stands.2
      have bytes : (⟨e.lcid, e.bytes.length, ptr⟩ : RxSubh).bytes buf = e.bytes := Region.Holds.read stands.1 rfl
      rw [List.map_cons, readPayloads, List.map_cons, List.map_cons, List.sum_cons, List.map_cons,
        List.sum_cons]
      constructor
      · refine congr (congrArg List.cons ?_) later
        exact congrArg (MacElement.mk e.lcid) bytes
      · refine congr (congrArg HAdd.hAdd ?_) sizes
        unfold RxSubh.sizePlusHeader MacElement.size MacElement.isSdu rxSubh
        dsimp only
        split <;> rfl

theorem rxSubh_nofBytes (es : List MacElement) :
    ((es.map rxSubh).map RxSubh.nofBytes).sum = (es.flatMap MacElement.bytes).length := by
  rw [List.map_map, List.length_flatMap]
  rfl

theorem writeChain_length (front : List MacElement) (last : MacElement) :
    (writeChain ((front ++ [last]).map MacElement.subh)).length = (front.map MacElement.headerSize).sum + 1 := by
  have one : (last.subh.writeSubheader true).length = 1 := last.subh.writeSubheader_length true
  rw [List.map_append, List.map_singleton, writeChain_snoc, List.length_append, one, List.flatMap_map,
    List.length_flatMap]
  simp only [TxSubh.writeSubheader_length, MacElement.getHeaderSize_false]

theorem sizes_eq (es : List MacElement) :
    (es.map MacElement.size).sum =
      (es.map MacElement.headerSize).sum + (es.flatMap MacElement.bytes).length := by
  rw [List.length_flatMap, ← List.sum_map_add]
  rfl

/-- The last size is what the others leave. -/
theorem correctLast_snoc (front : List RxSubh) (last : RxSubh) (size : Nat) :
    correctLast ((front.map RxSubh.sizePlusHeader).sum + (1 + size) : Nat) (front ++ [last]) =
      front ++ [{ last with nofBytes := size }] := by
  have left : (((front.map RxSubh.sizePlusHeader).sum + (1 + size) : Nat) : Int) -
      (front.map RxSubh.sizePlusHeader).sum - 1 = size := by omega
  have positive : 0 ≤ (size : Int) := Int.natCast_nonneg size
  rw [correctLast, List.getLast?_append, List.dropLast_concat]
  simp only [List.getLast?_singleton, Option.some_or, left, if_pos positive, Int.toNat_natCast]

/-- Elements with the chain of their subheaders in front of their bytes are read. -/
theorem parsePacket_elements {front : List MacElement} {last : MacElement}
    (readable : ∀ e ∈ front, e.Readable isUl) (small : last.lcid < 32)
    (few : front.length + 1 < maxSubheaders)
    (stands : buf.Holds 0 (writeChain ((front ++ [last]).map MacElement.subh) ++
      (front ++ [last]).flatMap MacElement.bytes)) :
    (parsePacket isUl buf ((front.map MacElement.size).sum + (1 + last.bytes.length) : Nat)).map
      (fun subh => subh.element buf) = front ++ [last] := by
  rw [Buffer.holds_append, writeChain_length, Nat.zero_add, List.flatMap_append, List.flatMap_singleton,
    Buffer.holds_append] at stands
  obtain ⟨chain, payloads, rest⟩ := stands
  have total := sizes_eq front
  have read : readSubheaders isUl buf ((front.map MacElement.size).sum + (1 + last.bytes.length) : Nat)
      maxSubheaders [] 0 = _ :=
    readSubheaders_chain readable small chain (by rw [List.length_nil]; omega) (by omega) (by omega)
  obtain ⟨elements, sizes⟩ := readPayloads_elements payloads
  have final : (⟨last.lcid, last.bytes.length,
      (front.map MacElement.headerSize).sum + 1 + (front.flatMap MacElement.bytes).length⟩ : RxSubh).bytes buf =
        last.bytes := Region.Holds.read rest rfl
  rw [parsePacket, read]
  dsimp only
  rw [List.nil_append, Nat.zero_add, readPayloads_append, rxSubh_nofBytes, readPayloads, readPayloads, ← sizes,
    correctLast_snoc, List.map_append, elements, List.map_singleton]
  exact congrArg (fun bytes => front ++ [⟨last.lcid, bytes⟩]) final

end SchRead

/-! ## Packets -/

/-- The padding of a packet. -/
def paddingElement (bytes : List UInt8) : MacElement := ⟨DlSchLcid.padding.code, bytes⟩

theorem writeChain_bare (subhs : List TxSubh) : writeChain (subhs.map TxSubh.bare) = writeChain subhs := by
  induction subhs with
  | nil => rfl
  | cons subh rest ih =>
      cases rest with
      | nil => rfl
      | cons next later =>
          rw [List.map_cons, SchRead.writeChain_cons _ (by simp), SchRead.writeChain_cons _ (by simp), ih]
          rfl

namespace SchPdu

variable {p : SchPdu} {isUl : Bool} {pduLen : Nat} {es : List MacElement}

/-- The elements of the packet: padding of one or two bytes, the control elements, the SDUs, and other
    padding. -/
structure Written (es front : List MacElement) (last : MacElement) : Prop where
  elements : (front ++ [last]).filter (fun e => e.lcid != DlSchLcid.padding.code) = cesOf es ++ sdusOf es
  paddings : ∀ e ∈ front ++ [last], e ∈ es ∨ e.lcid = DlSchLcid.padding.code
  empty : ∀ e ∈ front, e ∈ es ∨ e = paddingElement []
  few : front.length ≤ es.length + 1

theorem mem_split {e : MacElement} (member : e ∈ cesOf es ++ sdusOf es) : e ∈ es := by
  rcases List.mem_append.mp member with ce | sdu
  · exact List.mem_of_mem_filter ce
  · exact List.mem_of_mem_filter sdu

theorem split_length (es : List MacElement) : (cesOf es ++ sdusOf es).length = es.length := by
  have both : es.length = _ := List.length_eq_length_filter_add MacElement.isSdu
  rw [List.length_append, cesOf, sdusOf, both, Nat.add_comm]

theorem split_nonempty (nonempty : es ≠ []) : cesOf es ++ sdusOf es ≠ [] := by
  obtain ⟨e, rest, rfl⟩ := List.exists_cons_of_ne_nil nonempty
  apply List.ne_nil_of_mem (a := e)
  rw [List.mem_append]
  cases sdu : e.isSdu with
  | true => exact .inr (List.mem_filter.mpr ⟨List.mem_cons_self, sdu⟩)
  | false => exact .inl (List.mem_filter.mpr ⟨List.mem_cons_self, by rw [sdu]; rfl⟩)

/-- The control elements and the SDUs are none of the padding. -/
theorem Fills.filter_split (fills : p.Fills isUl pduLen es) :
    (cesOf es ++ sdusOf es).filter (fun e => e.lcid != DlSchLcid.padding.code) = cesOf es ++ sdusOf es := by
  rw [List.filter_eq_self]
  intro e member
  exact bne_iff_ne.mpr (Nat.ne_of_lt (fills.valid e (mem_split member)).lcid)

theorem filter_paddings {ps : List MacElement} (paddings : ∀ e ∈ ps, e.lcid = DlSchLcid.padding.code) :
    ps.filter (fun e => e.lcid != DlSchLcid.padding.code) = [] := by
  rw [List.filter_eq_nil_iff]
  intro e member
  rw [paddings e member]
  decide

/-- With a length field for the last SDU and padding behind it. -/
theorem Fills.packet_multibyte (fills : p.Fills isUl pduLen es) (multibyte : p.multibytePadding = true) :
    Written es (cesOf es ++ sdusOf es) (paddingElement (List.replicate p.numPadding 0)) ∧
      p.header ++ sduBytes es ++ List.replicate p.numPadding 0 =
        writeChain ((cesOf es ++ sdusOf es ++ [paddingElement (List.replicate p.numPadding 0)]).map
          MacElement.subh) ++
          (cesOf es ++ sdusOf es ++ [paddingElement (List.replicate p.numPadding 0)]).flatMap
            MacElement.bytes := by
  constructor
  · constructor
    · rw [List.filter_append, fills.filter_split, filter_paddings, List.append_nil]
      intro e member
      rw [List.mem_singleton.mp member]
      rfl
    · intro e member
      rcases List.mem_append.mp member with inside | padding
      · exact .inl (mem_split inside)
      · rw [List.mem_singleton.mp padding]
        exact .inr rfl
    · exact fun e member => .inl (mem_split member)
    · rw [split_length]
      exact Nat.le_succ _
  · have order : (writtenOrder 0 es (some p.numPadding)).map TxSubh.bare =
        (cesOf es ++ sdusOf es ++ [paddingElement (List.replicate p.numPadding 0)]).map MacElement.subh := by
      have padding : (TxSubh.padding p.numPadding).bare =
          (paddingElement (List.replicate p.numPadding 0)).subh := by
        rw [MacElement.subh, paddingElement, List.length_replicate]
        rfl
      simp only [writtenOrder, List.map_append, List.replicate_zero, List.nil_append, Option.map_some,
        Option.toList_some, List.map_cons, List.map_nil, List.map_map, padding]
      rfl
    rw [fills.header_multibyte multibyte, ← writeChain_bare, order, List.flatMap_append, List.flatMap_append,
      List.flatMap_singleton]
    simp only [List.append_assoc]
    rfl

/-- With padding in front and without the length field of the last subheader. -/
theorem Fills.packet_short (fills : p.Fills isUl pduLen es) (short : p.multibytePadding = false)
    (nonempty : es ≠ []) :
    ∃ front last, Written es front last ∧
      p.header ++ sduBytes es ++ List.replicate p.numPadding 0 =
        writeChain ((front ++ [last]).map MacElement.subh) ++ (front ++ [last]).flatMap MacElement.bytes := by
  have header : p.header =
      writeChain (writtenOrder p.remLen es none) ++ (cesOf es).flatMap MacElement.bytes := by
    cases last : p.lastSduIdx with
    | none => exact fills.header_ces short last nonempty
    | some i => exact fills.header_sdu short last
  have paddings : ∀ e ∈ List.replicate p.remLen (paddingElement []), e = paddingElement [] :=
    fun e => List.eq_of_mem_replicate
  have order : (writtenOrder p.remLen es none).map TxSubh.bare =
      (List.replicate p.remLen (paddingElement []) ++ (cesOf es ++ sdusOf es)).map MacElement.subh := by
    simp only [writtenOrder, List.map_append, List.map_replicate, Option.map_none, Option.toList_none,
      List.append_nil, List.map_map, List.append_assoc]
    rfl
  have bytes : (List.replicate p.remLen (paddingElement [])).flatMap MacElement.bytes = [] := by
    rw [List.flatMap_eq_nil_iff]
    intro e member
    rw [paddings e member]
    rfl
  have none : p.numPadding = 0 := by rw [fills.numPadding, short]; rfl
  have filled : List.replicate p.remLen (paddingElement []) ++ (cesOf es ++ sdusOf es) ≠ [] := by
    intro empty
    exact split_nonempty nonempty (List.append_eq_nil_iff.mp empty).2
  obtain ⟨front, last, shape⟩ := (List.eq_nil_or_concat _).resolve_left filled
  rw [List.concat_eq_append] at shape
  have inside : ∀ e ∈ front ++ [last], e ∈ es ∨ e = paddingElement [] := by
    intro e member
    rw [← shape] at member
    rcases List.mem_append.mp member with padding | element
    · exact .inr (paddings e padding)
    · exact .inl (mem_split element)
  have few : front.length ≤ es.length + 1 := by
    have total := congrArg List.length shape
    have remaining : ¬ p.remLen > 2 := of_decide_eq_false short
    rw [List.length_append, split_length, List.length_replicate, List.length_append,
      List.length_singleton] at total
    omega
  refine ⟨front, last, ⟨?_, ?_, ?_, few⟩, ?_⟩
  · rw [← shape, List.filter_append, fills.filter_split, filter_paddings, List.nil_append]
    intro e member
    rw [paddings e member]
    rfl
  · intro e member
    exact (inside e member).imp_right fun is => by rw [is]; rfl
  · exact fun e member => inside e (List.mem_append_left _ member)
  · rw [header, ← writeChain_bare, order, shape, none, ← shape, List.flatMap_append, bytes, List.nil_append,
      List.flatMap_append, List.append_assoc, List.append_assoc, List.replicate_zero, List.append_nil]
    rfl

/-- Without elements the PDU is padding. -/
theorem Fills.packet_empty (fills : p.Fills isUl pduLen []) (short : p.multibytePadding = false)
    (some : 0 < pduLen) :
    ∃ last, last.lcid = DlSchLcid.padding.code ∧
      p.header ++ sduBytes [] ++ List.replicate p.numPadding 0 =
        writeChain ([last].map MacElement.subh) ++ [last].flatMap MacElement.bytes := by
  have few : ¬ p.remLen > 2 := of_decide_eq_false short
  have space : p.remLen = pduLen := fills.space
  have onetwo : p.onetwoPadding = p.remLen := by rw [onetwoPadding, short]; rfl
  have ended : decide (p.pduLen > p.remLen) = false := by
    rw [fills.length, space]
    exact decide_eq_false (lt_irrefl _)
  have none : p.used = [] := by rw [used, fills.count]; rfl
  have nothing : p.numPadding = 0 := by rw [fills.numPadding, short]; rfl
  have header : p.header = (List.replicate p.remLen ((TxSubh.padding 0).writeSubheader true)).flatten := by
    simp only [SchPdu.header, onetwo, ended, none, short, Bool.not_false, List.zipIdx_nil, List.filter_nil,
      List.flatMap_nil, List.append_nil, ite_self, Bool.false_eq_true, if_false]
  rw [header, nothing]
  rcases (by omega : p.remLen = 1 ∨ p.remLen = 2) with one | two
  · exact ⟨paddingElement [], rfl, by rw [one]; rfl⟩
  · exact ⟨paddingElement [31], rfl, by rw [two]; rfl⟩

theorem Fills.packet (fills : p.Fills isUl pduLen es) (some : 0 < pduLen) :
    ∃ front last, Written es front last ∧
      p.header ++ sduBytes es ++ List.replicate p.numPadding 0 =
        writeChain ((front ++ [last]).map MacElement.subh) ++ (front ++ [last]).flatMap MacElement.bytes := by
  cases multibyte : p.multibytePadding with
  | true => exact ⟨_, _, fills.packet_multibyte multibyte⟩
  | false =>
      by_cases empty : es = []
      · subst empty
        obtain ⟨last, padding, packet⟩ := fills.packet_empty multibyte some
        refine ⟨[], last, ⟨?_, ?_, fun e member => absurd member List.not_mem_nil, Nat.zero_le _⟩, packet⟩
        · exact filter_paddings fun e member => by rw [List.mem_singleton.mp member, padding]
        · exact fun e member => .inr (by rw [List.mem_singleton.mp member, padding])
      · exact fills.packet_short multibyte empty

end SchPdu

end SonicaEnb
