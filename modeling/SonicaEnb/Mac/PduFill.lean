import Mathlib.Data.List.Forall2
import SonicaEnb.Mac.MacPdu

/-! # What a PDU under construction holds

Every step of `generate_pdu` keeps the account of the PDU: the space left and the
elements add up to its length, and the SDUs stand in the buffer one behind the other.
What RLC gives is in the PDU, whatever it gives.
-/

namespace SonicaEnb

/-- A control element or an SDU. -/
structure MacElement where
  lcid : Nat
  bytes : List UInt8
  deriving Repr, DecidableEq

namespace MacElement

def isSdu (e : MacElement) : Bool := isSduLcid e.lcid

/-- With the subheader that is not the last one. -/
def size (e : MacElement) : Nat := (if e.isSdu then sizeHeaderSdu e.bytes.length else 1) + e.bytes.length

/-- A control element has the bytes of its kind, and an SDU the bytes that a length field can hold. -/
structure Valid (isUl : Bool) (e : MacElement) : Prop where
  lcid : e.lcid < DlSchLcid.padding.code
  sdu : e.isSdu = true → 0 < e.bytes.length ∧ e.bytes.length < 2 ^ 15
  element : e.isSdu = false → e.bytes.length = sizeofCe isUl e.lcid

end MacElement

/-- The SDUs of a PDU, in their order. -/
def sdusOf (es : List MacElement) : List MacElement := es.filter MacElement.isSdu

def cesOf (es : List MacElement) : List MacElement := es.filter fun e => !e.isSdu

def sduBytes (es : List MacElement) : List UInt8 := (sdusOf es).flatMap MacElement.bytes

/-- The length field that the last SDU does without. -/
def savedBytes (es : List MacElement) : Nat :=
  match (sdusOf es).getLast? with
  | none => 0
  | some e => sizeHeaderSdu e.bytes.length - 1

/-- The place of the last SDU. -/
inductive LastSdu : Option Nat → List MacElement → Prop where
  | absent {es : List MacElement} (noSdu : ∀ e ∈ es, e.isSdu = false) : LastSdu none es
  | present {front back : List MacElement} {e : MacElement} (sdu : e.isSdu = true)
      (behind : ∀ e ∈ back, e.isSdu = false) : LastSdu (some front.length) (front ++ e :: back)

section Lists

variable {es : List MacElement} {e : MacElement}

theorem sdusOf_snoc_sdu (sdu : e.isSdu = true) : sdusOf (es ++ [e]) = sdusOf es ++ [e] := by
  rw [sdusOf, List.filter_append, List.filter_singleton, sdu]
  rfl

theorem sdusOf_snoc_ce (ce : e.isSdu = false) : sdusOf (es ++ [e]) = sdusOf es := by
  rw [sdusOf, List.filter_append, List.filter_singleton, ce]
  exact List.append_nil _

theorem sdusOf_nil_of (noSdu : ∀ e ∈ es, e.isSdu = false) : sdusOf es = [] := by
  rw [sdusOf, List.filter_eq_nil_iff]
  intro e member
  rw [noSdu e member]
  decide

theorem LastSdu.snoc_ce {last : Option Nat} (place : LastSdu last es) (ce : e.isSdu = false) :
    LastSdu last (es ++ [e]) := by
  cases place with
  | absent noSdu =>
      refine .absent fun e' member => ?_
      rcases List.mem_append.mp member with old | new
      · exact noSdu e' old
      · rwa [List.mem_singleton.mp new]
  | @present front back _ sdu behind =>
      rw [List.append_assoc, List.cons_append]
      refine .present sdu fun e' member => ?_
      rcases List.mem_append.mp member with old | new
      · exact behind e' old
      · rwa [List.mem_singleton.mp new]

theorem LastSdu.snoc_sdu (es : List MacElement) (sdu : e.isSdu = true) :
    LastSdu (some es.length) (es ++ [e]) :=
  .present sdu fun _ member => absurd member List.not_mem_nil

/-- The SDUs up to the last one. -/
theorem LastSdu.ends {i : Nat} (place : LastSdu (some i) es) :
    ∃ front e, es[i]? = some e ∧ e.isSdu = true ∧ sdusOf es = front ++ [e] := by
  cases place with
  | @present front back e sdu behind =>
      refine ⟨sdusOf front, e, ?_, sdu, ?_⟩
      · rw [List.getElem?_append_right (le_refl _), Nat.sub_self]
        rfl
      · have later : sdusOf back = [] := sdusOf_nil_of behind
        unfold sdusOf at later ⊢
        rw [List.filter_append, List.filter_cons_of_pos sdu, later]

theorem savedBytes_snoc_sdu (sdu : e.isSdu = true) :
    savedBytes (es ++ [e]) = sizeHeaderSdu e.bytes.length - 1 := by
  rw [savedBytes, sdusOf_snoc_sdu sdu, List.getLast?_append]
  rfl

theorem savedBytes_snoc_ce (ce : e.isSdu = false) : savedBytes (es ++ [e]) = savedBytes es := by
  rw [savedBytes, sdusOf_snoc_ce ce, ← savedBytes]

end Lists

/-! ## The account of a PDU -/

/-- A subheader of the PDU with what it is for. -/
structure TxSubh.Carries (subh : TxSubh) (e : MacElement) : Prop where
  lcid : subh.lcid = e.lcid
  nofBytes : subh.nofBytes = e.bytes.length
  element : e.isSdu = false → subh.wPayloadCe.take e.bytes.length = e.bytes

/-- The PDU holds the elements, in the order they were added in. -/
structure SchPdu.Fills (p : SchPdu) (isUl : Bool) (pduLen : Nat) (es : List MacElement) : Prop where
  direction : p.isUl = isUl
  length : p.pduLen = pduLen
  slots : p.subheaders.length = maxSubheaders
  few : es.length < maxSubheaders
  count : p.nofSubheaders = es.length
  carries : ∀ (i : Nat) (e : MacElement), es[i]? = some e → ∃ subh : TxSubh, p.subheaders[i]? = some subh ∧ subh.Carries e
  valid : ∀ e ∈ es, e.Valid isUl
  last : LastSdu p.lastSduIdx es
  space : p.remLen + (es.map MacElement.size).sum = pduLen + savedBytes es
  headroom : p.headroom = p.buf.msg
  nBytes : p.buf.nBytes = (sduBytes es).length
  stands : Region.Holds p.buf.buffer p.buf.msg (sduBytes es)
  room : p.remLen + p.buf.nBytes ≤ pduLen
  msg : p.buf.msg = bufferHeaderOffset
  inside : bufferHeaderOffset + pduLen ≤ maxBufferSizeBytes

namespace SchPdu

variable {p q : SchPdu} {isUl : Bool} {pduLen : Nat} {es : List MacElement} {e : MacElement}

theorem initTx_fills (p : SchPdu) (slots : p.subheaders.length = maxSubheaders) (buffer : ByteBuffer)
    {pduLenBytes : Nat} (isUlsch : Bool) (inside : pduLenBytes ≤ maxBufferSizeBytes - bufferHeaderOffset) :
    (p.initTx buffer.clear pduLenBytes isUlsch).Fills isUlsch pduLenBytes [] where
  direction := rfl
  length := rfl
  slots := by
    change (p.subheaders.map _).length = _
    rw [List.length_map, slots]
  few := by decide
  count := rfl
  carries := by
    intro i e here
    cases here
  valid := by
    intro e member
    cases member
  last := .absent fun e member => absurd member List.not_mem_nil
  space := rfl
  headroom := rfl
  nBytes := rfl
  stands := trivial
  room := le_rfl
  msg := rfl
  inside := by
    have offset : bufferHeaderOffset ≤ maxBufferSizeBytes := by decide
    omega

/-- The PDU with one more subheader in use. -/
def withSubh (p : SchPdu) : SchPdu := { p with nofSubheaders := p.nofSubheaders + 1 }

theorem newSubh_some (new : p.newSubh = some q) :
    p.nofSubheaders < maxSubheaders - 1 ∧ 0 < p.remLen ∧ q = p.withSubh := by
  unfold newSubh TxPdu.newSubh at new
  split at new
  · rename_i free
    cases new
    exact ⟨free.1, free.2.1, rfl⟩
  · cases new

theorem Fills.subheader (fills : p.Fills isUl pduLen es) {i : Nat} (here : es[i]? = some e) :
    i < es.length ∧ (p.subheaders.getD i {}).Carries e := by
  obtain ⟨subh, found, carries⟩ := fills.carries i e here
  refine ⟨(List.getElem?_eq_some_iff.mp here).1, ?_⟩
  rwa [List.getD_eq_getElem?_getD, found]

theorem Fills.lastHeader (fills : p.Fills isUl pduLen es) : p.lastHeader = savedBytes es := by
  have place := fills.last
  unfold SchPdu.lastHeader savedBytes
  cases index : p.lastSduIdx with
  | none =>
      rw [index] at place
      cases place with
      | absent noSdu => rw [sdusOf_nil_of noSdu]; rfl
  | some i =>
      rw [index] at place
      obtain ⟨front, e, here, -, sdus⟩ := place.ends
      have carries := (fills.subheader here).2
      have final : (sdusOf es).getLast? = some e := by rw [sdus, List.getLast?_append]; rfl
      rw [final]
      dsimp only
      rw [carries.nofBytes]

/-- What an element leaves alone that is put behind the others. -/
structure Extends (p q : SchPdu) : Prop where
  slots : q.subheaders.length = p.subheaders.length
  count : q.nofSubheaders = p.nofSubheaders + 1
  others : ∀ i < p.nofSubheaders, q.subheaders[i]? = p.subheaders[i]?
  isUl : q.isUl = p.isUl
  pduLen : q.pduLen = p.pduLen
  headroom : q.headroom = p.headroom
  msg : q.buf.msg = p.buf.msg

/-- The subheaders of a PDU with one more element. -/
theorem Fills.carries_snoc (fills : p.Fills isUl pduLen es) (grown : p.Extends q)
    {subh : TxSubh} (current : q.subheaders[p.nofSubheaders]? = some subh) (carries : subh.Carries e) :
    ∀ (i : Nat) (e' : MacElement), (es ++ [e])[i]? = some e' → ∃ subh : TxSubh, q.subheaders[i]? = some subh ∧ subh.Carries e' := by
  intro i e' here
  by_cases old : i < es.length
  · rw [List.getElem?_append_left old] at here
    rw [grown.others i (by rw [fills.count]; exact old)]
    exact fills.carries i e' here
  · rw [List.getElem?_append_right (not_lt.mp old), List.getElem?_singleton] at here
    split at here
    · rename_i first
      have place : i = p.nofSubheaders := by rw [fills.count]; omega
      cases here
      rw [place]
      exact ⟨subh, current, carries⟩
    · cases here

theorem Fills.valid_snoc (fills : p.Fills isUl pduLen es) (valid : e.Valid isUl) :
    ∀ e' ∈ es ++ [e], e'.Valid isUl := by
  intro e' member
  rcases List.mem_append.mp member with old | new
  · exact fills.valid e' old
  · rwa [List.mem_singleton.mp new]

theorem Fills.snoc_ce (fills : p.Fills isUl pduLen es) (grown : p.Extends q) (room : es.length + 1 < maxSubheaders)
    {subh : TxSubh} (current : q.subheaders[p.nofSubheaders]? = some subh) (carries : subh.Carries e)
    (valid : e.Valid isUl) (ce : e.isSdu = false) (space : q.remLen + e.size = p.remLen)
    (last : q.lastSduIdx = p.lastSduIdx) (buf : q.buf = p.buf) : q.Fills isUl pduLen (es ++ [e]) where
  direction := grown.isUl.trans fills.direction
  length := grown.pduLen.trans fills.length
  slots := by rw [grown.slots, fills.slots]
  few := by rwa [List.length_append]
  count := by rw [grown.count, fills.count, List.length_append]; rfl
  carries := fills.carries_snoc grown current carries
  valid := fills.valid_snoc valid
  last := by
    rw [last]
    exact fills.last.snoc_ce ce
  space := by
    have total := fills.space
    rw [List.map_append, List.sum_append, List.map_singleton, List.sum_singleton,
      savedBytes_snoc_ce ce]
    omega
  headroom := by rw [grown.headroom, grown.msg, fills.headroom]
  nBytes := by rw [buf, fills.nBytes, sduBytes, sduBytes, sdusOf_snoc_ce ce]
  stands := by
    have stands := fills.stands
    rw [buf]
    rwa [sduBytes, sdusOf_snoc_ce ce]
  room := by
    have room := fills.room
    rw [buf]
    omega
  msg := grown.msg.trans fills.msg
  inside := fills.inside

theorem Fills.snoc_sdu (fills : p.Fills isUl pduLen es) (grown : p.Extends q) (room : es.length + 1 < maxSubheaders)
    {subh : TxSubh} (current : q.subheaders[p.nofSubheaders]? = some subh) (carries : subh.Carries e)
    (valid : e.Valid isUl) (sdu : e.isSdu = true)
    (space : q.remLen + (e.bytes.length + 1 + savedBytes es) = p.remLen)
    (last : q.lastSduIdx = some p.nofSubheaders) (nBytes : q.buf.nBytes = p.buf.nBytes + e.bytes.length)
    (stands : Region.Holds q.buf.buffer q.buf.msg (sduBytes es ++ e.bytes)) : q.Fills isUl pduLen (es ++ [e]) where
  direction := grown.isUl.trans fills.direction
  length := grown.pduLen.trans fills.length
  slots := by rw [grown.slots, fills.slots]
  few := by rwa [List.length_append]
  count := by rw [grown.count, fills.count, List.length_append]; rfl
  carries := fills.carries_snoc grown current carries
  valid := fills.valid_snoc valid
  last := by
    rw [last, fills.count]
    exact .snoc_sdu es sdu
  space := by
    have total := fills.space
    have size : e.size = sizeHeaderSdu e.bytes.length + e.bytes.length := by
      rw [MacElement.size, if_pos sdu]
    have header : 1 ≤ sizeHeaderSdu e.bytes.length := by
      unfold sizeHeaderSdu
      split <;> omega
    rw [List.map_append, List.sum_append, List.map_singleton, List.sum_singleton,
      savedBytes_snoc_sdu sdu, size]
    omega
  headroom := by rw [grown.headroom, grown.msg, fills.headroom]
  nBytes := by
    rw [nBytes, fills.nBytes, sduBytes, sduBytes, sdusOf_snoc_sdu sdu, List.flatMap_append,
      List.length_append, List.flatMap_singleton]
  stands := by
    rwa [sduBytes, sdusOf_snoc_sdu sdu, List.flatMap_append, List.flatMap_singleton]
  room := by
    have room := fills.room
    rw [nBytes]
    omega
  msg := grown.msg.trans fills.msg
  inside := fills.inside

theorem Fills.getTailroom (fills : p.Fills isUl pduLen es) :
    p.buf.getTailroom = maxBufferSizeBytes - p.buf.msg - p.buf.nBytes := by
  have room := fills.room
  have inside := fills.inside
  have msg := fills.msg
  have capacity : maxBufferSizeBytes < 2 ^ 32 := by decide
  unfold ByteBuffer.getTailroom
  omega

theorem Fills.getSduSpace (fills : p.Fills isUl pduLen es) : p.getSduSpace = p.remLen - savedBytes es - 1 := by
  have room := fills.room
  have inside := fills.inside
  have msg := fills.msg
  rw [SchPdu.getSduSpace, fills.lastHeader, fills.getTailroom]
  omega

theorem getSduSpace_withSubh (p : SchPdu) : p.withSubh.getSduSpace = p.getSduSpace := rfl

/-! ## What RLC gives -/

section Rlc

variable {ρ : Type} (readPdu : ρ → Nat → Nat → Option (List UInt8) × ρ)

/-- RLC is asked, again and again, and gives the elements. It may give nothing, or fail, or answer
    with more than it was asked for. -/
inductive Gives : ρ → List MacElement → ρ → Prop where
  | nothing {rlc : ρ} : Gives rlc [] rlc
  | sdu {rlc rlc' last : ρ} {lcid requested : Nat} {bytes : List UInt8} {es : List MacElement}
      (answer : readPdu rlc lcid requested = (some bytes, rlc')) (given : 0 < bytes.length)
      (fits : bytes.length ≤ requested) (later : Gives rlc' es last) : Gives rlc (⟨lcid, bytes⟩ :: es) last
  | refused {rlc rlc' last : ρ} {lcid requested : Nat} {answer : Option (List UInt8)}
      {es : List MacElement} (answered : readPdu rlc lcid requested = (answer, rlc'))
      (useless : ∀ bytes, answer = some bytes → bytes.length = 0 ∨ requested < bytes.length)
      (later : Gives rlc' es last) : Gives rlc es last

variable {readPdu}

theorem Gives.trans {rlc mid last : ρ} {es es' : List MacElement} (first : Gives readPdu rlc es mid)
    (second : Gives readPdu mid es' last) : Gives readPdu rlc (es ++ es') last := by
  induction first with
  | nothing => exact second
  | sdu answer given fits _ ih => exact .sdu answer given fits (ih second)
  | refused answered useless _ ih => exact .refused answered useless (ih second)

/-- A PDU with a new subheader that is taken back. -/
theorem Fills.delSubh (fills : p.Fills isUl pduLen es) (grown : p.Extends q) (remLen : q.remLen = p.remLen)
    (last : q.lastSduIdx = p.lastSduIdx) (nBytes : q.buf.nBytes = p.buf.nBytes)
    (stands : Region.Holds q.buf.buffer p.buf.msg (sduBytes es)) : q.delSubh.Fills isUl pduLen es where
  direction := grown.isUl.trans fills.direction
  length := grown.pduLen.trans fills.length
  slots := grown.slots.trans fills.slots
  few := fills.few
  count := by
    change q.nofSubheaders - 1 = es.length
    rw [grown.count, fills.count, Nat.add_sub_cancel]
  carries := by
    intro i e here
    have old := (List.getElem?_eq_some_iff.mp here).1
    have same := grown.others i (by rw [fills.count]; exact old)
    obtain ⟨subh, found, carries⟩ := fills.carries i e here
    exact ⟨subh, same.trans found, carries⟩
  valid := fills.valid
  last := by
    change LastSdu q.lastSduIdx es
    rw [last]
    exact fills.last
  space := by
    change q.remLen + _ = _
    rw [remLen]
    exact fills.space
  headroom := by
    change q.headroom = q.buf.msg
    rw [grown.headroom, grown.msg, fills.headroom]
  nBytes := nBytes.trans fills.nBytes
  stands := by
    change Region.Holds q.buf.buffer q.buf.msg _
    rw [grown.msg]
    exact stands
  room := by
    change q.remLen + q.buf.nBytes ≤ pduLen
    rw [remLen, nBytes]
    exact fills.room
  msg := grown.msg.trans fills.msg
  inside := fills.inside

theorem extends_new (p : SchPdu) : p.Extends p.withSubh :=
  ⟨rfl, rfl, fun _ _ => rfl, rfl, rfl, rfl, rfl⟩

theorem Extends.modifyCurrent (grown : p.Extends q) (f : TxSubh → TxSubh) :
    p.Extends (q.modifyCurrent f) where
  slots := (List.length_modify ..).trans grown.slots
  count := grown.count
  others := by
    intro i old
    refine (List.getElem?_modify_ne _ _ ?_).trans (grown.others i old)
    rw [grown.count]
    omega
  isUl := grown.isUl
  pduLen := grown.pduLen
  headroom := grown.headroom
  msg := grown.msg

theorem Extends.putSdu (grown : p.Extends q) (bytes : List UInt8) : p.Extends (q.putSdu bytes) :=
  ⟨grown.slots, grown.count, grown.others, grown.isUl, grown.pduLen, grown.headroom, grown.msg⟩

/-- What RLC writes is behind the SDUs. -/
theorem Fills.stands_putSdu (fills : p.Fills isUl pduLen es) (bytes : List UInt8) :
    Region.Holds (p.putSdu bytes).buf.buffer p.buf.msg (sduBytes es ++ bytes) := by
  rw [Region.holds_append]
  have place : p.buf.msg + (sduBytes es).length = p.buf.msg + p.buf.nBytes := by rw [fills.nBytes]
  refine ⟨fills.stands.write (.inl (le_of_eq place)), ?_⟩
  rw [place]
  exact Region.holds_write

theorem Fills.lastHeader_grown (fills : p.Fills isUl pduLen es) (grown : p.Extends q)
    (last : q.lastSduIdx = p.lastSduIdx) : q.lastHeader = savedBytes es := by
  rw [← fills.lastHeader]
  unfold SchPdu.lastHeader
  rw [last]
  cases index : p.lastSduIdx with
  | none => rfl
  | some i =>
      have place := fills.last
      rw [index] at place
      obtain ⟨-, e, here, -, -⟩ := place.ends
      have old := (fills.subheader here).1
      dsimp only
      rw [List.getD_eq_getElem?_getD, List.getD_eq_getElem?_getD, grown.others i (by rwa [fills.count])]

/-- The PDU when the bytes of an SDU are in the buffer and on the new subheader. -/
def withSdu (p : SchPdu) (lcid : Nat) (bytes : List UInt8) : SchPdu :=
  ((p.withSubh.modifyCurrent fun subh => { subh with lcid }).putSdu bytes).modifyCurrent fun subh =>
    { subh with nofBytes := bytes.length }

theorem extends_withSdu (p : SchPdu) (lcid : Nat) (bytes : List UInt8) : p.Extends (p.withSdu lcid bytes) :=
  (((extends_new p).modifyCurrent _).putSdu _).modifyCurrent _

theorem Fills.withSdu_current (fills : p.Fills isUl pduLen es) (free : es.length + 1 < maxSubheaders) (lcid : Nat)
    (bytes : List UInt8) :
    ∃ subh : TxSubh, (p.withSdu lcid bytes).subheaders[p.nofSubheaders]? = some subh ∧
      subh.lcid = lcid ∧ subh.nofBytes = bytes.length := by
  have inside : p.nofSubheaders < p.subheaders.length := by
    rw [fills.slots, fills.count]
    omega
  refine ⟨{ p.subheaders[p.nofSubheaders] with lcid, nofBytes := bytes.length }, ?_, rfl, rfl⟩
  change ((p.subheaders.modify (p.nofSubheaders + 1 - 1) _).modify (p.nofSubheaders + 1 - 1) _)[_]? = _
  rw [Nat.add_sub_cancel, List.getElem?_modify_eq, List.getElem?_modify_eq,
    List.getElem?_eq_getElem inside]
  rfl

/-- An SDU that RLC gives is put behind the others. -/
theorem Fills.setSdu_gives (fills : p.Fills isUl pduLen es) (free : es.length + 1 < maxSubheaders) {rlc rlc' : ρ}
    {lcid requested : Nat} {bytes : List UInt8} (isSdu : lcid ≤ 17)
    (space : requested ≤ p.getSduSpace) (answer : readPdu rlc lcid requested = (some bytes, rlc'))
    (given : 0 < bytes.length) (fits : bytes.length ≤ requested) :
    ∃ q : SchPdu, q.Fills isUl pduLen (es ++ [⟨lcid, bytes⟩]) ∧
      p.withSubh.setSdu readPdu lcid requested rlc =
        ((bytes.length : Int), q, rlc') := by
  have grown := p.extends_withSdu lcid bytes
  have header : (p.withSdu lcid bytes).lastHeader = savedBytes es := fills.lastHeader_grown grown rfl
  have remaining := fills.getSduSpace
  have same : (p.withSdu lcid bytes).getSduSpace = p.getSduSpace := by
    rw [SchPdu.getSduSpace, SchPdu.getSduSpace, header, fills.lastHeader]
    rfl
  have enough : bytes.length ≤ (p.withSdu lcid bytes).getSduSpace := by
    rw [same]
    exact fits.trans space
  have isElement : (⟨lcid, bytes⟩ : MacElement).isSdu = true := decide_eq_true isSdu
  have capacity : maxBufferSizeBytes < 2 ^ 15 := by decide
  obtain ⟨subh, current, named, sized⟩ := fills.withSdu_current free lcid bytes
  have room := fills.room
  have inside := fills.inside
  refine ⟨((p.withSdu lcid bytes).updateSpaceSdu bytes.length).addSdu bytes.length, ?_, ?_⟩
  · rw [updateSpaceSdu, if_pos enough, header]
    refine fills.snoc_sdu
      ⟨grown.slots, grown.count, grown.others, grown.isUl, grown.pduLen, grown.headroom, grown.msg⟩
      free current ⟨named, sized, ?_⟩ ⟨?_, ?_, ?_⟩ isElement ?_ rfl rfl (fills.stands_putSdu bytes)
    · intro ce
      rw [isElement] at ce
      cases ce
    · exact lt_of_le_of_lt isSdu (by decide)
    · intro _
      refine ⟨given, ?_⟩
      change bytes.length < 2 ^ 15
      omega
    · intro ce
      rw [isElement] at ce
      cases ce
    · change p.remLen - (bytes.length + 1 + savedBytes es) + (bytes.length + 1 + savedBytes es) = p.remLen
      omega
  · have some : bytes.length ≠ 0 := Nat.ne_of_gt given
    rw [SchPdu.setSdu, getSduSpace_withSubh, if_pos space, answer]
    dsimp only
    rw [if_neg some, if_neg (not_lt.mpr fits)]
    rfl

/-- Otherwise the subheader is taken back. -/
theorem Fills.setSdu_refused (fills : p.Fills isUl pduLen es) {rlc rlc' : ρ} {lcid requested : Nat}
    {answer : Option (List UInt8)} (answered : readPdu rlc lcid requested = (answer, rlc'))
    (useless : ∀ bytes, answer = some bytes → bytes.length = 0 ∨ requested < bytes.length)
    (space : requested ≤ p.getSduSpace) :
    ∃ (n : Int) (q : SchPdu), n ≤ 0 ∧ q.delSubh.Fills isUl pduLen es ∧
      p.withSubh.setSdu readPdu lcid requested rlc =
        (n, q, rlc') := by
  have named := (extends_new p).modifyCurrent fun subh => { subh with lcid }
  have stands := fun bytes => (Region.holds_append.mp (fills.stands_putSdu bytes)).1
  rw [SchPdu.setSdu, getSduSpace_withSubh, if_pos space, answered]
  cases answer with
  | none => exact ⟨-1, _, by decide, fills.delSubh named rfl rfl rfl fills.stands, rfl⟩
  | some bytes =>
      dsimp only
      by_cases empty : bytes.length = 0
      · rw [if_pos empty]
        exact ⟨0, _, le_rfl, fills.delSubh (named.putSdu bytes) rfl rfl rfl (stands bytes), rfl⟩
      · have long := (useless bytes rfl).resolve_left empty
        rw [if_neg empty, if_pos long]
        exact ⟨-1, _, by decide,
          fills.delSubh ((named.putSdu bytes).modifyCurrent _) rfl rfl rfl (stands bytes), rfl⟩

variable (readPdu) in
/-- One turn of the loop: it ends, or RLC gave an SDU. -/
theorem Fills.allocateSdu_turn (fills : p.Fills isUl pduLen es) (rlc : ρ) {lcid : Nat} (sduLen fuel : Nat)
    (isSdu : lcid ≤ 17) :
    (∃ (q : SchPdu) (rlc' : ρ), q.Fills isUl pduLen es ∧ Gives readPdu rlc [] rlc' ∧
        p.allocateSduLoop readPdu (fuel + 1) lcid sduLen rlc = (q, rlc')) ∨
      ∃ (q : SchPdu) (rlc' : ρ) (bytes : List UInt8), q.Fills isUl pduLen (es ++ [⟨lcid, bytes⟩]) ∧
        readPdu rlc lcid sduLen = (some bytes, rlc') ∧ 0 < bytes.length ∧ bytes.length ≤ sduLen ∧
        p.allocateSduLoop readPdu (fuel + 1) lcid sduLen rlc =
          q.allocateSduLoop readPdu fuel lcid (sduLen - bytes.length) rlc' := by
  rw [allocateSduLoop]
  split
  · cases new : p.newSubh with
    | none => exact .inl ⟨p, rlc, fills, .nothing, rfl⟩
    | some q =>
        obtain ⟨few, -, rfl⟩ := newSubh_some new
        have free : es.length + 1 < maxSubheaders := by
          rw [fills.count] at few
          omega
        dsimp only
        by_cases space : sduLen ≤ p.getSduSpace
        · cases answered : readPdu rlc lcid sduLen with
          | mk answer rlc' =>
              by_cases useful : ∃ bytes, answer = some bytes ∧ 0 < bytes.length ∧ bytes.length ≤ sduLen
              · obtain ⟨bytes, rfl, given, fits⟩ := useful
                obtain ⟨q, filled, set⟩ := fills.setSdu_gives free isSdu space answered given fits
                have positive : (bytes.length : Int) > 0 := by omega
                refine .inr ⟨q, rlc', bytes, filled, rfl, given, fits, ?_⟩
                rw [set]
                dsimp only
                rw [if_pos positive, Int.toNat_natCast]
              · have useless : ∀ bytes, answer = some bytes → bytes.length = 0 ∨ sduLen < bytes.length := by
                  intro bytes is
                  by_contra neither
                  rw [not_or] at neither
                  exact useful ⟨bytes, is, Nat.pos_of_ne_zero neither.1, not_lt.mp neither.2⟩
                obtain ⟨n, q, negative, filled, set⟩ := fills.setSdu_refused answered useless space
                refine .inl ⟨q.delSubh, rlc', filled, .refused answered useless .nothing, ?_⟩
                rw [set]
                dsimp only
                rw [if_neg (not_lt.mpr negative)]
        · refine .inl ⟨p.withSubh.delSubh, rlc,
            fills.delSubh (extends_new p) rfl rfl rfl fills.stands, .nothing, ?_⟩
          rw [SchPdu.setSdu, getSduSpace_withSubh, if_neg space]
          rfl
  · exact .inl ⟨p, rlc, fills, .nothing, rfl⟩

variable (readPdu) in
/-- What RLC gives for a logical channel is behind the elements that were there. -/
theorem Fills.allocateSduLoop (fills : p.Fills isUl pduLen es) (rlc : ρ) {lcid : Nat} (sduLen fuel : Nat)
    (isSdu : lcid ≤ 17) :
    ∃ (q : SchPdu) (rlc' : ρ) (sdus : List MacElement), q.Fills isUl pduLen (es ++ sdus) ∧ Gives readPdu rlc sdus rlc' ∧
      (∀ e ∈ sdus, e.lcid = lcid) ∧ p.allocateSduLoop readPdu fuel lcid sduLen rlc = (q, rlc') := by
  induction fuel generalizing p es rlc sduLen with
  | zero => exact ⟨p, rlc, [], by rwa [List.append_nil], .nothing, by simp, rfl⟩
  | succ fuel ih =>
      rcases fills.allocateSdu_turn readPdu rlc sduLen fuel isSdu with
        ⟨q, rlc', filled, gives, ends⟩ | ⟨q, rlc', bytes, filled, answer, given, fits, goes⟩
      · exact ⟨q, rlc', [], by rwa [List.append_nil], gives, by simp, ends⟩
      · obtain ⟨q', last, sdus, later, gives, same, ends⟩ := ih filled rlc' (sduLen - bytes.length)
        refine ⟨q', last, ⟨lcid, bytes⟩ :: sdus, ?_, .sdu answer given fits gives, ?_, goes.trans ends⟩
        · rwa [List.append_assoc] at later
        · exact List.forall_mem_cons.mpr ⟨rfl, same⟩

variable (readPdu) in
theorem Fills.allocateSdu (fills : p.Fills isUl pduLen es) (rlc : ρ) {lcid : Nat} (totalSduLen : Nat)
    (isSdu : lcid ≤ 17) :
    ∃ (q : SchPdu) (rlc' : ρ) (sdus : List MacElement), q.Fills isUl pduLen (es ++ sdus) ∧
      Gives readPdu rlc sdus rlc' ∧ (∀ e ∈ sdus, e.lcid = lcid) ∧
      p.allocateSdu readPdu lcid totalSduLen rlc = (q, rlc') :=
  fills.allocateSduLoop readPdu rlc _ _ isSdu

end Rlc

/-! ## Control elements -/

/-- The element of `set_con_res_id`. -/
def conResElement (conResId : Nat) : MacElement := ⟨DlSchLcid.conResId.code, conResIdBytes conResId⟩

theorem newSubh_eq (fills : p.Fills isUl pduLen es) (free : es.length + 1 < maxSubheaders)
    (some : 0 < p.remLen) :
    p.toTxPdu.newSubh = .some { p.toTxPdu with nofSubheaders := p.nofSubheaders + 1 } := by
  have few : p.nofSubheaders < maxSubheaders - 1 := by
    rw [fills.count]
    omega
  have headroom : 1 < p.headroom := by
    rw [fills.headroom, fills.msg]
    decide
  exact if_pos ⟨few, some, headroom⟩

theorem allocateCe_eq (fills : p.Fills isUl pduLen es) (ue : Ue) (free : es.length + 1 < maxSubheaders)
    (space : 7 ≤ p.remLen) :
    p.allocateCe ue DlSchLcid.conResId.code =
      { p with
        remLen := p.remLen - 7
        nofSubheaders := p.nofSubheaders + 1
        subheaders := p.subheaders.modify p.nofSubheaders fun subh =>
          { lcid := DlSchLcid.conResId.code
            nofBytes := 6
            wPayloadCe := conResIdBytes ue.conresId ++ subh.wPayloadCe.drop 6 } } := by
  have enough : p.remLen ≥ 6 + 1 := space
  simp only [SchPdu.allocateCe, Ue.allocateCe, newSubh_eq fills free (by omega), if_true,
    TxPdu.setConResId, TxPdu.hasSpaceCe, enough, decide_true, Nat.add_sub_cancel]

/-- A contention resolution element that fits is put behind the others. -/
theorem Fills.allocateCe (fills : p.Fills false pduLen es) (ue : Ue)
    (free : es.length + 1 < maxSubheaders) (space : 7 ≤ p.remLen) :
    (p.allocateCe ue DlSchLcid.conResId.code).Fills false pduLen (es ++ [conResElement ue.conresId]) ∧
      (p.allocateCe ue DlSchLcid.conResId.code).remLen + 7 = p.remLen := by
  have inside : p.nofSubheaders < p.subheaders.length := by
    rw [fills.slots, fills.count]
    omega
  have size : (conResIdBytes ue.conresId).length = 6 := rfl
  rw [allocateCe_eq fills ue free space]
  have current := (List.getElem?_modify_eq (fun subh : TxSubh =>
      { lcid := DlSchLcid.conResId.code
        nofBytes := 6
        wPayloadCe := conResIdBytes ue.conresId ++ subh.wPayloadCe.drop 6 }) p.nofSubheaders p.subheaders).trans
    (congrArg _ (List.getElem?_eq_getElem inside))
  refine ⟨fills.snoc_ce ⟨List.length_modify .., rfl, fun _ old => List.getElem?_modify_ne _ _ (Nat.ne_of_gt old),
    rfl, rfl, rfl, rfl⟩ free current ⟨rfl, size.symm, fun _ => List.take_left' rfl⟩
    ⟨(by decide : DlSchLcid.conResId.code < DlSchLcid.padding.code), fun sdu => ?_, fun _ => size⟩ rfl ?_ rfl rfl, Nat.sub_add_cancel space⟩
  · cases sdu
  · exact Nat.sub_add_cancel space

/-- An element without bytes that is no contention resolution adds nothing. -/
theorem allocateSdu_zero {ρ : Type} (readPdu : ρ → Nat → Nat → Option (List UInt8) × ρ) (p : SchPdu)
    (lcid : Nat) (rlc : ρ) : p.allocateSdu readPdu lcid 0 rlc = (p, rlc) := by
  rw [SchPdu.allocateSdu, Nat.zero_min]
  rfl

end SchPdu

namespace Ue

open SchPdu

variable {ρ : Type} {readPdu : ρ → Nat → Nat → Option (List UInt8) × ρ} {p : SchPdu} {pduLen : Nat}
  {es : List MacElement}

theorem allocateAll_append (ue : Ue) (first second : List DlSchedPdu) (p : SchPdu) (rlc : ρ) :
    ue.allocateAll readPdu (first ++ second) p rlc =
      ue.allocateAll readPdu second (ue.allocateAll readPdu first p rlc).1
        (ue.allocateAll readPdu first p rlc).2 := by
  induction first generalizing p rlc with
  | nil => rfl
  | cons elem rest ih =>
      rw [List.cons_append, allocateAll, allocateAll]
      split
      · exact ih _ _
      · exact ih _ _

variable (readPdu) in
/-- The control elements of a block, of which the PDU gets the contention resolutions. -/
theorem allocateAll_ces (ue : Ue) (ces : List DlSchLcid) (fills : p.Fills false pduLen es)
    (free : es.length + ces.count .conResId < maxSubheaders)
    (space : 7 * ces.count .conResId ≤ p.remLen) (rlc : ρ) :
    ∃ q : SchPdu,
      q.Fills false pduLen (es ++ List.replicate (ces.count .conResId) (conResElement ue.conresId)) ∧
      ue.allocateAll readPdu (ces.map fun ce => ⟨ce.code, 0⟩) p rlc = (q, rlc) := by
  induction ces generalizing p es with
  | nil => exact ⟨p, by simpa using fills, rfl⟩
  | cons ce rest ih =>
      by_cases conRes : ce = .conResId
      · subst conRes
        rw [List.count_cons_self] at free space
        obtain ⟨filled, less⟩ := fills.allocateCe ue (by omega) (by omega)
        obtain ⟨q, later, goes⟩ := ih filled (by rw [List.length_append, List.length_singleton]; omega)
          (by omega)
        refine ⟨q, ?_, goes⟩
        rwa [List.count_cons_self, List.replicate_succ, List.append_cons]
      · rw [List.count_cons_of_ne conRes] at free space ⊢
        obtain ⟨q, later, goes⟩ := ih fills free space
        refine ⟨q, later, ?_⟩
        have same : ue.allocateAll readPdu ((ce :: rest).map fun ce => ⟨ce.code, 0⟩) p rlc =
            ue.allocateAll readPdu (rest.map fun ce => ⟨ce.code, 0⟩) p rlc := by
          rw [List.map_cons, allocateAll]
          split
          · rw [allocateSdu_zero]
          · have other : ce.code ≠ DlSchLcid.conResId.code := by
              cases ce <;> first | decide | exact absurd rfl conRes
            rw [SchPdu.allocateCe, Ue.allocateCe, if_neg other]
        exact same.trans goes

variable (readPdu) in
/-- The SDUs of a block: what RLC gives is in the PDU. -/
theorem allocateAll_sdus (ue : Ue) {sdus : List DlSchedPdu} (isSdu : ∀ elem ∈ sdus, elem.lcid ≤ 17)
    (fills : p.Fills false pduLen es) (rlc : ρ) :
    ∃ (q : SchPdu) (rlc' : ρ) (given : List MacElement), q.Fills false pduLen (es ++ given) ∧
      Gives readPdu rlc given rlc' ∧ (∀ e ∈ given, e.isSdu = true) ∧
      ue.allocateAll readPdu sdus p rlc = (q, rlc') := by
  induction sdus generalizing p es rlc with
  | nil => exact ⟨p, rlc, [], by rwa [List.append_nil], .nothing, by simp, rfl⟩
  | cons elem rest ih =>
      obtain ⟨here, later⟩ := List.forall_mem_cons.mp isSdu
      obtain ⟨q, rlc', first, filled, gives, channel, goes⟩ := fills.allocateSdu readPdu rlc elem.nbytes here
      obtain ⟨q', last, second, filled', gives', isSdu', goes'⟩ := ih later filled rlc'
      refine ⟨q', last, first ++ second, by rwa [← List.append_assoc], gives.trans gives', ?_, ?_⟩
      · intro e member
        rcases List.mem_append.mp member with old | new
        · exact decide_eq_true (by rwa [channel e old])
        · exact isSdu' e new
      · rw [allocateAll, if_pos (by omega), goes]
        exact goes'

end Ue

end SonicaEnb
