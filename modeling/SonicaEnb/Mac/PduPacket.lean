import Mathlib.Algebra.BigOperators.Group.List.Basic
import SonicaEnb.Mac.PduFill

/-! # The packet of a PDU

`write_packet` finds the last subheader by its place among all of them, and counts
the header before it writes it. What it writes is a chain: every subheader but the
last one says that another one follows. The count is right, and with the padding the
packet has the length that was asked for.
-/

namespace SonicaEnb

namespace MacElement

/-- What a subheader says of an element. -/
def subh (e : MacElement) : TxSubh := { lcid := e.lcid, nofBytes := e.bytes.length, wPayloadCe := [] }

/-- The subheader that is not the last one. -/
def headerSize (e : MacElement) : Nat := if e.isSdu then sizeHeaderSdu e.bytes.length else 1

theorem getHeaderSize_false (e : MacElement) : e.subh.getHeaderSize false = e.headerSize := rfl

theorem headerSize_ce {e : MacElement} (ce : e.isSdu = false) (isLast : Bool) :
    e.subh.getHeaderSize isLast = e.headerSize := by
  have notSdu : e.subh.isSdu = false := ce
  rw [headerSize, ce, TxSubh.getHeaderSize, notSdu, Bool.and_false]
  rfl

end MacElement

/-- The subheader without its control element. -/
def TxSubh.bare (subh : TxSubh) : TxSubh := { subh with wPayloadCe := [] }

theorem TxSubh.writeSubheader_length (subh : TxSubh) (isLast : Bool) :
    (subh.writeSubheader isLast).length = subh.getHeaderSize isLast := by
  unfold TxSubh.writeSubheader TxSubh.getHeaderSize sizeHeaderSdu
  cases isLast <;> cases subh.isSdu <;> simp
  split <;> split <;> first | rfl | omega

/-- A header in which every subheader but the last one says that another one follows. -/
def writeChain : List TxSubh → List UInt8
  | [] => []
  | [subh] => subh.writeSubheader true
  | subh :: rest => subh.writeSubheader false ++ writeChain rest

theorem writeChain_snoc (front : List TxSubh) (last : TxSubh) :
    writeChain (front ++ [last]) = front.flatMap (fun subh => subh.writeSubheader false) ++ last.writeSubheader true := by
  induction front with
  | nil => rfl
  | cons subh rest ih =>
      have more : ∃ next later, rest ++ [last] = next :: later := List.exists_cons_of_ne_nil (by simp)
      obtain ⟨next, later, shape⟩ := more
      rw [List.cons_append, List.flatMap_cons, List.append_assoc, ← ih, shape]
      rfl

/-! ## Places and orders -/

section Places

variable {es : List MacElement} {β : Type}

theorem map_zipIdx_fst {α : Type} (l : List α) (k : Nat) (f : α → β) :
    ((l.zipIdx k).map fun s => f s.1) = l.map f := by
  refine Eq.trans ?_ (congrArg (List.map f) (List.zipIdx_map_fst k l))
  rw [List.map_map]
  rfl

theorem filter_zipIdx_fst {α : Type} (l : List α) (k : Nat) (keep : α → Bool) (f : α → β) :
    ((l.zipIdx k).filter fun s => keep s.1).map (fun s => f s.1) = (l.filter keep).map f := by
  induction l generalizing k with
  | nil => rfl
  | cons x rest ih =>
      rw [List.zipIdx_cons, List.filter_cons, List.filter_cons]
      split
      · rw [List.map_cons, List.map_cons, ih]
      · exact ih _

/-- The SDUs with a mark on the last one. -/
theorem LastSdu.marks {i : Nat} (place : LastSdu (some i) es) :
    ∃ front e, sdusOf es = front ++ [e] ∧
      ((es.zipIdx.filter fun s => s.1.isSdu).map fun s => (s.1, some i == some s.2)) =
        front.map (fun e => (e, false)) ++ [(e, true)] := by
  cases place with
  | @present front back e sdu behind =>
      have later : sdusOf back = [] := sdusOf_nil_of behind
      refine ⟨sdusOf front, e, ?_, ?_⟩
      · unfold sdusOf at later ⊢
        rw [List.filter_append, List.filter_cons_of_pos sdu, later]
      · have none : (back.zipIdx (front.length + 1)).filter (fun s => s.1.isSdu) = [] := by
          rw [List.filter_eq_nil_iff]
          intro s member
          rw [behind s.1 (List.fst_mem_of_mem_zipIdx member)]
          decide
        have before : (front.zipIdx.filter fun s => s.1.isSdu).map
            (fun s => (s.1, some front.length == some s.2)) =
              (front.zipIdx.filter fun s => s.1.isSdu).map fun s => (s.1, false) := by
          apply List.map_congr_left
          intro s member
          have small := List.snd_lt_of_mem_zipIdx (List.mem_of_mem_filter member)
          have apart : front.length ≠ s.2 := by omega
          rw [Option.some_beq_some, beq_eq_false_iff_ne.mpr apart]
        have here : ((e, front.length) :: back.zipIdx (front.length + 1)).filter (fun s => s.1.isSdu) =
            [(e, front.length)] := by
          rw [List.filter_cons, none]
          exact if_pos sdu
        rw [List.zipIdx_append, List.zipIdx_cons, List.filter_append, Nat.zero_add, here, List.map_append,
          before, List.map_singleton, beq_self_eq_true,
          filter_zipIdx_fst front 0 MacElement.isSdu fun e => (e, false)]
        rfl

theorem savedBytes_at {e : MacElement} {back : List MacElement} (sdu : e.isSdu = true)
    (behind : ∀ e ∈ back, e.isSdu = false) (front : List MacElement) :
    savedBytes (front ++ e :: back) = sizeHeaderSdu e.bytes.length - 1 := by
  obtain ⟨_, e', here, -, shape⟩ := (LastSdu.present sdu behind : LastSdu (some front.length) _).ends
  rw [List.getElem?_append_right le_rfl, Nat.sub_self, List.getElem?_cons_zero] at here
  cases here
  rw [savedBytes, shape, List.getLast?_append]
  rfl

/-- Whether or not the last SDU is marked, its length field is counted once. -/
theorem headers_sum {last : Option Nat} (place : LastSdu last es) (b : Bool) :
    (es.zipIdx.map fun s => s.1.subh.getHeaderSize (b && last == some s.2)).sum +
      (if b then savedBytes es else 0) = (es.map MacElement.headerSize).sum := by
  cases place with
  | absent noSdu =>
      have saved : savedBytes es = 0 := by rw [savedBytes, sdusOf_nil_of noSdu]; rfl
      have unmarked : (es.zipIdx.map fun s => s.1.subh.getHeaderSize (b && none == some s.2)) =
          es.zipIdx.map fun s => s.1.headerSize := by
        apply List.map_congr_left
        intro s member
        exact MacElement.headerSize_ce (noSdu s.1 (List.fst_mem_of_mem_zipIdx member)) _
      rw [unmarked, map_zipIdx_fst, saved, ite_self, Nat.add_zero]
  | @present front back e sdu behind =>
      have saved := savedBytes_at sdu behind front
      have before : (front.zipIdx.map fun s => s.1.subh.getHeaderSize (b && some front.length == some s.2)) =
          front.map MacElement.headerSize := by
        refine Eq.trans ?_ (map_zipIdx_fst front 0 MacElement.headerSize)
        apply List.map_congr_left
        intro s member
        have small := List.snd_lt_of_mem_zipIdx member
        have apart : front.length ≠ s.2 := by omega
        rw [Option.some_beq_some, beq_eq_false_iff_ne.mpr apart, Bool.and_false]
        rfl
      have after : ((back.zipIdx (front.length + 1)).map fun s =>
          s.1.subh.getHeaderSize (b && some front.length == some s.2)) = back.map MacElement.headerSize := by
        refine Eq.trans ?_ (map_zipIdx_fst back (front.length + 1) MacElement.headerSize)
        apply List.map_congr_left
        intro s member
        exact MacElement.headerSize_ce (behind s.1 (List.fst_mem_of_mem_zipIdx member)) _
      have here : e.subh.getHeaderSize (b && some front.length == some front.length) +
          (if b then sizeHeaderSdu e.bytes.length - 1 else 0) = e.headerSize := by
        have isSdu : e.subh.isSdu = true := sdu
        have size : sizeHeaderSdu e.bytes.length = 2 ∨ sizeHeaderSdu e.bytes.length = 3 := by
          unfold sizeHeaderSdu
          split
          · exact .inl rfl
          · exact .inr rfl
        rw [MacElement.headerSize, if_pos sdu, TxSubh.getHeaderSize, isSdu, beq_self_eq_true]
        cases b with
        | false => rfl
        | true =>
            change 1 + (sizeHeaderSdu e.bytes.length - 1) = sizeHeaderSdu e.bytes.length
            omega
      rw [saved, List.zipIdx_append, List.zipIdx_cons, Nat.zero_add, List.map_append, List.map_cons,
        List.sum_append, List.sum_cons, before, after, List.map_append, List.map_cons, List.sum_append,
        List.sum_cons]
      dsimp only
      omega

end Places

/-! ## The header that is written -/

/-- The subheaders in the order of the packet. -/
def writtenOrder (onetwo : Nat) (es : List MacElement) (multibyte : Option Nat) : List TxSubh :=
  List.replicate onetwo (.padding 0) ++ (cesOf es).map MacElement.subh ++ (sdusOf es).map MacElement.subh ++
    (multibyte.map TxSubh.padding).toList

namespace SchPdu

variable {p : SchPdu} {isUl : Bool} {pduLen : Nat} {es : List MacElement}

theorem Fills.forall₂ (fills : p.Fills isUl pduLen es) : List.Forall₂ TxSubh.Carries p.used es := by
  have size : p.used.length = es.length := by
    have few := fills.few
    rw [used, List.length_take, fills.count, fills.slots]
    omega
  rw [List.forall₂_iff_get]
  refine ⟨size, fun i inside there => ?_⟩
  obtain ⟨subh, found, carries⟩ := fills.carries i (es.get ⟨i, there⟩) (List.getElem?_eq_getElem there)
  have taken : p.used[i]? = some subh := by
    rw [used, List.getElem?_take, if_pos (by rw [fills.count]; exact there), found]
  have same : p.used.get ⟨i, inside⟩ = subh := by
    rw [List.getElem?_eq_getElem inside] at taken
    exact Option.some.inj taken
  rwa [same]

theorem bare_of_carries {us : List TxSubh} (same : List.Forall₂ TxSubh.Carries us es) :
    us.map TxSubh.bare = es.map MacElement.subh := by
  induction same with
  | nil => rfl
  | cons carries _ ih =>
      rw [List.map_cons, List.map_cons, ih, TxSubh.bare, carries.lcid, carries.nofBytes]
      rfl

theorem payloads_of_carries {us : List TxSubh} (same : List.Forall₂ TxSubh.Carries us es)
    (valid : ∀ e ∈ es, e.Valid isUl) :
    (us.filter fun subh => !subh.isSdu).flatMap (fun subh => subh.writePayload isUl) =
      (cesOf es).flatMap MacElement.bytes := by
  induction same with
  | nil => rfl
  | @cons subh e _ _ carries _ ih =>
      obtain ⟨here, later⟩ := List.forall_mem_cons.mp valid
      have kind : subh.isSdu = e.isSdu := congrArg isSduLcid carries.lcid
      unfold cesOf at ih ⊢
      rw [List.filter_cons, List.filter_cons, kind]
      cases sdu : e.isSdu with
      | true => exact ih later
      | false =>
          have payload : subh.writePayload isUl = e.bytes := by
            rw [TxSubh.writePayload, carries.lcid, ← here.element sdu, carries.element sdu]
          rw [if_pos (by rfl), if_pos (by rfl), List.flatMap_cons, List.flatMap_cons, payload, ih later]

/-- The subheaders in use with their places. -/
theorem Fills.zipIdx (fills : p.Fills isUl pduLen es) :
    (p.used.zipIdx.map fun s => (s.1.bare, s.2)) = es.zipIdx.map fun s => (s.1.subh, s.2) := by
  have same := congrArg List.zipIdx (bare_of_carries fills.forall₂)
  rwa [List.zipIdx_map, List.zipIdx_map] at same

theorem Fills.headers (fills : p.Fills isUl pduLen es) (flag : Nat → Bool) :
    (p.used.zipIdx.map fun s => s.1.getHeaderSize (flag s.2)) =
      es.zipIdx.map fun s => s.1.subh.getHeaderSize (flag s.2) := by
  have same := congrArg (List.map fun s : TxSubh × Nat => s.1.getHeaderSize (flag s.2)) fills.zipIdx
  rwa [List.map_map, List.map_map] at same

theorem Fills.subheaders (fills : p.Fills isUl pduLen es) (keep : Nat → Bool) (flag : Nat → Bool) :
    (p.used.zipIdx.filter fun s => keep s.1.lcid).flatMap (fun s => s.1.writeSubheader (flag s.2)) =
      (es.zipIdx.filter fun s => keep s.1.lcid).flatMap fun s => s.1.subh.writeSubheader (flag s.2) := by
  have same := congrArg (fun l : List (TxSubh × Nat) =>
    (l.filter fun s => keep s.1.lcid).flatMap fun s => s.1.writeSubheader (flag s.2)) fills.zipIdx
  rwa [List.filter_map, List.filter_map, List.flatMap_map, List.flatMap_map] at same

/-- Subheaders of one kind that all say the same of what follows. -/
theorem kind_flat (es : List MacElement) (k : Nat) (keep : Nat → Bool) (isLast : Bool) :
    ((es.zipIdx k).filter fun s => keep s.1.lcid).flatMap (fun s => s.1.subh.writeSubheader isLast) =
      ((es.filter fun e => keep e.lcid).map MacElement.subh).flatMap fun subh => subh.writeSubheader isLast := by
  have same := filter_zipIdx_fst es k (fun e => keep e.lcid) fun e => e.subh.writeSubheader isLast
  rw [List.flatMap_map, List.flatMap_def, same, List.flatMap_def]

theorem savedBytes_lt {last : Option Nat} (place : LastSdu last es) (nonempty : es ≠ []) :
    savedBytes es < (es.map MacElement.size).sum := by
  cases place with
  | absent noSdu =>
      obtain ⟨e, rest, rfl⟩ := List.exists_cons_of_ne_nil nonempty
      have ce := noSdu e List.mem_cons_self
      rw [savedBytes, sdusOf_nil_of noSdu, List.map_cons, List.sum_cons, MacElement.size, ce]
      change 0 < 1 + _ + _
      omega
  | @present front back e sdu behind =>
      have saved := savedBytes_at sdu behind front
      have more : 2 ≤ sizeHeaderSdu e.bytes.length := by
        unfold sizeHeaderSdu
        split <;> omega
      rw [saved, List.map_append, List.map_cons, List.sum_append, List.sum_cons, MacElement.size, if_pos sdu]
      omega

theorem flatten_padding (n : Nat) (isLast : Bool) :
    (List.replicate n ((TxSubh.padding 0).writeSubheader isLast)).flatten =
      (List.replicate n (TxSubh.padding 0)).flatMap fun subh => subh.writeSubheader isLast := by
  rw [List.flatMap_def, List.map_replicate]

theorem Fills.flat_ces (fills : p.Fills isUl pduLen es) :
    (p.used.zipIdx.filter fun s => !s.1.isSdu).flatMap (fun s => s.1.writeSubheader false) =
      ((cesOf es).map MacElement.subh).flatMap fun subh => subh.writeSubheader false :=
  (fills.subheaders (fun lcid => !isSduLcid lcid) fun _ => false).trans
    (kind_flat es 0 (fun lcid => !isSduLcid lcid) false)

/-- Behind the subheaders of all elements follows the padding. -/
theorem Fills.header_multibyte (fills : p.Fills isUl pduLen es) (multibyte : p.multibytePadding = true) :
    p.header = writeChain (writtenOrder 0 es (some p.numPadding)) ++ (cesOf es).flatMap MacElement.bytes := by
  have payloads := payloads_of_carries fills.forall₂ fills.valid
  have sdus : (if p.lastSduIdx.isNone then []
      else (p.used.zipIdx.filter fun s => s.1.isSdu).flatMap fun s => s.1.writeSubheader false) =
      ((sdusOf es).map MacElement.subh).flatMap fun subh => subh.writeSubheader false := by
    have place := fills.last
    cases last : p.lastSduIdx with
    | none =>
        rw [last] at place
        cases place with
        | absent noSdu => rw [sdusOf_nil_of noSdu]; rfl
    | some i =>
        exact (fills.subheaders (fun lcid => isSduLcid lcid) fun _ => false).trans
          (kind_flat es 0 (fun lcid => isSduLcid lcid) false)
  have none : p.onetwoPadding = 0 := if_pos multibyte
  simp only [SchPdu.header, isLastSdu, none, multibyte, Bool.not_true, Bool.and_false, Bool.false_and,
    if_true, fills.flat_ces, sdus, fills.direction, payloads]
  rw [writtenOrder, Option.map_some, Option.toList_some, writeChain_snoc, List.flatMap_append,
    List.flatMap_append]
  rfl

/-- Padding subheaders in front say that another one follows as soon as one does. -/
theorem Fills.longer (fills : p.Fills isUl pduLen es) (nonempty : es ≠ []) : p.remLen < p.pduLen := by
  have space := fills.space
  have used := savedBytes_lt fills.last nonempty
  have length := fills.length
  omega

/-- An SDU ends the header. -/
theorem Fills.header_sdu (fills : p.Fills isUl pduLen es) (short : p.multibytePadding = false) {i : Nat}
    (last : p.lastSduIdx = some i) :
    p.header = writeChain (writtenOrder p.remLen es none) ++ (cesOf es).flatMap MacElement.bytes := by
  have payloads := payloads_of_carries fills.forall₂ fills.valid
  have place := fills.last
  rw [last] at place
  obtain ⟨front, e, shape, marked⟩ := place.marks
  have nonempty : es ≠ [] := by
    rintro rfl
    cases front <;> cases shape
  have onetwo : p.onetwoPadding = p.remLen := by rw [onetwoPadding, short]; rfl
  have sdus : (p.used.zipIdx.filter fun s => s.1.isSdu).flatMap
      (fun s => s.1.writeSubheader (some i == some s.2)) =
        (front.map MacElement.subh).flatMap (fun subh => subh.writeSubheader false) ++
          e.subh.writeSubheader true := by
    refine (fills.subheaders (fun lcid => isSduLcid lcid) fun k => some i == some k).trans ?_
    have same := congrArg (List.flatMap fun s : MacElement × Bool => s.1.subh.writeSubheader s.2) marked
    rw [List.flatMap_map, List.flatMap_append, List.flatMap_map, List.flatMap_singleton] at same
    rw [List.flatMap_map]
    exact same
  simp only [SchPdu.header, isLastSdu, onetwo, short, last, Option.isNone_some, Bool.not_false,
    Bool.false_and, Bool.true_and, decide_eq_true (fills.longer nonempty), Bool.not_true, flatten_padding,
    fills.flat_ces, sdus, fills.direction, payloads, gt_iff_lt, Bool.false_eq_true, if_false, List.append_nil]
  have order : writtenOrder p.remLen es none =
      (List.replicate p.remLen (.padding 0) ++ (cesOf es).map MacElement.subh ++ front.map MacElement.subh) ++
        [e.subh] := by
    rw [writtenOrder, shape, List.map_append, List.append_assoc _ _ [e.subh]]
    exact List.append_nil _
  rw [order, writeChain_snoc, List.flatMap_append, List.flatMap_append]
  simp only [List.append_assoc]

/-- Without an SDU a control element ends the header. -/
theorem Fills.header_ces (fills : p.Fills isUl pduLen es) (short : p.multibytePadding = false)
    (last : p.lastSduIdx = none) (nonempty : es ≠ []) :
    p.header = writeChain (writtenOrder p.remLen es none) ++ (cesOf es).flatMap MacElement.bytes := by
  have payloads := payloads_of_carries fills.forall₂ fills.valid
  have place := fills.last
  rw [last] at place
  cases place with
  | absent noSdu =>
      have onetwo : p.onetwoPadding = p.remLen := by rw [onetwoPadding, short]; rfl
      have longer := fills.longer nonempty
      obtain ⟨front, e, rfl⟩ := (List.eq_nil_or_concat es).resolve_left nonempty
      rw [List.concat_eq_append] at fills noSdu payloads ⊢
      have all : ∀ l : List MacElement, (∀ e ∈ l, e.isSdu = false) → cesOf l = l := by
        intro l noSdu
        rw [cesOf, List.filter_eq_self]
        intro e member
        rw [noSdu e member]
        rfl
      have before : ∀ e ∈ front, e.isSdu = false := fun e member => noSdu e (List.mem_append_left _ member)
      have count : p.nofSubheaders = front.length + 1 := by
        rw [fills.count, List.length_append, List.length_singleton]
      have unmarked : (front.zipIdx.filter fun s => !isSduLcid s.1.lcid).flatMap
          (fun s => s.1.subh.writeSubheader (s.2 + 1 == p.nofSubheaders)) =
            (front.map MacElement.subh).flatMap fun subh => subh.writeSubheader false := by
        have same := kind_flat front 0 (fun lcid => !isSduLcid lcid) false
        rw [show (front.filter fun e => !isSduLcid e.lcid) = front from all front before] at same
        refine Eq.trans (List.flatMap_congr fun s member => ?_) same
        have small := List.snd_lt_of_mem_zipIdx (List.mem_of_mem_filter member)
        have apart : s.2 + 1 ≠ p.nofSubheaders := by omega
        rw [beq_eq_false_iff_ne.mpr apart]
      have ces : (p.used.zipIdx.filter fun s => !s.1.isSdu).flatMap
          (fun s => s.1.writeSubheader (s.2 + 1 == p.nofSubheaders)) =
            (front.map MacElement.subh).flatMap (fun subh => subh.writeSubheader false) ++
              e.subh.writeSubheader true := by
        refine (fills.subheaders (fun lcid => !isSduLcid lcid) fun k => k + 1 == p.nofSubheaders).trans ?_
        have here : [(e, 0 + front.length)].filter (fun s => !isSduLcid s.1.lcid) = [(e, front.length)] := by
          have ce : isSduLcid e.lcid = false := noSdu e (List.mem_append_right _ List.mem_cons_self)
          rw [Nat.zero_add, List.filter_singleton, ce]
          rfl
        rw [List.zipIdx_append, List.zipIdx_singleton, List.filter_append, List.flatMap_append, unmarked, here,
          List.flatMap_singleton, count, beq_self_eq_true]
      simp only [SchPdu.header, onetwo, short, last, Option.isNone_none, Bool.not_false, Bool.true_and,
        decide_eq_true longer, Bool.not_true, flatten_padding, ces, if_true, fills.direction, payloads,
        gt_iff_lt, Bool.false_eq_true, if_false, List.append_nil]
      have order : writtenOrder p.remLen (front ++ [e]) none =
          (List.replicate p.remLen (.padding 0) ++ front.map MacElement.subh) ++ [e.subh] := by
        rw [writtenOrder, sdusOf_nil_of noSdu, all _ noSdu, List.map_append, List.append_assoc _ _ [e.subh]]
        exact (List.append_nil _).trans (List.append_nil _)
      rw [order, writeChain_snoc, List.flatMap_append]
      simp only [List.append_assoc]

/-! ## The header that is counted -/

theorem sizeofCe_le (isUl : Bool) (lcid : Nat) : sizeofCe isUl lcid ≤ 6 := by
  unfold sizeofCe
  split
  · cases UlSchLcid.ofCode lcid with
    | sdu | reserved => exact Nat.zero_le 6
    | phrReport | crnti | truncBsr | shortBsr | longBsr | padding => decide
  · split <;> decide

theorem Fills.headerSz (fills : p.Fills isUl pduLen es) :
    p.headerSz + (if p.multibytePadding then 0 else savedBytes es) =
      (es.map MacElement.headerSize).sum + if p.multibytePadding then 1 else p.remLen := by
  have counted := headers_sum fills.last !p.multibytePadding
  have same := fills.headers p.isLastSdu
  simp only [SchPdu.isLastSdu] at same
  rw [SchPdu.headerSz, onetwoPadding]
  simp only [SchPdu.isLastSdu, same]
  cases short : p.multibytePadding with
  | true =>
      rw [short] at counted
      simp only [Bool.not_true, Bool.false_eq_true, if_false, if_true] at counted ⊢
      omega
  | false =>
      rw [short] at counted
      simp only [Bool.not_false, Bool.false_eq_true, if_false, if_true] at counted ⊢
      omega

theorem Fills.cePayloadSz (fills : p.Fills isUl pduLen es) :
    p.cePayloadSz = ((cesOf es).flatMap MacElement.bytes).length := by
  have same := congrArg (fun l : List TxSubh => ((l.filter fun subh => !subh.isSdu).map TxSubh.nofBytes).sum)
    (bare_of_carries fills.forall₂)
  rw [List.filter_map, List.filter_map, List.map_map, List.map_map] at same
  rw [List.length_flatMap]
  exact same

theorem sum_filter_add {α : Type} (l : List α) (keep : α → Bool) (f : α → Nat) :
    ((l.filter keep).map f).sum + ((l.filter fun x => !keep x).map f).sum = (l.map f).sum := by
  induction l with
  | nil => rfl
  | cons x rest ih =>
      rw [List.filter_cons, List.filter_cons]
      cases keep x <;> simp <;> omega

/-- Headers, SDUs and control elements are all there is. -/
theorem sizes_sum (es : List MacElement) :
    (es.map MacElement.headerSize).sum + (sduBytes es).length + ((cesOf es).flatMap MacElement.bytes).length =
      (es.map MacElement.size).sum := by
  have bytes := sum_filter_add es MacElement.isSdu fun e => e.bytes.length
  have total : (es.map MacElement.size).sum =
      (es.map MacElement.headerSize).sum + (es.map fun e => e.bytes.length).sum := List.sum_map_add
  rw [total, ← bytes, sduBytes, List.length_flatMap, List.length_flatMap]
  exact Nat.add_assoc _ _ _

theorem savedBytes_le (es : List MacElement) : savedBytes es ≤ 2 := by
  unfold savedBytes sizeHeaderSdu
  split
  · omega
  · split <;> omega

theorem Fills.numPadding (fills : p.Fills isUl pduLen es) :
    p.numPadding = if p.multibytePadding then p.remLen - 1 - savedBytes es else 0 := by
  have header := fills.lastHeader
  have place := fills.last
  unfold SchPdu.lastHeader at header
  rw [SchPdu.numPadding, ← header]
  cases last : p.lastSduIdx with
  | none => rfl
  | some i =>
      rw [last] at place
      obtain ⟨-, e, here, sdu, -⟩ := place.ends
      have carries := (fills.subheader here).2
      have isSdu : (p.subheaders.getD i {}).isSdu = true := (congrArg isSduLcid carries.lcid).trans sdu
      dsimp only
      rw [TxSubh.getHeaderSize, isSdu]
      rfl

/-- The header that is counted, the SDUs and the padding are the PDU. -/
theorem Fills.whole (fills : p.Fills isUl pduLen es) :
    p.buf.nBytes + (p.headerSz + p.cePayloadSz) + p.numPadding = p.pduLen := by
  have space := fills.space
  have total := sizes_sum es
  have saved := savedBytes_le es
  have counted := fills.headerSz
  rw [fills.nBytes, fills.cePayloadSz, fills.numPadding, fills.length]
  cases multibyte : p.multibytePadding with
  | true =>
      have long : p.remLen > 2 := of_decide_eq_true multibyte
      rw [multibyte] at counted
      simp only [if_true] at counted ⊢
      omega
  | false =>
      rw [multibyte] at counted
      simp only [Bool.false_eq_true, if_false] at counted ⊢
      omega

theorem flat_length (l : List (TxSubh × Nat)) (flag : Nat → Bool) :
    (l.flatMap fun s => s.1.writeSubheader (flag s.2)).length =
      (l.map fun s => s.1.getHeaderSize (flag s.2)).sum := by
  rw [List.length_flatMap]
  exact congrArg List.sum (List.map_congr_left fun s _ => s.1.writeSubheader_length _)

/-- Without a last SDU there is none. -/
theorem Fills.noSdu (fills : p.Fills isUl pduLen es) (last : p.lastSduIdx = none) (flag : Nat → Bool) :
    ((p.used.zipIdx.filter fun s => s.1.isSdu).map fun s => s.1.getHeaderSize (flag s.2)) = [] := by
  have place := fills.last
  rw [last] at place
  cases place with
  | absent noSdu =>
      have none := (congrArg (List.filter TxSubh.isSdu) (bare_of_carries fills.forall₂)).trans
        (List.filter_map.trans (congrArg (List.map MacElement.subh) (sdusOf_nil_of noSdu)))
      rw [List.filter_map, List.map_nil, List.map_eq_nil_iff, List.filter_eq_nil_iff] at none
      rw [List.map_eq_nil_iff, List.filter_eq_nil_iff]
      exact fun s member => none s.1 (List.fst_mem_of_mem_zipIdx member)

/-- As many bytes are written as were counted. -/
theorem Fills.header_length (fills : p.Fills isUl pduLen es) :
    p.header.length = p.headerSz + p.cePayloadSz := by
  have payloads := congrArg List.length (payloads_of_carries fills.forall₂ fills.valid)
  have ces := flat_length (p.used.zipIdx.filter fun s => !s.1.isSdu)
    fun i => p.lastSduIdx.isNone && !p.multibytePadding && i + 1 == p.nofSubheaders
  have sdus := flat_length (p.used.zipIdx.filter fun s => s.1.isSdu) p.isLastSdu
  have split := sum_filter_add p.used.zipIdx (fun s => s.1.isSdu) fun s => s.1.getHeaderSize (p.isLastSdu s.2)
  have unmarked : ((p.used.zipIdx.filter fun s => !s.1.isSdu).map fun s =>
      s.1.getHeaderSize (p.lastSduIdx.isNone && !p.multibytePadding && s.2 + 1 == p.nofSubheaders)) =
        (p.used.zipIdx.filter fun s => !s.1.isSdu).map fun s => s.1.getHeaderSize (p.isLastSdu s.2) := by
    apply List.map_congr_left
    intro s member
    have ce : s.1.isSdu = false := by simpa using List.of_mem_filter member
    rw [TxSubh.getHeaderSize, TxSubh.getHeaderSize, ce, Bool.and_false, Bool.and_false]
  have padding : ((List.replicate p.onetwoPadding
      ((TxSubh.padding 0).writeSubheader !decide (p.pduLen > p.onetwoPadding))).flatten).length =
        p.onetwoPadding := by
    have one : ∀ isLast, (TxSubh.padding 0).getHeaderSize isLast = 1 := by
      intro isLast
      cases isLast <;> rfl
    rw [List.length_flatten, List.map_replicate, TxSubh.writeSubheader_length, List.sum_replicate_nat, one,
      Nat.mul_one]
  have multi : (if p.multibytePadding then (TxSubh.padding p.numPadding).writeSubheader true else []).length =
      if p.multibytePadding then 1 else 0 := by
    split <;> rfl
  have onetwo : p.onetwoPadding + (if p.multibytePadding then 1 else 0) =
      if p.multibytePadding then 1 else p.onetwoPadding := by
    rw [onetwoPadding]
    split <;> simp
  rw [unmarked] at ces
  simp only [SchPdu.header, List.length_append, padding, ces, multi, fills.direction, payloads]
  rw [SchPdu.headerSz, fills.cePayloadSz, ← onetwo, ← split]
  cases last : p.lastSduIdx with
  | none =>
      have nothing := fills.noSdu last p.isLastSdu
      simp only [Option.isNone_none, if_true, nothing, List.length_nil, List.sum_nil]
      omega
  | some i =>
      simp only [Option.isNone_some, Bool.false_eq_true, if_false, sdus]
      omega

theorem headers_le (valid : ∀ e ∈ es, e.Valid isUl) :
    (es.map MacElement.headerSize).sum + ((cesOf es).flatMap MacElement.bytes).length ≤ 7 * es.length := by
  induction es with
  | nil => exact le_rfl
  | cons e rest ih =>
      obtain ⟨here, later⟩ := List.forall_mem_cons.mp valid
      have tail := ih later
      unfold cesOf at tail ⊢
      rw [List.map_cons, List.sum_cons, List.filter_cons, List.length_cons]
      cases sdu : e.isSdu with
      | true =>
          have size : e.headerSize ≤ 3 := by
            rw [MacElement.headerSize, if_pos sdu, sizeHeaderSdu]
            split <;> omega
          simp only [Bool.not_true, Bool.false_eq_true, if_false]
          omega
      | false =>
          have size : e.headerSize = 1 := by rw [MacElement.headerSize, sdu]; rfl
          have bytes : e.bytes.length ≤ 6 := by
            rw [here.element sdu]
            exact sizeofCe_le isUl e.lcid
          simp only [Bool.not_false, if_true, List.flatMap_cons, List.length_append]
          omega

/-- A PDU is written whole: the header, the SDUs and zeros. -/
theorem Fills.writePacket (fills : p.Fills isUl pduLen es) :
    ∃ buf : ByteBuffer, p.writePacket = some buf ∧ buf.nBytes = pduLen ∧
      Region.Holds buf.buffer buf.msg (p.header ++ sduBytes es ++ List.replicate p.numPadding 0) := by
  have whole := fills.whole
  have length := fills.length
  have msg := fills.msg
  have inside := fills.inside
  have few := fills.few
  have counted := fills.headerSz
  have bound := headers_le fills.valid
  have header := fills.header_length
  have remaining : (if p.multibytePadding then 1 else p.remLen) ≤ 2 := by
    split
    · decide
    · rename_i short
      have few : ¬ p.remLen > 2 := fun long => short (decide_eq_true long)
      omega
  have slots : maxSubheaders = 20 := rfl
  have offset : bufferHeaderOffset = 1020 := rfl
  have capacity : maxBufferSizeBytes < 2 ^ 32 := by decide
  rw [← fills.cePayloadSz] at bound
  have headroom : ¬ p.buf.msg < p.headerSz + p.cePayloadSz := by omega
  have tailroom : ¬ p.rewound.getTailroom < p.numPadding := by
    unfold ByteBuffer.getTailroom rewound
    dsimp only
    omega
  refine ⟨p.padded, ?_, whole.trans length, ?_⟩
  · have complete : ¬ p.padded.nBytes ≠ p.pduLen := not_not.mpr whole
    rw [SchPdu.writePacket, if_neg headroom, if_neg tailroom, if_neg complete]
  · have place : p.rewound.msg + p.rewound.nBytes = p.buf.msg + p.buf.nBytes := by
      unfold rewound
      dsimp only
      omega
    have start : p.buf.msg - (p.headerSz + p.cePayloadSz) + p.header.length = p.buf.msg := by omega
    have header : Region.Holds p.rewound.buffer p.rewound.msg p.header := Region.holds_write
    have sdus : Region.Holds p.rewound.buffer p.buf.msg (sduBytes es) :=
      fills.stands.write (.inr (le_of_eq start))
    have front : Region.Holds p.rewound.buffer p.rewound.msg (p.header ++ sduBytes es) := by
      rw [Region.holds_append]
      refine ⟨header, ?_⟩
      change Region.Holds _ (p.buf.msg - (p.headerSz + p.cePayloadSz) + p.header.length) _
      rwa [start]
    have behind : p.rewound.msg + (p.header ++ sduBytes es).length = p.rewound.msg + p.rewound.nBytes := by
      rw [List.length_append, place, ← fills.nBytes]
      change p.buf.msg - (p.headerSz + p.cePayloadSz) + _ = _
      omega
    rw [Region.holds_append]
    refine ⟨front.write (.inl (le_of_eq behind)), ?_⟩
    change Region.Holds p.padded.buffer (p.rewound.msg + _) _
    rw [behind]
    exact Region.holds_write

end SchPdu

end SonicaEnb
