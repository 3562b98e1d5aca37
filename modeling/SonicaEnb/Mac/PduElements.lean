import SonicaEnb.Mac.DlSpace
import SonicaEnb.Mac.AllocCalls

/-! # The elements of a transport block

`dl_sched_data_t` has room for eight PDU elements, and nothing counts while a block is
filled: the only limit is the size of the block. How many elements there are can be read
off the queues alone, by adding up what stands in front of each.
-/

namespace SonicaEnb

/-- `sched_interface::MAX_RLC_PDU_LIST` -/
def maxRlcPduList : Nat := 8

/-! ## Counting without filling -/

/-- The bytes of the first `i` control elements. -/
def cesBefore (ces : List DlSchLcid) (i : Nat) : Nat := cesTotalBytes (ces.take i)

/-- The control elements, from the front, that a block of `tbs` bytes has room for. -/
def nofCes (tbs : Nat) (ces : List DlSchLcid) : Nat :=
  (List.range ces.length).countP fun i => decide (cesBefore ces (i + 1) ≤ tbs)

/-- The bytes of the first `i` queues, each with a subheader of two bytes. -/
def sdusBefore (qs : List Nat) (i : Nat) : Nat := ((qs.take i).map fun bytes => bytes + 2).sum

/-- The queues in front of which the ones before leave at least five of `room` bytes. -/
def nofSdus (room : Nat) (qs : List Nat) : Nat :=
  (List.range qs.length).countP fun i => decide (sdusBefore qs i + minMacSduSize ≤ room)

/-- The size of the block for a request: the least of its kind above the request, or the largest. -/
def blockFor (request iSf : Nat) : Nat :=
  (((List.range 13).map fun mcs => tbsNbiot mcs iSf / 8).find? fun tbs => decide (request < tbs)).getD
    (tbsNbiot 12 iSf / 8)

theorem countP_range_succ (n : Nat) (p : Nat → Bool) :
    (List.range (n + 1)).countP p = (List.range n).countP (fun i => p (i + 1)) + if p 0 then 1 else 0 := by
  rw [List.range_succ_eq_map, List.countP_cons, List.countP_map]
  rfl

theorem nofCes_cons (tbs : Nat) (ce : DlSchLcid) (rest : List DlSchLcid) :
    nofCes tbs (ce :: rest) =
      if ce.ceTotalSize ≤ tbs then nofCes (tbs - ce.ceTotalSize) rest + 1 else 0 := by
  have before : ∀ i, cesBefore (ce :: rest) (i + 1) = ce.ceTotalSize + cesBefore rest i := by
    intro i
    simp [cesBefore, cesTotalBytes]
  have nothing : cesBefore rest 0 = 0 := rfl
  unfold nofCes
  rw [List.length_cons, countP_range_succ]
  simp only [before, nothing]
  by_cases fits : ce.ceTotalSize ≤ tbs
  · have later : ∀ i, (ce.ceTotalSize + cesBefore rest (i + 1) ≤ tbs) =
        (cesBefore rest (i + 1) ≤ tbs - ce.ceTotalSize) := by
      intro i
      rw [eq_iff_iff]
      omega
    simp [fits, later]
  · have none : ∀ i, ¬ ce.ceTotalSize + cesBefore rest i ≤ tbs := by
      intro i
      omega
    simp [fits, none]

theorem allocateMacCes_length (ces : List DlSchLcid) (tbs : Nat) :
    (allocateMacCes ces tbs).1.length = nofCes tbs ces := by
  induction ces generalizing tbs with
  | nil => rfl
  | cons ce rest ih =>
      rw [nofCes_cons, allocateMacCes]
      by_cases fits : ce.ceTotalSize ≤ tbs
      · rw [if_pos fits, if_neg (not_lt.mpr fits), List.length_cons, ih]
      · rw [if_neg fits, if_pos (not_le.mp fits), List.length_nil]

theorem allocateMacCes_before (ces : List DlSchLcid) (tbs : Nat) :
    cesBefore ces (nofCes tbs ces) = cesTotalBytes (allocateMacCes ces tbs).1 := by
  have front : (allocateMacCes ces tbs).1 <+: ces := ⟨_, allocateMacCes_append ces tbs⟩
  rw [cesBefore, ← allocateMacCes_length, ← List.prefix_iff_eq_take.mp front]

theorem nofSdus_narrow {room : Nat} (narrow : room < minMacSduSize) (qs : List Nat) :
    nofSdus room qs = 0 := by
  have none : ∀ i, ¬ sdusBefore qs i + minMacSduSize ≤ room := by
    intro i
    omega
  simp [nofSdus, none]

theorem nofSdus_cons {room : Nat} (wide : minMacSduSize ≤ room) (bytes : Nat) (rest : List Nat) :
    nofSdus room (bytes :: rest) = (if bytes + 2 ≤ room then nofSdus (room - (bytes + 2)) rest else 0) + 1 := by
  have before : ∀ i, sdusBefore (bytes :: rest) (i + 1) = bytes + 2 + sdusBefore rest i := by
    intro i
    simp [sdusBefore]
  have first : sdusBefore (bytes :: rest) 0 + minMacSduSize ≤ room := by simpa [sdusBefore] using wide
  unfold nofSdus
  rw [List.length_cons, countP_range_succ]
  simp only [before, first, decide_true, if_true]
  split
  · rename_i fits
    have later : ∀ i, (bytes + 2 + sdusBefore rest i + minMacSduSize ≤ room) =
        (sdusBefore rest i + minMacSduSize ≤ room - (bytes + 2)) := by
      intro i
      rw [eq_iff_iff]
      omega
    simp [later]
  · rename_i long
    have none : ∀ i, ¬ bytes + 2 + sdusBefore rest i + minMacSduSize ≤ room := by
      intro i
      omega
    simp [none]

/-- In a block of up to 130 bytes every SDU has the short subheader. -/
theorem allocateMacSdusLoop_length {fuel remTbs : Nat} {lch : List UeBearer} (enough : remTbs ≤ fuel)
    (small : remTbs ≤ 130) :
    (allocateMacSdusLoop fuel lch remTbs).1.length = nofSdus remTbs (sduQueue lch) := by
  induction fuel generalizing lch remTbs with
  | zero => rw [nofSdus_narrow (by unfold minMacSduSize; omega)]; rfl
  | succ fuel ih =>
      by_cases full : remTbs < minMacSduSize
      · rw [nofSdus_narrow full, allocateMacSdusLoop, if_pos full]
        rfl
      · have wide : minMacSduSize ≤ remTbs := not_lt.mp full
        rw [allocateMacSdusLoop_turn wide]
        cases found : allocRlcPdu (sduRoom remTbs) lch with
        | none =>
            have empty : sduQueue lch = [] := allocRlcPdu_none.mp found
            rw [empty]
            rfl
        | some result =>
            obtain ⟨lcid, bytes, lch'⟩ := result
            obtain ⟨first, rest, shape, pos, taken, after⟩ := allocRlcPdu_queue found
            have room : sduRoom remTbs = remTbs - 2 := by
              unfold sduRoom computeSubheaderSize
              rw [if_neg (by omega)]
            have header : computeSubheaderSize bytes = 2 := by
              unfold computeSubheaderSize
              rw [if_neg (by omega)]
            unfold minMacSduSize at wide
            rw [shape, nofSdus_cons wide, List.length_cons, ih (by omega) (by omega), after, header, serveHead]
            by_cases whole : first ≤ sduRoom remTbs
            · have all : bytes = first := by omega
              rw [if_pos whole, if_pos (by omega), all]
            · -- the room is used up, so nothing else fits
              rw [if_neg whole, if_neg (by omega), nofSdus_narrow (by unfold minMacSduSize; omega)]

namespace SchedUe

theorem selectMcs_blockFor (request iSf : Nat) :
    tbsNbiot (selectMcs request iSf) iSf / 8 = blockFor request iSf := by
  unfold selectMcs blockFor
  rw [List.find?_map]
  simp only [Function.comp_def, gt_iff_lt]
  cases (List.range 13).find? fun mcs => decide (request < tbsNbiot mcs iSf / 8) with
  | none => rfl
  | some mcs => rfl

theorem blockBytes_le (ue : SchedUe) {iSf : Nat} (kind : iSf = 0 ∨ iSf = 2) :
    ue.blockBytes iSf ≤ 130 := by
  have all : ∀ mcs ≤ 12, ∀ iSf ∈ [0, 2], tbsNbiot mcs iSf / 8 ≤ 130 := by decide
  exact all _ (selectMcs_least ue.getRequestedDlBytes.2 iSf).1 iSf (by simpa using kind)

/-- What stands in the queues of the UE makes at most eight elements: the control elements that the
    block for the request has room for, and the queues that find five bytes left behind them. -/
def FewElements (ue : SchedUe) (iSf : Nat) : Prop :=
  let block := blockFor ue.getRequestedDlBytes.2 iSf
  let ces := nofCes block ue.pendingCes
  ces + nofSdus (block - cesBefore ue.pendingCes ces) (sduQueue ue.lch) ≤ maxRlcPduList

instance (ue : SchedUe) (iSf : Nat) : Decidable (ue.FewElements iSf) := inferInstanceAs (Decidable (_ ≤ _))

end SchedUe

/-- The calls that change what a UE has queued in the downlink. -/
inductive DlQueueCall where
  | dlBufferState (lcId txQueue retxQueue : Nat)
  | macBufferState (cmd : DlSchLcid) (nofCmds : Nat)
  | setCfg (cfg : UeCfg)
  deriving Repr, DecidableEq

def SchedUe.dlQueueCall (ue : SchedUe) : DlQueueCall → SchedUe
  | .dlBufferState lcId txQueue retxQueue => ue.dlBufferState lcId txQueue retxQueue
  | .macBufferState cmd nofCmds => ue.macBufferState cmd nofCmds
  | .setCfg cfg => ue.setCfg cfg

/-- The elements of a block stay within the list of `dl_sched_data_t` exactly if the queues are few
    enough. -/
theorem pdu_list_bound_iff (ue : SchedUe) {iSf : Nat} (kind : iSf = 0 ∨ iSf = 2) :
    (ue.generateFormatN1 iSf).1.pdu.length ≤ maxRlcPduList ↔ ue.FewElements iSf := by
  have small := ue.blockBytes_le kind
  have block : blockFor ue.getRequestedDlBytes.2 iSf = ue.blockBytes iSf :=
    (SchedUe.selectMcs_blockFor _ _).symm
  have space := allocateMacCes_space ue.pendingCes (ue.blockBytes iSf)
  have length : (ue.generateFormatN1 iSf).1.pdu.length =
      (allocateMacCes ue.pendingCes (ue.blockBytes iSf)).1.length +
        (allocateMacSdus ue.lch (allocateMacCes ue.pendingCes (ue.blockBytes iSf)).2.2).1.length := by
    change (_ ++ _ : List DlSchedPdu).length = _
    rw [List.length_append, List.length_map]
    rfl
  have sdus := @allocateMacSdusLoop_length _ (allocateMacCes ue.pendingCes (ue.blockBytes iSf)).2.2
    ue.lch le_rfl (by omega)
  have rest : ue.blockBytes iSf - cesTotalBytes (allocateMacCes ue.pendingCes (ue.blockBytes iSf)).1 =
      (allocateMacCes ue.pendingCes (ue.blockBytes iSf)).2.2 := by omega
  rw [length, allocateMacSdus, sdus, allocateMacCes_length, SchedUe.FewElements]
  simp only [block, allocateMacCes_before, rest]

/-- Five SDUs and a control element stay within the list. -/
theorem six_elements_fit :
    let ue : SchedUe := { rnti := 4097, pendingCes := [.conResId], lch :=
      [⟨.both, 40, 0, 0⟩, ⟨.both, 2, 3, 0⟩, ⟨.both, 0, 9, 9⟩, ⟨.both, 1, 0, 0⟩, {}, {}] }
    (ue.generateFormatN1 2).1.pdu.length ≤ maxRlcPduList := by
  intro ue
  exact (pdu_list_bound_iff ue (.inr rfl)).mpr (by decide)

/-- Three bytes to transmit and three to retransmit on each of five bearers make ten elements, in
    the block that `alloc_dl_user` asks for. -/
theorem ten_elements :
    ∃ calls : List DlQueueCall,
      let ue := calls.foldl SchedUe.dlQueueCall (.init 4097)
      ¬ (ue.generateFormatN1 (SfGrid.iSfFor ue.getRequestedDlBytes.2)).1.pdu.length ≤ maxRlcPduList := by
  refine ⟨[.setCfg ⟨[.both, .both, .both, .both, .both]⟩, .dlBufferState 0 3 3, .dlBufferState 1 3 3,
    .dlBufferState 2 3 3, .dlBufferState 3 3 3, .dlBufferState 4 3 3], ?_⟩
  decide

end SonicaEnb
