import SonicaEnb.Mac.DlQueue

/-! # The space of a transport block

The filling of a block as the machine does it: buffers are `int`, the space left is
`uint32_t` in one function and `int` in the next, and every assignment converts. No
conversion ever changes a value, so the block is filled as without them, and its bytes
add up.
-/

namespace SonicaEnb

/-! ## Accounting without conversions -/

/-- Control elements with their subheaders. -/
def cesTotalBytes (ces : List DlSchLcid) : Nat := (ces.map DlSchLcid.ceTotalSize).sum

/-- SDUs with their subheaders: 2 bytes up to 128, 3 above. -/
def sdusTotalBytes (sdus : List DlSchedPdu) : Nat :=
  (sdus.map fun p => p.nbytes + computeSubheaderSize p.nbytes).sum

theorem allocateMacCes_space (ces : List DlSchLcid) (remTbs : Nat) :
    cesTotalBytes (allocateMacCes ces remTbs).1 + (allocateMacCes ces remTbs).2.2 = remTbs := by
  unfold cesTotalBytes
  induction ces generalizing remTbs with
  | nil => exact Nat.zero_add remTbs
  | cons ce rest ih =>
      unfold allocateMacCes
      split
      · exact Nat.zero_add remTbs
      · simp only [List.map_cons, List.sum_cons, Nat.add_assoc, ih]
        omega

/-- An SDU of the room granted to it fits with the subheader it needs itself. -/
theorem sduRoom_fits {remTbs bytes : Nat} (wide : minMacSduSize ≤ remTbs) (room : bytes ≤ sduRoom remTbs) :
    bytes + computeSubheaderSize bytes ≤ remTbs := by
  unfold sduRoom computeSubheaderSize at room
  unfold computeSubheaderSize
  unfold minMacSduSize at wide
  split at room <;> split <;> omega

theorem allocRlcPdu_bytes {remTbs lcid bytes : Nat} {lch lch' : List UeBearer}
    (ran : allocRlcPdu remTbs lch = some (lcid, bytes, lch')) : bytes ≤ remTbs := by
  obtain ⟨b, -, ⟨-, taken, -⟩ | ⟨-, -, taken, -⟩⟩ := allocRlcPdu_cases ran
  · omega
  · omega

/-- One turn of the SDU loop. An SDU that is found is never empty. -/
theorem allocateMacSdusLoop_turn {remTbs : Nat} (wide : minMacSduSize ≤ remTbs) (fuel : Nat)
    (lch : List UeBearer) :
    allocateMacSdusLoop (fuel + 1) lch remTbs =
      match allocRlcPdu (sduRoom remTbs) lch with
      | none => ([], lch, remTbs)
      | some (lcid, bytes, lch') =>
          let later := allocateMacSdusLoop fuel lch' (remTbs - (bytes + computeSubheaderSize bytes))
          (⟨lcid, bytes⟩ :: later.1, later.2.1, later.2.2) := by
  have room := sduRoom_pos wide
  rw [allocateMacSdusLoop, if_neg (not_lt.mpr wide)]
  cases found : allocRlcPdu (sduRoom remTbs) lch with
  | none =>
      unfold sduRoom at found
      rw [found]
  | some result =>
      obtain ⟨lcid, bytes, lch'⟩ := result
      have some : bytes ≠ 0 := ((allocRlcPdu_queuedBytes found).2 room).ne'
      unfold sduRoom at found
      simp only [found, if_neg some]

theorem allocateMacSdusLoop_space (fuel : Nat) (lch : List UeBearer) (remTbs : Nat) :
    sdusTotalBytes (allocateMacSdusLoop fuel lch remTbs).1 +
      (allocateMacSdusLoop fuel lch remTbs).2.2 = remTbs := by
  unfold sdusTotalBytes
  induction fuel generalizing lch remTbs with
  | zero => exact Nat.zero_add remTbs
  | succ fuel ih =>
      unfold allocateMacSdusLoop
      split
      · exact Nat.zero_add remTbs
      · rename_i wide
        split
        · exact Nat.zero_add remTbs
        · rename_i lcid bytes lch' first
          split
          · exact Nat.zero_add remTbs
          · have fits := sduRoom_fits (not_lt.mp wide) (allocRlcPdu_bytes first)
            simp only [List.map_cons, List.sum_cons, Nat.add_assoc, ih]
            omega

theorem allocRlcPdu_lcid {remTbs lcid bytes : Nat} {lch lch' : List UeBearer}
    (ran : allocRlcPdu remTbs lch = some (lcid, bytes, lch')) : lcid < lch.length := by
  obtain ⟨b, here, -⟩ := allocRlcPdu_cases ran
  exact (List.getElem?_eq_some_iff.mp here).1

theorem allocateMacSdusLoop_lcid (fuel : Nat) (lch : List UeBearer) (remTbs : Nat) :
    ∀ p ∈ (allocateMacSdusLoop fuel lch remTbs).1, p.lcid < lch.length := by
  induction fuel generalizing lch remTbs with
  | zero => simp [allocateMacSdusLoop]
  | succ fuel ih =>
      by_cases full : remTbs < minMacSduSize
      · simp [allocateMacSdusLoop, full]
      · rw [allocateMacSdusLoop_turn (not_lt.mp full)]
        cases found : allocRlcPdu (sduRoom remTbs) lch with
        | none => simp
        | some result =>
            obtain ⟨lcid, bytes, lch'⟩ := result
            have later := ih lch' (remTbs - (bytes + computeSubheaderSize bytes))
            rw [(allocRlcPdu_gives found).1] at later
            exact List.forall_mem_cons.mpr ⟨allocRlcPdu_lcid found, later⟩

/-! ## The same on machine integers -/

namespace Machine

/-- The two downlink members of `ue_bearer_t`, both `int`. -/
structure DlBuffers where
  bufTx : Int
  bufRetx : Int
  deriving Repr, DecidableEq

/-- One turn of the loop of `alloc_rlc_pdu`: the bytes taken from a bearer and what it keeps. -/
def takeBytes (remTbs : Int) (b : DlBuffers) : Int × DlBuffers :=
  if b.bufRetx > 0 then
    let allocBytes := min b.bufRetx remTbs
    (allocBytes, { b with bufRetx := toInt32 (b.bufRetx - allocBytes) })
  else if b.bufTx > 0 then
    let allocBytes := min b.bufTx remTbs
    (allocBytes, { b with bufTx := toInt32 (b.bufTx - allocBytes) })
  else (0, b)

/-- The loop of `alloc_rlc_pdu` from bearer `i` on, which goes on while nothing was taken. Answers
    the bytes taken, the counter after the loop and the bearers. -/
def allocRlcPduLoop (remTbs : Int) (i : Nat) : List DlBuffers → Int × Nat × List DlBuffers
  | [] => (0, i, [])
  | b :: rest =>
      let (allocBytes, b') := takeBytes remTbs b
      if allocBytes = 0 then
        let (allocBytes, last, rest') := allocRlcPduLoop remTbs (i + 1) rest
        (allocBytes, last, b' :: rest')
      else (allocBytes, i + 1, b' :: rest)

/-- `alloc_rlc_pdu`: the return value, what it writes to `mac_sdu` and the bearers. -/
def allocRlcPdu (remTbs : Int) (lch : List DlBuffers) : Int × Option DlSchedPdu × List DlBuffers :=
  let (allocBytes, i, lch') := allocRlcPduLoop remTbs 0 lch
  (allocBytes, if allocBytes > 0 then some ⟨i - 1, allocBytes.toNat⟩ else none, lch')

/-- `compute_subheader_size`; its argument is a `uint32_t`. -/
def computeSubheaderSize (sduSize : Int) : Int := if toUint32 sduSize > 128 then 3 else 2

/-- The loop of `allocate_mac_sdus`; a loop that is out of fuel answers `none`. A list entry that
    is counted but not written stays zero. -/
def allocateMacSdusLoop : Nat → List DlBuffers → Int →
    Option (List DlSchedPdu × List DlBuffers × Int)
  | 0, _, _ => none
  | fuel + 1, lch, remTbs =>
      if remTbs < 5 then some ([], lch, remTbs)
      else
        let maxSduBytes := toUint32 (remTbs - computeSubheaderSize (remTbs - 2))
        let (ret, macSdu, lch') := allocRlcPdu (toInt32 maxSduBytes) lch
        let allocSduBytes := toUint32 ret
        if allocSduBytes = 0 then some ([], lch', remTbs)
        else
          (allocateMacSdusLoop fuel lch'
            (toUint32 (remTbs - (allocSduBytes + computeSubheaderSize allocSduBytes)))).map
            fun (pdus, last, left) => (macSdu.getD ⟨0, 0⟩ :: pdus, last, left)

/-- `allocate_mac_sdus`: return value, elements added and bearers. -/
def allocateMacSdus (fuel : Nat) (lch : List DlBuffers) (totalTbs : Int) :
    Option (Int × List DlSchedPdu × List DlBuffers) :=
  (allocateMacSdusLoop fuel lch totalTbs).map fun (pdus, lch', remTbs) =>
    (toUint32 (totalTbs - remTbs), pdus, lch')

/-- The loop of `allocate_mac_ces`, over an `int`. -/
def allocateMacCesLoop : List DlSchLcid → Int → List DlSchLcid × List DlSchLcid × Int
  | [], remTbs => ([], [], remTbs)
  | ce :: ces, remTbs =>
      let toalloc := toInt32 ce.ceTotalSize
      if remTbs < toalloc then ([], ce :: ces, remTbs)
      else
        let (taken, left, rem) := allocateMacCesLoop ces (toInt32 (remTbs - toalloc))
        (ce :: taken, left, rem)

/-- `allocate_mac_ces`: return value, elements added and elements left. -/
def allocateMacCes (ces : List DlSchLcid) (totalTbs : Int) : Int × List DlSchLcid × List DlSchLcid :=
  let (taken, left, remTbs) := allocateMacCesLoop ces (toInt32 totalTbs)
  (toUint32 (totalTbs - toUint32 remTbs), taken, left)

/-- What the two calls in `generate_formatN1` come to. -/
structure Filled where
  cesBytes : Int
  ces : List DlSchLcid
  cesLeft : List DlSchLcid
  sdusBytes : Int
  sdus : List DlSchedPdu
  lch : List DlBuffers
  deriving Repr, DecidableEq

/-- The middle of `generate_formatN1`: control elements first, SDUs into the rest. -/
def fillBlock (fuel : Nat) (ces : List DlSchLcid) (lch : List DlBuffers) (totalTbs : Int) :
    Option Filled :=
  let (cesBytes, taken, left) := allocateMacCes ces totalTbs
  (allocateMacSdus fuel lch (toUint32 (totalTbs - cesBytes))).map fun (sdusBytes, sdus, lch') =>
    ⟨cesBytes, taken, left, sdusBytes, sdus, lch'⟩

/-! ## No conversion changes a value -/

/-- The buffers of a bearer as the machine keeps them. -/
def DlBuffers.ofBearer (b : UeBearer) : DlBuffers := ⟨b.bufTx, b.bufRetx⟩

/-- Buffers an `int` can hold. -/
def Small (lch : List UeBearer) : Prop := ∀ b ∈ lch, b.bufTx < 2 ^ 31 ∧ b.bufRetx < 2 ^ 31

theorem takeBytes_ofBearer (remTbs : Nat) {b : UeBearer} (tx : b.bufTx < 2 ^ 31)
    (retx : b.bufRetx < 2 ^ 31) :
    takeBytes remTbs (.ofBearer b) =
      if 0 < b.bufRetx then
        (↑(min b.bufRetx.toNat remTbs),
          .ofBearer { b with bufRetx := b.bufRetx - (min b.bufRetx.toNat remTbs : Nat) })
      else if 0 < b.bufTx then
        (↑(min b.bufTx.toNat remTbs),
          .ofBearer { b with bufTx := b.bufTx - (min b.bufTx.toNat remTbs : Nat) })
      else (0, .ofBearer b) := by
  have least : ∀ bytes : Int, 0 < bytes → min bytes remTbs = (min bytes.toNat remTbs : Nat) := by
    intro bytes some
    omega
  have kept : ∀ bytes : Int, 0 < bytes → bytes < 2 ^ 31 →
      toInt32 (bytes - (min bytes.toNat remTbs : Nat)) = bytes - (min bytes.toNat remTbs : Nat) := by
    intro bytes some small
    exact toInt32_of_range (by omega) (by omega)
  unfold takeBytes DlBuffers.ofBearer
  by_cases hasRetx : 0 < b.bufRetx
  · simp only [gt_iff_lt, hasRetx, if_true, least _ hasRetx, kept _ hasRetx retx]
  · by_cases hasTx : 0 < b.bufTx
    · simp only [gt_iff_lt, hasRetx, hasTx, if_true, if_false, least _ hasTx, kept _ hasTx tx]
    · simp only [gt_iff_lt, hasRetx, hasTx, if_false]

theorem allocRlcPduLoop_eq {remTbs : Nat} (room : 0 < remTbs) {lch : List UeBearer}
    (small : Small lch) (i : Nat) :
    allocRlcPduLoop remTbs i (lch.map .ofBearer) =
      match SonicaEnb.allocRlcPdu remTbs lch with
      | none => (0, i + lch.length, lch.map .ofBearer)
      | some (j, bytes, lch') => (bytes, i + j + 1, lch'.map .ofBearer) := by
  induction lch generalizing i with
  | nil => rfl
  | cons b rest ih =>
      obtain ⟨⟨tx, retx⟩, smallRest⟩ := List.forall_mem_cons.mp small
      have later := ih smallRest (i + 1)
      simp only [List.map_cons, allocRlcPduLoop, takeBytes_ofBearer remTbs tx retx,
        SonicaEnb.allocRlcPdu]
      by_cases hasRetx : 0 < b.bufRetx
      · have some : ((min b.bufRetx.toNat remTbs : Nat) : Int) ≠ 0 := by omega
        simp only [if_pos hasRetx, if_neg some, List.map_cons, Nat.add_zero]
      · by_cases hasTx : 0 < b.bufTx
        · have some : ((min b.bufTx.toNat remTbs : Nat) : Int) ≠ 0 := by omega
          simp only [if_neg hasRetx, if_pos hasTx, if_neg some, List.map_cons, Nat.add_zero]
        · simp only [hasRetx, hasTx, if_false, if_true, later]
          cases SonicaEnb.allocRlcPdu remTbs rest with
          | none => simp only [List.length_cons, Nat.add_assoc, Nat.add_comm 1]
          | some found => simp only [List.map_cons, Nat.add_assoc, Nat.add_comm 1]

theorem allocRlcPdu_eq {remTbs : Nat} (room : 0 < remTbs) {lch : List UeBearer} (small : Small lch) :
    allocRlcPdu remTbs (lch.map .ofBearer) =
      match SonicaEnb.allocRlcPdu remTbs lch with
      | none => (0, none, lch.map .ofBearer)
      | some (j, bytes, lch') => (bytes, some ⟨j, bytes⟩, lch'.map .ofBearer) := by
  unfold allocRlcPdu
  rw [allocRlcPduLoop_eq room small]
  cases found : SonicaEnb.allocRlcPdu remTbs lch with
  | none => rfl
  | some result =>
      obtain ⟨j, bytes, lch'⟩ := result
      have pos := (allocRlcPdu_queuedBytes found).2 room
      have some : (bytes : Int) > 0 := by omega
      simp only [if_pos some, Nat.zero_add, Nat.add_sub_cancel, Int.toNat_natCast]

theorem small_of_gives {lch lch' : List UeBearer} {pdus : List DlSchedPdu} (small : Small lch)
    (gives : BearersGive pdus lch lch') : Small lch' := by
  intro b' member
  obtain ⟨i, inside, rfl⟩ := List.getElem_of_mem member
  have inside' : i < lch.length := gives.1 ▸ inside
  obtain ⟨b'', there, given⟩ := gives.2 i lch[i] (List.getElem?_eq_getElem inside')
  rw [List.getElem?_eq_getElem inside, Option.some.injEq] at there
  obtain ⟨tx, retx⟩ := small lch[i] (List.getElem_mem inside')
  rw [there, given.bufTx, given.bufRetx]
  omega

theorem computeSubheaderSize_eq {n : Nat} (small : n < 2 ^ 32) :
    computeSubheaderSize n = SonicaEnb.computeSubheaderSize n := by
  unfold computeSubheaderSize SonicaEnb.computeSubheaderSize
  rw [toUint32_of_range (by omega) (by omega)]
  split <;> split <;> omega

theorem allocateMacSdusLoop_eq {fuel remTbs : Nat} {lch : List UeBearer} (enough : remTbs ≤ fuel)
    (tbs : remTbs < 2 ^ 31) (small : Small lch) :
    allocateMacSdusLoop (fuel + 1) (lch.map .ofBearer) remTbs =
      some ((SonicaEnb.allocateMacSdusLoop fuel lch remTbs).1,
        (SonicaEnb.allocateMacSdusLoop fuel lch remTbs).2.1.map .ofBearer,
        ((SonicaEnb.allocateMacSdusLoop fuel lch remTbs).2.2 : Int)) := by
  induction fuel generalizing remTbs lch with
  | zero =>
      have full : (remTbs : Int) < 5 := by omega
      simp only [allocateMacSdusLoop, if_pos full, SonicaEnb.allocateMacSdusLoop]
  | succ fuel ih =>
      by_cases full : remTbs < minMacSduSize
      · have full' : (remTbs : Int) < 5 := by unfold minMacSduSize at full; omega
        rw [allocateMacSdusLoop, SonicaEnb.allocateMacSdusLoop, if_pos full, if_pos full']
      · have wide : minMacSduSize ≤ remTbs := not_lt.mp full
        have open' : ¬ (remTbs : Int) < 5 := by unfold minMacSduSize at full; omega
        have room := sduRoom_pos wide
        have reduced : (remTbs : Int) - 2 = ((remTbs - 2 : Nat) : Int) := by
          unfold minMacSduSize at wide
          omega
        have maxSdu : toInt32 (toUint32 (remTbs - computeSubheaderSize (remTbs - 2))) =
            (sduRoom remTbs : Int) := by
          rw [reduced, computeSubheaderSize_eq (by omega)]
          unfold sduRoom at room ⊢
          rw [toUint32_of_range (by omega) (by omega), toInt32_of_range (by omega) (by omega)]
          omega
        rw [allocateMacSdusLoop, if_neg open', allocateMacSdusLoop_turn wide]
        simp only [maxSdu, allocRlcPdu_eq room small]
        cases found : SonicaEnb.allocRlcPdu (sduRoom remTbs) lch with
        | none => rfl
        | some result =>
            obtain ⟨lcid, bytes, lch'⟩ := result
            have pos := (allocRlcPdu_queuedBytes found).2 room
            have fits := sduRoom_fits wide (allocRlcPdu_bytes found)
            have value : toUint32 (bytes : Int) = bytes := toUint32_of_range (by omega) (by omega)
            have some : (bytes : Int) ≠ 0 := by omega
            have left : toUint32 (remTbs - (bytes + (SonicaEnb.computeSubheaderSize bytes : Int))) =
                ((remTbs - (bytes + SonicaEnb.computeSubheaderSize bytes) : Nat) : Int) := by
              rw [toUint32_of_range (by omega) (by omega)]
              omega
            have smallLater := small_of_gives small (allocRlcPdu_gives found)
            simp only [value, if_neg some, computeSubheaderSize_eq (by omega : bytes < 2 ^ 32), left]
            rw [ih (by omega) (by omega) smallLater]
            rfl

theorem allocateMacCesLoop_eq {remTbs : Nat} (tbs : remTbs < 2 ^ 31) (ces : List DlSchLcid) :
    allocateMacCesLoop ces remTbs =
      ((SonicaEnb.allocateMacCes ces remTbs).1, (SonicaEnb.allocateMacCes ces remTbs).2.1,
        ((SonicaEnb.allocateMacCes ces remTbs).2.2 : Int)) := by
  induction ces generalizing remTbs with
  | nil => rfl
  | cons ce rest ih =>
      have size : ce.ceTotalSize ≤ 7 := by cases ce <;> decide
      have toalloc : toInt32 ce.ceTotalSize = ce.ceTotalSize := toInt32_of_range (by omega) (by omega)
      unfold allocateMacCesLoop SonicaEnb.allocateMacCes
      by_cases wide : ce.ceTotalSize ≤ remTbs
      · have left : toInt32 (remTbs - (ce.ceTotalSize : Int)) = ((remTbs - ce.ceTotalSize : Nat) : Int) := by
          rw [toInt32_of_range (by omega) (by omega)]
          omega
        simp only [toalloc, if_neg (not_lt.mpr wide), Int.ofNat_lt, left]
        rw [ih (by omega)]
      · simp only [toalloc, if_pos (not_le.mp wide), Int.ofNat_lt]

theorem allocateMacCes_eq {totalTbs : Nat} (tbs : totalTbs < 2 ^ 31) (ces : List DlSchLcid) :
    allocateMacCes ces totalTbs =
      ((cesTotalBytes (SonicaEnb.allocateMacCes ces totalTbs).1 : Int),
        (SonicaEnb.allocateMacCes ces totalTbs).1, (SonicaEnb.allocateMacCes ces totalTbs).2.1) := by
  have space := allocateMacCes_space ces totalTbs
  have entry : toInt32 (totalTbs : Int) = totalTbs := toInt32_of_range (by omega) (by omega)
  have left : toUint32 ((SonicaEnb.allocateMacCes ces totalTbs).2.2 : Int) =
      (SonicaEnb.allocateMacCes ces totalTbs).2.2 := toUint32_of_range (by omega) (by omega)
  have used : toUint32 ((totalTbs : Int) - (SonicaEnb.allocateMacCes ces totalTbs).2.2) =
      cesTotalBytes (SonicaEnb.allocateMacCes ces totalTbs).1 := by
    rw [toUint32_of_range (by omega) (by omega)]
    omega
  simp only [allocateMacCes, entry, allocateMacCesLoop_eq tbs, left, used]

theorem allocateMacSdus_eq {fuel totalTbs : Nat} {lch : List UeBearer} (enough : totalTbs ≤ fuel)
    (tbs : totalTbs < 2 ^ 31) (small : Small lch) :
    allocateMacSdus (fuel + 1) (lch.map .ofBearer) totalTbs =
      some ((sdusTotalBytes (SonicaEnb.allocateMacSdusLoop fuel lch totalTbs).1 : Int),
        (SonicaEnb.allocateMacSdusLoop fuel lch totalTbs).1,
        (SonicaEnb.allocateMacSdusLoop fuel lch totalTbs).2.1.map .ofBearer) := by
  have space := allocateMacSdusLoop_space fuel lch totalTbs
  have used : toUint32 ((totalTbs : Int) - (SonicaEnb.allocateMacSdusLoop fuel lch totalTbs).2.2) =
      sdusTotalBytes (SonicaEnb.allocateMacSdusLoop fuel lch totalTbs).1 := by
    rw [toUint32_of_range (by omega) (by omega)]
    omega
  simp only [allocateMacSdus, allocateMacSdusLoop_eq enough tbs small, Option.map_some, used]

/-- The machine fills a block as `generate_formatN1` does without the conversions, and answers the bytes
    of what it adds. -/
theorem fillBlock_eq {fuel totalTbs : Nat} {lch : List UeBearer} (enough : totalTbs ≤ fuel)
    (tbs : totalTbs < 2 ^ 31) (small : Small lch) (ces : List DlSchLcid) :
    let filled := SonicaEnb.allocateMacCes ces totalTbs
    let sdus := SonicaEnb.allocateMacSdusLoop fuel lch filled.2.2
    fillBlock (fuel + 1) ces (lch.map .ofBearer) totalTbs =
      some ⟨cesTotalBytes filled.1, filled.1, filled.2.1,
        sdusTotalBytes sdus.1, sdus.1, sdus.2.1.map .ofBearer⟩ := by
  intro filled sdus
  have space : cesTotalBytes filled.1 + filled.2.2 = totalTbs :=
    allocateMacCes_space ces totalTbs
  have left : toUint32 ((totalTbs : Int) - cesTotalBytes filled.1) =
      filled.2.2 := by
    rw [toUint32_of_range (by omega) (by omega)]
    omega
  have loop := allocateMacSdus_eq (by omega : filled.2.2 ≤ fuel) (by omega) small
  simp only [fillBlock, allocateMacCes_eq tbs]
  rw [left, loop]
  rfl

/-- Every buffer holds a non-negative `int`. -/
def NonNegative (lch : List DlBuffers) : Prop :=
  ∀ b ∈ lch, (0 ≤ b.bufTx ∧ b.bufTx < 2 ^ 31) ∧ 0 ≤ b.bufRetx ∧ b.bufRetx < 2 ^ 31

theorem NonNegative.bearers {lch : List DlBuffers} (nonNegative : NonNegative lch) :
    ∃ bearers, Small bearers ∧ lch = bearers.map .ofBearer := by
  refine ⟨lch.map fun b => { bufTx := b.bufTx, bufRetx := b.bufRetx }, ?_, ?_⟩
  · intro bearer member
    obtain ⟨b, there, rfl⟩ := List.mem_map.mp member
    obtain ⟨tx, retx⟩ := nonNegative b there
    exact ⟨tx.2, retx.2⟩
  · rw [List.map_map]
    exact (List.map_id lch).symm

/-- The bytes of a block add up: nothing is used beyond the block, the values returned are those of
    the elements added, and what is added is what has left the queues. -/
structure Accounts (ces : List DlSchLcid) (lch : List DlBuffers) (totalTbs : Int) (r : Filled) :
    Prop where
  fits : r.cesBytes + r.sdusBytes ≤ totalTbs
  cesBytes : r.cesBytes = ((r.ces.map fun ce => 1 + ce.ceSize).sum : Nat)
  sdusBytes : r.sdusBytes = ((r.sdus.map fun p => p.nbytes + if p.nbytes ≤ 128 then 2 else 3).sum : Nat)
  popped : r.ces ++ r.cesLeft = ces
  listed : ∀ p ∈ r.sdus, p.nbytes ≠ 0 ∧ p.lcid < lch.length
  length : r.lch.length = lch.length
  removed : ∀ i b, lch[i]? = some b → ∃ b', r.lch[i]? = some b' ∧ 0 ≤ b'.bufTx ∧ 0 ≤ b'.bufRetx ∧
    b.bufTx + b.bufRetx - (b'.bufTx + b'.bufRetx) = (listedBytes r.sdus i : Int)

end Machine

open Machine

/-- Whatever the UE has queued and whatever the size of the block, both calls return and account for
    every byte; a block of `totalTbs` bytes needs at most that many turns of the loop. -/
theorem block_space {fuel : Nat} {lch : List DlBuffers} {totalTbs : Int} (ces : List DlSchLcid)
    (nonNegative : NonNegative lch) (lower : 0 ≤ totalTbs) (upper : totalTbs < 2 ^ 31)
    (enough : totalTbs < fuel) :
    ∃ r, fillBlock fuel ces lch totalTbs = some r ∧ Accounts ces lch totalTbs r := by
  obtain ⟨bearers, small, rfl⟩ := nonNegative.bearers
  obtain ⟨total, rfl⟩ := Int.eq_ofNat_of_zero_le lower
  obtain ⟨fuel, rfl⟩ : ∃ n, fuel = n + 1 := ⟨fuel - 1, by omega⟩
  have filled := fillBlock_eq (by omega : total ≤ fuel) (by omega) small ces
  have ceSpace := allocateMacCes_space ces total
  have sduSpace := allocateMacSdusLoop_space fuel bearers (allocateMacCes ces total).2.2
  obtain ⟨gives, some⟩ :=
    allocateMacSdusLoop_gives fuel bearers (allocateMacCes ces total).2.2
  refine ⟨_, filled, ?_, ?_, ?_, allocateMacCes_append ces total, ?_, ?_, ?_⟩
  · simp only
    omega
  · rfl
  · simp only [sdusTotalBytes, computeSubheaderSize]
    congr 2
    apply List.map_congr_left
    intro p _
    split <;> split <;> omega
  · intro p member
    rw [List.length_map]
    exact ⟨some p member, allocateMacSdusLoop_lcid fuel bearers _ p member⟩
  · rw [List.length_map, List.length_map, gives.1]
  · intro i b there
    rw [List.getElem?_map] at there
    obtain ⟨bearer, at', rfl⟩ := Option.map_eq_some_iff.mp there
    obtain ⟨bearer', after, given⟩ := gives.2 i bearer at'
    obtain ⟨⟨tx, -⟩, retx, -⟩ := nonNegative (.ofBearer bearer) (List.mem_map_of_mem (List.mem_of_getElem? at'))
    have less := given.enough
    refine ⟨.ofBearer bearer', by rw [List.getElem?_map, after]; rfl, ?_⟩
    simp only [DlBuffers.ofBearer, given.bufTx, given.bufRetx] at tx retx ⊢
    omega

/-- In front of a rest of 131 bytes, 128 of 129 waiting bytes fit, with the shorter subheader, and
    one byte of the block stays unused. -/
theorem block_space_at_131 :
    ∃ r, fillBlock 141 [.conResId, .taCmd] [⟨129, 0⟩, ⟨0, 6⟩] 140 = some r ∧
      r.ces = [.conResId, .taCmd] ∧ r.sdus = [⟨0, 128⟩] ∧ r.lch = [⟨1, 0⟩, ⟨0, 6⟩] ∧
      r.cesBytes = 9 ∧ r.sdusBytes = 130 ∧
      Accounts [.conResId, .taCmd] [⟨129, 0⟩, ⟨0, 6⟩] 140 r := by
  have nonNegative : NonNegative [⟨129, 0⟩, ⟨0, 6⟩] := by unfold NonNegative; decide
  obtain ⟨r, filled, accounts⟩ := block_space [.conResId, .taCmd] nonNegative (by decide) (by decide)
    (by decide : (140 : Int) < (141 : Nat))
  have bytes : (fillBlock 141 [.conResId, .taCmd] [⟨129, 0⟩, ⟨0, 6⟩] 140).map
      (fun r => (r.ces, r.sdus, r.lch, r.cesBytes, r.sdusBytes)) =
        some ([.conResId, .taCmd], [⟨0, 128⟩], [⟨1, 0⟩, ⟨0, 6⟩], 9, 130) := by decide
  rw [filled] at bytes
  obtain ⟨ces, sdus, lch, cesBytes, sdusBytes⟩ : r.ces = _ ∧ r.sdus = _ ∧ r.lch = _ ∧
      r.cesBytes = _ ∧ r.sdusBytes = _ := by simpa using bytes
  exact ⟨r, filled, ces, sdus, lch, cesBytes, sdusBytes, accounts⟩

end SonicaEnb
