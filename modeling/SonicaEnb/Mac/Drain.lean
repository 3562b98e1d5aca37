import SonicaEnb.Mac.IdleBlocks

/-! # A block larger than the request

The request of a UE is computed queue by queue, with subheaders and least sizes; the
block is filled by other rules, from the front until too little is left. As long as
the sums of the request do not come round, the two agree: a block larger than the
largest request takes everything that was requested, and where anything was requested
the block carries something.
-/

namespace SonicaEnb

/-! ## The request of a queue -/

theorem computeSduTotalBytes_eq_zero (lcid : Nat) {bufferBytes : Nat} (small : bufferBytes < 2 ^ 31) :
    computeSduTotalBytes lcid bufferBytes = 0 ↔ bufferBytes = 0 := by
  unfold computeSduTotalBytes getMacSubheaderSduSize minAllocBytes
  split
  · simp [*]
  · rename_i some
    simp only [some, iff_false]
    split <;> split <;> omega

/-- An SDU is requested with its subheader, and not below five bytes apart from SRB0. -/
theorem computeSduTotalBytes_ge (lcid : Nat) {bufferBytes : Nat} (some : 0 < bufferBytes)
    (small : bufferBytes < 2 ^ 31) :
    bufferBytes + computeSubheaderSize bufferBytes ≤ computeSduTotalBytes lcid bufferBytes ∧
      (lcid ≠ 0 ∨ 3 ≤ bufferBytes → minMacSduSize ≤ computeSduTotalBytes lcid bufferBytes) := by
  unfold computeSduTotalBytes computeSubheaderSize getMacSubheaderSduSize minMacSduSize minAllocBytes
  simp only [some.ne', if_false]
  constructor
  · split <;> split <;> omega
  · intro enough
    split
    · rename_i srb0
      rcases enough with other | long
      · exact absurd srb0 other
      · split <;> omega
    · omega

namespace UeBearer

/-- What both queues request, as a number that does not come round. -/
def totalBytes (lcid : Nat) (b : UeBearer) : Nat :=
  computeSduTotalBytes lcid b.bufRetx.toNat + computeSduTotalBytes lcid b.bufTx.toNat

/-- Neither of the two `int` buffers is negative. -/
def NonNegative (b : UeBearer) : Prop :=
  (0 ≤ b.bufTx ∧ b.bufTx < 2 ^ 31) ∧ 0 ≤ b.bufRetx ∧ b.bufRetx < 2 ^ 31

/-- A queue of SRB0 is empty or holds at least three bytes. -/
def Whole (lcid : Nat) (b : UeBearer) : Prop :=
  lcid ≠ 0 ∨ ((b.bufTx = 0 ∨ 3 ≤ b.bufTx) ∧ (b.bufRetx = 0 ∨ 3 ≤ b.bufRetx))

theorem whole_other (b : UeBearer) : b.Whole 1 := .inl one_ne_zero

variable {b : UeBearer}

theorem totalBytes_other (lcid : Nat) (b : UeBearer) : b.totalBytes (lcid + 1) = b.totalBytes 1 := by
  simp [totalBytes, computeSduTotalBytes]

theorem NonNegative.sduTotalBytes (nonNegative : b.NonNegative) (lcid : Nat) :
    b.sduTotalBytes lcid = b.totalBytes lcid % 2 ^ 32 := by
  obtain ⟨tx, retx⟩ := nonNegative
  rw [UeBearer.sduTotalBytes, asUint32_of_range retx.1 (by omega), asUint32_of_range tx.1 (by omega), totalBytes]

theorem NonNegative.totalBytes_eq_zero (nonNegative : b.NonNegative) (lcid : Nat) :
    b.totalBytes lcid = 0 ↔ b.bufRetx = 0 ∧ b.bufTx = 0 := by
  obtain ⟨tx, retx⟩ := nonNegative
  have noRetx := computeSduTotalBytes_eq_zero lcid (by omega : b.bufRetx.toNat < 2 ^ 31)
  have noTx := computeSduTotalBytes_eq_zero lcid (by omega : b.bufTx.toNat < 2 ^ 31)
  rw [totalBytes]
  omega

/-- The bytes that wait are requested, with something more. -/
theorem NonNegative.waiting (nonNegative : b.NonNegative) (lcid : Nat) :
    asUint32 (toInt32 (b.bufRetx + b.bufTx)) ≤ b.totalBytes lcid ∧
      (asUint32 (toInt32 (b.bufRetx + b.bufTx)) = 0 ↔ b.totalBytes lcid = 0) := by
  have none := nonNegative.totalBytes_eq_zero lcid
  obtain ⟨tx, retx⟩ := nonNegative
  have value : asUint32 (toInt32 (b.bufRetx + b.bufTx)) = b.bufRetx.toNat + b.bufTx.toNat := by
    unfold asUint32 toUint32 toInt32
    omega
  have least : ∀ bytes, bytes < 2 ^ 31 → bytes ≤ computeSduTotalBytes lcid bytes := by
    intro bytes small
    rcases Nat.eq_zero_or_pos bytes with rfl | some
    · exact Nat.zero_le _
    · exact le_trans (Nat.le_add_right _ _) (computeSduTotalBytes_ge lcid some small).1
  have leastRetx := least b.bufRetx.toNat (by omega)
  have leastTx := least b.bufTx.toNat (by omega)
  rw [value]
  refine ⟨Nat.add_le_add leastRetx leastTx, ?_⟩
  rw [none]
  omega

/-- Nothing is requested, or at least five bytes. -/
theorem NonNegative.totalBytes_least {lcid : Nat} (nonNegative : b.NonNegative) (whole : b.Whole lcid) :
    b.totalBytes lcid = 0 ∨ minMacSduSize ≤ b.totalBytes lcid := by
  obtain ⟨tx, retx⟩ := nonNegative
  have least : ∀ bytes, bytes < 2 ^ 31 → bytes = 0 ∨ lcid ≠ 0 ∨ 3 ≤ bytes →
      computeSduTotalBytes lcid bytes = 0 ∨ minMacSduSize ≤ computeSduTotalBytes lcid bytes := by
    intro bytes small enough
    rcases Nat.eq_zero_or_pos bytes with rfl | some
    · exact .inl rfl
    · exact .inr ((computeSduTotalBytes_ge lcid some small).2 (enough.resolve_left some.ne'))
  unfold Whole at whole
  have leastRetx := least b.bufRetx.toNat (by omega) (by omega)
  have leastTx := least b.bufTx.toNat (by omega) (by omega)
  unfold totalBytes
  omega

end UeBearer

/-! ## The request of a UE -/

namespace SchedUe

/-- SRB0 is a downlink bearer; without it nothing is ever requested. -/
def Srb0Dl (ue : SchedUe) : Prop := ∃ srb0 rbs, ue.lch = srb0 :: rbs ∧ bearerIsDl srb0 = true

/-- Only downlink bearers hold data. -/
def OnlyDlHolds (ue : SchedUe) : Prop :=
  ∀ b ∈ ue.lch, bearerIsDl b = false → b.bufTx = 0 ∧ b.bufRetx = 0

/-- Each queue of SRB0 is empty or holds at least three bytes. -/
def Srb0Whole (ue : SchedUe) : Prop :=
  ∀ srb0, ue.lch[0]? = some srb0 →
    (srb0.bufTx = 0 ∨ 3 ≤ srb0.bufTx) ∧ (srb0.bufRetx = 0 ∨ 3 ≤ srb0.bufRetx)

/-- No buffer is negative. -/
def NonNegative (ue : SchedUe) : Prop := ∀ b ∈ ue.lch, b.NonNegative

/-- What all queues request, and the control elements. -/
def totalBytes (ue : SchedUe) : Nat := ue.ceBytes + (ue.lch.mapIdx fun lcid b => b.totalBytes lcid).sum

/-- What the bearers above SRB0 request. -/
def rbTotal (rbs : List UeBearer) : Nat := (rbs.map (UeBearer.totalBytes 1)).sum

theorem rbTotal_cons (b : UeBearer) (rest : List UeBearer) :
    rbTotal (b :: rest) = b.totalBytes 1 + rbTotal rest := by
  rw [rbTotal, List.map_cons, List.sum_cons, rbTotal]

variable {ue : SchedUe} {srb0 : UeBearer} {rbs : List UeBearer}

theorem totalBytes_eq (shape : ue.lch = srb0 :: rbs) :
    ue.totalBytes = srb0.totalBytes 0 + ue.ceBytes + rbTotal rbs := by
  have others : (rbs.mapIdx fun lcid b => b.totalBytes (lcid + 1)) = rbs.map (UeBearer.totalBytes 1) := by
    apply List.ext_getElem?
    intro i
    simp only [List.getElem?_mapIdx, List.getElem?_map, UeBearer.totalBytes_other]
  rw [totalBytes, shape, List.mapIdx_cons, List.sum_cons, others, rbTotal]
  omega

theorem rbTotal_least (nonNegative : ∀ b ∈ rbs, b.NonNegative) :
    rbTotal rbs = 0 ∨ minMacSduSize ≤ rbTotal rbs := by
  induction rbs with
  | nil => exact .inl rfl
  | cons b rest ih =>
      obtain ⟨first, later⟩ := List.forall_mem_cons.mp nonNegative
      have own := first.totalBytes_least b.whole_other
      have others := ih later
      rw [rbTotal_cons]
      omega

/-- The members of a sum in which bearers without a downlink stand as zero. -/
theorem dl_or_zero {b : UeBearer} (onlyDl : bearerIsDl b = false → b.bufTx = 0 ∧ b.bufRetx = 0)
    {f : UeBearer → Nat} (none : b.bufRetx = 0 → b.bufTx = 0 → f b = 0) :
    (if bearerIsDl b then f b else 0) = f b := by
  cases dl : bearerIsDl b with
  | true => rfl
  | false =>
      obtain ⟨tx, retx⟩ := onlyDl dl
      exact (none retx tx).symm

theorem rbData_eq (nonNegative : ∀ b ∈ rbs, b.NonNegative)
    (onlyDl : ∀ b ∈ rbs, bearerIsDl b = false → b.bufTx = 0 ∧ b.bufRetx = 0) (total : rbTotal rbs < 2 ^ 32) :
    (rbs.map fun b => if bearerIsDl b then b.sduTotalBytes 1 else 0).sum = rbTotal rbs := by
  induction rbs with
  | nil => rfl
  | cons b rest ih =>
      obtain ⟨first, later⟩ := List.forall_mem_cons.mp nonNegative
      obtain ⟨firstDl, laterDl⟩ := List.forall_mem_cons.mp onlyDl
      rw [rbTotal_cons] at total ⊢
      have own : b.sduTotalBytes 1 = b.totalBytes 1 := by
        rw [first.sduTotalBytes, Nat.mod_eq_of_lt (by omega)]
      have kept := dl_or_zero firstDl (f := fun b => b.sduTotalBytes 1) fun retx tx =>
        own.trans ((first.totalBytes_eq_zero 1).mpr ⟨retx, tx⟩)
      rw [List.map_cons, List.sum_cons, ih later laterDl (by omega), kept, own]

/-- The request, as long as its sums do not come round. -/
theorem requested_eq (shape : ue.lch = srb0 :: rbs) (dl : bearerIsDl srb0 = true)
    (nonNegative : ue.NonNegative) (onlyDl : ue.OnlyDlHolds) (total : ue.totalBytes < 2 ^ 32) :
    ue.getRequestedDlBytes.2 = ue.totalBytes ∧
      ue.getRequestedDlBytes.1 ≤ ue.totalBytes ∧ (ue.getRequestedDlBytes.1 = 0 ↔ ue.totalBytes = 0) := by
  unfold OnlyDlHolds at onlyDl
  unfold NonNegative at nonNegative
  rw [shape] at nonNegative onlyDl
  obtain ⟨first, later⟩ := List.forall_mem_cons.mp nonNegative
  have whole := totalBytes_eq shape
  have rb := rbData_eq later (List.forall_mem_cons.mp onlyDl).2 (by omega)
  have srb0Data : (if srb0.bufTx > 0 ∨ srb0.bufRetx > 0 then srb0.sduTotalBytes 0 else 0) =
      srb0.totalBytes 0 := by
    split
    · rw [first.sduTotalBytes, Nat.mod_eq_of_lt (by omega)]
    · have none := first.totalBytes_eq_zero 0
      obtain ⟨tx, retx⟩ := first
      omega
  have ces : ue.ceBytes % 2 ^ 32 = ue.ceBytes := Nat.mod_eq_of_lt (by omega)
  have others : rbTotal rbs % 2 ^ 32 = rbTotal rbs := Nat.mod_eq_of_lt (by omega)
  have least := rbTotal_least later
  unfold minMacSduSize at least
  have sums : (ue.pendingCes.map DlSchLcid.ceTotalSize).sum = ue.ceBytes := rfl
  rw [whole]
  simp only [getRequestedDlBytes, shape, dl, Bool.not_true, Bool.false_eq_true, if_false, srb0Data, rb, sums,
    ces, others, minAllocBytes]
  cases front : ue.pendingCes with
  | nil =>
      have none : ue.ceBytes = 0 := by rw [ceBytes, front]; rfl
      simp only [none, gt_iff_lt, Nat.lt_irrefl, if_false]
      split
      · split <;> omega
      · omega
  | cons ce rest =>
      -- a contention resolution at the front counts in any case, another element only by itself
      have size : 1 ≤ ce.ceTotalSize ∧ ce.ceTotalSize ≤ ue.ceBytes := by
        rw [ceBytes, front, List.map_cons, List.sum_cons]
        refine ⟨?_, Nat.le_add_right _ _⟩
        cases ce <;> decide
      have some : ue.ceBytes > 0 := by omega
      simp only [List.head?_cons, Option.map_some, Option.getD_some, if_pos some]
      cases ce <;> simp only at size ⊢ <;> split <;> omega

/-- The bytes that wait in downlink queues do not exceed what they request. -/
theorem waiting_le (lcidOf : Nat → Nat) {lch : List UeBearer} (nonNegative : ∀ b ∈ lch, b.NonNegative)
    (onlyDl : ∀ b ∈ lch, bearerIsDl b = false → b.bufTx = 0 ∧ b.bufRetx = 0) :
    (lch.map fun b => if bearerIsDl b then asUint32 (toInt32 (b.bufRetx + b.bufTx)) else 0).sum ≤
        (lch.mapIdx fun i b => b.totalBytes (lcidOf i)).sum ∧
      ((lch.map fun b => if bearerIsDl b then asUint32 (toInt32 (b.bufRetx + b.bufTx)) else 0).sum = 0 ↔
        (lch.mapIdx fun i b => b.totalBytes (lcidOf i)).sum = 0) := by
  induction lch generalizing lcidOf with
  | nil => simp
  | cons b rest ih =>
      obtain ⟨first, later⟩ := List.forall_mem_cons.mp nonNegative
      obtain ⟨firstDl, laterDl⟩ := List.forall_mem_cons.mp onlyDl
      obtain ⟨le, zero⟩ := first.waiting (lcidOf 0)
      obtain ⟨les, zeros⟩ := ih (fun i => lcidOf (i + 1)) later laterDl
      have kept := dl_or_zero firstDl (f := fun b => asUint32 (toInt32 (b.bufRetx + b.bufTx))) fun retx tx => by
        simp [retx, tx, asUint32, toUint32, toInt32]
      rw [List.map_cons, List.sum_cons, List.mapIdx_cons, List.sum_cons, kept]
      omega

/-- Nothing is requested where nothing waits. -/
theorem pending_eq_zero (nonNegative : ue.NonNegative) (onlyDl : ue.OnlyDlHolds)
    (total : ue.totalBytes < 2 ^ 32) : ue.getPendingDlNewData = 0 ↔ ue.totalBytes = 0 := by
  obtain ⟨le, zero⟩ := waiting_le id nonNegative onlyDl
  simp only [id] at le zero
  have ces : (ue.pendingCes.map DlSchLcid.ceTotalSize).sum = ue.ceBytes := rfl
  unfold totalBytes at total ⊢
  rw [getPendingDlNewData, ces, Nat.mod_eq_of_lt (by omega)]
  omega

end SchedUe

/-! ## The block -/

/-- A queue for which there is more room than it requests is served whole, and takes no more than that. -/
theorem serveQueue_whole (room lcid : Nat) {bytes : Int} (low : 0 ≤ bytes) (high : bytes < 2 ^ 31)
    (whole : bytes = 0 ∨ lcid ≠ 0 ∨ 3 ≤ bytes) (larger : computeSduTotalBytes lcid bytes.toNat < room) :
    (serveQueue room bytes).1 = 0 ∧
      room ≤ (serveQueue room bytes).2 + computeSduTotalBytes lcid bytes.toNat := by
  rcases Int.lt_or_eq_of_le low with some | rfl
  · obtain ⟨size, least⟩ := computeSduTotalBytes_ge lcid (by omega : 0 < bytes.toNat) (by omega)
    have wide : minMacSduSize ≤ room := by
      have := least (by omega)
      omega
    have fits : bytes.toNat ≤ sduRoom room := by
      unfold sduRoom computeSubheaderSize
      unfold computeSubheaderSize at size
      split at size <;> split <;> omega
    rw [serveQueue, if_pos ⟨some, wide⟩, min_eq_left fits]
    constructor
    · simp only
      omega
    · simp only
      omega
  · rw [serveQueue_idle (.inl le_rfl)]
    exact ⟨rfl, Nat.le_add_right _ _⟩

theorem serveBearer_whole {room lcid : Nat} {b : UeBearer} (nonNegative : b.NonNegative)
    (whole : b.Whole lcid) (larger : b.totalBytes lcid < room) :
    ((serveBearer room b).1.bufTx = 0 ∧ (serveBearer room b).1.bufRetx = 0) ∧
      room ≤ (serveBearer room b).2 + b.totalBytes lcid := by
  obtain ⟨tx, retx⟩ := nonNegative
  unfold UeBearer.Whole at whole
  unfold UeBearer.totalBytes at larger ⊢
  obtain ⟨noRetx, left⟩ := serveQueue_whole room lcid retx.1 retx.2 (by omega) (by omega)
  obtain ⟨noTx, left'⟩ :=
    serveQueue_whole (serveQueue room b.bufRetx).2 lcid tx.1 tx.2 (by omega) (by omega)
  refine ⟨⟨noTx, noRetx⟩, ?_⟩
  simp only [serveBearer]
  omega

theorem serveBearers_whole {room : Nat} {rbs : List UeBearer} (nonNegative : ∀ b ∈ rbs, b.NonNegative)
    (larger : SchedUe.rbTotal rbs < room) :
    ∀ b ∈ serveBearers room rbs, b.bufTx = 0 ∧ b.bufRetx = 0 := by
  induction rbs generalizing room with
  | nil => simp [serveBearers]
  | cons b rest ih =>
      obtain ⟨first, later⟩ := List.forall_mem_cons.mp nonNegative
      rw [SchedUe.rbTotal_cons] at larger
      obtain ⟨none, left⟩ := serveBearer_whole first b.whole_other (by omega : b.totalBytes 1 < room)
      exact List.forall_mem_cons.mpr ⟨none, ih later (by omega)⟩

namespace SchedUe

variable {ue : SchedUe} {iSf : Nat}

/-- A block larger than the request leaves nothing behind. -/
theorem generateFormatN1_drains (srb0Dl : ue.Srb0Dl) (nonNegative : ue.NonNegative)
    (whole : ue.Srb0Whole) (larger : ue.totalBytes < (ue.generateFormatN1 iSf).1.tbs) :
    (ue.generateFormatN1 iSf).2.pendingCes = [] ∧
      ∀ b ∈ (ue.generateFormatN1 iSf).2.lch, b.bufTx = 0 ∧ b.bufRetx = 0 := by
  change _ < ue.blockBytes iSf at larger
  obtain ⟨srb0, rbs, shape, -⟩ := srb0Dl
  rw [totalBytes_eq shape] at larger
  have fits : (ue.pendingCes.map DlSchLcid.ceTotalSize).sum ≤ ue.blockBytes iSf := by
    change ue.ceBytes ≤ _
    omega
  have room : ue.blockBytes iSf - ue.ceBytes = (allocateMacCes ue.pendingCes (ue.blockBytes iSf)).2.2 :=
    (allocateMacCes_rem fits).symm
  rw [generateFormatN1_left, leftBy]
  refine ⟨(allocateMacCes_all _ _).mpr fits, ?_⟩
  unfold NonNegative at nonNegative
  rw [shape] at nonNegative ⊢
  obtain ⟨first, later⟩ := List.forall_mem_cons.mp nonNegative
  have whole0 : srb0.Whole 0 := .inr (whole srb0 (by rw [shape]; rfl))
  obtain ⟨none, left⟩ := serveBearer_whole first whole0
    (by omega : srb0.totalBytes 0 < ue.blockBytes iSf - ue.ceBytes)
  simp only [← room]
  exact List.forall_mem_cons.mpr ⟨none, serveBearers_whole later (by omega)⟩

/-- Where something is requested, the block carries something. -/
theorem generateFormatN1_some (srb0Dl : ue.Srb0Dl) (nonNegative : ue.NonNegative) (whole : ue.Srb0Whole)
    (request : ue.getRequestedDlBytes.2 = ue.totalBytes) (kind : iSf = 0 ∨ iSf = 2)
    (some : ue.totalBytes ≠ 0) : (ue.generateFormatN1 iSf).1.pdu ≠ [] := by
  obtain ⟨srb0, rbs, shape, -⟩ := srb0Dl
  have total := totalBytes_eq shape
  have size := selectMcs_size ue.getRequestedDlBytes.2 kind
  change _ < ue.blockBytes iSf ∨ 26 ≤ ue.blockBytes iSf at size
  intro empty
  obtain ⟨noCes, noSdus⟩ := (emptyBlock_iff ue iSf).mp empty
  rw [allocateMacCes_nil_iff] at noCes
  have bytes : ue.ceBytes = 0 := by
    cases front : ue.pendingCes with
    | nil => rw [ceBytes, front]; rfl
    | cons ce rest =>
        have small : ce.ceTotalSize ≤ 7 := by cases ce <;> decide
        have part : ce.ceTotalSize ≤ ue.ceBytes := by simp [ceBytes, front]
        have large := noCes ce (by simp [front])
        omega
  unfold NonNegative at nonNegative
  rw [shape] at nonNegative
  obtain ⟨first, later⟩ := List.forall_mem_cons.mp nonNegative
  have whole0 : srb0.Whole 0 := .inr (whole srb0 (by rw [shape]; rfl))
  have least := first.totalBytes_least whole0
  have least' := rbTotal_least later
  rcases noSdus with nothing | narrow
  · rw [sduQueue_nil_iff, shape] at nothing
    have zero : ∀ b ∈ srb0 :: rbs, ∀ lcid, b.totalBytes lcid = 0 := by
      intro b member lcid
      have none := nothing b member
      rw [(nonNegative b member).totalBytes_eq_zero lcid]
      obtain ⟨tx, retx⟩ := nonNegative b member
      omega
    have rest : rbTotal rbs = 0 := by
      rw [rbTotal, List.sum_eq_zero_iff_forall_eq_nat, List.forall_mem_map]
      exact fun b member => zero b (List.mem_cons_of_mem _ member) 1
    have own := zero srb0 List.mem_cons_self 0
    omega
  · unfold minMacSduSize at narrow least least'
    omega

end SchedUe

/-- Request and block agree, as long as what is queued adds up to less than 2^32: the least request is zero
    exactly when nothing waits, a block larger than the largest request leaves nothing behind, and a block
    of either kind that `alloc_dl_user` asks for carries something where anything is requested. -/
theorem large_block_drains {ue : SchedUe} (srb0Dl : ue.Srb0Dl) (onlyDl : ue.OnlyDlHolds)
    (nonNegative : ue.NonNegative) (whole : ue.Srb0Whole) (total : ue.totalBytes < 2 ^ 32) :
    ue.getRequestedDlBytes.1 ≤ ue.getRequestedDlBytes.2 ∧
      (0 < ue.getRequestedDlBytes.1 ↔ 0 < ue.getPendingDlNewData) ∧
      (∀ iSf, ue.getRequestedDlBytes.2 < (ue.generateFormatN1 iSf).1.tbs →
        (ue.generateFormatN1 iSf).2.pendingCes = [] ∧
          ∀ b ∈ (ue.generateFormatN1 iSf).2.lch, b.bufTx = 0 ∧ b.bufRetx = 0) ∧
      ∀ iSf, iSf = 0 ∨ iSf = 2 → 0 < ue.getRequestedDlBytes.1 →
        (ue.generateFormatN1 iSf).1.pdu ≠ [] := by
  obtain ⟨srb0, rbs, shape, dl⟩ := id srb0Dl
  obtain ⟨largest, ordered, zero⟩ := SchedUe.requested_eq shape dl nonNegative onlyDl total
  have pending := SchedUe.pending_eq_zero nonNegative onlyDl total
  refine ⟨by omega, by omega, ?_, ?_⟩
  · intro iSf larger
    rw [largest] at larger
    exact SchedUe.generateFormatN1_drains srb0Dl nonNegative whole larger
  · intro iSf kind requested
    exact SchedUe.generateFormatN1_some srb0Dl nonNegative whole largest kind (by omega)

/-- Contention resolution, a message on SRB0 and a status on SRB1 leave in one block. -/
theorem first_messages_drain :
    let ue : SchedUe := { rnti := 4097, pendingCes := [.conResId], lch :=
      [⟨.both, 40, 0, 0⟩, ⟨.both, 2, 3, 0⟩, ⟨.ul, 0, 0, 9⟩, ⟨.both, 0, 0, 0⟩, {}, {}] }
    (ue.generateFormatN1 2).1.tbs = 63 ∧ (ue.generateFormatN1 2).2.pendingCes = [] ∧
      (∀ b ∈ (ue.generateFormatN1 2).2.lch, b.bufTx = 0 ∧ b.bufRetx = 0) ∧
      (ue.generateFormatN1 2).1.pdu ≠ [] := by
  intro ue
  obtain ⟨-, -, drains, carries⟩ := @large_block_drains ue ⟨_, _, rfl, rfl⟩
    (by unfold SchedUe.OnlyDlHolds; decide)
    (by unfold SchedUe.NonNegative UeBearer.NonNegative; decide)
    (by unfold SchedUe.Srb0Whole; decide) (by decide)
  have size : (ue.generateFormatN1 2).1.tbs = 63 := by decide
  obtain ⟨ces, bearers⟩ := drains 2 (by decide)
  exact ⟨size, ces, bearers, carries 2 (.inr rfl) (by decide)⟩

/-- With the largest `int` on each of two bearers the sum of the request comes round: the largest request
    is below the least, and a block of five bytes, which is larger, leaves both queues full. -/
theorem request_comes_round :
    let ue : SchedUe := { rnti := 4097, lch :=
      [⟨.both, 2147483647, 0, 0⟩, ⟨.both, 2147483647, 0, 0⟩, {}, {}, {}, {}] }
    (ue.Srb0Dl ∧ ue.OnlyDlHolds ∧ ue.NonNegative ∧ ue.Srb0Whole) ∧
      ue.getRequestedDlBytes = (2147483650, 4) ∧
      ue.getRequestedDlBytes.2 < (ue.generateFormatN1 0).1.tbs ∧
      ¬ (ue.getRequestedDlBytes.1 ≤ ue.getRequestedDlBytes.2 ∧
        ∀ b ∈ (ue.generateFormatN1 0).2.lch, b.bufTx = 0 ∧ b.bufRetx = 0) := by
  intro ue
  refine ⟨⟨⟨_, _, rfl, rfl⟩, ?_, ?_, ?_⟩, by decide, by decide, ?_⟩
  · unfold SchedUe.OnlyDlHolds; decide
  · unfold SchedUe.NonNegative UeBearer.NonNegative; decide
  · unfold SchedUe.Srb0Whole; decide
  · rintro ⟨ordered, -⟩
    exact absurd ordered (by decide)

end SonicaEnb
