import SonicaEnb.Mac.Frames

/-! # The downlink queues of a UE and a transport block

What `generate_formatN1` takes from the control elements and the bearers of a UE
is exactly what it lists. The bearers stand in the order in which `alloc_rlc_pdu`
takes from them, so one pass over them says what a block leaves.
-/

namespace SonicaEnb

/-! ## What is taken is what is listed -/

/-- The bytes of bearer `i` that a list of PDUs names. -/
def listedBytes (pdus : List DlSchedPdu) (i : Nat) : Nat :=
  ((pdus.filter fun p => p.lcid == i).map DlSchedPdu.nbytes).sum

/-- `n` bytes less in a bearer, retransmissions first. -/
structure BearerGives (n : Nat) (b b' : UeBearer) : Prop where
  enough : n ≤ b.bufRetx.toNat + b.bufTx.toNat
  bufRetx : b'.bufRetx = b.bufRetx - (min n b.bufRetx.toNat : Nat)
  bufTx : b'.bufTx = b.bufTx - (n - b.bufRetx.toNat : Nat)
  direction : b'.direction = b.direction

theorem BearerGives.nothing (b : UeBearer) : BearerGives 0 b b :=
  ⟨Nat.zero_le _, by simp, by simp, rfl⟩

theorem BearerGives.trans {n m : Nat} {b b' b'' : UeBearer} (first : BearerGives n b b')
    (second : BearerGives m b' b'') : BearerGives (n + m) b b'' := by
  obtain ⟨enough, retx, tx, direction⟩ := first
  obtain ⟨enough', retx', tx', direction'⟩ := second
  exact ⟨by omega, by omega, by omega, direction'.trans direction⟩

/-- Every bearer gives the bytes listed for it. -/
def BearersGive (pdus : List DlSchedPdu) (lch lch' : List UeBearer) : Prop :=
  lch'.length = lch.length ∧ ∀ i b, lch[i]? = some b →
    ∃ b', lch'[i]? = some b' ∧ BearerGives (listedBytes pdus i) b b'

/-- A bearer that gives, and the others, which give nothing. -/
theorem BearerGives.set {j bytes : Nat} {lch : List UeBearer} {b b' : UeBearer}
    (here : lch[j]? = some b) (given : BearerGives bytes b b') :
    BearersGive [⟨j, bytes⟩] lch (lch.set j b') := by
  refine ⟨List.length_set, ?_⟩
  intro i b₁ there
  by_cases own : j = i
  · subst own
    cases here.symm.trans there
    have inside := (List.getElem?_eq_some_iff.mp here).1
    exact ⟨b', List.getElem?_set_self inside, by simpa [listedBytes] using given⟩
  · rw [List.getElem?_set_ne own]
    exact ⟨b₁, there, by simpa [listedBytes, own] using BearerGives.nothing b₁⟩

theorem allocRlcPdu_gives {remTbs j bytes : Nat} {lch lch' : List UeBearer}
    (ran : allocRlcPdu remTbs lch = some (j, bytes, lch')) : BearersGive [⟨j, bytes⟩] lch lch' := by
  obtain ⟨b, here, ⟨-, taken, rfl⟩ | ⟨noRetx, -, taken, rfl⟩⟩ := allocRlcPdu_cases ran
  · exact BearerGives.set here ⟨by omega, by simp only; omega, by simp only; omega, rfl⟩
  · exact BearerGives.set here ⟨by omega, by simp only; omega, by simp only; omega, rfl⟩

theorem listedBytes_cons (p : DlSchedPdu) (pdus : List DlSchedPdu) (i : Nat) :
    listedBytes (p :: pdus) i = listedBytes [p] i + listedBytes pdus i := by
  simp only [listedBytes, List.filter_cons, List.filter_nil]
  split <;> simp

theorem listedBytes_append (pdus pdus' : List DlSchedPdu) (i : Nat) :
    listedBytes (pdus ++ pdus') i = listedBytes pdus i + listedBytes pdus' i := by
  simp [listedBytes]

/-- Control elements are listed without bytes. -/
theorem listedBytes_ces (ces : List DlSchLcid) (i : Nat) :
    listedBytes (ces.map fun ce => ⟨ce.code, 0⟩) i = 0 := by
  induction ces with
  | nil => rfl
  | cons ce ces ih =>
      rw [List.map_cons, listedBytes_cons, ih]
      simp only [listedBytes, List.filter_cons, List.filter_nil]
      split <;> rfl

theorem BearersGive.refl (lch : List UeBearer) : BearersGive [] lch lch :=
  ⟨rfl, fun _ b at' => ⟨b, at', BearerGives.nothing b⟩⟩

theorem BearersGive.cons {p : DlSchedPdu} {pdus : List DlSchedPdu} {lch lch' lch'' : List UeBearer}
    (first : BearersGive [p] lch lch') (later : BearersGive pdus lch' lch'') :
    BearersGive (p :: pdus) lch lch'' := by
  refine ⟨later.1.trans first.1, ?_⟩
  intro i b at'
  obtain ⟨b', there, given⟩ := first.2 i b at'
  obtain ⟨b'', end', given'⟩ := later.2 i b' there
  exact ⟨b'', end', by rw [listedBytes_cons]; exact given.trans given'⟩

/-- The SDU loop takes what it lists, and lists no empty SDU. -/
theorem allocateMacSdusLoop_gives (fuel : Nat) (lch : List UeBearer) (remTbs : Nat) :
    BearersGive (allocateMacSdusLoop fuel lch remTbs).1 lch (allocateMacSdusLoop fuel lch remTbs).2.1 ∧
      ∀ p ∈ (allocateMacSdusLoop fuel lch remTbs).1, p.nbytes ≠ 0 := by
  induction fuel generalizing lch remTbs with
  | zero => exact ⟨.refl lch, by simp [allocateMacSdusLoop]⟩
  | succ fuel ih =>
      unfold allocateMacSdusLoop
      split
      · exact ⟨.refl lch, by simp⟩
      · split
        · exact ⟨.refl lch, by simp⟩
        · rename_i lcid bytes lch' first
          split
          · exact ⟨.refl lch, by simp⟩
          · rename_i some
            obtain ⟨later, nonzero⟩ := ih lch' (remTbs - (bytes + computeSubheaderSize bytes))
            refine ⟨(allocRlcPdu_gives first).cons later, ?_⟩
            intro p member
            rcases List.mem_cons.mp member with rfl | rest
            · exact some
            · exact nonzero p rest

/-- Control elements leave from the front, and those that leave are listed. -/
theorem allocateMacCes_append (ces : List DlSchLcid) (remTbs : Nat) :
    (allocateMacCes ces remTbs).1 ++ (allocateMacCes ces remTbs).2.1 = ces := by
  induction ces generalizing remTbs with
  | nil => rfl
  | cons ce ces ih =>
      unfold allocateMacCes
      split
      · rfl
      · simp [ih]

/-! ## The queues -/

/-- The bytes of an SDU that a rest of `remTbs` bytes has room for. -/
def sduRoom (remTbs : Nat) : Nat := remTbs - computeSubheaderSize (remTbs - 2)

theorem sduRoom_pos {remTbs : Nat} (wide : minMacSduSize ≤ remTbs) : 0 < sduRoom remTbs := by
  unfold sduRoom computeSubheaderSize
  unfold minMacSduSize at wide
  split <;> omega

/-- An SDU that takes all the room leaves none for another. -/
theorem sduRoom_fills {remTbs : Nat} (wide : minMacSduSize ≤ remTbs) :
    remTbs - (sduRoom remTbs + computeSubheaderSize (sduRoom remTbs)) < minMacSduSize := by
  unfold sduRoom computeSubheaderSize
  unfold minMacSduSize at wide ⊢
  split
  · split <;> omega
  · omega

/-- The queues that hold data, in the order in which they are taken. A negative buffer holds none. -/
def sduQueue (lch : List UeBearer) : List Nat :=
  (lch.flatMap fun b => [b.bufRetx.toNat, b.bufTx.toNat]).filter fun bytes => decide (0 < bytes)

theorem sduQueue_cons (b : UeBearer) (rest : List UeBearer) :
    sduQueue (b :: rest) =
      ([b.bufRetx.toNat, b.bufTx.toNat].filter fun bytes => decide (0 < bytes)) ++ sduQueue rest := by
  rw [sduQueue, List.flatMap_cons, List.filter_append, sduQueue]

theorem sduQueue_nil_iff (lch : List UeBearer) :
    sduQueue lch = [] ↔ ∀ b ∈ lch, b.bufRetx ≤ 0 ∧ b.bufTx ≤ 0 := by
  induction lch with
  | nil => simp [sduQueue]
  | cons b rest ih =>
      rw [sduQueue_cons, List.append_eq_nil_iff, ih, List.forall_mem_cons]
      apply and_congr_left
      intro _
      simp [List.filter_eq_nil_iff]

/-- The queue after its first entry was given `room` bytes. -/
def serveHead (room bytes : Nat) (rest : List Nat) : List Nat :=
  if bytes ≤ room then rest else (bytes - room) :: rest

theorem allocRlcPdu_none {remTbs : Nat} {lch : List UeBearer} :
    allocRlcPdu remTbs lch = none ↔ sduQueue lch = [] := by
  induction lch with
  | nil => simp [allocRlcPdu, sduQueue]
  | cons b rest ih =>
      rw [sduQueue_cons]
      unfold allocRlcPdu
      by_cases retx : 0 < b.bufRetx
      · simp [retx]
      · by_cases tx : 0 < b.bufTx
        · simp [retx, tx]
        · have noRetx : b.bufRetx.toNat = 0 := by omega
          have noTx : b.bufTx.toNat = 0 := by omega
          simp only [retx, tx, noRetx, noTx, if_false, Nat.lt_irrefl, decide_false, Bool.false_eq_true,
            List.filter_cons, List.filter_nil, List.nil_append, ← ih]
          cases allocRlcPdu remTbs rest with
          | none => simp
          | some found => simp

theorem allocRlcPdu_queue {remTbs j bytes : Nat} {lch lch' : List UeBearer}
    (ran : allocRlcPdu remTbs lch = some (j, bytes, lch')) :
    ∃ first rest, sduQueue lch = first :: rest ∧ 0 < first ∧ bytes = min first remTbs ∧
      sduQueue lch' = serveHead remTbs first rest := by
  induction lch generalizing j lch' with
  | nil => cases ran
  | cons b rest ih =>
      rw [sduQueue_cons]
      unfold allocRlcPdu at ran
      split at ran
      · rename_i retx
        cases ran
        have some : 0 < b.bufRetx.toNat := by omega
        refine ⟨b.bufRetx.toNat, ([b.bufTx.toNat].filter fun bytes => decide (0 < bytes)) ++ sduQueue rest,
          by simp [some], some, rfl, ?_⟩
        have left : (b.bufRetx - (min b.bufRetx.toNat remTbs : Nat)).toNat = b.bufRetx.toNat - remTbs := by
          omega
        rw [sduQueue_cons]
        simp only [left, serveHead]
        by_cases fits : b.bufRetx.toNat ≤ remTbs
        · simp [fits]
        · have more : 0 < b.bufRetx.toNat - remTbs := by omega
          simp [fits, more]
      · rename_i noRetx
        have none : b.bufRetx.toNat = 0 := by omega
        split at ran
        · rename_i tx
          cases ran
          have some : 0 < b.bufTx.toNat := by omega
          refine ⟨b.bufTx.toNat, sduQueue rest, by simp [none, some], some, rfl, ?_⟩
          have left : (b.bufTx - (min b.bufTx.toNat remTbs : Nat)).toNat = b.bufTx.toNat - remTbs := by
            omega
          rw [sduQueue_cons]
          simp only [left, none, serveHead]
          by_cases fits : b.bufTx.toNat ≤ remTbs
          · simp [fits]
          · have more : 0 < b.bufTx.toNat - remTbs := by omega
            simp [fits, more]
        · rename_i noTx
          have none' : b.bufTx.toNat = 0 := by omega
          split at ran
          · cases ran
          · rename_i lcid bytes' rest' later
            cases ran
            obtain ⟨first, behind, shape, pos, taken, after⟩ := ih later
            exact ⟨first, behind, by simp [none, none', shape], pos, taken,
              by simp [sduQueue_cons, none, none', after]⟩

/-- The bytes waiting in the queues. -/
def queuedBytes (lch : List UeBearer) : Nat := (sduQueue lch).sum

theorem allocRlcPdu_queuedBytes {remTbs j bytes : Nat} {lch lch' : List UeBearer}
    (ran : allocRlcPdu remTbs lch = some (j, bytes, lch')) :
    queuedBytes lch' + bytes = queuedBytes lch ∧ (0 < remTbs → 0 < bytes) := by
  obtain ⟨first, rest, shape, pos, taken, after⟩ := allocRlcPdu_queue ran
  refine ⟨?_, fun room => by omega⟩
  rw [queuedBytes, queuedBytes, shape, after, taken, serveHead]
  split
  · simp only [List.sum_cons]; omega
  · simp only [List.sum_cons]; omega

theorem allocateMacSdusLoop_queuedBytes (fuel remTbs : Nat) (lch : List UeBearer) :
    queuedBytes (allocateMacSdusLoop fuel lch remTbs).2.1 ≤ queuedBytes lch := by
  induction fuel generalizing lch remTbs with
  | zero => exact le_rfl
  | succ fuel ih =>
      unfold allocateMacSdusLoop
      split
      · exact le_rfl
      · split
        · exact le_rfl
        · rename_i lcid bytes lch' first
          split
          · exact le_rfl
          · have served := (allocRlcPdu_queuedBytes first).1
            exact (ih (remTbs - (bytes + computeSubheaderSize bytes)) lch').trans (by omega)

/-- With room for an SDU and an SDU in the queue, the loop takes some of it. -/
theorem allocateMacSdusLoop_takes {remTbs fuel : Nat} {lch : List UeBearer} (enough : remTbs ≤ fuel)
    (wide : minMacSduSize ≤ remTbs) (queued : sduQueue lch ≠ []) :
    queuedBytes (allocateMacSdusLoop fuel lch remTbs).2.1 < queuedBytes lch := by
  cases fuel with
  | zero => unfold minMacSduSize at wide; omega
  | succ fuel =>
      unfold allocateMacSdusLoop
      rw [if_neg (by omega)]
      cases first : allocRlcPdu (remTbs - computeSubheaderSize (remTbs - 2)) lch with
      | none => exact absurd (allocRlcPdu_none.mp first) queued
      | some found =>
          obtain ⟨lcid, bytes, lch'⟩ := found
          obtain ⟨served, takes⟩ := allocRlcPdu_queuedBytes first
          have some : bytes ≠ 0 := (takes (sduRoom_pos wide)).ne'
          simp only [some, if_false]
          have later := allocateMacSdusLoop_queuedBytes fuel
            (remTbs - (bytes + computeSubheaderSize bytes)) lch'
          exact Nat.lt_of_le_of_lt later (by omega)

theorem allocateMacSdusLoop_idle {fuel remTbs : Nat} {lch : List UeBearer}
    (idle : sduQueue lch = [] ∨ remTbs < minMacSduSize) :
    allocateMacSdusLoop fuel lch remTbs = ([], lch, remTbs) := by
  cases fuel with
  | zero => rfl
  | succ fuel =>
      unfold allocateMacSdusLoop
      rcases idle with empty | small
      · rw [allocRlcPdu_none.mpr empty]
        simp
      · rw [if_pos small]

/-- The queue is a matter of the downlink view. -/
theorem sduQueue_of_dlView {lch lch' : List UeBearer}
    (same : lch.map UeBearer.dlView = lch'.map UeBearer.dlView) : sduQueue lch = sduQueue lch' := by
  have queues := congrArg (List.flatMap fun v : BearerDirection × Int × Int => [v.2.1.toNat, v.2.2.toNat]) same
  rw [List.flatMap_map, List.flatMap_map] at queues
  exact congrArg (List.filter fun bytes => decide (0 < bytes)) queues

/-! ## One pass over the bearers -/

/-- What a queue keeps of its bytes when a block has `room` bytes left, and what is left then. -/
def serveQueue (room : Nat) (bytes : Int) : Int × Nat :=
  if 0 < bytes ∧ minMacSduSize ≤ room then
    let taken := min bytes.toNat (sduRoom room)
    (bytes - taken, room - (taken + computeSubheaderSize taken))
  else (bytes, room)

def serveBearer (room : Nat) (b : UeBearer) : UeBearer × Nat :=
  let (bufRetx, room) := serveQueue room b.bufRetx
  let (bufTx, room) := serveQueue room b.bufTx
  ({ b with bufRetx, bufTx }, room)

/-- The bearers after a block with `room` bytes for SDUs. -/
def serveBearers : Nat → List UeBearer → List UeBearer
  | _, [] => []
  | room, b :: rest => (serveBearer room b).1 :: serveBearers (serveBearer room b).2 rest

theorem serveQueue_idle {room : Nat} {bytes : Int} (idle : bytes ≤ 0 ∨ room < minMacSduSize) :
    serveQueue room bytes = (bytes, room) := by
  rw [serveQueue, if_neg (by omega)]

/-- A queue that was served is not served again: it is empty, or the block is full. -/
theorem serveQueue_again {room : Nat} {bytes : Int} (some : 0 < bytes) (wide : minMacSduSize ≤ room) :
    serveQueue (room - (min bytes.toNat (sduRoom room) + computeSubheaderSize (min bytes.toNat (sduRoom room))))
        (bytes - (min bytes.toNat (sduRoom room) : Nat)) = serveQueue room bytes := by
  have served : serveQueue room bytes = (bytes - (min bytes.toNat (sduRoom room) : Nat),
      room - (min bytes.toNat (sduRoom room) + computeSubheaderSize (min bytes.toNat (sduRoom room)))) := by
    rw [serveQueue, if_pos ⟨some, wide⟩]
  rw [served]
  apply serveQueue_idle
  by_cases fits : bytes.toNat ≤ sduRoom room
  · left
    omega
  · right
    rw [min_eq_right (not_le.mp fits).le]
    exact sduRoom_fills wide

theorem serveBearer_idle {room : Nat} {b : UeBearer}
    (idle : (b.bufRetx ≤ 0 ∧ b.bufTx ≤ 0) ∨ room < minMacSduSize) : serveBearer room b = (b, room) := by
  rw [serveBearer, serveQueue_idle (idle.imp And.left id)]
  simp only [serveQueue_idle (idle.imp And.right id)]

theorem serveBearers_idle {room : Nat} {lch : List UeBearer}
    (idle : sduQueue lch = [] ∨ room < minMacSduSize) : serveBearers room lch = lch := by
  rw [sduQueue_nil_iff] at idle
  induction lch with
  | nil => rfl
  | cons b rest ih =>
      have first : serveBearer room b = (b, room) :=
        serveBearer_idle (idle.imp_left fun none => none b List.mem_cons_self)
      rw [serveBearers, first, ih (idle.imp_left fun none => (List.forall_mem_cons.mp none).2)]

/-- A turn of the SDU loop is the beginning of the pass. -/
theorem serveBearers_turn {room j bytes : Nat} {lch lch' : List UeBearer} (wide : minMacSduSize ≤ room)
    (ran : allocRlcPdu (sduRoom room) lch = some (j, bytes, lch')) :
    serveBearers room lch = serveBearers (room - (bytes + computeSubheaderSize bytes)) lch' := by
  induction lch generalizing j lch' with
  | nil => cases ran
  | cons b rest ih =>
      unfold allocRlcPdu at ran
      split at ran
      · rename_i retx
        cases ran
        simp only [serveBearers, serveBearer, serveQueue_again retx wide]
      · rename_i noRetx
        have empty (room' : Nat) : serveQueue room' b.bufRetx = (b.bufRetx, room') :=
          serveQueue_idle (.inl (not_lt.mp noRetx))
        split at ran
        · rename_i tx
          cases ran
          simp only [serveBearers, serveBearer, empty, serveQueue_again tx wide]
        · rename_i noTx
          have empty' (room' : Nat) : serveBearer room' b = (b, room') :=
            serveBearer_idle (.inl ⟨not_lt.mp noRetx, not_lt.mp noTx⟩)
          split at ran
          · cases ran
          · rename_i lcid bytes' rest' later
            cases ran
            simp only [serveBearers, empty', ih later]

theorem allocateMacSdusLoop_served {fuel remTbs : Nat} {lch : List UeBearer} (enough : remTbs ≤ fuel) :
    (allocateMacSdusLoop fuel lch remTbs).2.1 = serveBearers remTbs lch := by
  induction fuel generalizing lch remTbs with
  | zero => exact (serveBearers_idle (.inr (by unfold minMacSduSize; omega))).symm
  | succ fuel ih =>
      unfold allocateMacSdusLoop
      split
      · rename_i full
        exact (serveBearers_idle (.inr full)).symm
      · rename_i open'
        have wide := not_lt.mp open'
        split
        · rename_i nothing
          exact (serveBearers_idle (.inl (allocRlcPdu_none.mp nothing))).symm
        · rename_i lcid bytes lch' first
          have some : bytes ≠ 0 := ((allocRlcPdu_queuedBytes first).2 (sduRoom_pos wide)).ne'
          rw [if_neg some, serveBearers_turn wide first]
          exact ih (by omega)

/-- What the pass leaves is a matter of the downlink view. -/
theorem serveBearers_of_dlView {lch lch' : List UeBearer} (room : Nat)
    (same : lch.map UeBearer.dlView = lch'.map UeBearer.dlView) :
    (serveBearers room lch).map UeBearer.dlView = (serveBearers room lch').map UeBearer.dlView := by
  induction lch generalizing lch' room with
  | nil =>
      rw [List.map_nil, eq_comm, List.map_eq_nil_iff] at same
      rw [same]
  | cons b rest ih =>
      rw [List.map_cons, eq_comm, List.map_eq_cons_iff] at same
      obtain ⟨b', rest', rfl, first, later⟩ := same
      simp only [UeBearer.dlView, Prod.mk.injEq] at first
      obtain ⟨direction, retx, tx⟩ := first
      simp only [serveBearers, serveBearer, List.map_cons, UeBearer.dlView, direction, retx, tx,
        ih _ later.symm]

namespace SchedUe

/-- From `ue` to `ue'` the PDUs listed are taken from the downlink queues, and nothing else. -/
structure DlConsumed (ue ue' : SchedUe) (pdus : List DlSchedPdu) : Prop where
  ces : ∃ taken, ue.pendingCes = taken ++ ue'.pendingCes ∧
    (pdus.filter fun p => p.nbytes == 0) = taken.map fun ce => ⟨ce.code, 0⟩
  sdus : BearersGive pdus ue.lch ue'.lch

theorem generateFormatN1_consumed (ue : SchedUe) (iSf : Nat) :
    DlConsumed ue (ue.generateFormatN1 iSf).2 (ue.generateFormatN1 iSf).1.pdu := by
  unfold generateFormatN1
  simp only
  generalize tbsNbiot (selectMcs ue.getRequestedDlBytes.2 iSf) iSf / 8 = tbs
  have append := allocateMacCes_append ue.pendingCes tbs
  have loop := allocateMacSdusLoop_gives (allocateMacCes ue.pendingCes tbs).2.2 ue.lch
    (allocateMacCes ue.pendingCes tbs).2.2
  obtain ⟨gives, nonzero⟩ := loop
  constructor
  · refine ⟨(allocateMacCes ue.pendingCes tbs).1, append.symm, ?_⟩
    rw [List.filter_append, List.filter_eq_self.mpr, List.filter_eq_nil_iff.mpr, List.append_nil]
    · intro p member
      simpa using nonzero p member
    · intro p member
      obtain ⟨ce, -, rfl⟩ := List.mem_map.mp member
      rfl
  · refine ⟨gives.1, ?_⟩
    intro i b at'
    obtain ⟨b', there, given⟩ := gives.2 i b at'
    refine ⟨b', there, ?_⟩
    rw [listedBytes_append, listedBytes_ces, Nat.zero_add]
    exact given

/-! ### One block after another -/

def ceBytes (ue : SchedUe) : Nat := (ue.pendingCes.map DlSchLcid.ceTotalSize).sum

/-- The size of the block that `generate_formatN1` chooses. -/
def blockBytes (ue : SchedUe) (iSf : Nat) : Nat :=
  tbsNbiot (selectMcs ue.getRequestedDlBytes.2 iSf) iSf / 8

/-- The block is larger than the request, or the largest of its kind. -/
theorem selectMcs_size (maxData : Nat) {iSf : Nat} (kind : iSf = 0 ∨ iSf = 2) :
    maxData < tbsNbiot (selectMcs maxData iSf) iSf / 8 ∨
      26 ≤ tbsNbiot (selectMcs maxData iSf) iSf / 8 := by
  unfold selectMcs
  cases found : (List.range 13).find? fun mcs => decide (tbsNbiot mcs iSf / 8 > maxData) with
  | none =>
      right
      rcases kind with rfl | rfl <;> decide
  | some mcs =>
      left
      simpa using List.find?_some found

theorem selectMcs_three (maxData : Nat) :
    tbsNbiot (selectMcs maxData 0) 0 / 8 < minMacSduSize ↔ maxData ≤ 3 := by
  unfold minMacSduSize
  constructor
  · intro small
    rcases selectMcs_size maxData (.inl rfl : 0 = 0 ∨ 0 = 2) with larger | largest <;> omega
  · intro few
    have cases' : maxData = 0 ∨ maxData = 1 ∨ maxData = 2 ∨ maxData = 3 := by omega
    rcases cases' with rfl | rfl | rfl | rfl <;> decide

/-- A block of three subframes has room for an SDU and for every control element. -/
theorem selectMcs_wide (maxData : Nat) : 7 ≤ tbsNbiot (selectMcs maxData 2) 2 / 8 := by
  unfold selectMcs
  cases found : (List.range 13).find? fun mcs => decide (tbsNbiot mcs 2 / 8 > maxData) with
  | none => decide
  | some mcs =>
      have inside := List.mem_of_find?_eq_some found
      have all : ∀ mcs ∈ List.range 13, 7 ≤ tbsNbiot mcs 2 / 8 := by decide
      exact all mcs inside

theorem allocateMacCes_all (ces : List DlSchLcid) (remTbs : Nat) :
    (allocateMacCes ces remTbs).2.1 = [] ↔ (ces.map DlSchLcid.ceTotalSize).sum ≤ remTbs := by
  induction ces generalizing remTbs with
  | nil => simp [allocateMacCes]
  | cons ce ces ih =>
      unfold allocateMacCes
      split
      · simp only [List.map_cons, List.sum_cons, reduceCtorEq, false_iff]
        omega
      · simp only [List.map_cons, List.sum_cons, ih]
        omega

theorem allocateMacCes_rem {ces : List DlSchLcid} {remTbs : Nat}
    (fits : (ces.map DlSchLcid.ceTotalSize).sum ≤ remTbs) :
    (allocateMacCes ces remTbs).2.2 = remTbs - (ces.map DlSchLcid.ceTotalSize).sum := by
  induction ces generalizing remTbs with
  | nil => rfl
  | cons ce ces ih =>
      simp only [List.map_cons, List.sum_cons] at fits ⊢
      unfold allocateMacCes
      rw [if_neg (by omega)]
      simp only
      rw [ih (by omega)]
      omega

theorem allocateMacCes_nil_iff (ces : List DlSchLcid) (remTbs : Nat) :
    (allocateMacCes ces remTbs).1 = [] ↔ ∀ ce ∈ ces.head?, remTbs < ce.ceTotalSize := by
  cases ces with
  | nil => simp [allocateMacCes]
  | cons ce rest =>
      unfold allocateMacCes
      split
      · rename_i wide
        simpa using wide
      · rename_i fits
        simpa using not_lt.mp fits

/-- The UE after a block of `block` bytes. -/
def leftBy (ue : SchedUe) (block : Nat) : SchedUe :=
  let filled := allocateMacCes ue.pendingCes block
  { ue with pendingCes := filled.2.1, lch := serveBearers filled.2.2 ue.lch }

theorem generateFormatN1_left (ue : SchedUe) (iSf : Nat) :
    (ue.generateFormatN1 iSf).2 = ue.leftBy (ue.blockBytes iSf) := by
  have served := @allocateMacSdusLoop_served _ (allocateMacCes ue.pendingCes (ue.blockBytes iSf)).2.2
    ue.lch le_rfl
  simp only [leftBy, ← served]
  rfl

end SchedUe

end SonicaEnb
