import SonicaEnb.Lib.Search
import SonicaEnb.Mac.DlQueue

/-! # Blocks that carry nothing

The result loop fills a block for every allocation of the subframe, each time it
runs. What a UE has waiting in downlink never grows by it, so the loop leaves the
UEs as they are exactly when all the blocks are empty, and then only does a
second round list what the first has listed.
-/

namespace SonicaEnb

/-- Without room for the first control element nothing changes. -/
theorem allocateMacCes_nothing {ces : List DlSchLcid} {remTbs : Nat}
    (nothing : (allocateMacCes ces remTbs).1 = []) :
    allocateMacCes ces remTbs = ([], ces, remTbs) := by
  cases ces with
  | nil => rfl
  | cons ce ces =>
      unfold allocateMacCes at nothing ⊢
      split
      · rfl
      · rename_i fits
        rw [if_neg fits] at nothing
        cases nothing

theorem allocateMacSdusLoop_same {fuel remTbs : Nat} {lch : List UeBearer}
    (nothing : (allocateMacSdusLoop fuel lch remTbs).1 = []) :
    (allocateMacSdusLoop fuel lch remTbs).2.1 = lch := by
  cases fuel with
  | zero => rfl
  | succ fuel =>
      unfold allocateMacSdusLoop at nothing ⊢
      split
      · rfl
      · rename_i wide
        rw [if_neg wide] at nothing
        cases first : allocRlcPdu (remTbs - computeSubheaderSize (remTbs - 2)) lch with
        | none => rfl
        | some found =>
            simp only [first] at nothing ⊢
            split
            · rfl
            · rename_i some
              rw [if_neg some] at nothing
              cases nothing

/-- Nothing is listed where nothing is queued, or where there is no room. -/
theorem allocateMacSdusLoop_nothing {fuel remTbs : Nat} {lch : List UeBearer} (enough : remTbs ≤ fuel) :
    (allocateMacSdusLoop fuel lch remTbs).1 = [] ↔
      sduQueue lch = [] ∨ remTbs < minMacSduSize := by
  constructor
  · intro nothing
    by_contra something
    rw [not_or, Nat.not_lt] at something
    have takes := allocateMacSdusLoop_takes enough something.2 something.1
    rw [allocateMacSdusLoop_same nothing] at takes
    exact Nat.lt_irrefl _ takes
  · intro idle
    rw [allocateMacSdusLoop_idle idle]

namespace SchedUe

/-- The block that `generate_formatN1` fills for the UE carries nothing. -/
def EmptyBlock (ue : SchedUe) (iSf : Nat) : Prop := (ue.generateFormatN1 iSf).1.pdu = []

instance (ue : SchedUe) (iSf : Nat) : Decidable (ue.EmptyBlock iSf) :=
  inferInstanceAs (Decidable (_ = _))

theorem emptyBlock_iff (ue : SchedUe) (iSf : Nat) :
    ue.EmptyBlock iSf ↔ (allocateMacCes ue.pendingCes (ue.blockBytes iSf)).1 = [] ∧
      (sduQueue ue.lch = [] ∨ ue.blockBytes iSf < minMacSduSize) := by
  have shape : ue.EmptyBlock iSf ↔ (allocateMacCes ue.pendingCes (ue.blockBytes iSf)).1 = [] ∧
      (allocateMacSdus ue.lch (allocateMacCes ue.pendingCes (ue.blockBytes iSf)).2.2).1 = [] := by
    change _ ++ _ = [] ↔ _
    rw [List.append_eq_nil_iff, List.map_eq_nil_iff]
    rfl
  rw [shape]
  apply and_congr_right
  intro noCes
  rw [allocateMacCes_nothing noCes]
  exact allocateMacSdusLoop_nothing le_rfl

/-- An empty block takes nothing from its UE. -/
theorem EmptyBlock.same {ue : SchedUe} {iSf : Nat} (empty : ue.EmptyBlock iSf) :
    (ue.generateFormatN1 iSf).2 = ue := by
  obtain ⟨noCes, idle⟩ := (emptyBlock_iff ue iSf).mp empty
  rw [generateFormatN1_left, leftBy, allocateMacCes_nothing noCes]
  simp only [serveBearers_idle idle]

/-- What a UE has waiting in downlink: control elements and bytes. -/
def dlLoad (ue : SchedUe) : Nat := ue.pendingCes.length + queuedBytes ue.lch

/-- A block takes something from its UE, unless it is empty. -/
theorem dlLoad_generateFormatN1 (ue : SchedUe) (iSf : Nat) :
    (ue.generateFormatN1 iSf).2.dlLoad < ue.dlLoad ∨ ue.EmptyBlock iSf := by
  have ces := congrArg List.length (allocateMacCes_append ue.pendingCes (ue.blockBytes iSf))
  have sdus := allocateMacSdusLoop_queuedBytes
    (allocateMacCes ue.pendingCes (ue.blockBytes iSf)).2.2
    (allocateMacCes ue.pendingCes (ue.blockBytes iSf)).2.2 ue.lch
  rw [allocateMacSdusLoop_served le_rfl] at sdus
  rw [List.length_append] at ces
  by_cases noCes : (allocateMacCes ue.pendingCes (ue.blockBytes iSf)).1 = []
  · by_cases idle : sduQueue ue.lch = [] ∨ ue.blockBytes iSf < minMacSduSize
    · exact .inr ((emptyBlock_iff ue iSf).mpr ⟨noCes, idle⟩)
    · left
      rw [not_or, Nat.not_lt] at idle
      have takes := allocateMacSdusLoop_takes (le_refl (ue.blockBytes iSf)) idle.2 idle.1
      rw [allocateMacSdusLoop_served le_rfl] at takes
      rw [generateFormatN1_left, leftBy, allocateMacCes_nothing noCes]
      exact Nat.add_lt_add_left takes _
  · left
    have some := List.length_pos_iff.mpr noCes
    rw [generateFormatN1_left]
    simp only [dlLoad, leftBy]
    omega

/-! ### The downlink view decides -/

theorem requested_of_dlView {ue ue' : SchedUe} (same : ue'.dlView = ue.dlView) :
    ue'.getRequestedDlBytes = ue.getRequestedDlBytes := by
  simp only [dlView, Prod.mk.injEq] at same
  obtain ⟨-, ces, lch⟩ := same
  cases shape : ue.lch with
  | nil =>
      rw [shape, List.map_nil, List.map_eq_nil_iff] at lch
      simp only [getRequestedDlBytes, shape, lch]
  | cons srb0 rbs =>
      rw [shape, List.map_cons, List.map_eq_cons_iff] at lch
      obtain ⟨srb0', rbs', shape', first, rest⟩ := lch
      simp only [UeBearer.dlView, Prod.mk.injEq] at first
      obtain ⟨direction, retx, tx⟩ := first
      have rb : (rbs'.map fun b => if bearerIsDl b then b.sduTotalBytes 1 else 0) =
          rbs.map fun b => if bearerIsDl b then b.sduTotalBytes 1 else 0 := by
        have worth := congrArg (List.map fun v : BearerDirection × Int × Int =>
          if bearerIsDl ⟨v.1, v.2.2, v.2.1, 0⟩ then
            UeBearer.sduTotalBytes 1 ⟨v.1, v.2.2, v.2.1, 0⟩ else 0) rest
        rw [List.map_map, List.map_map] at worth
        exact worth
      have dl : bearerIsDl srb0' = bearerIsDl srb0 := by simp only [bearerIsDl, direction]
      have bytes : srb0'.sduTotalBytes 0 = srb0.sduTotalBytes 0 := by
        simp only [UeBearer.sduTotalBytes, retx, tx]
      simp only [getRequestedDlBytes, shape, shape', ces, rb, dl, bytes, retx, tx]

theorem emptyBlock_of_dlView {ue ue' : SchedUe} (same : ue'.dlView = ue.dlView) (iSf : Nat) :
    ue'.EmptyBlock iSf ↔ ue.EmptyBlock iSf := by
  have block : ue'.blockBytes iSf = ue.blockBytes iSf := by
    rw [blockBytes, blockBytes, requested_of_dlView same]
  simp only [dlView, Prod.mk.injEq] at same
  rw [emptyBlock_iff, emptyBlock_iff, block, same.2.1, sduQueue_of_dlView same.2.2]

theorem dlLoad_of_dlView {ue ue' : SchedUe} (same : ue'.dlView = ue.dlView) : ue'.dlLoad = ue.dlLoad := by
  simp only [dlView, Prod.mk.injEq] at same
  simp only [dlLoad, queuedBytes, same.2.1, sduQueue_of_dlView same.2.2]

/-- A block leaves the downlink view as it is exactly when it is empty. -/
theorem quiet_iff_emptyBlock (ue : SchedUe) (iSf : Nat) :
    (ue.generateFormatN1 iSf).2.dlView = ue.dlView ↔ ue.EmptyBlock iSf := by
  constructor
  · intro quiet
    rcases ue.dlLoad_generateFormatN1 iSf with less | empty
    · rw [dlLoad_of_dlView quiet] at less
      exact absurd less (Nat.lt_irrefl _)
    · exact empty
  · intro empty
    rw [empty.same]

theorem generateFormatN1_dlView {ue ue' : SchedUe} (same : ue'.dlView = ue.dlView) (iSf : Nat) :
    (ue'.generateFormatN1 iSf).2.dlView = (ue.generateFormatN1 iSf).2.dlView := by
  have block : ue'.blockBytes iSf = ue.blockBytes iSf := by
    rw [blockBytes, blockBytes, requested_of_dlView same]
  simp only [dlView, Prod.mk.injEq] at same
  obtain ⟨rnti, ces, lch⟩ := same
  simp only [generateFormatN1_left, block, leftBy, dlView, ces, rnti, serveBearers_of_dlView _ lch]

end SchedUe

namespace SfGrid

/-! ## The result loop -/

/-- No allocation of the list finds anything for its block. -/
def IdleAllocs (allocs : List DlAlloc) (db : SortedMap Nat SchedUe) : Prop :=
  ∀ a ∈ allocs, ∀ ue, db.find? a.user = some ue → ue.EmptyBlock a.iSf

/-- What the UE under a key has waiting in downlink. -/
def loadAt (db : SortedMap Nat SchedUe) (k : Nat) : Nat := ((db.find? k).map SchedUe.dlLoad).getD 0

variable {allocs : List DlAlloc} {db : SortedMap Nat SchedUe}

theorem modify_same {user : Nat} {ue : SchedUe} (found : db.find? user = some ue) :
    (db.modify user fun _ => ue) = db := by
  apply SortedMap.ext_find?
  intro k
  rw [SortedMap.find?_modify]
  split
  · rename_i here
    rw [here, found]
    rfl
  · rfl

theorem loadAt_modify_le {user : Nat} {ue ue' : SchedUe} (found : db.find? user = some ue)
    (less : ue'.dlLoad ≤ ue.dlLoad) (k : Nat) :
    loadAt (db.modify user fun _ => ue') k ≤ loadAt db k := by
  unfold loadAt
  rw [SortedMap.find?_modify]
  split
  · rename_i here
    rw [here, found]
    exact less
  · exact le_rfl

theorem dlLoad_generateFormatN1_le (ue : SchedUe) (iSf : Nat) :
    (ue.generateFormatN1 iSf).2.dlLoad ≤ ue.dlLoad := by
  rcases ue.dlLoad_generateFormatN1 iSf with less | empty
  · exact less.le
  · rw [empty.same]

theorem dlDataSchedResult_load (allocs : List DlAlloc) (db : SortedMap Nat SchedUe) (k : Nat) :
    loadAt (dlDataSchedResult allocs db).2 k ≤ loadAt db k := by
  induction allocs generalizing db with
  | nil => exact le_rfl
  | cons a rest ih =>
      simp only [dlDataSchedResult]
      split
      · exact ih db
      · rename_i ue found
        have first := loadAt_modify_le found (dlLoad_generateFormatN1_le ue a.iSf) k
        split <;> exact (ih _).trans first

/-- The loop over an allocation and those after it. -/
theorem dlDataSchedResult_cons {a : DlAlloc} {rest : List DlAlloc} {ue : SchedUe}
    (found : db.find? a.user = some ue) :
    dlDataSchedResult (a :: rest) db =
      (if (ue.generateFormatN1 a.iSf).1.tbs = 0
        then (dlDataSchedResult rest (db.modify a.user fun _ => (ue.generateFormatN1 a.iSf).2)).1
        else (ue.generateFormatN1 a.iSf).1 ::
          (dlDataSchedResult rest (db.modify a.user fun _ => (ue.generateFormatN1 a.iSf).2)).1,
      (dlDataSchedResult rest (db.modify a.user fun _ => (ue.generateFormatN1 a.iSf).2)).2) := by
  simp only [dlDataSchedResult, found]
  split <;> rfl

theorem dlDataSchedResult_skip {a : DlAlloc} {rest : List DlAlloc} (unknown : db.find? a.user = none) :
    dlDataSchedResult (a :: rest) db = dlDataSchedResult rest db := by
  simp only [dlDataSchedResult, unknown]

/-- The loop takes nothing only where all blocks are empty. -/
theorem idle_of_load (kept : ∀ k, loadAt db k ≤ loadAt (dlDataSchedResult allocs db).2 k) :
    IdleAllocs allocs db := by
  unfold IdleAllocs
  induction allocs with
  | nil => simp
  | cons a rest ih =>
      rw [List.forall_mem_cons]
      cases found : db.find? a.user with
      | none =>
          rw [dlDataSchedResult_skip found] at kept
          exact ⟨by simp, ih kept⟩
      | some ue =>
          rw [dlDataSchedResult_cons found] at kept
          rcases ue.dlLoad_generateFormatN1 a.iSf with less | empty
          · have later := (kept a.user).trans (dlDataSchedResult_load rest _ a.user)
            simp only [loadAt, SortedMap.find?_modify, if_true, found, Option.map_some,
              Option.getD_some] at later
            omega
          · simp only [empty.same, modify_same found] at kept
            exact ⟨by simpa using empty, ih kept⟩

/-- Empty blocks leave the UEs as they are. -/
theorem IdleAllocs.same (idle : IdleAllocs allocs db) : (dlDataSchedResult allocs db).2 = db := by
  unfold IdleAllocs at idle
  induction allocs with
  | nil => rfl
  | cons a rest ih =>
      obtain ⟨first, later⟩ := List.forall_mem_cons.mp idle
      cases found : db.find? a.user with
      | none => rw [dlDataSchedResult_skip found, ih later]
      | some ue =>
          rw [dlDataSchedResult_cons found, (first ue found).same, modify_same found]
          exact ih later

/-- An empty block needs no size to be empty: a block without bytes lists nothing. -/
theorem emptyBlock_of_tbs {ue : SchedUe} {iSf : Nat} (none : (ue.generateFormatN1 iSf).1.tbs = 0) :
    ue.EmptyBlock iSf := by
  have size : ue.blockBytes iSf = 0 := none
  rw [SchedUe.emptyBlock_iff, size]
  refine ⟨?_, .inr (by decide)⟩
  cases ces : ue.pendingCes with
  | nil => rfl
  | cons ce rest => cases ce <;> rfl

/-- Every block that is listed is empty exactly when all blocks are. -/
theorem dlDataSchedResult_empty_iff :
    (∀ d ∈ (dlDataSchedResult allocs db).1, d.pdu = []) ↔ IdleAllocs allocs db := by
  unfold IdleAllocs
  induction allocs with
  | nil => simp [dlDataSchedResult]
  | cons a rest ih =>
      rw [List.forall_mem_cons]
      cases found : db.find? a.user with
      | none =>
          rw [dlDataSchedResult_skip found, ih]
          simp
      | some ue =>
          rw [dlDataSchedResult_cons found]
          by_cases empty : ue.EmptyBlock a.iSf
          · simp only [empty.same, modify_same found, Option.some.injEq, forall_eq', empty, true_and, ← ih]
            split
            · rfl
            · rw [List.forall_mem_cons]
              exact and_iff_right empty
          · have listed : (ue.generateFormatN1 a.iSf).1.tbs ≠ 0 := fun none => empty (emptyBlock_of_tbs none)
            rw [if_neg listed, List.forall_mem_cons]
            constructor
            · intro all
              exact absurd all.1 empty
            · intro all
              exact absurd (all.1 ue rfl) empty

/-- Idleness is a matter of the downlink view. -/
theorem IdleAllocs.of_sameUes {db' : SortedMap Nat SchedUe} (idle : IdleAllocs allocs db)
    (same : SameUes SchedUe.dlView db db') : IdleAllocs allocs db' := by
  intro a member ue' found'
  obtain ⟨ue, found, view⟩ := same.same a.user ue' found'
  exact (SchedUe.emptyBlock_of_dlView view a.iSf).mpr (idle a member ue found)

theorem loadAt_of_sameUes {db' : SortedMap Nat SchedUe} (same : SameUes SchedUe.dlView db db') (k : Nat) :
    loadAt db' k = loadAt db k := by
  unfold loadAt
  cases found' : db'.find? k with
  | none =>
      have unknown := same.isSome k
      rw [found', Option.isSome_none, eq_comm, Option.isSome_eq_false_iff, Option.isNone_iff_eq_none]
        at unknown
      rw [unknown]
  | some ue' =>
      obtain ⟨ue, found, view⟩ := same.same k ue' found'
      rw [found]
      exact SchedUe.dlLoad_of_dlView view

/-- A second round that does what the first has done finds nothing to do, and the first found
    nothing either. -/
theorem idle_of_again {db' : SortedMap Nat SchedUe}
    (same : SameUes SchedUe.dlView (dlDataSchedResult allocs db).2 db')
    (again : dlDataSchedResult allocs db' = dlDataSchedResult allocs db) :
    IdleAllocs allocs db ∧ db' = db := by
  have idle' : IdleAllocs allocs db' := idle_of_load fun k => by
    rw [again, loadAt_of_sameUes same]
  have empty := dlDataSchedResult_empty_iff.mpr idle'
  rw [again] at empty
  have idle := dlDataSchedResult_empty_iff.mp empty
  refine ⟨idle, ?_⟩
  rw [← idle'.same, again, idle.same]

end SfGrid

end SonicaEnb
