import SonicaEnb.Mac.UlTurn
import SonicaEnb.Mac.DlTurn

/-! # The calls that allocate

What `alloc_dl_user`, `alloc_ul` and `alloc_msg3` leave in every state they can be
called in. A call that fails leaves the tables, the lists and the UEs alone; at most
it counts down the timer of the UE. A call that succeeds has chosen a subframe count
and an MCS, and both sides of the air interface compute the same block from them,
although each of them has its own copy of the tables.
-/

namespace SonicaEnb

/-! ## The reservation loop -/

/-- The TTIs found are as many as asked for, all different, and were free. -/
theorem reserveNpdsch_spec {fuel n tti : Nat} {table : Wheel} {npdschTtis : List Nat}
    (inside : tti < 10240) (ran : reserveNpdsch fuel table tti n = some npdschTtis) :
    npdschTtis.length = n ∧ npdschTtis.Nodup ∧ ∀ t ∈ npdschTtis, t < 10240 ∧ table t = false := by
  induction fuel generalizing n tti table npdschTtis with
  | zero =>
      cases n with
      | zero => cases ran; simp
      | succ n => cases ran
  | succ fuel ih =>
      cases n with
      | zero => cases ran; simp
      | succ n =>
          have next : (tti + 1) % 10240 < 10240 := Nat.mod_lt _ (by decide)
          unfold reserveNpdsch at ran
          split at ran
          · rename_i usable
            obtain ⟨rest, later, rfl⟩ := Option.map_eq_some_iff.mp ran
            obtain ⟨length, nodup, free⟩ := ih next later
            simp only [Bool.and_eq_true, Bool.not_eq_true'] at usable
            refine ⟨by rw [List.length_cons, length], ?_, ?_⟩
            · rw [List.nodup_cons]
              refine ⟨?_, nodup⟩
              intro again
              have marked := (free tti again).2
              rw [Wheel.set_same] at marked
              cases marked
            · intro t member
              rcases List.mem_cons.mp member with rfl | member
              · exact ⟨inside, usable.1.2⟩
              · obtain ⟨below, unmarked⟩ := free t member
                refine ⟨below, ?_⟩
                by_cases own : t = tti
                · rw [own]
                  exact usable.1.2
                · rwa [Wheel.set_other _ _ own] at unmarked
          · exact ih next ran

namespace SfGrid

/-! ## What each call leaves -/

/-- What a granted downlink transmission leaves. -/
structure DlGranted (g g' : SfGrid) (maxData : Nat) (a : DlAlloc) : Prop where
  iSf : a.iSf = iSfFor maxData
  reserved : reserveNpdsch 10240 (g.dlSchedTable.set g.sf.ttiParams.ttiTxDl true)
    ((g.sf.ttiParams.ttiTxDl + 5) % 10240) (iSfToNSfNpdsch.getD a.iSf 0) = some a.npdschTtis
  after : g' = { g with
    dlSchedTable := (g.dlSchedTable.set g.sf.ttiParams.ttiTxDl true).mark a.npdschTtis
    sf.dataAllocs := g.sf.dataAllocs ++ [a]
    ueDb := g.ueDb.modify a.user fun ue => (ue.ulBufferState 3 70 false).ulWaitTimer 30 true }

theorem allocDlUser_cases {g g' : SfGrid} {user maxData : Nat} {ret : AllocOutcome}
    (ran : g.allocDlUser user maxData = some (ret, g')) :
    (ret ≠ .success ∧ g' = g) ∨
      (ret = .success ∧ ∃ a, a.user = user ∧ DlGranted g g' maxData a) := by
  cases notYet : g.sf.isDlAlloc user with
  | true =>
      simp only [allocDlUser, notYet, if_true] at ran
      cases ran
      exact .inl ⟨by decide, rfl⟩
  | false =>
      rw [allocDlUser_notYet notYet] at ran
      split at ran
      · cases ran
        exact .inl ⟨by decide, rfl⟩
      · obtain ⟨npdschTtis, reserved, granted⟩ := Option.map_eq_some_iff.mp ran
        cases granted
        exact .inr ⟨rfl, ⟨user, iSfFor maxData, npdschTtis⟩, rfl, rfl, reserved, rfl⟩

/-- The timer of the UE was running and has been counted down, and that is all. -/
def HeldBack (g g' : SfGrid) (user : Nat) : Prop :=
  (∃ ue, g.ueDb.find? user = some ue ∧ ue.msgWaitTimer ≠ 0) ∧ g' = g.tickUl user

/-- What a granted uplink transmission leaves in the subframe. -/
structure UlGranted (g g' : SfGrid) (user : Nat) (type : UlAllocType) (a : UlAlloc) : Prop where
  user : a.user = user
  type : a.type = type
  after : g'.sf = { g.sf with ulDataAllocs := g.sf.ulDataAllocs ++ [a] }

theorem allocUlNpdcch_cases {g g' : SfGrid} {type : UlAllocType} {user : Nat} {ret : AllocOutcome}
    (ran : g.allocUlNpdcch type user = (ret, g')) :
    (ret ≠ .success ∧ (g' = g ∨ HeldBack g g' user)) ∨
      (ret = .success ∧ ∃ a, UlGranted g g' user type a ∧
        a.alloc = { scNum := 12, len := 4 } ∧ (a.mcs = 12 ∨ a.mcs = 9)) := by
  unfold allocUlNpdcch at ran
  split at ran
  · cases ran
    exact .inl ⟨by decide, .inl rfl⟩
  · rename_i ue found
    simp only at ran
    split at ran
    · rename_i running
      cases ran
      exact .inl ⟨by decide, .inr ⟨⟨ue, found, running⟩, rfl⟩⟩
    · split at ran
      · cases ran
        exact .inl ⟨by decide, .inl rfl⟩
      · split at ran
        · cases ran
          exact .inl ⟨by decide, .inl rfl⟩
        · split at ran
          · cases ran
            exact .inl ⟨by decide, .inl rfl⟩
          · split at ran
            · cases ran
              exact .inl ⟨by decide, .inl rfl⟩
            · cases ran
              refine .inr ⟨rfl, _, ⟨rfl, rfl, rfl⟩, rfl, ?_⟩
              simp only
              split
              · exact .inl rfl
              · exact .inr rfl

theorem allocUlMsg3_cases {g g' : SfGrid} {user mcs : Nat} {alloc : UlHarqAlloc}
    {ret : AllocOutcome} (ran : g.allocUlMsg3 user alloc mcs = (ret, g')) :
    (ret ≠ .success ∧ g' = g) ∨
      (ret = .success ∧ ∃ a, UlGranted g g' user .msg3 a ∧ a.alloc = alloc ∧ a.mcs = mcs) := by
  simp only [allocUlMsg3] at ran
  split at ran
  · cases ran
    exact .inl ⟨by decide, rfl⟩
  · cases ran
    exact .inr ⟨rfl, _, ⟨rfl, rfl, rfl⟩, rfl, rfl⟩

/-- `alloc_ul` as a whole: nothing, a timer counted down, or one allocation. With a DCI of its own
    the allocation has four subframes and an MCS chosen here, else those of the caller. -/
theorem allocUl_cases {g g' : SfGrid} {user mcs : Nat} {alloc : UlHarqAlloc} {type : UlAllocType}
    {ret : AllocOutcome} (ran : g.allocUl user alloc type mcs = (ret, g')) :
    (ret ≠ .success ∧ (g' = g ∨ (type.needsNpdcch = true ∧ HeldBack g g' user))) ∨
      (ret = .success ∧ ∃ a, UlGranted g g' user type a ∧
        if type.needsNpdcch then a.alloc = { scNum := 12, len := 4 } ∧ (a.mcs = 12 ∨ a.mcs = 9)
        else a.alloc = alloc ∧ a.mcs = mcs) := by
  unfold allocUl at ran
  split at ran
  · cases ran
    exact .inl ⟨by decide, .inl rfl⟩
  · cases type with
    | msg3 =>
        rcases allocUlMsg3_cases ran with ⟨failed, same⟩ | ⟨done, a, granted⟩
        · exact .inl ⟨failed, .inl same⟩
        · exact .inr ⟨done, a, granted⟩
    | newtx => exact (allocUlNpdcch_cases ran).imp_left (And.imp_right (Or.imp_right (And.intro rfl)))
    | adaptRetx =>
        exact (allocUlNpdcch_cases ran).imp_left (And.imp_right (Or.imp_right (And.intro rfl)))
    | noadaptRetx =>
        cases ran
        exact .inr ⟨rfl, _, ⟨rfl, rfl, rfl⟩, rfl, rfl⟩

/-! ## Calls that fail -/

/-- Tables, lists and UEs are as before, apart from a running timer of `user` that may have been
    counted down. -/
structure Untouched (g g' : SfGrid) (user : Nat) : Prop where
  dlSchedTable : g'.dlSchedTable = g.dlSchedTable
  ulSchedTable : g'.ulSchedTable = g.ulSchedTable
  sf : g'.sf = g.sf
  lastAlloc : g'.lastAlloc = g.lastAlloc
  allocActive : g'.allocActive = g.allocActive
  others : ∀ k, k ≠ user → g'.ueDb.find? k = g.ueDb.find? k
  own : g'.ueDb.find? user = g.ueDb.find? user ∨
    ∃ ue, g.ueDb.find? user = some ue ∧ ue.msgWaitTimer ≠ 0 ∧
      g'.ueDb.find? user = some { ue with msgWaitTimer := ue.msgWaitTimer - 1 }

theorem Untouched.refl (g : SfGrid) (user : Nat) : Untouched g g user :=
  ⟨rfl, rfl, rfl, rfl, rfl, fun _ _ => rfl, .inl rfl⟩

theorem HeldBack.untouched {g g' : SfGrid} {user : Nat} (held : HeldBack g g' user) :
    Untouched g g' user := by
  obtain ⟨⟨ue, found, running⟩, rfl⟩ := held
  refine ⟨rfl, rfl, rfl, rfl, rfl, ?_, .inr ⟨ue, found, running, ?_⟩⟩
  · intro k different
    simp [tickUl, SortedMap.find?_modify, different]
  · simp [tickUl, SortedMap.find?_modify, found]

theorem allocMsg3_allocUl {g g' : SfGrid} {user : Nat} {grant : DlSchedRarGrant} {ret : AllocOutcome}
    (ran : g.allocMsg3 user grant = (ret, g')) :
    (ret ≠ .success ∧ g' = g) ∨ g.allocUl user { scNum := 12, len := 4 } .msg3 0 = (ret, g') := by
  unfold allocMsg3 at ran
  split at ran
  · rename_i zero
    rw [zero] at ran
    exact .inr ran
  · cases ran
    exact .inl ⟨by decide, rfl⟩

end SfGrid

open SfGrid

/-- A call that fails leaves everything as it was. Only `alloc_ul` with a DCI of its own changes
    anything: it counts down the timer that made it fail. -/
theorem failed_alloc_untouched (g : SfGrid) (user : Nat) :
    (∀ maxData ret g', g.allocDlUser user maxData = some (ret, g') → ret ≠ .success → g' = g) ∧
      (∀ alloc type mcs ret g', g.allocUl user alloc type mcs = (ret, g') → ret ≠ .success →
        Untouched g g' user) ∧
      ∀ rarGrant ret g', g.allocMsg3 user rarGrant = (ret, g') → ret ≠ .success → g' = g := by
  refine ⟨?_, ?_, ?_⟩
  · intro maxData ret g' ran failed
    rcases allocDlUser_cases ran with ⟨-, same⟩ | ⟨done, -⟩
    · exact same
    · exact absurd done failed
  · intro alloc type mcs ret g' ran failed
    rcases allocUl_cases ran with ⟨-, rfl | ⟨-, held⟩⟩ | ⟨done, -⟩
    · exact .refl g' user
    · exact held.untouched
    · exact absurd done failed
  · intro rarGrant ret g' ran failed
    rcases allocMsg3_allocUl ran with ⟨-, same⟩ | again
    · exact same
    · rcases allocUl_cases again with ⟨-, same | ⟨dci, -⟩⟩ | ⟨done, -⟩
      · exact same
      · cases dci
      · exact absurd done failed

/-- A UE whose timer still runs asks in a TTI that would suit it. -/
theorem running_timer_untouched :
    let ue : SchedUe := { SchedUe.init 4097 with msgWaitTimer := 7 }
    let g : SfGrid := { sf := SfSched.newTti 13, ueDb := SortedMap.empty.insert 4097 ue }
    (g.allocUl 4097 {} .newtx 0).1 = .dciCollision ∧
      Untouched g (g.allocUl 4097 {} .newtx 0).2 4097 := by
  intro ue g
  have refused : (g.allocUl 4097 {} .newtx 0).1 = .dciCollision := rfl
  refine ⟨refused, (failed_alloc_untouched g 4097).2.1 {} .newtx 0 .dciCollision _ ?_ (by decide)⟩
  rw [← refused]

/-! ## The block on both sides

The scheduler looks its sizes up in tables of its own; the PHY turns the DCI into a grant with
those of `tbs_tables_nbiot.h`. -/

/-- `tbs_table_nbiot` of `scheduler_ue.cc` -/
def schedTbsTableNbiot : List (List Nat) :=
  [[16, 32, 56, 88, 120, 152, 208, 256],
   [24, 56, 88, 144, 176, 208, 256, 344],
   [32, 72, 144, 176, 208, 256, 328, 424],
   [40, 104, 176, 208, 256, 328, 440, 568],
   [56, 120, 208, 256, 328, 408, 552, 680],
   [72, 144, 224, 328, 424, 504, 680, 0],
   [88, 176, 256, 392, 504, 600, 0, 0],
   [104, 224, 328, 472, 584, 680, 0, 0],
   [120, 256, 392, 536, 680, 0, 0, 0],
   [136, 296, 456, 616, 0, 0, 0, 0],
   [144, 328, 504, 680, 0, 0, 0, 0],
   [176, 376, 584, 0, 0, 0, 0, 0],
   [208, 440, 680, 0, 0, 0, 0, 0]]

/-- `tbs_table_npusch` of `scheduler_ue.cc` -/
def schedTbsTableNpusch : List (List Nat) :=
  [[16, 32, 56, 88, 120, 152, 208, 256],
   [24, 56, 88, 144, 176, 208, 256, 344],
   [32, 72, 144, 176, 208, 256, 328, 424],
   [40, 104, 176, 208, 256, 328, 440, 568],
   [56, 120, 208, 256, 328, 408, 552, 680],
   [72, 144, 224, 328, 424, 504, 680, 872],
   [88, 176, 256, 392, 504, 600, 808, 1000],
   [104, 224, 328, 472, 584, 712, 1000, 0],
   [120, 256, 392, 536, 680, 808, 0, 0],
   [136, 296, 456, 616, 776, 936, 0, 0],
   [144, 328, 504, 680, 872, 1000, 0, 0],
   [176, 376, 584, 776, 1000, 0, 0, 0],
   [208, 440, 680, 1000, 0, 0, 0, 0]]

/-- The block of the scheduler's table, in bytes. -/
def schedTbsBytes (mcs iSf : Nat) : Nat := (schedTbsTableNbiot.getD mcs []).getD iSf 0 / 8

theorem schedTbsBytes_eq (mcs iSf : Nat) : schedTbsBytes mcs iSf = tbsNbiot mcs iSf / 8 := rfl

/-- The scheduler has its own copy of the uplink table. -/
theorem schedTbsTableNpusch_eq : schedTbsTableNpusch = tbsTableNpusch := rfl

/-- `mcs` is the least one whose block exceeds the request, or 12 where no block does. -/
def LeastMcs (request iSf mcs : Nat) : Prop :=
  mcs ≤ 12 ∧ (∀ m < mcs, schedTbsBytes m iSf ≤ request) ∧
    (request < schedTbsBytes mcs iSf ∨ (mcs = 12 ∧ schedTbsBytes 12 iSf ≤ request))

theorem SchedUe.selectMcs_least (request iSf : Nat) : LeastMcs request iSf (selectMcs request iSf) := by
  unfold selectMcs
  cases found : (List.range 13).find? fun mcs => decide (tbsNbiot mcs iSf / 8 > request) with
  | none =>
      have small : ∀ m < 13, schedTbsBytes m iSf ≤ request := by
        intro m below
        have refused := List.find?_eq_none.mp found m (List.mem_range.mpr below)
        rw [schedTbsBytes_eq]
        simpa using refused
      exact ⟨le_rfl, fun m below => small m (Nat.lt_trans below (by decide)),
        .inr ⟨rfl, small 12 (by decide)⟩⟩
  | some mcs =>
      obtain ⟨exceeds, i, inside, rfl, before⟩ := List.find?_eq_some_iff_getElem.mp found
      rw [List.length_range] at inside
      simp only [List.getElem_range] at exceeds before ⊢
      refine ⟨Nat.le_of_lt_succ inside, ?_, .inl (of_decide_eq_true exceeds)⟩
      intro m below
      have refused := before m below
      rw [schedTbsBytes_eq]
      simpa using refused

/-- The data TTIs that a call has marked: the TTI of the DCI apart. -/
def SfGrid.dlMarked (g g' : SfGrid) : List Nat :=
  (List.range 10240).filter fun t =>
    g'.dlSchedTable t && !g.dlSchedTable t && t != g.sf.ttiParams.ttiTxDl

theorem SfGrid.DlGranted.dlMarked {g g' : SfGrid} {maxData : Nat} {a : DlAlloc}
    (granted : DlGranted g g' maxData a) : g.dlMarked g' |>.Perm a.npdschTtis := by
  obtain ⟨-, nodup, free⟩ := reserveNpdsch_spec (Nat.mod_lt _ (by decide)) granted.reserved
  have fresh : (g.dlMarked g').Nodup := List.nodup_range.filter _
  rw [List.perm_ext_iff_of_nodup fresh nodup]
  intro t
  rw [SfGrid.dlMarked, List.mem_filter, List.mem_range, granted.after]
  simp only [Wheel.mark_apply, Bool.and_eq_true, Bool.or_eq_true, decide_eq_true_eq,
    Bool.not_eq_true', bne_iff_ne]
  constructor
  · rintro ⟨-, ⟨new | old, unmarked⟩, notDci⟩
    · exact new
    · rw [Wheel.set_other _ _ notDci, unmarked] at old
      cases old
  · intro member
    obtain ⟨below, unmarked⟩ := free t member
    have notDci : t ≠ g.sf.ttiParams.ttiTxDl := by
      intro same
      rw [same, Wheel.set_same] at unmarked
      cases unmarked
    rw [Wheel.set_other _ _ notDci] at unmarked
    exact ⟨below, ⟨.inl member, unmarked⟩, notDci⟩

/-- The grant the PHY computes for a downlink block is the block of the scheduler. -/
structure DlBlockAgrees (data : DlSchedData) (subframes : Nat) (grant : RaNbiotDlGrant) : Prop where
  tbs : grant.tbs = 8 * data.tbs
  some : 0 < data.tbs
  subframes : grant.nofSf * grant.nofRep = subframes

/-- The grant the PHY computes for an uplink block is the block of the scheduler: twelve
    subcarriers and four subframes. -/
structure UlBlockAgrees (data : UlSchedData) (grant : RaNbiotUlGrant) : Prop where
  tbs : grant.tbs = data.tbs
  some : 0 < data.tbs
  nofSc : grant.nofSc = 12
  subframes : grant.nofSlots / 2 = 4

theorem selectMcs_block {mcs iSf : Nat} (inside : mcs ≤ 12) (kind : iSf = 0 ∨ iSf = 2) :
    tbsNbiot mcs iSf = 8 * (tbsNbiot mcs iSf / 8) ∧ 0 < tbsNbiot mcs iSf / 8 := by
  have all : ∀ mcs ≤ 12, ∀ iSf ∈ [0, 2],
      tbsNbiot mcs iSf = 8 * (tbsNbiot mcs iSf / 8) ∧ 0 < tbsNbiot mcs iSf / 8 := by decide
  exact all mcs inside iSf (by simpa using kind)

theorem SchedUe.generateFormatN1_agrees (ue : SchedUe) {iSf : Nat} (kind : iSf = 0 ∨ iSf = 2)
    (sfn sfIdx rMax : Nat) (isPrescheduled : Bool) (mode : NbiotMode) :
    ∃ grant, raNbiotDlDciToGrant (ue.generateFormatN1 iSf).1.dci sfn sfIdx rMax isPrescheduled mode =
        some grant ∧
      DlBlockAgrees (ue.generateFormatN1 iSf).1 (iSfToNSfNpdsch.getD iSf 0) grant ∧
      LeastMcs ue.getRequestedDlBytes.2 iSf (ue.generateFormatN1 iSf).1.dci.mcsIdx ∧
      (ue.generateFormatN1 iSf).1.tbs = schedTbsBytes (ue.generateFormatN1 iSf).1.dci.mcsIdx iSf := by
  have least := selectMcs_least ue.getRequestedDlBytes.2 iSf
  obtain ⟨whole, positive⟩ := selectMcs_block least.1 kind
  have inside := least.1
  unfold generateFormatN1
  generalize selectMcs ue.getRequestedDlBytes.2 iSf = mcs at least whole positive inside
  have notZero : tbsNbiot mcs iSf ≠ 0 := by omega
  have limit : min mcs 12 = mcs := by omega
  have column : min iSf 7 = iSf := by omega
  simp only [positive, if_true, raNbiotDlDciToGrant, limitDlDci, limit, column, Bool.false_eq_true,
    if_false, notZero]
  refine ⟨_, rfl, ⟨whole, positive, ?_⟩, least, rfl⟩
  rcases kind with rfl | rfl <;> rfl

theorem SchedUe.generateFormatN0_agrees (ue : SchedUe) (needsNpdcch : Bool) {mcs : Nat}
    (inside : mcs ≤ 12) (rxTti : Nat) :
    ∃ grant, raNbiotUlDciToGrant (ue.generateFormatN0 needsNpdcch mcs).dci.raDci rxTti = some grant ∧
      UlBlockAgrees (ue.generateFormatN0 needsNpdcch mcs) grant := by
  have some : 0 < tbsNpusch mcs 3 := by
    have all : ∀ mcs ≤ 12, 0 < tbsNpusch mcs 3 := by decide
    exact all mcs inside
  have slots : slotsPerRu 12 * nRuTableNpusch.getD 3 0 / 2 = 4 := by decide
  simp only [generateFormatN0, some, if_true]
  exact ⟨_, rfl, rfl, some, rfl, slots⟩

/-- Whatever the UE holds when the block of a downlink allocation is made, the PHY grants that
    block, in as many subframes as the allocation has marked. -/
def DlAlloc.Agreed (g g' : SfGrid) (a : DlAlloc) : Prop :=
  ∀ (ue : SchedUe) (sfn sfIdx rMax : Nat) (isPrescheduled : Bool) (mode : NbiotMode), ∃ grant,
    raNbiotDlDciToGrant (ue.generateFormatN1 a.iSf).1.dci sfn sfIdx rMax isPrescheduled mode =
      some grant ∧
    DlBlockAgrees (ue.generateFormatN1 a.iSf).1 (g.dlMarked g').length grant ∧
    LeastMcs ue.getRequestedDlBytes.2 a.iSf (ue.generateFormatN1 a.iSf).1.dci.mcsIdx ∧
    (ue.generateFormatN1 a.iSf).1.tbs =
      schedTbsBytes (ue.generateFormatN1 a.iSf).1.dci.mcsIdx a.iSf

/-- The PHY grants the block of an uplink allocation. -/
def UlAlloc.Agreed (a : UlAlloc) : Prop :=
  ∀ (ue : SchedUe) (rxTti : Nat), ∃ grant,
    raNbiotUlDciToGrant (ue.generateFormatN0 a.type.needsNpdcch a.mcs).dci.raDci rxTti = some grant ∧
    UlBlockAgrees (ue.generateFormatN0 a.type.needsNpdcch a.mcs) grant

namespace SfGrid

theorem DlGranted.agreed {g g' : SfGrid} {maxData : Nat} {a : DlAlloc}
    (granted : DlGranted g g' maxData a) : a.Agreed g g' := by
  intro ue sfn sfIdx rMax isPrescheduled mode
  have length := (reserveNpdsch_spec (Nat.mod_lt _ (by decide)) granted.reserved).1
  rw [granted.dlMarked.length_eq, length]
  have kind : a.iSf = 0 ∨ a.iSf = 2 := by
    rw [granted.iSf, iSfFor]
    split
    · exact .inr rfl
    · exact .inl rfl
  exact ue.generateFormatN1_agrees kind sfn sfIdx rMax isPrescheduled mode

/-- A caller of `alloc_ul` that chooses the MCS itself passes one of the table. -/
theorem allocUl_agreed {g g' : SfGrid} {user mcs : Nat} {alloc : UlHarqAlloc} {type : UlAllocType}
    (inside : type.needsNpdcch = true ∨ mcs ≤ 12)
    (ran : g.allocUl user alloc type mcs = (.success, g')) :
    ∃ a, a.user = user ∧ g'.sf.ulDataAllocs = g.sf.ulDataAllocs ++ [a] ∧
      a.alloc = (if type.needsNpdcch then { scNum := 12, len := 4 } else alloc) ∧ a.Agreed := by
  rcases allocUl_cases ran with ⟨failed, -⟩ | ⟨-, a, granted, choice⟩
  · exact absurd rfl failed
  · refine ⟨a, granted.user, by rw [granted.after], ?_⟩
    split at choice
    · rename_i dci
      rw [if_pos dci]
      have small : a.mcs ≤ 12 := by omega
      exact ⟨choice.1, fun ue rxTti => ue.generateFormatN0_agrees _ small rxTti⟩
    · rename_i noDci
      rw [if_neg noDci]
      have small : a.mcs ≤ 12 := choice.2.le.trans (inside.resolve_left noDci)
      exact ⟨choice.1, fun ue rxTti => ue.generateFormatN0_agrees _ small rxTti⟩

end SfGrid

open SfGrid

/-- Scheduler and PHY agree on the block of every allocation that succeeds. -/
theorem blocks_agree (g : SfGrid) :
    (∀ user maxData g', g.allocDlUser user maxData = some (.success, g') →
      ∃ a, a.user = user ∧ g'.sf.dataAllocs = g.sf.dataAllocs ++ [a] ∧ a.Agreed g g') ∧
      (∀ user alloc type mcs g', (type.needsNpdcch = true ∨ mcs ≤ 12) →
        g.allocUl user alloc type mcs = (.success, g') →
        ∃ a, a.user = user ∧ g'.sf.ulDataAllocs = g.sf.ulDataAllocs ++ [a] ∧
          a.alloc = (if type.needsNpdcch then { scNum := 12, len := 4 } else alloc) ∧ a.Agreed) ∧
      ∀ user rarGrant g', g.allocMsg3 user rarGrant = (.success, g') →
        ∃ a, a.user = user ∧ g'.sf.ulDataAllocs = g.sf.ulDataAllocs ++ [a] ∧
          a.alloc = { scNum := 12, len := 4 } ∧ a.Agreed := by
  refine ⟨?_, ?_, ?_⟩
  · intro user maxData g' ran
    rcases allocDlUser_cases ran with ⟨failed, -⟩ | ⟨-, a, own, granted⟩
    · exact absurd rfl failed
    · exact ⟨a, own, by rw [granted.after], granted.agreed⟩
  · intro user alloc type mcs g' inside ran
    exact allocUl_agreed inside ran
  · intro user rarGrant g' ran
    rcases allocMsg3_allocUl ran with ⟨failed, -⟩ | again
    · exact absurd rfl failed
    · exact allocUl_agreed (.inr (by decide)) again

/-- A UE gets a grant of every kind. -/
theorem first_blocks_agree :
    let g : SfGrid := { sf := SfSched.newTti 13, ueDb := SortedMap.empty.insert 4097 (.init 4097) }
    let rarGrant : DlSchedRarGrant := ⟨⟨0, 0, 4097, 7, 0⟩, ⟨1, 18, 0, 0, 0⟩⟩
    (∃ (g' : SfGrid) (a : DlAlloc), g'.sf.dataAllocs = [a] ∧ a.Agreed g g') ∧
      (∃ a, (g.allocUl 4097 {} .newtx 0).2.sf.ulDataAllocs = [a] ∧ a.Agreed) ∧
      ∃ a, (g.allocMsg3 4097 rarGrant).2.sf.ulDataAllocs = [a] ∧ a.Agreed := by
  intro g rarGrant
  have dl : (g.allocDlUser 4097 30).any (fun r => decide (r.1 = .success)) = true := by decide +kernel
  have newtx : (g.allocUl 4097 {} .newtx 0).1 = .success := by decide +kernel
  have msg3 : (g.allocMsg3 4097 rarGrant).1 = .success := by decide +kernel
  obtain ⟨⟨ret, g'⟩, ran, success⟩ := (Option.any_eq_true ..).mp dl
  obtain rfl : ret = .success := of_decide_eq_true success
  obtain ⟨a, -, listed, agreed⟩ := (blocks_agree g).1 4097 30 g' ran
  obtain ⟨b, -, listedUl, -, agreedUl⟩ :=
    (blocks_agree g).2.1 4097 {} .newtx 0 _ (.inl rfl) (by rw [← newtx])
  obtain ⟨c, -, listedMsg3, -, agreedMsg3⟩ := (blocks_agree g).2.2 4097 rarGrant _ (by rw [← msg3])
  exact ⟨⟨g', a, listed, agreed⟩, ⟨b, listedUl, agreedUl⟩, c, listedMsg3, agreedMsg3⟩

end SonicaEnb
