import SonicaEnb.Mac.DlTurn
import SonicaEnb.Mac.IdleBlocks

/-! # Downlink data is taken twice

`generate_sched_results` builds both results in both scheduler runs of a TTI. The
downlink run takes from the queues of the UE it serves what it lists; the uplink
run takes from them again, and what it then lists is dropped. This does no harm
exactly when the first block has left nothing that a second one would take.
-/

namespace SonicaEnb

/-- The PDUs a downlink result lists for a UE. -/
def DlSchedRes.listed (dl : DlSchedRes) (rnti : Nat) : List DlSchedPdu :=
  (dl.data.filter fun d => d.dci.alloc.rnti == rnti).flatMap DlSchedData.pdu

namespace SchedUe

/-- Of what the UE has left, nothing fits into a block of one subframe: too little is requested for an
    SDU, and the first control element is larger than the block. -/
def TooLittle (left : SchedUe) : Prop :=
  (sduQueue left.lch = [] ∨ left.getRequestedDlBytes.2 ≤ 3) ∧
    ∀ ce ∈ left.pendingCes.head?, left.blockBytes 0 < ce.ceTotalSize

/-- The block chosen for the UE takes everything from its queues, or leaves too little for another. -/
def Drained (ue : SchedUe) (iSf : Nat) : Prop :=
  let left := ue.leftBy (ue.blockBytes iSf)
  (left.pendingCes = [] ∧ sduQueue left.lch = []) ∨ (iSf = 0 ∧ left.TooLittle)

instance (left : SchedUe) : Decidable left.TooLittle := inferInstanceAs (Decidable (_ ∧ _))

instance (ue : SchedUe) (iSf : Nat) : Decidable (ue.Drained iSf) := inferInstanceAs (Decidable (_ ∨ _))

/-- In a block of three subframes there is room for everything; in one of a single subframe only for
    what was requested. -/
theorem emptyBlock_cases {ue : SchedUe} {iSf : Nat} (kind : iSf = 0 ∨ iSf = 2) :
    ue.EmptyBlock iSf ↔ (ue.pendingCes = [] ∧ sduQueue ue.lch = []) ∨ (iSf = 0 ∧ ue.TooLittle) := by
  rw [emptyBlock_iff, allocateMacCes_nil_iff]
  rcases kind with rfl | rfl
  · rw [blockBytes, selectMcs_three, TooLittle, blockBytes]
    constructor
    · rintro ⟨ces, sdus⟩
      exact .inr ⟨rfl, sdus, ces⟩
    · rintro (⟨ces, sdus⟩ | ⟨-, sdus, ces⟩)
      · exact ⟨by simp [ces], .inl sdus⟩
      · exact ⟨ces, sdus⟩
  · have wide : 7 ≤ ue.blockBytes 2 := selectMcs_wide _
    have one : ¬ ue.blockBytes 2 < minMacSduSize := by unfold minMacSduSize; omega
    simp only [one, or_false, OfNat.ofNat_ne_zero, false_and]
    apply and_congr_left
    intro _
    cases ces : ue.pendingCes with
    | nil => simp
    | cons ce rest =>
        have small : ce.ceTotalSize ≤ 7 := by cases ce <;> decide
        simp only [List.head?_cons, Option.mem_some, forall_eq', reduceCtorEq, iff_false]
        omega

/-- A second block takes nothing exactly when the first has drained the UE. -/
theorem emptyBlock_left_iff (ue : SchedUe) {iSf : Nat} (kind : iSf = 0 ∨ iSf = 2) :
    (ue.generateFormatN1 iSf).2.EmptyBlock iSf ↔ ue.Drained iSf := by
  rw [generateFormatN1_left, emptyBlock_cases kind, Drained]

theorem dlConsumed_of_dlView {ue ue₀ ue₁ ue₂ : SchedUe} {pdus : List DlSchedPdu}
    (start : ue₀.dlView = ue.dlView) (done : ue₂.dlView = ue₁.dlView)
    (consumed : DlConsumed ue₀ ue₁ pdus) : DlConsumed ue ue₂ pdus := by
  simp only [dlView, Prod.mk.injEq] at start done
  obtain ⟨⟨taken, ces, listed⟩, length, gives⟩ := consumed
  have sameLength : ue.lch.length = ue₀.lch.length := by simpa using (congrArg List.length start.2.2).symm
  have sameLength' : ue₂.lch.length = ue₁.lch.length := by simpa using congrArg List.length done.2.2
  refine ⟨⟨taken, by rw [← start.2.1, done.2.1, ces], listed⟩, by omega, ?_⟩
  intro i b at'
  have view : (ue₀.lch.map UeBearer.dlView)[i]? = some b.dlView := by
    rw [start.2.2, List.getElem?_map, at', Option.map_some]
  rw [List.getElem?_map, Option.map_eq_some_iff] at view
  obtain ⟨b₀, at₀, same⟩ := view
  obtain ⟨b₁, at₁, enough, retx, tx, direction⟩ := gives i b₀ at₀
  have view' : (ue₂.lch.map UeBearer.dlView)[i]? = some b₁.dlView := by
    rw [done.2.2, List.getElem?_map, at₁, Option.map_some]
  rw [List.getElem?_map, Option.map_eq_some_iff] at view'
  obtain ⟨b₂, at₂, same'⟩ := view'
  simp only [UeBearer.dlView, Prod.mk.injEq] at same same'
  refine ⟨b₂, at₂, ?_, ?_, ?_, ?_⟩
  · rw [← same.2.1, ← same.2.2]; exact enough
  · rw [same'.2.1, retx, same.2.1]
  · rw [same'.2.2, tx, same.2.1, same.2.2]
  · rw [same'.1, direction, same.1]

/-- A UE that was served and nobody else is touched: what the downlink run makes of it. -/
def afterAlloc (ue : SchedUe) : SchedUe := (ue.ulBufferState 3 70 false).ulWaitTimer 30 true

theorem afterAlloc_dlView (ue : SchedUe) : ue.afterAlloc.dlView = ue.dlView :=
  ulBufferState_dlView ue 3 70 false

theorem afterAlloc_rnti (ue : SchedUe) : ue.afterAlloc.rnti = ue.rnti :=
  ulBufferState_rnti ue 3 70 false

theorem iSfFor_kind (maxData : Nat) : SfGrid.iSfFor maxData = 0 ∨ SfGrid.iSfFor maxData = 2 := by
  unfold SfGrid.iSfFor
  split
  · exact .inr rfl
  · exact .inl rfl

theorem generateFormatN1_tbs (ue : SchedUe) {iSf : Nat} (kind : iSf = 0 ∨ iSf = 2) :
    (ue.generateFormatN1 iSf).1.tbs ≠ 0 := by
  have size := selectMcs_size ue.getRequestedDlBytes.2 kind
  change tbsNbiot (selectMcs ue.getRequestedDlBytes.2 iSf) iSf / 8 ≠ 0
  omega

theorem generateFormatN1_dci (ue : SchedUe) {iSf : Nat} (kind : iSf = 0 ∨ iSf = 2) :
    (ue.generateFormatN1 iSf).1.dci.alloc.rnti = ue.rnti := by
  have some : tbsNbiot (selectMcs ue.getRequestedDlBytes.2 iSf) iSf / 8 > 0 := by
    have size := selectMcs_size ue.getRequestedDlBytes.2 kind
    omega
  simp only [generateFormatN1, some, if_true]

end SchedUe

/-- The result loop over a single allocation. -/
theorem SfGrid.dlDataSchedResult_single {a : DlAlloc} {db : SortedMap Nat SchedUe} {ue : SchedUe}
    (kind : a.iSf = 0 ∨ a.iSf = 2) (found : db.find? a.user = some ue) :
    dlDataSchedResult [a] db =
      ([(ue.generateFormatN1 a.iSf).1], db.modify a.user fun _ => (ue.generateFormatN1 a.iSf).2) := by
  simp [dlDataSchedResult, found, ue.generateFormatN1_tbs kind]

namespace Sched

/-- What the downlink run does to the UEs, and what it lists. -/
theorem DlRun.ues {s s' : Sched} {ttiRx : Nat} {dl : DlSchedRes} {ret : AllocOutcome} {g₁ g₂ : SfGrid}
    (run : DlRun s ttiRx s' dl ret g₁ g₂) (unscheduled : (s.getSfSched ttiRx).NoDl) :
    (s.dlUserDue ttiRx = none ∧ s'.ueDb = s.ueDb ∧ dl.data = [] ∧
        (s'.getSfSched ttiRx).dataAllocs = []) ∨
      ∃ user ue npdschTtis, s.dlUserDue ttiRx = some user ∧ s.ueDb.find? user = some ue ∧
        s'.ueDb = (s.ueDb.modify user SchedUe.afterAlloc).modify user (fun _ =>
          (ue.afterAlloc.generateFormatN1 (SfGrid.iSfFor ue.getRequestedDlBytes.2)).2) ∧
        dl.data = [(ue.afterAlloc.generateFormatN1 (SfGrid.iSfFor ue.getRequestedDlBytes.2)).1] ∧
        (s'.getSfSched ttiRx).dataAllocs =
          [⟨user, SfGrid.iSfFor ue.getRequestedDlBytes.2, npdschTtis⟩] := by
  have fresh := run.fresh unscheduled
  have db := run.ueDb
  have pick := run.pick
  have shared : s'.ueDb = (SfGrid.dlDataSchedResult g₂.sf.dataAllocs g₂.ueDb).2 := by rw [run.shared]
  have data : dl.data = (SfGrid.dlDataSchedResult g₂.sf.dataAllocs g₂.ueDb).1 := by
    rw [run.result]; rfl
  obtain ⟨ul, users⟩ := run.users
  rw [run.ownSf]
  rcases SfGrid.schedUsersDl_cases (g := { g₁ with ulSchedTable := ul }) fresh users with
    ⟨none, rfl⟩ | ⟨user, ue, npdschTtis, picked, found, -, rfl⟩
  · left
    change g₁.dlPick = _ at none
    simp only [fresh, SfGrid.dlDataSchedResult] at shared data
    exact ⟨pick ▸ none, shared.trans db, data, fresh⟩
  · right
    change g₁.dlPick = _ at picked
    change g₁.ueDb.find? user = some ue at found
    have allocs : (SfGrid.served { g₁ with ulSchedTable := ul } user ue npdschTtis).sf.dataAllocs =
        [⟨user, SfGrid.iSfFor ue.getRequestedDlBytes.2, npdschTtis⟩] := by
      simp [SfGrid.served, fresh]
    have there : (SfGrid.served { g₁ with ulSchedTable := ul } user ue npdschTtis).ueDb.find? user =
        some ue.afterAlloc := by
      simp only [SfGrid.served, SortedMap.find?_modify, if_true, found, Option.map_some]
      rfl
    rw [allocs, SfGrid.dlDataSchedResult_single (SchedUe.iSfFor_kind _) there] at shared data
    rw [db] at found
    refine ⟨user, ue, npdschTtis, pick ▸ picked, found, ?_, data, allocs⟩
    rw [shared, ← db]
    rfl

/-- What the uplink run does to the downlink view of the UEs: the result loop over the data of the
    subframe runs again. -/
theorem generateTtiResultUl_ues {s : Sched} {ttiRx : Nat} (inside : ttiRx < 10240) :
    ∃ db, SameUes SchedUe.dlView s.ueDb db ∧ (s.generateTtiResultUl ttiRx).1.ueDb =
      (SfGrid.dlDataSchedResult (s.getSfSched ttiRx).dataAllocs db).2 := by
  have frame := SfGrid.schedUsersUl_ulFrame ((s.clearUl ttiRx).grid ttiRx)
  refine ⟨(schedUsersUl ((s.clearUl ttiRx).grid ttiRx)).ueDb, frame.ues, ?_⟩
  rw [generateTtiResultUl_eq inside]
  simp only [store_toShared, SfGrid.generateSchedResults_eq, frame.dataAllocs]
  rfl

/-- The states around the two runs of a TTI: each UE has lost exactly the PDUs listed, and the
    uplink run had no part in it. -/
def ConsumedOnce (s s₁ s₂ : Sched) (dl : DlSchedRes) : Prop :=
  ∀ rnti ue, s.ueDb.find? rnti = some ue → ∃ ue₁ ue₂, s₁.ueDb.find? rnti = some ue₁ ∧
    s₂.ueDb.find? rnti = some ue₂ ∧ SchedUe.DlConsumed ue ue₂ (dl.listed rnti) ∧
    ue₂.dlView = ue₁.dlView

theorem dlSched_cases {s s' : Sched} {ttiRx : Nat} {dl : DlSchedRes} (inside : ttiRx < 10240)
    (ran : s.dlSched (ttiAdd ttiRx fddHarqDelayUlMs) = some (s', dl)) :
    ∃ n, (s.setLastTti n).generateTtiResultDl ttiRx = some (s', dl) := by
  have back := dlSched_ttiRx ttiRx
  rw [Nat.mod_eq_of_lt inside] at back
  rw [dlSched, back] at ran
  exact ⟨_, ran⟩

theorem ulSched_cases {s : Sched} {ttiRx : Nat} (inside : ttiRx < 10240) :
    s.ulSched (ttiAdd ttiRx (fddDelayUlNbMs + fddHarqDelayDlMs)) = s.generateTtiResultUl ttiRx := by
  have back := ulSched_ttiRx ttiRx
  rw [Nat.mod_eq_of_lt inside] at back
  rw [ulSched, back]

theorem setLastTti_dlUserDue (s : Sched) (n ttiRx : Nat) :
    (s.setLastTti n).dlUserDue ttiRx = s.dlUserDue ttiRx := rfl

/-- Where nobody is served, neither run touches a downlink queue. -/
theorem consumedOnce_idle {s s₁ s₂ : Sched} {dl : DlSchedRes} (same : SameUes SchedUe.dlView s₁.ueDb s₂.ueDb)
    (first : s₁.ueDb = s.ueDb) (data : dl.data = []) : ConsumedOnce s s₁ s₂ dl := by
  intro rnti ue found
  rw [first] at same
  obtain ⟨ue₂, found₂, view⟩ := same.after found
  have nothing : SchedUe.DlConsumed ue ue [] := ⟨⟨[], rfl, rfl⟩, .refl ue.lch⟩
  have listed : dl.listed rnti = [] := by simp [DlSchedRes.listed, data]
  exact ⟨ue, ue₂, by rw [first, found], found₂,
    listed ▸ SchedUe.dlConsumed_of_dlView rfl view nothing, view⟩

/-- Where `user` is served, everything is right exactly when its first block has drained it. -/
theorem consumedOnce_served {s s₁ s₂ : Sched} {dl : DlSchedRes} {user : Nat} {ue : SchedUe}
    {db : SortedMap Nat SchedUe} {a : DlAlloc} (own : OwnRnti s.ueDb)
    (found : s.ueDb.find? user = some ue) (alloc : a.user = user)
    (kind : a.iSf = 0 ∨ a.iSf = 2)
    (first : s₁.ueDb = (s.ueDb.modify user SchedUe.afterAlloc).modify user (fun _ =>
      (ue.afterAlloc.generateFormatN1 a.iSf).2))
    (data : dl.data = [(ue.afterAlloc.generateFormatN1 a.iSf).1])
    (same : SameUes SchedUe.dlView s₁.ueDb db)
    (second : s₂.ueDb = (SfGrid.dlDataSchedResult [a] db).2) :
    ConsumedOnce s s₁ s₂ dl ↔ ue.Drained a.iSf := by
  have served : s₁.ueDb.find? user = some (ue.afterAlloc.generateFormatN1 a.iSf).2 := by
    rw [first]
    simp [SortedMap.find?_modify, found]
  have others : ∀ rnti, rnti ≠ user → s₁.ueDb.find? rnti = s.ueDb.find? rnti := by
    intro rnti different
    rw [first]
    simp [SortedMap.find?_modify, different]
  obtain ⟨ue₁, found₁, view⟩ := same.after served
  rw [SfGrid.dlDataSchedResult_single kind (alloc ▸ found₁), alloc] at second
  have again : s₂.ueDb.find? user = some (ue₁.generateFormatN1 a.iSf).2 := by
    rw [second]
    simp [SortedMap.find?_modify, found₁]
  have consumed := ue.afterAlloc.generateFormatN1_consumed a.iSf
  have rnti : (ue.afterAlloc.generateFormatN1 a.iSf).1.dci.alloc.rnti = user := by
    rw [SchedUe.generateFormatN1_dci _ kind, ue.afterAlloc_rnti, own user ue found]
  have quiet : (ue₁.generateFormatN1 a.iSf).2.dlView =
      (ue.afterAlloc.generateFormatN1 a.iSf).2.dlView ↔ ue.Drained a.iSf := by
    rw [← view, SchedUe.quiet_iff_emptyBlock, SchedUe.emptyBlock_of_dlView view,
      SchedUe.emptyBlock_of_dlView (SchedUe.generateFormatN1_dlView ue.afterAlloc_dlView a.iSf),
      SchedUe.emptyBlock_left_iff ue kind]
  rw [← quiet]
  constructor
  · intro once
    obtain ⟨ue₁', ue₂', found₁', found₂', -, unchanged⟩ := once user ue found
    rw [served] at found₁'
    rw [again] at found₂'
    cases found₁'
    cases found₂'
    exact unchanged
  · intro unchanged k ue' found'
    by_cases mine : k = user
    · subst mine
      rw [found] at found'
      cases found'
      have listed : dl.listed k = (ue.afterAlloc.generateFormatN1 a.iSf).1.pdu := by
        simp [DlSchedRes.listed, data, rnti]
      exact ⟨_, _, served, again,
        listed ▸ SchedUe.dlConsumed_of_dlView ue.afterAlloc_dlView unchanged consumed, unchanged⟩
    · have listed : dl.listed k = [] := by
        simp [DlSchedRes.listed, data, rnti, Ne.symm mine]
      have untouched := (others k mine).trans found'
      obtain ⟨ue₂, found₂, view'⟩ := same.after untouched
      have there : s₂.ueDb.find? k = some ue₂ := by
        rw [second, SortedMap.find?_modify, if_neg mine, found₂]
      have nothing : SchedUe.DlConsumed ue' ue' [] := ⟨⟨[], rfl, rfl⟩, .refl ue'.lch⟩
      exact ⟨ue', ue₂, untouched, there,
        listed ▸ SchedUe.dlConsumed_of_dlView rfl view' nothing, view'⟩

/-- For every state in front of a TTI: `dl_sched` followed by `ul_sched` takes from the downlink
    queues exactly what is listed if and only if nobody is served, or the block drains the UE. -/
theorem dl_consumed_once_iff {s s₁ s₂ : Sched} {ttiRx : Nat} {dl : DlSchedRes} {ul : UlSchedRes}
    (inside : ttiRx < 10240) (unscheduled : (s.getSfSched ttiRx).NoDl) (own : OwnRnti s.ueDb)
    (first : s.dlSched (ttiAdd ttiRx fddHarqDelayUlMs) = some (s₁, dl))
    (second : s₁.ulSched (ttiAdd ttiRx (fddDelayUlNbMs + fddHarqDelayDlMs)) = (s₂, ul)) :
    ConsumedOnce s s₁ s₂ dl ↔ ∀ user ue, s.dlUserDue ttiRx = some user →
      s.ueDb.find? user = some ue → ue.Drained (SfGrid.iSfFor ue.getRequestedDlBytes.2) := by
  obtain ⟨n, ran⟩ := dlSched_cases inside first
  obtain ⟨ret, g₁, g₂, run⟩ := generateTtiResultDl_phases inside ran
  have cases' := run.ues (by rw [setLastTti_getSfSched]; exact unscheduled)
  rw [ulSched_cases inside] at second
  obtain ⟨db, same, after⟩ := generateTtiResultUl_ues (s := s₁) inside
  rw [second] at after
  rw [setLastTti_dlUserDue, setLastTti_toShared] at cases'
  rcases cases' with ⟨none, db₁, data, allocs⟩ | ⟨user, ue, ttis, due, found, db₁, data, allocs⟩
  · rw [allocs] at after
    simp only [SfGrid.dlDataSchedResult] at after
    rw [← after] at same
    have once : ConsumedOnce s s₁ s₂ dl := consumedOnce_idle same db₁ data
    refine ⟨fun _ user ue due _ => ?_, fun _ => once⟩
    rw [none] at due
    cases due
  · rw [allocs] at after
    have iff := consumedOnce_served
      (a := ⟨user, SfGrid.iSfFor ue.getRequestedDlBytes.2, ttis⟩) own found rfl
      (SchedUe.iSfFor_kind _) db₁ data same after
    rw [iff]
    constructor
    · intro drained user' ue' due' found'
      rw [due] at due'
      cases due'
      rw [found] at found'
      cases found'
      exact drained
    · intro condition
      exact condition user ue due found

/-- A UE known as after its preamble, with `bytes` waiting on SRB0. -/
def waiting (rnti bytes : Nat) : Sched :=
  init.calls [.ueCfg rnti rachUeCfg, .dlRlcBufferState rnti 0 bytes 0]

/-- Thirty bytes go into one block at TX TTI 16, and the uplink run finds nothing left. -/
theorem thirty_bytes_consumed_once :
    ∃ s₁ dl s₂ ul, (waiting 0x46 30).dlSched 16 = some (s₁, dl) ∧ s₁.ulSched 25 = (s₂, ul) ∧
      dl.data ≠ [] ∧ ConsumedOnce (waiting 0x46 30) s₁ s₂ dl := by
  have checked : (((waiting 0x46 30).dlSched 16).any fun r => !r.2.data.isEmpty) = true := by
    decide +kernel
  obtain ⟨⟨s₁, dl⟩, ran, sent⟩ := Option.any_eq_true .. |>.mp checked
  have drained : (((waiting 0x46 30).dlUserDue 12).all fun user =>
      ((waiting 0x46 30).ueDb.find? user).all fun ue =>
        decide (ue.Drained (SfGrid.iSfFor ue.getRequestedDlBytes.2))) = true := by decide +kernel
  have ring : RingOk 12 (waiting 0x46 30) := init_calls_ringOk 12 _
  refine ⟨s₁, dl, (s₁.ulSched 25).1, (s₁.ulSched 25).2, ran, rfl, by simpa using sent, ?_⟩
  apply (dl_consumed_once_iff (by omega) ring.own_noDl ring.own ran rfl).mpr
  intro user ue due found
  rw [due, Option.all_some, found, Option.all_some] at drained
  exact of_decide_eq_true drained

/-- Two hundred bytes: the block at TX TTI 16 lists 83, and 83 more are gone after the uplink run. -/
theorem two_hundred_bytes_consumed_twice :
    ∃ s₁ dl s₂ ul, (waiting 0x46 200).dlSched 16 = some (s₁, dl) ∧ s₁.ulSched 25 = (s₂, ul) ∧
      ¬ ConsumedOnce (waiting 0x46 200) s₁ s₂ dl := by
  have checked : (((waiting 0x46 200).dlSched 16).any fun r =>
      ((waiting 0x46 200).ueDb.find? 0x46).isSome &&
      ((r.1.ueDb.find? 0x46).all fun ue => decide (ue.lch.map UeBearer.bufTx = [117, 0, 0, 0, 0, 0])) &&
      (((r.1.ulSched 25).1.ueDb.find? 0x46).all fun ue =>
        decide (ue.lch.map UeBearer.bufTx = [34, 0, 0, 0, 0, 0]))) = true := by
    decide +kernel
  obtain ⟨⟨s₁, dl⟩, ran, facts⟩ := Option.any_eq_true .. |>.mp checked
  simp only [Bool.and_eq_true] at facts
  obtain ⟨⟨known, after⟩, later⟩ := facts
  obtain ⟨ue, found⟩ := Option.isSome_iff_exists.mp known
  refine ⟨s₁, dl, (s₁.ulSched 25).1, (s₁.ulSched 25).2, ran, rfl, ?_⟩
  intro once
  obtain ⟨ue₁, ue₂, found₁, found₂, -, same⟩ := once 0x46 ue found
  rw [found₁, Option.all_some, decide_eq_true_eq] at after
  rw [found₂, Option.all_some, decide_eq_true_eq] at later
  simp only [SchedUe.dlView, Prod.mk.injEq] at same
  have sameTx := congrArg (List.map fun v => v.2.2) same.2.2
  simp only [List.map_map, Function.comp_def, UeBearer.dlView] at sameTx
  rw [after, later] at sameTx
  cases sameTx

end Sched

end SonicaEnb
