import SonicaEnb.Mac.DlTurn

/-! # What follows a random access response

The last grant of a pending response reserves the TTIs of its DCI and of its
NPDSCH and has its Msg3 queued. A response with more grants than one goes out a
grant at a time, and the grants before the last have neither.
-/

namespace SonicaEnb

/-- The reservation loop does not walk past a TTI it can take. -/
theorem mem_reserveNpdsch {fuel n tti : Nat} {table : Wheel} {npdschTtis : List Nat}
    (enough : validSkip tti ≤ fuel)
    (ran : reserveNpdsch fuel table (tti % 10240) (n + 1) = some npdschTtis)
    (free : table ((tti + validSkip tti) % 10240) = false)
    (noSib1 : isSib1Sf ((tti + validSkip tti) % 10240 / 10) ((tti + validSkip tti) % 10240 % 10) = false) :
    (tti + validSkip tti) % 10240 ∈ npdschTtis := by
  induction fuel generalizing tti with
  | zero => cases ran
  | succ fuel ih =>
      unfold reserveNpdsch at ran
      cases valid : isValidDlSf tti with
      | true =>
          have none := (validSkip_eq_zero tti).mpr valid
          rw [none, Nat.add_zero] at free noSib1 ⊢
          rw [isValidDlSf_mod, valid, free, noSib1] at ran
          simp only [Bool.not_false, Bool.and_self, if_true, Option.map_eq_some_iff] at ran
          obtain ⟨rest, -, rfl⟩ := ran
          exact List.mem_cons_self
      | false =>
          have next := validSkip_succ valid
          rw [isValidDlSf_mod, valid] at ran
          simp only [Bool.false_and, Bool.false_eq_true, if_false, Nat.mod_add_mod] at ran
          rw [← next] at free noSib1 ⊢
          exact ih (by omega) ran free noSib1

/-- The NPDSCH subframe of a response is never one of SIB1. -/
theorem rarTxTti_not_sib1 {tti : Nat} (valid : isValidDlSf tti = true) :
    isSib1Sf (rarTxTti tti / 10) (rarTxTti tti % 10) = false := by
  have below : rarTxTti tti < 10240 := by rw [rarTxTti, firstValidDlSf_mod]; omega
  rw [Bool.eq_false_iff, Ne, isSib1Sf_iff below, rarTxTti, firstValidDlSf_mod]
  rw [isValidDlSf_iff] at valid
  unfold validSkip
  split
  · omega
  · split <;> omega

namespace SfGrid

/-- A Msg3 is queued where its four subframes are free and nothing else is queued. -/
theorem allocMsg3_free {g : SfGrid} (user : Nat) {grant : DlSchedRarGrant}
    (zero : grant.grant.iMcs = 0) (fresh : g.sf.ulDataAllocs = [])
    (free : (ulInterval (msg3RxTti g.sf.ttiParams.ttiTxDl) 4).any g.ulSchedTable = false) :
    (g.allocMsg3 user grant).2.sf.ulDataAllocs = [⟨.msg3, user, { scNum := 12, len := 4 }, 0⟩] := by
  have notYet : g.sf.isUlAlloc user = false := by simp [SfSched.isUlAlloc, fresh]
  simp [allocMsg3, zero, allocUl, notYet, allocUlMsg3, free, pushUlAlloc, fresh]

/-- Serving a UE reserves the TTIs a response in the same TTI would need. -/
theorem served_marks_rar {g : SfGrid} {user : Nat} {ue : SchedUe} {npdschTtis : List Nat}
    (picked : g.dlPick = some user) (placed : g.dlData ue = some npdschTtis) :
    (g.served user ue npdschTtis).dlSchedTable g.sf.ttiParams.ttiTxDl = true ∧
      (g.served user ue npdschTtis).dlSchedTable (rarTxTti g.sf.ttiParams.ttiTxDl) = true := by
  obtain ⟨free, -⟩ := dlPick_some picked
  have valid : isValidDlSf g.sf.ttiParams.ttiTxDl = true := by
    simp only [dlUserTtiFree, Bool.and_eq_true] at free
    exact free.1.1.1
  simp only [served]
  refine ⟨Wheel.mark_of_marked _ _ (Wheel.set_same _ _ _), ?_⟩
  rw [Wheel.mark_apply]
  cases marked : (g.dlSchedTable.set g.sf.ttiParams.ttiTxDl true) (rarTxTti g.sf.ttiParams.ttiTxDl) with
  | true => simp
  | false =>
      have noSib1 := rarTxTti_not_sib1 valid
      have sizes : ∃ n, iSfToNSfNpdsch.getD (iSfFor ue.getRequestedDlBytes.2) 0 = n + 1 := by
        unfold iSfFor
        split
        · exact ⟨2, rfl⟩
        · exact ⟨0, rfl⟩
      obtain ⟨n, size⟩ := sizes
      rw [dlData, size] at placed
      rw [rarTxTti, firstValidDlSf_mod] at marked noSib1 ⊢
      have skip := validSkip_le (g.sf.ttiParams.ttiTxDl + 5)
      have member := mem_reserveNpdsch (by omega) placed marked noSib1
      simp [member]

end SfGrid

namespace Sched

/-- The downlink run for `ttiRx` is still to come, and nothing stands in the subframe in which it
    would queue its Msg3. -/
structure Unscheduled (s : Sched) (ttiRx : Nat) : Prop where
  own : (s.getSfSched ttiRx).NoDl
  msg3 : (s.getSfSched (ttiRx + 9)).ulDataAllocs = []

theorem RingOk.unscheduled {rx : Nat} {s : Sched} (ok : RingOk rx s) : Unscheduled s (rx % 10240) :=
  ⟨ok.own_noDl, by rw [ok.msg3_fresh]; rfl⟩

/-- A response sent in a subframe without others is the only one. -/
theorem Unscheduled.sendRar_rarAllocs {s : Sched} {ttiRx : Nat} (unscheduled : Unscheduled s ttiRx)
    (alloc : RarAlloc) : ((s.dlGrid ttiRx).sendRar alloc).sf.rarAllocs = [alloc] := by
  change (s.getSfSched ttiRx).rarAllocs ++ [alloc] = [alloc]
  rw [unscheduled.own.rarAllocs, List.nil_append]

/-- A Msg3 is expected of the UE: it is known and its four uplink subframes are free. -/
def msg3Due (s : Sched) (ttiRx : Nat) (info : DlSchedRarInfo) : Bool :=
  (s.ueDb.find? info.tempCrnti).isSome &&
    !(SfGrid.ulInterval (SfGrid.msg3RxTti (TtiParams.ofRx (ttiRx + 9)).ttiTxDl) 4).any s.ulSchedTable

/-- One element of the result is followed up, in terms of the states around the run. -/
structure RarFollowedUp (s s' : Sched) (ttiRx : Nat) (rar : DlSchedRar) : Prop where
  dci : s'.dlSchedTable (ttiAdd ttiRx fddHarqDelayUlMs) = true
  npdsch : s'.dlSchedTable (rarTxTti (ttiAdd ttiRx fddHarqDelayUlMs)) = true
  msg3 : ∀ grant ∈ rar.msg3Grant, s.msg3Due ttiRx grant.data = true →
    ∃ a ∈ (s'.getSfSched (ttiRx + 9)).ulDataAllocs, a.type = .msg3 ∧ a.user = grant.data.tempCrnti

/-- Elements of the result, where the subframe holds a single response. -/
theorem DlRun.mem_rar {s s' : Sched} {ttiRx : Nat} {dl : DlSchedRes} {ret : AllocOutcome}
    {g₁ g₂ : SfGrid} (run : DlRun s ttiRx s' dl ret g₁ g₂) {alloc : RarAlloc}
    (only : g₂.sf.rarAllocs = [alloc]) :
    (∃ r, r ∈ dl.rar) ∧ ∀ r ∈ dl.rar, r.msg3Grant = alloc.rarGrant := by
  have shape : dl.rar = SfGrid.rarSchedResult g₂.sf := by rw [run.result]; rfl
  rw [shape, SfGrid.rarSchedResult, only]
  simp

/-- A response whose only grant is sent is followed up. -/
theorem DlRun.followed_up_last {s s' : Sched} {ttiRx : Nat} {dl : DlSchedRes} {ret : AllocOutcome}
    {g₁ g₂ : SfGrid} (run : DlRun s ttiRx s' dl ret g₁ g₂) (unscheduled : s.Unscheduled ttiRx)
    {rar : PendingRar} {info : DlSchedRarInfo} {alloc : RarAlloc}
    (answers : SfGrid.AnswersWith rar info alloc) (sent : ret = .success)
    (grid : g₁ = ((s.dlGrid ttiRx).sendRar alloc).reserveRar) :
    ∀ r ∈ dl.rar, RarFollowedUp s s' ttiRx r := by
  have txDl : (s.dlGrid ttiRx).sf.ttiParams.ttiTxDl = ttiAdd ttiRx fddHarqDelayUlMs := dlGrid_tx s ttiRx
  have rars : g₁.sf.rarAllocs = [alloc] := by
    rw [grid]
    exact unscheduled.sendRar_rarAllocs alloc
  have fresh := run.fresh unscheduled.own
  obtain ⟨kept, -, marks, -⟩ := run.users_keep fresh
  have table := run.dlSchedTable
  obtain ⟨-, grants⟩ := run.mem_rar (kept.trans rars)
  intro r member
  refine ⟨?_, ?_, ?_⟩
  · rw [table]
    apply marks
    rw [grid, ← txDl]
    exact (SfGrid.reserveRar_marks _).1
  · rw [table]
    apply marks
    rw [grid, ← txDl]
    exact (SfGrid.reserveRar_marks _).2
  · intro grant inside due
    obtain ⟨only, shape, -, zero⟩ := answers.single
    rw [grants r member, shape, List.mem_singleton] at inside
    subst inside
    simp only [msg3Due, Bool.and_eq_true, Bool.not_eq_true'] at due
    obtain ⟨known, free⟩ := due
    obtain ⟨ue, found⟩ := Option.isSome_iff_exists.mp known
    have place := run.msg3
    rw [if_pos sent] at place
    have list : g₁.sf.msg3Grants = [grant] := by simp [SfSched.msg3Grants, rars, shape]
    have queued : raUlSched g₁.sf.msg3Grants { g₁ with sf := s.getSfSched (ttiRx + 9) } =
        (SfGrid.allocMsg3 { g₁ with sf := s.getSfSched (ttiRx + 9) } grant.data.tempCrnti grant).2 := by
      have known : g₁.ueDb.find? grant.data.tempCrnti = some ue := by rw [grid]; exact found
      simp [list, raUlSched, known]
    have key : (s'.sfScheds ((ttiRx + 9) % nofSfScheds)).ttiParams.ttiRx = ttiRx + 9 := by
      rw [place, (SfGrid.raUlSched_ulFrame _ _).ttiParams]
      exact getSfSched_ttiRx s _
    have later : (s.getSfSched (ttiRx + 9)).ttiParams.ttiTxDl =
        (TtiParams.ofRx (ttiRx + 9)).ttiTxDl := getSfSched_ttiTxDl _ _
    have sameUl : g₁.ulSchedTable = s.ulSchedTable := by rw [grid]; rfl
    rw [← sameUl, ← later] at free
    have allocs := SfGrid.allocMsg3_free (g := { g₁ with sf := s.getSfSched (ttiRx + 9) })
      grant.data.tempCrnti zero unscheduled.msg3 free
    rw [getSfSched_of_key key, place, queued, allocs]
    exact ⟨_, List.mem_singleton.mpr rfl, rfl, rfl⟩

/-- A response with one of several grants is followed up only when a UE happens to be served. -/
theorem DlRun.followed_up_partial {s s' : Sched} {ttiRx : Nat} {dl : DlSchedRes} {ret : AllocOutcome}
    {g₁ g₂ : SfGrid} (run : DlRun s ttiRx s' dl ret g₁ g₂) (unscheduled : s.Unscheduled ttiRx)
    {rar : PendingRar} {info : DlSchedRarInfo} {alloc : RarAlloc}
    (answers : SfGrid.AnswersWith rar info alloc) (notSent : ret ≠ .success)
    (free : (s.dlGrid ttiRx).rarTtiFree = true) (grid : g₁ = (s.dlGrid ttiRx).sendRar alloc) :
    (∀ r ∈ dl.rar, RarFollowedUp s s' ttiRx r) ↔
      ((s.dlGrid ttiRx).dlPick.isSome = true ∧ s.msg3Due ttiRx info = false) := by
  have txDl : (s.dlGrid ttiRx).sf.ttiParams.ttiTxDl = ttiAdd ttiRx fddHarqDelayUlMs := dlGrid_tx s ttiRx
  have rars : g₁.sf.rarAllocs = [alloc] := by
    rw [grid]
    exact unscheduled.sendRar_rarAllocs alloc
  have fresh := run.fresh unscheduled.own
  have samePick : g₁.dlPick = (s.dlGrid ttiRx).dlPick := by rw [grid]; rfl
  obtain ⟨kept, -, -, users⟩ := run.users_keep fresh
  obtain ⟨⟨r, member⟩, grants⟩ := run.mem_rar (kept.trans rars)
  obtain ⟨grant, shape, data, -⟩ := answers.single
  have nothing : (s'.getSfSched (ttiRx + 9)).ulDataAllocs = [] := by
    have place := run.msg3
    rw [if_neg notSent] at place
    rw [← unscheduled.msg3]
    simp only [getSfSched, place]
  constructor
  · intro followed
    have up := followed r member
    constructor
    · rcases users with ⟨none, table, -⟩ | ⟨user, ue, npdschTtis, picked, -⟩
      · have marked := up.dci
        rw [run.dlSchedTable, table, grid, ← txDl] at marked
        simp only [SfGrid.rarTtiFree, Bool.and_eq_true, Bool.not_eq_true'] at free
        rw [SfGrid.taken] at free
        simp only [SfGrid.sendRar] at marked
        rw [free.1.2] at marked
        cases marked
      · rw [← samePick, picked]; rfl
    · cases due : s.msg3Due ttiRx info with
      | false => rfl
      | true =>
          obtain ⟨a, queued, -⟩ := up.msg3 grant (by simp [grants r member, shape]) (by rw [data, due])
          rw [nothing] at queued
          cases queued
  · rintro ⟨picks, notDue⟩ r member
    rcases users with ⟨none, -⟩ | ⟨user, ue, npdschTtis, picked, -, placed, table, -⟩
    · rw [samePick] at none
      rw [none] at picks
      cases picks
    · have marks := SfGrid.served_marks_rar picked placed
      have sameTx : g₁.sf.ttiParams.ttiTxDl = ttiAdd ttiRx fddHarqDelayUlMs := by rw [grid]; exact txDl
      rw [← table, ← run.dlSchedTable, sameTx] at marks
      refine ⟨marks.1, marks.2, ?_⟩
      intro grant' inside due
      rw [grants r member, shape, List.mem_singleton] at inside
      rw [inside, data, notDue] at due
      cases due

/-- For every state in front of a downlink run: the responses of its result are followed up exactly
    when none is due, the one due has a single grant, or a UE is served in the same TTI and no Msg3
    is due. -/
theorem rar_followed_up_iff {s s' : Sched} {ttiRx : Nat} {dl : DlSchedRes} (inside : ttiRx < 10240)
    (unscheduled : s.Unscheduled ttiRx) (ran : s.generateTtiResultDl ttiRx = some (s', dl)) :
    (∀ r ∈ dl.rar, RarFollowedUp s s' ttiRx r) ↔
      ∀ rar, s.rarDue ttiRx = some rar → rar.msg3Grant.length = 1 ∨
        ((s.dlGrid ttiRx).dlPick.isSome = true ∧
          ∀ info ∈ rar.msg3Grant.head?, s.msg3Due ttiRx info = false) := by
  obtain ⟨ret, g₁, g₂, run⟩ := generateTtiResultDl_phases inside ran
  rcases run.rar_cases with
    ⟨notDue, -, -, grid⟩ |
      ⟨rar, later, info, more, alloc, due, -, grants, answers, -, free, last | part⟩
  · have kept : (s.afterSibs ttiRx).2.sf.rarAllocs = [] := by
      rw [afterSibs, ← dlGrid]
      rcases SfGrid.allocSibs_cases s.sib1SfIdx (s.dlGrid ttiRx) with
        ⟨-, -, same⟩ | ⟨-, -, -, same⟩ | ⟨-, same⟩ <;> rw [same] <;> exact unscheduled.own.rarAllocs
    obtain ⟨rars, -⟩ := run.users_keep (run.fresh unscheduled.own)
    rw [grid, kept] at rars
    have empty : dl.rar = [] := by
      rw [run.result]
      change g₂.sf.rarAllocs.map _ = []
      rw [rars, List.map_nil]
    simp [empty, notDue]
  · obtain ⟨rfl, sent, -, grid⟩ := last
    have followed := run.followed_up_last unscheduled answers sent grid
    refine ⟨fun _ rar' due' => ?_, fun _ => followed⟩
    rw [due] at due'
    cases due'
    exact .inl (by rw [grants]; rfl)
  · obtain ⟨more', partial', -, grid⟩ := part
    rw [run.followed_up_partial unscheduled answers (by rw [partial']; decide) free grid, due]
    constructor
    · rintro ⟨picks, notDue⟩ rar' due'
      cases due'
      exact .inr ⟨picks, by simp [grants, notDue]⟩
    · intro condition
      rcases condition rar rfl with single | ⟨picks, notDue⟩
      · rw [grants] at single
        exact absurd (List.length_eq_zero_iff.mp (by simpa using single)) more'
      · exact ⟨picks, notDue info (by simp [grants])⟩

/-- One preamble, answered at TX TTI 16. -/
theorem single_rar_followed_up :
    ∃ s' dl, (init.calls (rachDetected 0x46 0)).generateTtiResultDl 12 = some (s', dl) ∧
      dl.rar ≠ [] ∧ ∀ r ∈ dl.rar, RarFollowedUp (init.calls (rachDetected 0x46 0)) s' 12 r := by
  have checked : (((init.calls (rachDetected 0x46 0)).generateTtiResultDl 12).any fun r =>
      !r.2.rar.isEmpty) = true := by decide +kernel
  obtain ⟨⟨s', dl⟩, ran, sent⟩ := Option.any_eq_true .. |>.mp checked
  have unscheduled := (init_calls_ringOk 12 (rachDetected 0x46 0)).unscheduled
  refine ⟨s', dl, ran, by simpa using sent, ?_⟩
  apply (rar_followed_up_iff (by omega) unscheduled ran).mpr
  intro rar due
  have single : (((init.calls (rachDetected 0x46 0)).rarDue 12).all fun rar =>
      decide (rar.msg3Grant.length = 1)) = true := by decide +kernel
  rw [due] at single
  exact .inl (by simpa using single)

/-- Two preambles in one NPRACH occasion: the first answer, at TX TTI 16, reserves nothing. -/
theorem first_of_two_not_followed_up :
    ∃ s' dl r, (init.calls (rachDetected 0x46 0 ++ rachDetected 0x47 0)).Unscheduled 12 ∧
      (init.calls (rachDetected 0x46 0 ++ rachDetected 0x47 0)).generateTtiResultDl 12 = some (s', dl) ∧
      r ∈ dl.rar ∧
      ¬ RarFollowedUp (init.calls (rachDetected 0x46 0 ++ rachDetected 0x47 0)) s' 12 r := by
  have checked : (((init.calls (rachDetected 0x46 0 ++ rachDetected 0x47 0)).generateTtiResultDl
      12).any fun r => !r.2.rar.isEmpty &&
        !r.1.dlSchedTable (ttiAdd 12 fddHarqDelayUlMs)) = true := by decide +kernel
  obtain ⟨⟨s', dl⟩, ran, facts⟩ := Option.any_eq_true .. |>.mp checked
  simp only [Bool.and_eq_true, Bool.not_eq_true', List.isEmpty_eq_false_iff] at facts
  obtain ⟨sent, unmarked⟩ := facts
  obtain ⟨r, member⟩ := List.exists_mem_of_ne_nil dl.rar sent
  refine ⟨s', dl, r, (init_calls_ringOk 12 _).unscheduled, ran, member, ?_⟩
  intro followed
  have marked := followed.dci
  rw [unmarked] at marked
  cases marked

end Sched

end SonicaEnb
