import SonicaEnb.Mac.Ring

/-! # A queued Msg3 on its way to its TTI

A Msg3 is queued in the subframe `tti_rx + 9`, a key that is not reduced modulo
10240, and collected nine TTIs later under the reduced key. Up to 10230 the two
are the same and nothing touches the place in between; from 10231 on they
differ, and the subframe is cleared when its TTI begins.
-/

namespace SonicaEnb

/-! ## Queueing -/

namespace SfGrid

/-- A Msg3 of a known UE is emitted, without a DCI. -/
theorem msg3_mem_ulSchedResult {sf : SfSched} {db : SortedMap Nat SchedUe} {a : UlAlloc} {ue : SchedUe}
    (member : a ∈ sf.ulDataAllocs) (type : a.type = .msg3) (mcs : a.mcs = 0)
    (found : db.find? a.user = some ue) :
    ∃ e ∈ ulSchedResult sf db, e.needsNpdcch = false ∧ e.dci.rnti = ue.rnti := by
  have size : tbsNpusch 0 3 = 88 := by decide
  refine ⟨ue.generateFormatN0 false 0, ?_, rfl, ?_⟩
  · refine List.mem_filterMap.mpr ⟨a, member, ?_⟩
    simp [found, type, mcs, UlAllocType.needsNpdcch, SchedUe.generateFormatN0, size]
  · simp [SchedUe.generateFormatN0, size]

end SfGrid

namespace Sched

/-! ## UEs that stay -/

theorem call_keeps_ue {s : Sched} {c : SchedCall} {user : Nat} (notRemoved : c ≠ .ueRem user)
    (known : (s.ueDb.find? user).isSome) : ((s.call c).ueDb.find? user).isSome := by
  have modified : ∀ rnti f, (((s.ueDb.modify rnti f)).find? user).isSome := by
    intro rnti f
    rw [← SortedMap.mem_keys_iff, SortedMap.keys_modify, SortedMap.mem_keys_iff]
    exact known
  cases c with
  | ueCfg rnti cfg =>
      simp only [call, SortedMap.find?_insert]
      split
      · rfl
      · exact known
  | ueRem rnti =>
      have other : user ≠ rnti := fun same => notRemoved (by rw [same])
      simpa only [call, SortedMap.find?_erase, if_neg other] using known
  | dlRachInfo info => exact known
  | dlRlcBufferState rnti lcId txQueue retxQueue => exact modified rnti _
  | dlMacBufferState rnti ce nofCmds => exact modified rnti _
  | ulBsr rnti lcid bsr setValue => exact modified rnti _
  | ulWaitTimer rnti waitTime setValue => exact modified rnti _

theorem calls_keeps_ue {s : Sched} {cs : List SchedCall} {user : Nat}
    (notRemoved : SchedCall.ueRem user ∉ cs) (known : (s.ueDb.find? user).isSome) :
    ((s.calls cs).ueDb.find? user).isSome :=
  calls_invariant (P := fun s => (s.ueDb.find? user).isSome)
    (fun _ _ member known => call_keeps_ue (fun same => notRemoved (same ▸ member)) known) known

/-- A UE known in front of `dl_sched` is known to the end of the TTI unless a call removes it. -/
theorem tti_keeps_ue {s s' : Sched} {rx user : Nat} {c : TtiCalls} {o : TtiLog}
    (stepped : s.tti rx c = some (s', o)) (between : SchedCall.ueRem user ∉ c.between)
    (known : (o.pre.ueDb.find? user).isSome) :
    (o.mid.ueDb.find? user).isSome ∧ (s'.ueDb.find? user).isSome := by
  obtain ⟨-, -, -, -, lastTti, s₁, dl, mid, ul⟩ := tti_cases stepped
  have inside : rx % 10240 < 10240 := by omega
  have knownDl : (s₁.ueDb.find? user).isSome := by
    rw [(generateTtiResultDl_frame inside dl).2.isSome]
    exact known
  have knownMid : (o.mid.ueDb.find? user).isSome := mid ▸ calls_keeps_ue between knownDl
  have ues := generateTtiResultUl_sameUes (s := o.mid) inside
  rw [ul] at ues
  exact ⟨knownMid, by rw [ues.isSome]; exact knownMid⟩

theorem tti_pre_keeps_ue {s s' : Sched} {rx user : Nat} {c : TtiCalls} {o : TtiLog}
    (stepped : s.tti rx c = some (s', o)) (before : SchedCall.ueRem user ∉ c.before)
    (known : (s.ueDb.find? user).isSome) : (o.pre.ueDb.find? user).isSome := by
  obtain ⟨-, -, pre, -⟩ := tti_cases stepped
  exact pre ▸ calls_keeps_ue before known

end Sched

/-! ## Nine TTIs later -/

/-- The Msg3 allocations that stand nine TTIs ahead when `ul_sched` of this TTI is called: those
    its `dl_sched` queued. -/
def TtiLog.queuedMsg3 (o : TtiLog) : List UlAlloc :=
  (o.mid.getSfSched (o.rx % 10240 + 9)).ulDataAllocs.filter fun a => a.type == .msg3

/-- The uplink allocations with which `ul_sched` of this TTI begins. -/
def TtiLog.ulDataAllocs (o : TtiLog) : List UlAlloc :=
  (o.mid.getSfSched (o.rx % 10240)).ulDataAllocs

/-- The uplink result holds a Msg3 for `user`: an element that needs no DCI. -/
def TtiLog.emitsMsg3 (o : TtiLog) (user : Nat) : Prop :=
  ∃ e ∈ o.ul.npusch, e.needsNpdcch = false ∧ e.dci.rnti = user

/-- No call removes `user` after `dl_sched` of entry `i` and up to entry `j`. -/
structure NotRemoved (log : List TtiLog) (user i j : Nat) : Prop where
  same : ∀ o, log[i]? = some o → SchedCall.ueRem user ∉ o.calls.between
  later : ∀ k o, i < k → k ≤ j → log[k]? = some o →
    SchedCall.ueRem user ∉ o.calls.before ∧ SchedCall.ueRem user ∉ o.calls.between

namespace Sched

/-- Where the Msg3 of a TTI are queued, and what is known about them at the end of it. -/
theorem tti_queuedMsg3 {s s' : Sched} {rx : Nat} {c : TtiCalls} {o : TtiLog} {a : UlAlloc}
    (stepped : s.tti rx c = some (s', o)) (ok : RingOk rx s) (queued : a ∈ o.queuedMsg3) :
    a.type = .msg3 ∧ a.mcs = 0 ∧ (o.pre.ueDb.find? a.user).isSome ∧
      a ∈ (s'.sfScheds ((rx + 9) % nofSfScheds)).ulDataAllocs ∧
      (s'.sfScheds ((rx + 9) % nofSfScheds)).ttiParams.ttiRx = rx % 10240 + 9 := by
  have rxOf : o.rx = rx := (tti_cases stepped).1
  have okPre := tti_pre_ringOk stepped ok
  have place := slot_mod rx 9
  obtain ⟨member, type⟩ := List.mem_filter.mp queued
  rw [rxOf] at member
  obtain ⟨sameMid, kind⟩ := tti_msg3 stepped
  by_cases key : (o.mid.sfScheds ((rx % 10240 + 9) % nofSfScheds)).ttiParams.ttiRx = rx % 10240 + 9
  · rw [getSfSched_of_key key, place, ← sameMid] at member
    rw [place, ← sameMid] at key
    have origin : a.mcs = 0 ∧ (o.pre.ueDb.find? a.user).isSome := by
      rcases kind with same | ⟨grants, g, start, ues, queuedNow⟩
      · -- an untouched place one turn old cannot hold this key, and an unused one holds nothing
        rw [same] at key member
        rcases ok.far (rx + 9) (by omega) (by omega) with old | unused
        · rw [old] at key
          omega
        · rw [unused] at member
          cases member
      · rw [queuedNow] at member
        rcases SfGrid.mem_raUlSched member with old | ⟨-, mcs, known⟩
        · rw [start, okPre.msg3_fresh] at old
          cases old
        · rw [ues.isSome] at known
          exact ⟨mcs, known⟩
    exact ⟨by simpa using type, origin.1, origin.2, member, key⟩
  · rw [getSfSched_of_other_key key] at member
    cases member

/-- Eight TTIs that do not touch the place of a queued Msg3. -/
theorem run_msg3_place {rx : Nat} {inputs : List TtiCalls} {s last : Sched} {log : List TtiLog}
    {user : Nat} (ran : Ticking.run tti s (rx + 1) inputs = some (last, log))
    (short : inputs.length ≤ 8) (known : (s.ueDb.find? user).isSome)
    (notRemoved : ∀ o ∈ log, SchedCall.ueRem user ∉ o.calls.before ∧
      SchedCall.ueRem user ∉ o.calls.between) :
    last.sfScheds ((rx + 9) % nofSfScheds) = s.sfScheds ((rx + 9) % nofSfScheds) ∧
      (last.ueDb.find? user).isSome := by
  have all := Ticking.run_invariant
    (I := fun n t _ => rx + 1 ≤ n ∧
      (n ≤ rx + 9 → t.sfScheds ((rx + 9) % nofSfScheds) = s.sfScheds ((rx + 9) % nofSfScheds)) ∧
      (t.ueDb.find? user).isSome)
    (C := fun o => SchedCall.ueRem user ∉ o.calls.before ∧ SchedCall.ueRem user ∉ o.calls.between)
    (fun n t _ c t' o inv stepped notRemoved => by
      obtain ⟨from', same, known⟩ := inv
      obtain ⟨-, calls, -⟩ := tti_cases stepped
      rw [calls] at notRemoved
      have knownPre := tti_pre_keeps_ue stepped notRemoved.1 known
      refine ⟨by omega, ?_, (tti_keeps_ue stepped notRemoved.2 knownPre).2⟩
      intro below
      have own : (rx + 9) % nofSfScheds ≠ n % nofSfScheds := by unfold nofSfScheds; omega
      have msg3 : (rx + 9) % nofSfScheds ≠ (n + 9) % nofSfScheds := by unfold nofSfScheds; omega
      rw [tti_sfScheds stepped own msg3]
      exact same (by omega))
    ⟨le_rfl, fun _ => rfl, known⟩ ran notRemoved
  exact ⟨all.2.1 (by omega), all.2.2⟩

/-- The downlink run of a TTI leaves its uplink allocations as they were. -/
theorem tti_ulDataAllocs {s s' : Sched} {rx : Nat} {c : TtiCalls} {o : TtiLog}
    (stepped : s.tti rx c = some (s', o)) :
    o.ulDataAllocs = (s.getSfSched (rx % 10240)).ulDataAllocs := by
  obtain ⟨rxOf, -, -, -, lastTti, s₁, dl, mid, -⟩ := tti_cases stepped
  have kept := (generateTtiResultDl_frame (by omega) dl).1
  have sameMid : o.mid.getSfSched (rx % 10240) = s₁.getSfSched (rx % 10240) := by
    rw [mid]
    simp only [getSfSched, (calls_sameCarrier s₁ c.between).sfScheds]
  have samePre : o.pre.getSfSched (rx % 10240) = s.getSfSched (rx % 10240) := by
    simp only [getSfSched, (tti_pre_sameCarrier stepped).sfScheds]
  rw [TtiLog.ulDataAllocs, rxOf, sameMid, kept, setLastTti_getSfSched, samePre]

/-- A Msg3 that is there when `ul_sched` begins is emitted while its UE is known. -/
theorem tti_emitsMsg3 {s s' : Sched} {rx : Nat} {c : TtiCalls} {o : TtiLog} {a : UlAlloc}
    (stepped : s.tti rx c = some (s', o)) (own : OwnRnti s.ueDb) (member : a ∈ o.ulDataAllocs)
    (type : a.type = .msg3) (mcs : a.mcs = 0) (known : (o.mid.ueDb.find? a.user).isSome) :
    o.emitsMsg3 a.user := by
  obtain ⟨rxOf, -, -, -, lastTti, s₁, -, -, ul⟩ := tti_cases stepped
  rw [TtiLog.ulDataAllocs, rxOf] at member
  rw [generateTtiResultUl_eq (by omega)] at ul
  have frame := SfGrid.schedUsersUl_ulFrame ((o.mid.clearUl (rx % 10240)).grid (rx % 10240))
  have ues : SameUes SchedUe.rnti o.mid.ueDb _ := frame.ues.rnti.trans (SfGrid.generateSchedResults_sameUes _)
  obtain ⟨ue, found⟩ := Option.isSome_iff_exists.mp ((ues.isSome a.user).trans known)
  have rnti := (tti_ownRnti stepped own).2.1.of_sameUes ues a.user ue found
  have there : a ∈ (schedUsersUl ((o.mid.clearUl (rx % 10240)).grid (rx % 10240))).sf.ulDataAllocs :=
    frame.ulDataAllocs.subset member
  obtain ⟨e, emitted, noDci, owner⟩ := SfGrid.msg3_mem_ulSchedResult there type mcs found
  have result := congrArg (fun r => r.2.npusch) ul
  exact ⟨e, result ▸ emitted, noDci, owner.trans rnti⟩

/-- A Msg3 queued at receive TTI `rx` is still there nine TTIs later, and emitted, exactly when
    `rx + 9` does not pass 10240. -/
theorem msg3_survives_iff {start : Nat} {inputs : List TtiCalls} {last : Sched} {log : List TtiLog}
    {i : Nat} {o due : TtiLog} {a : UlAlloc} (ran : run start inputs = some (last, log))
    (queueing : log[i]? = some o) (later : log[i + 9]? = some due) (queued : a ∈ o.queuedMsg3)
    (stays : NotRemoved log a.user i (i + 9)) :
    (a ∈ due.ulDataAllocs ∧ due.emitsMsg3 a.user) ↔ o.rx % 10240 ≤ 10230 := by
  obtain ⟨s, s', c, ranBefore, stepped, ranAfter⟩ := Ticking.run_tick ran queueing
  have inside := (List.getElem?_eq_some_iff.mp queueing).1
  rw [Ticking.run_length ran] at inside
  have ok := run_ringOk ranBefore inside
  obtain ⟨rx, calls, -⟩ := tti_cases stepped
  obtain ⟨type, mcs, knownPre, member, key⟩ := tti_queuedMsg3 stepped ok queued
  have between := stays.same o queueing
  rw [calls] at between
  have known := (tti_keeps_ue stepped between knownPre).2
  have there : (log.drop (i + 1))[8]? = some due := by
    rw [List.getElem?_drop]
    exact later
  obtain ⟨t, t', c', ranMid, steppedDue, -⟩ := Ticking.run_tick ranAfter there
  have notRemoved : ∀ p ∈ (log.drop (i + 1)).take 8, SchedCall.ueRem a.user ∉ p.calls.before ∧
      SchedCall.ueRem a.user ∉ p.calls.between := by
    intro p inside
    obtain ⟨k, below, rfl⟩ := List.getElem_of_mem inside
    rw [List.length_take, List.length_drop] at below
    refine stays.later (i + 1 + k) _ (by omega) (by omega) ?_
    rw [List.getElem_take, List.getElem_drop]
    exact List.getElem?_eq_getElem _
  have short : ((inputs.drop (i + 1)).take 8).length ≤ 8 := List.length_take_le _ _
  obtain ⟨place, knownDue⟩ := run_msg3_place ranMid short known notRemoved
  obtain ⟨-, callsDue, -⟩ := tti_cases steppedDue
  obtain ⟨before, betweenDue⟩ := stays.later (i + 9) due (by omega) le_rfl later
  rw [callsDue] at before betweenDue
  have knownMid := (tti_keeps_ue steppedDue betweenDue (tti_pre_keeps_ue steppedDue before knownDue)).1
  have now : start + i + 1 + 8 = start + i + 9 := by omega
  rw [now] at steppedDue
  have slot := slot_own (start + i + 9)
  have own := ((tti_ringOk stepped ok).run ranMid).own
  have allocs := tti_ulDataAllocs steppedDue
  rw [rx]
  constructor
  · rintro ⟨inside, -⟩
    -- past the wrap the key does not match and the place is cleared
    by_contra wraps
    rw [allocs, getSfSched_of_other_key] at inside
    · cases inside
    · rw [slot, place, key]
      omega
  · intro below
    have inside : a ∈ due.ulDataAllocs := by
      rw [allocs, getSfSched_of_key]
      · rwa [slot, place]
      · rw [slot, place, key]
        omega
    exact ⟨inside, tti_emitsMsg3 steppedDue own inside type mcs knownMid⟩

/-- Entry `i` queues a Msg3 for `user`, nine more entries follow, and nothing removes the UE. -/
def queuesMsg3 (log : List TtiLog) (i user : Nat) : Bool :=
  (log[i]?.any fun o => o.queuedMsg3.any fun a => decide (a.user = user)) &&
    decide (i + 9 < log.length) &&
    log.all fun o => decide (SchedCall.ueRem user ∉ o.calls.before ++ o.calls.between)

theorem queuesMsg3_cases {log : List TtiLog} {i user : Nat} (queues : queuesMsg3 log i user = true) :
    ∃ o due a, log[i]? = some o ∧ log[i + 9]? = some due ∧ a ∈ o.queuedMsg3 ∧ a.user = user ∧
      NotRemoved log a.user i (i + 9) := by
  simp only [queuesMsg3, Bool.and_eq_true, Option.any_eq_true, List.any_eq_true, List.all_eq_true,
    decide_eq_true_eq, List.mem_append, not_or] at queues
  obtain ⟨⟨⟨o, here, a, queued, rfl⟩, inside⟩, notRemoved⟩ := queues
  exact ⟨o, log[i + 9], a, here, List.getElem?_eq_getElem inside, queued, rfl,
    fun p at' => (notRemoved p (List.mem_of_getElem? at')).2,
    fun k p _ _ at' => notRemoved p (List.mem_of_getElem? at')⟩

/-- A preamble answered at TX TTI 16: the Msg3 queued at receive TTI 12 is emitted at 21. -/
theorem msg3_survives_from_12 :
    ∃ last log o due a, run 12 (⟨rachDetected 0x46 0, []⟩ :: idleTtis 9) = some (last, log) ∧
      log[0]? = some o ∧ log[9]? = some due ∧ a ∈ o.queuedMsg3 ∧ a ∈ due.ulDataAllocs ∧
      due.emitsMsg3 a.user := by
  have checked : ((run 12 (⟨rachDetected 0x46 0, []⟩ :: idleTtis 9)).any fun r =>
      queuesMsg3 r.2 0 0x46 && r.2[0]?.any fun o => decide (o.rx % 10240 ≤ 10230)) = true := by
    decide +kernel
  obtain ⟨⟨last, log⟩, ran, facts⟩ := Option.any_eq_true .. |>.mp checked
  obtain ⟨queues, early⟩ := Bool.and_eq_true_iff.mp facts
  obtain ⟨o, due, a, queueing, later, queued, -, stays⟩ := queuesMsg3_cases queues
  have below : o.rx % 10240 ≤ 10230 := by
    simpa only [queueing, Option.any_some, decide_eq_true_eq] using early
  obtain ⟨inside, emitted⟩ := (msg3_survives_iff ran queueing later queued stays).mpr below
  exact ⟨last, log, o, due, a, ran, queueing, later, queued, inside, emitted⟩

/-- Data for 0x46 reserves TX TTI 1, so SIB2 is left out there and a preamble is answered at TX
    TTI 2. Its Msg3, queued at receive TTI 10238, is gone at receive TTI 7. -/
theorem msg3_lost_at_wrap :
    ∃ last log o due a,
      run 10229
          (⟨[.ueCfg 0x46 rachUeCfg, .dlRlcBufferState 0x46 0 30 0], []⟩ :: idleTtis 8 ++
            ⟨rachDetected 0x47 10200, []⟩ :: idleTtis 9) = some (last, log) ∧
        log[9]? = some o ∧ log[9 + 9]? = some due ∧ a ∈ o.queuedMsg3 ∧
        NotRemoved log a.user 9 (9 + 9) ∧ ¬ (a ∈ due.ulDataAllocs ∨ due.emitsMsg3 a.user) := by
  have checked : ((run 10229
      (⟨[.ueCfg 0x46 rachUeCfg, .dlRlcBufferState 0x46 0 30 0], []⟩ :: idleTtis 8 ++
        ⟨rachDetected 0x47 10200, []⟩ :: idleTtis 9)).any fun r =>
      queuesMsg3 r.2 9 0x47 &&
        r.2[18]?.any fun due => due.ulDataAllocs.isEmpty && due.ul.npusch.isEmpty) = true := by
    decide +kernel
  obtain ⟨⟨last, log⟩, ran, facts⟩ := Option.any_eq_true .. |>.mp checked
  obtain ⟨queues, lost⟩ := Bool.and_eq_true_iff.mp facts
  obtain ⟨o, due, a, queueing, later, queued, -, stays⟩ := queuesMsg3_cases queues
  simp only [later, Option.any_some, Bool.and_eq_true, List.isEmpty_iff] at lost
  refine ⟨last, log, o, due, a, ran, queueing, later, queued, stays, ?_⟩
  simp [TtiLog.emitsMsg3, lost]

end Sched

end SonicaEnb
