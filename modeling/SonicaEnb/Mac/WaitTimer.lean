import SonicaEnb.Mac.Msg3Queue
import SonicaEnb.Mac.Reservations

/-! # The wait timer of a UE

`msg_wait_timer` is no clock: it is counted down where `ul_sched` turns a UE down.
But `ul_sched` visits every UE once in a TTI, so a timer of `n` survives `n`
TTIs, and as long as it runs the UE gets no new transmission.
-/

namespace SonicaEnb

/-- The UE is known, and its timer has `n` turns left or more. -/
def Guarded (n : Nat) (ueDb : SortedMap Nat SchedUe) (user : Nat) : Prop :=
  ∃ ue, ueDb.find? user = some ue ∧ n ≤ ue.msgWaitTimer

/-- `ul_wait_timer` as `ue::process_pdu` calls it. -/
def SchedCall.TimerAsProcessPdu (c : SchedCall) : Prop :=
  ∀ rnti waitTime setValue, c = .ulWaitTimer rnti waitTime setValue → waitTime = 30 ∧ setValue = true

/-- The uplink result holds a new transmission for `user`: an element that needs a DCI. -/
def TtiLog.grantsNewtx (o : TtiLog) (user : Nat) : Prop :=
  ∃ e ∈ o.ul.npusch, e.needsNpdcch = true ∧ e.dci.rnti = user

/-! ## What leaves the timer alone -/

namespace Guarded

variable {n m user : Nat} {db db' : SortedMap Nat SchedUe}

theorem mono (guarded : Guarded n db user) (less : m ≤ n) : Guarded m db user := by
  obtain ⟨ue, found, runs⟩ := guarded
  exact ⟨ue, found, less.trans runs⟩

theorem of_sameUes (guarded : Guarded n db user) (same : SameUes SchedUe.msgWaitTimer db db') :
    Guarded n db' user := by
  obtain ⟨ue, found, runs⟩ := guarded
  obtain ⟨ue', found', timer⟩ := same.after found
  exact ⟨ue', found', timer ▸ runs⟩

/-- A change that does not shorten the timer of the UE. -/
theorem modify (guarded : Guarded n db user) (k : Nat) {f : SchedUe → SchedUe}
    (keeps : ∀ ue, n ≤ ue.msgWaitTimer → n ≤ (f ue).msgWaitTimer) :
    Guarded n (db.modify k f) user := by
  obtain ⟨ue, found, runs⟩ := guarded
  by_cases here : user = k
  · subst here
    exact ⟨f ue, by simp [SortedMap.find?_modify, found], keeps ue runs⟩
  · exact ⟨ue, by simp [SortedMap.find?_modify, here, found], runs⟩

/-- A change to another UE. -/
theorem modify_other (guarded : Guarded n db user) {k : Nat} (f : SchedUe → SchedUe)
    (other : user ≠ k) : Guarded n (db.modify k f) user := by
  obtain ⟨ue, found, runs⟩ := guarded
  exact ⟨ue, by simp [SortedMap.find?_modify, other, found], runs⟩

end Guarded

@[simp] theorem SchedUe.ulBufferState_msgWaitTimer (ue : SchedUe) (lcId bsr : Nat) (setValue : Bool) :
    (ue.ulBufferState lcId bsr setValue).msgWaitTimer = ue.msgWaitTimer := by
  unfold ulBufferState; split <;> rfl

@[simp] theorem SchedUe.dlBufferState_msgWaitTimer (ue : SchedUe) (lcId txQueue retxQueue : Nat) :
    (ue.dlBufferState lcId txQueue retxQueue).msgWaitTimer = ue.msgWaitTimer := by
  unfold dlBufferState; split <;> rfl

@[simp] theorem SchedUe.macBufferState_msgWaitTimer (ue : SchedUe) (cmd : DlSchLcid) (nofCmds : Nat) :
    (ue.macBufferState cmd nofCmds).msgWaitTimer = ue.msgWaitTimer := by
  unfold macBufferState; split <;> rfl

namespace Sched

/-! ## One TTI -/

variable {s s' : Sched} {rx n user : Nat} {c : TtiCalls} {o : TtiLog}

theorem call_guarded (short : n ≤ 30) {call : SchedCall} (timer : call.TimerAsProcessPdu)
    (stays : call ≠ .ueRem user) (guarded : Guarded n s.ueDb user) :
    Guarded n (s.call call).ueDb user := by
  cases call with
  | ueCfg rnti cfg =>
      obtain ⟨ue, found, runs⟩ := guarded
      by_cases here : user = rnti
      · subst here
        refine ⟨ue.setCfg cfg, ?_, runs⟩
        simp [Sched.call, SortedMap.find?_insert, found]
      · refine ⟨ue, ?_, runs⟩
        simp [Sched.call, SortedMap.find?_insert, here, found]
  | ueRem rnti =>
      obtain ⟨ue, found, runs⟩ := guarded
      have other : user ≠ rnti := fun same => stays (same ▸ rfl)
      exact ⟨ue, by simp [Sched.call, SortedMap.find?_erase, other, found], runs⟩
  | dlRachInfo info => exact guarded
  | dlRlcBufferState rnti lcId txQueue retxQueue => exact guarded.modify rnti fun ue runs => by simpa
  | dlMacBufferState rnti ce nofCmds => exact guarded.modify rnti fun ue runs => by simpa
  | ulBsr rnti lcid bsr setValue => exact guarded.modify rnti fun ue runs => by simpa
  | ulWaitTimer rnti waitTime setValue =>
      obtain ⟨rfl, rfl⟩ := timer rnti waitTime setValue rfl
      exact guarded.modify rnti fun _ _ => short

theorem calls_guarded (short : n ≤ 30) {cs : List SchedCall}
    (timer : ∀ call ∈ cs, call.TimerAsProcessPdu) (stays : SchedCall.ueRem user ∉ cs)
    (guarded : Guarded n s.ueDb user) : Guarded n (s.calls cs).ueDb user := by
  apply calls_invariant (P := fun s => Guarded n s.ueDb user)
  · intro s call member
    exact call_guarded short (timer call member) fun same => stays (same ▸ member)
  · exact guarded

/-- The downlink run writes a timer only for the user it serves, and to 30. -/
theorem generateTtiResultDl_guarded {ttiRx : Nat} {dl : DlSchedRes} (inside : ttiRx < 10240)
    (ran : s.generateTtiResultDl ttiRx = some (s', dl)) (unscheduled : (s.getSfSched ttiRx).NoDl)
    (short : n ≤ 30) (guarded : Guarded n s.ueDb user ∨ (s'.getSfSched ttiRx).isDlAlloc user = true) :
    Guarded n s'.ueDb user := by
  obtain ⟨ret, g₁, g₂, run⟩ := generateTtiResultDl_phases inside ran
  have fresh := run.fresh unscheduled
  have results : SameUes SchedUe.msgWaitTimer g₂.ueDb s'.ueDb := by
    rw [congrArg Shared.ueDb run.shared]
    exact SfGrid.dlDataSchedResult_keeps (fun _ _ => rfl) _ _
  have before : Guarded n s.ueDb user → Guarded n g₁.ueDb user := fun here => run.ueDb ▸ here
  rw [run.ownSf] at guarded
  apply Guarded.of_sameUes _ results
  obtain ⟨ul, users⟩ := run.users
  rcases SfGrid.schedUsersDl_cases (g := { g₁ with ulSchedTable := ul }) fresh users with
    ⟨-, rfl⟩ | ⟨picked, ue, npdschTtis, -, found, -, rfl⟩
  · rcases guarded with here | served
    · exact before here
    · simp [SfSched.isDlAlloc, fresh] at served
  · rcases guarded with here | served
    · exact (before here).modify picked fun _ _ => short
    · have same : picked = user := by simpa [SfSched.isDlAlloc, SfGrid.served, fresh] using served
      subst same
      refine ⟨(ue.ulBufferState 3 70 false).ulWaitTimer 30 true, ?_, short⟩
      have found : g₁.ueDb.find? picked = some ue := found
      simp [SfGrid.served, SortedMap.find?_modify, found]

end Sched

namespace SfGrid

/-! ## The uplink run -/

/-- Nothing that needs a DCI is granted to `user` in the subframe. -/
def NoNewtx (g : SfGrid) (user : Nat) : Prop :=
  ∀ a ∈ g.sf.ulDataAllocs, a.user = user → a.type.needsNpdcch = false

/-- The visit of another UE. -/
theorem visit_other {g : SfGrid} {n user visited : Nat} (other : user ≠ visited)
    (guarded : Guarded n g.ueDb user) (without : g.NoNewtx user) :
    Guarded n (allocateUserNewtxPrbs g visited).ueDb user ∧
      (allocateUserNewtxPrbs g visited).NoNewtx user := by
  rw [allocateUserNewtxPrbs_eq]
  split
  · exact ⟨guarded, without⟩
  · split
    · exact ⟨guarded.modify_other _ other, without⟩
    · split
      · refine ⟨guarded.modify_other _ other, ?_⟩
        intro a member own
        rcases List.mem_append.mp member with old | new
        · exact without a old own
        · rw [List.mem_singleton.mp new] at own
          exact absurd own.symm other
      · exact ⟨guarded, without⟩

/-- The visit of the UE itself costs one turn of its timer at most. -/
theorem visit_own {g : SfGrid} {n user : Nat} (guarded : Guarded (n + 1) g.ueDb user)
    (without : g.NoNewtx user) :
    Guarded n (allocateUserNewtxPrbs g user).ueDb user ∧
      (allocateUserNewtxPrbs g user).NoNewtx user := by
  rw [allocateUserNewtxPrbs_eq]
  cases asks : g.ulAsker user with
  | none => exact ⟨guarded.mono (Nat.le_succ n), without⟩
  | some asker =>
      obtain ⟨ue, found, runs⟩ := guarded
      have same : asker = ue := by
        unfold ulAsker at asks
        split at asks
        · cases asks
        · have here := (Option.filter_eq_some_iff.mp asks).1
          rw [found] at here
          exact (Option.some.inj here).symm
      have running : asker.msgWaitTimer ≠ 0 := by
        rw [same]
        omega
      simp only [running, ne_eq, not_false_eq_true, if_true]
      refine ⟨⟨{ ue with msgWaitTimer := ue.msgWaitTimer - 1 }, ?_, by simp only; omega⟩, without⟩
      simp [tickUl, SortedMap.find?_modify, found]

/-- Every UE is visited once, so all visits of a TTI together cost one turn. -/
theorem schedUsersUl_guarded {g : SfGrid} {n user : Nat} (guarded : Guarded (n + 1) g.ueDb user)
    (without : g.NoNewtx user) :
    Guarded n (schedUsersUl g).ueDb user ∧ (schedUsersUl g).NoNewtx user := by
  have known : (g.ueDb.find? user).isSome := by
    obtain ⟨ue, found, -⟩ := guarded
    rw [found]
    rfl
  apply schedUsersUl_once (P := fun g => Guarded (n + 1) g.ueDb user ∧ g.NoNewtx user)
    (Q := fun g => Guarded n g.ueDb user ∧ g.NoNewtx user) known
  · rintro g visited elsewhere ⟨guarded, without⟩
    exact visit_other elsewhere guarded without
  · rintro g ⟨guarded, without⟩
    exact visit_own guarded without
  · rintro g visited elsewhere ⟨guarded, without⟩
    exact visit_other elsewhere guarded without
  · exact ⟨guarded, without⟩

/-- What stands in the uplink result for a UE was granted to it. -/
theorem mem_ulSchedResult {sf : SfSched} {db : SortedMap Nat SchedUe} (own : OwnRnti db)
    {e : UlSchedData} (member : e ∈ ulSchedResult sf db) :
    ∃ a ∈ sf.ulDataAllocs, e.dci.rnti = a.user ∧ e.needsNpdcch = a.type.needsNpdcch := by
  obtain ⟨a, inside, made⟩ := List.mem_filterMap.mp member
  refine ⟨a, inside, ?_⟩
  cases found : db.find? a.user with
  | none => simp [found] at made
  | some ue =>
      have rnti := own a.user ue found
      simp only [found] at made
      split at made
      · cases made
      · rename_i some
        have sized : 0 < tbsNpusch a.mcs 3 := Nat.pos_of_ne_zero some
        cases made
        simp [SchedUe.generateFormatN0, sized, rnti]

end SfGrid

namespace Sched

variable {s s' : Sched} {rx n user : Nat} {c : TtiCalls} {o : TtiLog}

/-- While the timer runs when `ul_sched` is called, nothing is granted, and one turn is used up. -/
theorem tti_ul_guarded (stepped : s.tti rx c = some (s', o)) (ok : RingOk rx s)
    (guarded : Guarded (n + 1) o.mid.ueDb user) :
    Guarded n s'.ueDb user ∧ ¬ o.grantsNewtx user := by
  have onlyMsg3 := (ok.near rx (by omega) (by omega)).ulDataAllocs
  rw [← tti_ulDataAllocs stepped] at onlyMsg3
  have ownMid := (tti_ownRnti stepped ok.own).2.1
  obtain ⟨rxOf, -, -, -, lastTti, s₁, -, -, ul⟩ := tti_cases stepped
  rw [TtiLog.ulDataAllocs, rxOf] at onlyMsg3
  rw [generateTtiResultUl_eq (by omega)] at ul
  obtain ⟨guarded', without⟩ := SfGrid.schedUsersUl_guarded
    (g := (o.mid.clearUl (rx % 10240)).grid (rx % 10240)) guarded fun a member _ => by
      rw [onlyMsg3 a member]
      rfl
  have after := congrArg (fun r => r.1.ueDb) ul
  have result := congrArg (fun r => r.2.npusch) ul
  constructor
  · rw [← after]
    exact guarded'.of_sameUes (SfGrid.dlDataSchedResult_keeps (fun _ _ => rfl) _ _)
  · rintro ⟨e, member, needsNpdcch, owner⟩
    rw [← result] at member
    have ues := (SfGrid.schedUsersUl_ulFrame ((o.mid.clearUl (rx % 10240)).grid (rx % 10240))).ues.rnti
    have own := (ownMid.of_sameUes ues).of_sameUes (SfGrid.generateSchedResults_sameUes _)
    obtain ⟨a, inside, rnti, type⟩ := SfGrid.mem_ulSchedResult own member
    have none := without a inside (rnti.symm.trans owner)
    rw [type, none] at needsNpdcch
    cases needsNpdcch

/-- A whole TTI costs a timer one turn. -/
theorem tti_guarded (stepped : s.tti rx c = some (s', o)) (ok : RingOk rx s) (short : n + 1 ≤ 30)
    (timer : ∀ call ∈ c.before ++ c.between, call.TimerAsProcessPdu)
    (stays : SchedCall.ueRem user ∉ c.before ∧ SchedCall.ueRem user ∉ c.between)
    (guarded : Guarded (n + 1) s.ueDb user) : Guarded n s'.ueDb user ∧ ¬ o.grantsNewtx user := by
  have okPre := tti_pre_ringOk stepped ok
  obtain ⟨-, -, pre, -, lastTti, s₁, dl, mid, -⟩ := tti_cases stepped
  have guardedPre : Guarded (n + 1) o.pre.ueDb user := pre ▸
    calls_guarded short (fun call member => timer call (List.mem_append_left _ member)) stays.1 guarded
  have guardedDl : Guarded (n + 1) s₁.ueDb user :=
    generateTtiResultDl_guarded (by omega) dl okPre.own_noDl short (.inl guardedPre)
  have guardedMid : Guarded (n + 1) o.mid.ueDb user := mid ▸
    calls_guarded short (fun call member => timer call (List.mem_append_right _ member)) stays.2 guardedDl
  exact tti_ul_guarded stepped ok guardedMid

/-- The TTI that serves a UE starts its timer. -/
theorem tti_served_guarded {a : DlAlloc} (stepped : s.tti rx c = some (s', o)) (ok : RingOk rx s)
    (timer : ∀ call ∈ c.between, call.TimerAsProcessPdu) (member : a ∈ o.sf.dataAllocs)
    (stays : SchedCall.ueRem a.user ∉ c.between) :
    Guarded 29 s'.ueDb a.user ∧ ¬ o.grantsNewtx a.user := by
  have okPre := tti_pre_ringOk stepped ok
  obtain ⟨rxOf, -, -, post, lastTti, s₁, dl, mid, ul⟩ := tti_cases stepped
  have served : (s₁.getSfSched (rx % 10240)).isDlAlloc a.user = true := by
    obtain ⟨-, -, allocs⟩ := generateTtiResultUl_sameDl (s := o.mid) (by omega : rx % 10240 < 10240)
    have sameMid : o.mid.getSfSched (rx % 10240) = s₁.getSfSched (rx % 10240) := by
      rw [mid]
      simp only [getSfSched, (calls_sameCarrier s₁ c.between).sfScheds]
    rw [ul, sameMid] at allocs
    rw [TtiLog.sf, post, rxOf, allocs.dataAllocs] at member
    exact List.any_eq_true.mpr ⟨a, member, by simp⟩
  have guardedDl : Guarded 30 s₁.ueDb a.user :=
    generateTtiResultDl_guarded (by omega) dl okPre.own_noDl le_rfl (.inr served)
  have guardedMid : Guarded 30 o.mid.ueDb a.user := mid ▸ calls_guarded le_rfl timer stays guardedDl
  exact tti_ul_guarded stepped ok guardedMid

/-! ## Thirty TTIs -/

/-- After the TTI `rx` that started the timer, each TTI costs one turn. -/
theorem run_guarded {rx : Nat} {inputs : List TtiCalls} {last : Sched} {log : List TtiLog}
    (ran : Ticking.run tti s (rx + 1) inputs = some (last, log)) (ok : RingOk (rx + 1) s)
    (timer : ∀ o ∈ log, ∀ call ∈ o.calls.before ++ o.calls.between, call.TimerAsProcessPdu)
    (stays : ∀ o ∈ log, SchedCall.ueRem user ∉ o.calls.before ∧ SchedCall.ueRem user ∉ o.calls.between)
    (short : inputs.length ≤ 29) (guarded : Guarded 29 s.ueDb user) :
    RingOk (rx + 1 + inputs.length) last ∧ Guarded (29 - inputs.length) last.ueDb user := by
  have all := Ticking.run_invariant
    (I := fun now t _ => RingOk now t ∧ rx + 1 ≤ now ∧
      (now ≤ rx + 30 → Guarded (rx + 30 - now) t.ueDb user))
    (C := fun o => (∀ call ∈ o.calls.before ++ o.calls.between, call.TimerAsProcessPdu) ∧
      SchedCall.ueRem user ∉ o.calls.before ∧ SchedCall.ueRem user ∉ o.calls.between)
    (fun now t _ c t' o inv stepped kept => by
      obtain ⟨ok, after, guarded⟩ := inv
      rw [(tti_cases stepped).2.1] at kept
      refine ⟨tti_ringOk stepped ok, by omega, ?_⟩
      intro within
      have guarded := guarded (by omega)
      rw [show rx + 30 - now = rx + 30 - (now + 1) + 1 by omega] at guarded
      exact (tti_guarded stepped ok (by omega) kept.1 kept.2 guarded).1)
    ⟨ok, le_rfl, fun _ => guarded.mono (by omega)⟩ ran fun o member => ⟨timer o member, stays o member⟩
  obtain ⟨ok, -, guarded⟩ := all
  exact ⟨ok, (guarded (by omega)).mono (by omega)⟩

/-- From the TTI in which `alloc_dl_user` succeeds for a UE and for thirty TTIs, `ul_sched` answers
    no new transmission for it, whatever is reported meanwhile. -/
theorem no_newtx_after_data {start : Nat} {inputs : List TtiCalls} {last : Sched} {log : List TtiLog}
    (ran : run start inputs = some (last, log))
    (timer : ∀ o ∈ log, ∀ call ∈ o.calls.before ++ o.calls.between, call.TimerAsProcessPdu)
    {i d : Nat} {o later : TtiLog} {a : DlAlloc} (serving : log[i]? = some o)
    (allocated : a ∈ o.sf.dataAllocs) (within : d ≤ 29) (here : log[i + d]? = some later)
    (stays : NotRemoved log a.user i (i + d)) : ¬ later.grantsNewtx a.user := by
  have insideLog := (List.getElem?_eq_some_iff.mp serving).1
  obtain ⟨s, s', c, ranBefore, stepped, ranAfter⟩ := Ticking.run_tick ran serving
  have ok := run_ringOk ranBefore (by rwa [Ticking.run_length ran] at insideLog)
  have calls := (tti_cases stepped).2.1
  have timerNow := timer o (List.mem_of_getElem? serving)
  have staysNow := stays.same o serving
  rw [calls] at timerNow staysNow
  obtain ⟨guarded, nothing⟩ := tti_served_guarded stepped ok
    (fun call member => timerNow call (List.mem_append_right _ member)) allocated staysNow
  cases d with
  | zero =>
      rw [Nat.add_zero, serving] at here
      cases here
      exact nothing
  | succ d =>
      have hereAfter : (log.drop (i + 1))[d]? = some later := by
        rw [List.getElem?_drop, Nat.add_right_comm]
        exact here
      obtain ⟨t, t', c', ranBetween, steppedLater, -⟩ := Ticking.run_tick ranAfter hereAfter
      -- entry `j` of the log between the two TTIs is entry `i + 1 + j` of the whole log
      have entry : ∀ o' ∈ (log.drop (i + 1)).take d, ∃ j < d, log[i + 1 + j]? = some o' := by
        intro o' member
        obtain ⟨j, same⟩ := List.mem_iff_getElem?.mp member
        rw [List.getElem?_take] at same
        split at same
        · rename_i below
          rw [List.getElem?_drop] at same
          exact ⟨j, below, same⟩
        · cases same
      obtain ⟨okLater, guardedLater⟩ := run_guarded ranBetween (tti_ringOk stepped ok)
        (fun o' member => by
          obtain ⟨j, -, same⟩ := entry o' member
          exact timer o' (List.mem_of_getElem? same))
        (fun o' member => by
          obtain ⟨j, below, same⟩ := entry o' member
          exact stays.later (i + 1 + j) o' (by omega) (by omega) same)
        (by rw [List.length_take]; omega) guarded
      have count : ((inputs.drop (i + 1)).take d).length = d := by
        have := (List.getElem?_eq_some_iff.mp here).1
        rw [Ticking.run_length ran] at this
        rw [List.length_take, List.length_drop]
        omega
      rw [count] at okLater guardedLater
      have callsLater := (tti_cases steppedLater).2.1
      have timerLater := timer later (List.mem_of_getElem? here)
      have staysLater := stays.later (i + (d + 1)) later (by omega) le_rfl here
      rw [callsLater] at timerLater staysLater
      have running : Guarded (28 - d + 1) t.ueDb a.user := guardedLater.mono (by omega)
      exact (tti_guarded steppedLater okLater (by omega) timerLater staysLater running).2

/-- A UE with data in both directions. -/
def bothWaiting (rnti : Nat) : List SchedCall := dlWaiting rnti ++ [.ulBsr rnti 0 200 true]

/-- The UE is served at once and gets its uplink grant in the end, but not in the TTI that is 29
    TTIs later. -/
theorem uplink_waits_thirty : ∃ last log o later a,
    run 29 (⟨bothWaiting 0x46, []⟩ :: idleTtis 40) = some (last, log) ∧ log[0]? = some o ∧
      a ∈ o.sf.dataAllocs ∧ log[0 + 29]? = some later ∧ ¬ later.grantsNewtx a.user ∧
      (log.any fun o => o.ul.npusch.any fun e => e.needsNpdcch && e.dci.rnti == 0x46) = true := by
  have checked : ((run 29 (⟨bothWaiting 0x46, []⟩ :: idleTtis 40)).any fun r =>
      (r.2[0]?.any fun o => !o.sf.dataAllocs.isEmpty) && r.2[0 + 29]?.isSome &&
        r.2.any fun o => o.ul.npusch.any fun e => e.needsNpdcch && e.dci.rnti == 0x46) = true := by
    decide +kernel
  obtain ⟨⟨last, log⟩, ran, facts⟩ := Option.any_eq_true .. |>.mp checked
  simp only [Bool.and_eq_true, Option.any_eq_true] at facts
  obtain ⟨⟨⟨o, first, served⟩, there⟩, granted⟩ := facts
  obtain ⟨later, here⟩ := Option.isSome_iff_exists.mp there
  obtain ⟨a, allocated⟩ := List.exists_mem_of_ne_nil o.sf.dataAllocs (by simpa using served)
  have known : ∀ o ∈ log, ∀ call ∈ o.calls.before ++ o.calls.between, call ∈ bothWaiting 0x46 := by
    intro o member call called
    obtain ⟨s, rx, c, s', input, stepped⟩ := Ticking.run_mem ran member
    rw [(tti_cases stepped).2.1] at called
    rcases List.mem_cons.mp input with rfl | idle
    · simpa using called
    · rw [List.eq_of_mem_replicate idle] at called
      cases called
  have absent : ∀ user, SchedCall.ueRem user ∉ bothWaiting 0x46 := by
    intro user member
    simp [bothWaiting, dlWaiting] at member
  have stays : ∀ o ∈ log, SchedCall.ueRem a.user ∉ o.calls.before ∧
      SchedCall.ueRem a.user ∉ o.calls.between := fun o member =>
    ⟨fun removed => absent _ (known o member _ (List.mem_append_left _ removed)),
      fun removed => absent _ (known o member _ (List.mem_append_right _ removed))⟩
  refine ⟨last, log, o, later, a, ran, first, allocated, here, ?_, granted⟩
  apply no_newtx_after_data ran _ first allocated le_rfl here
  · exact ⟨fun o here => (stays o (List.mem_of_getElem? here)).2,
      fun k o _ _ here => stays o (List.mem_of_getElem? here)⟩
  · intro o member call called rnti waitTime setValue same
    have listed := known o member call called
    rw [same] at listed
    simp [bothWaiting, dlWaiting] at listed

end Sched

end SonicaEnb
