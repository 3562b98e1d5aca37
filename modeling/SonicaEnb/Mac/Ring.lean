import SonicaEnb.Mac.UlTurn

/-! # The ring of subframes over whole runs

Forty places hold the subframes of the next forty TTIs. A place is written by the
TTI it belongs to and, nine TTIs earlier, by the TTI that queues a Msg3 in it.
So when a TTI begins, its own subframe holds at most uplink allocations, and the
subframe nine TTIs ahead holds nothing.
-/

namespace SonicaEnb

namespace SfSched

/-- No downlink allocation yet. -/
structure NoDl (sf : SfSched) : Prop where
  bcAllocs : sf.bcAllocs = []
  rarAllocs : sf.rarAllocs = []
  dataAllocs : sf.dataAllocs = []

/-- Nothing but the Msg3 queued for the TTI. -/
structure OnlyMsg3 (sf : SfSched) : Prop extends sf.NoDl where
  ulDataAllocs : ∀ a ∈ sf.ulDataAllocs, a.type = .msg3

theorem newTti_onlyMsg3 (ttiRx : Nat) : (newTti ttiRx).OnlyMsg3 := by
  refine ⟨⟨rfl, rfl, rfl⟩, ?_⟩
  intro a member
  cases member

end SfSched

namespace Sched

/-! ## One TTI -/

/-- The subframe that is found under a key after the downlink run, with its own key. -/
theorem generateTtiResultDl_own {s s' : Sched} {ttiRx : Nat} {dl : DlSchedRes}
    (inside : ttiRx < 10240) (ran : s.generateTtiResultDl ttiRx = some (s', dl)) :
    (s'.sfScheds (ttiRx % nofSfScheds)).ttiParams.ttiRx = ttiRx := by
  obtain ⟨s₁, g, -, users, rfl, -⟩ := generateTtiResultDl_cases inside ran
  rw [store_sfScheds_same, SfGrid.generateSchedResults_eq]
  change g.sf.ttiParams.ttiRx = ttiRx
  rw [(SfGrid.allocDlUsers_dlFrame users).ttiParams]
  exact getSfSched_ttiRx s₁ ttiRx

/-- Own place and Msg3 place of a TTI are different. -/
theorem own_ne_msg3 (ttiRx : Nat) : ttiRx % nofSfScheds ≠ (ttiRx + 9) % nofSfScheds := by
  unfold nofSfScheds
  omega

theorem schedMsg3_sameUes (s : Sched) (ttiRx : Nat) (sf : SfSched) :
    SameUes SchedUe.rnti s.ueDb (s.schedMsg3 ttiRx sf).ueDb :=
  (SfGrid.raUlSched_ulFrame sf.msg3Grants (s.grid (ttiRx + 9))).ues.rnti

/-- Broadcast and RAR: of the own subframe the uplink part stays, and no UE is touched. -/
theorem schedCtrl_frame {s s' : Sched} {ttiRx : Nat} (ran : s.schedCtrl ttiRx = some s') :
    (s'.getSfSched ttiRx).ulDataAllocs = (s.getSfSched ttiRx).ulDataAllocs ∧
      SameUes SchedUe.rnti s.ueDb s'.ueDb := by
  obtain ⟨ret, pendingRars, g, rar, outcome⟩ := schedCtrl_cases ran
  have sibs := SfGrid.allocSibs_dlFrame s.sib1SfIdx ((s.clearDl ttiRx).grid ttiRx)
  have frame := sibs.trans (SfGrid.raDlSched_dlFrame rar)
  have key : g.sf.ttiParams.ttiRx = ttiRx := by
    rw [frame.ttiParams]
    exact getSfSched_ttiRx _ _
  have allocs : g.sf.ulDataAllocs = (s.getSfSched ttiRx).ulDataAllocs := frame.ulDataAllocs
  have ues : SameUes SchedUe.rnti s.ueDb (s.afterRar ttiRx pendingRars g).ueDb := frame.ues
  have own : s'.sfScheds (ttiRx % nofSfScheds) = g.sf := by
    rcases outcome with ⟨-, rfl⟩ | ⟨-, rfl⟩
    · rw [schedMsg3_sfScheds _ _ _ (own_ne_msg3 ttiRx), afterRar_sfScheds_own]
    · exact afterRar_sfScheds_own s ttiRx pendingRars g
  constructor
  · rw [getSfSched_of_key (by rw [own]; exact key), own, allocs]
  · rcases outcome with ⟨-, rfl⟩ | ⟨-, rfl⟩
    · exact ues.trans (schedMsg3_sameUes (s.afterRar ttiRx pendingRars g) ttiRx g.sf)
    · exact ues

/-- The downlink run of a TTI leaves the uplink part of its subframe and the UEs in place. -/
theorem generateTtiResultDl_frame {s s' : Sched} {ttiRx : Nat} {dl : DlSchedRes}
    (inside : ttiRx < 10240) (ran : s.generateTtiResultDl ttiRx = some (s', dl)) :
    (s'.getSfSched ttiRx).ulDataAllocs = (s.getSfSched ttiRx).ulDataAllocs ∧
      SameUes SchedUe.rnti s.ueDb s'.ueDb := by
  have key := generateTtiResultDl_own inside ran
  obtain ⟨s₁, g, ctrl, users, rfl, -⟩ := generateTtiResultDl_cases inside ran
  obtain ⟨allocs, ues⟩ := schedCtrl_frame ctrl
  have frame := SfGrid.allocDlUsers_dlFrame users
  constructor
  · rw [getSfSched_of_key key, store_sfScheds_same, SfGrid.generateSchedResults_eq, ← allocs]
    exact frame.ulDataAllocs
  · exact (ues.trans frame.ues).trans (SfGrid.generateSchedResults_sameUes g)

theorem generateTtiResultUl_sameUes {s : Sched} {ttiRx : Nat} (inside : ttiRx < 10240) :
    SameUes SchedUe.rnti s.ueDb (s.generateTtiResultUl ttiRx).1.ueDb := by
  have first := (SfGrid.schedUsersUl_ulFrame ((s.clearUl ttiRx).grid ttiRx)).ues.rnti
  rw [generateTtiResultUl_eq inside]
  exact first.trans (SfGrid.generateSchedResults_sameUes (schedUsersUl ((s.clearUl ttiRx).grid ttiRx)))

/-- After its uplink run the subframe of a TTI still stands in its place. -/
theorem generateTtiResultUl_own {s : Sched} {ttiRx : Nat} (inside : ttiRx < 10240) :
    ((s.generateTtiResultUl ttiRx).1.sfScheds (ttiRx % nofSfScheds)).ttiParams.ttiRx = ttiRx := by
  rw [generateTtiResultUl_eq inside]
  simp only [store_sfScheds_same, SfGrid.generateSchedResults_eq]
  rw [(SfGrid.schedUsersUl_ulFrame _).ttiParams]
  exact getSfSched_ttiRx _ _

/-! ## The invariant -/

/-- Before the TTI at absolute time `rx`. A place more than nine TTIs ahead was last used one turn
    of the ring ago, or never; a nearer one holds no downlink allocation for its TTI, and of the
    uplink only Msg3. -/
structure RingOk (rx : Nat) (s : Sched) : Prop where
  far : ∀ a, rx + 9 ≤ a → a < rx + 40 →
    (s.sfScheds (a % nofSfScheds)).ttiParams.ttiRx = (a + 10200) % 10240 ∨
      s.sfScheds (a % nofSfScheds) = {}
  near : ∀ a, rx ≤ a → a < rx + 9 → (s.getSfSched (a % 10240)).OnlyMsg3
  own : OwnRnti s.ueDb

theorem init_ringOk (rx : Nat) : RingOk rx init where
  far _ _ _ := .inr rfl
  near a _ _ := by
    rw [getSfSched_of_other_key]
    · exact SfSched.newTti_onlyMsg3 _
    · simp only [init, TtiParams.ofRx]
      omega
  own _ _ found := by simp [init, SortedMap.find?, SortedMap.empty] at found

theorem RingOk.of_sameCarrier {rx : Nat} {s s' : Sched} (ok : RingOk rx s)
    (same : SameCarrier s s') (own : OwnRnti s'.ueDb) : RingOk rx s' where
  far a from' below := by rw [same.sfScheds]; exact ok.far a from' below
  near a from' below := by
    have found : s'.getSfSched (a % 10240) = s.getSfSched (a % 10240) := by
      simp only [getSfSched, same.sfScheds]
    rw [found]
    exact ok.near a from' below
  own := own

theorem init_calls_ringOk (rx : Nat) (cs : List SchedCall) : RingOk rx (init.calls cs) :=
  (init_ringOk rx).of_sameCarrier (calls_sameCarrier init cs) (calls_ownRnti (init_ringOk rx).own cs)

/-- Nine TTIs ahead nothing is queued yet. -/
theorem RingOk.msg3_fresh {rx : Nat} {s : Sched} (ok : RingOk rx s) :
    s.getSfSched (rx % 10240 + 9) = SfSched.newTti (rx % 10240 + 9) := by
  have place := slot_mod rx 9
  rcases ok.far (rx + 9) (by omega) (by omega) with key | unused
  · apply getSfSched_of_other_key
    rw [place, key]
    omega
  · by_cases default : rx % 10240 + 9 = 10241
    · rw [getSfSched_of_key] <;> rw [place, unused]
      · rw [default]; rfl
      · exact default.symm
    · apply getSfSched_of_other_key
      rw [place, unused]
      simp only [TtiParams.ofRx]
      omega

/-- The subframe of the TTI that begins holds no downlink allocation. -/
theorem RingOk.own_noDl {rx : Nat} {s : Sched} (ok : RingOk rx s) :
    (s.getSfSched (rx % 10240)).NoDl := (ok.near rx (by omega) (by omega)).toNoDl

/-- The subframe nine TTIs ahead after the downlink run: what `raUlSched` queued in it. -/
theorem generateTtiResultDl_msg3 {s s' : Sched} {ttiRx : Nat} {dl : DlSchedRes}
    (inside : ttiRx < 10240) (ran : s.generateTtiResultDl ttiRx = some (s', dl)) :
    s'.sfScheds ((ttiRx + 9) % nofSfScheds) = s.sfScheds ((ttiRx + 9) % nofSfScheds) ∨
      ∃ grants g, g.sf = s.getSfSched (ttiRx + 9) ∧ SameUes SchedUe.rnti s.ueDb g.ueDb ∧
        s'.sfScheds ((ttiRx + 9) % nofSfScheds) = (raUlSched grants g).sf := by
  obtain ⟨s₁, g, ctrl, -, rfl, -⟩ := generateTtiResultDl_cases inside ran
  rw [store_sfScheds_other _ _ (own_ne_msg3 ttiRx).symm]
  obtain ⟨ret, pendingRars, g₁, rar, ⟨-, rfl⟩ | ⟨-, rfl⟩⟩ := schedCtrl_cases ctrl
  · right
    have sibs := SfGrid.allocSibs_dlFrame s.sib1SfIdx ((s.clearDl ttiRx).grid ttiRx)
    have other := afterRar_sfScheds_other s pendingRars g₁ (own_ne_msg3 ttiRx).symm
    refine ⟨g₁.sf.msg3Grants, (s.afterRar ttiRx pendingRars g₁).grid (ttiRx + 9), ?_, ?_, ?_⟩
    · simp only [grid_sf, getSfSched, other]
    · exact (sibs.trans (SfGrid.raDlSched_dlFrame rar)).ues
    · exact store_sfScheds_same _ _ _
  · left
    exact afterRar_sfScheds_other s pendingRars g₁ (own_ne_msg3 ttiRx).symm

theorem tti_own_key {s s' : Sched} {rx : Nat} {c : TtiCalls} {o : TtiLog}
    (stepped : s.tti rx c = some (s', o)) :
    (s'.sfScheds (rx % nofSfScheds)).ttiParams.ttiRx = rx % 10240 := by
  obtain ⟨-, -, -, -, lastTti, s₁, -, -, ul⟩ := tti_cases stepped
  have key := generateTtiResultUl_own (s := o.mid) (by omega : rx % 10240 < 10240)
  rwa [ul, slot_own] at key

/-- The subframe nine TTIs ahead is either untouched by a TTI or holds what was queued in it. -/
theorem tti_msg3 {s s' : Sched} {rx : Nat} {c : TtiCalls} {o : TtiLog}
    (stepped : s.tti rx c = some (s', o)) :
    s'.sfScheds ((rx + 9) % nofSfScheds) = o.mid.sfScheds ((rx + 9) % nofSfScheds) ∧
      (s'.sfScheds ((rx + 9) % nofSfScheds) = s.sfScheds ((rx + 9) % nofSfScheds) ∨
        ∃ grants g, g.sf = o.pre.getSfSched (rx % 10240 + 9) ∧ SameUes SchedUe.rnti o.pre.ueDb g.ueDb ∧
          s'.sfScheds ((rx + 9) % nofSfScheds) = (raUlSched grants g).sf) := by
  obtain ⟨-, -, -, -, lastTti, s₁, dl, mid, ul⟩ := tti_cases stepped
  have inside : rx % 10240 < 10240 := by omega
  have place := slot_mod rx 9
  have afterUl : s'.sfScheds ((rx + 9) % nofSfScheds) = o.mid.sfScheds ((rx + 9) % nofSfScheds) := by
    have kept := generateTtiResultUl_sfScheds (s := o.mid) inside (own_ne_msg3 (rx % 10240)).symm
    rwa [ul, place] at kept
  have afterDl : o.mid.sfScheds = s₁.sfScheds := by
    rw [mid, (calls_sameCarrier s₁ c.between).sfScheds]
  have before : (o.pre.setLastTti lastTti).sfScheds = s.sfScheds := by
    rw [setLastTti_sfScheds, (tti_pre_sameCarrier stepped).sfScheds]
  refine ⟨afterUl, ?_⟩
  rw [afterUl, afterDl]
  rcases generateTtiResultDl_msg3 inside dl with same | ⟨grants, g, start, ues, queued⟩
  · left
    rw [← place, same, before]
  · right
    rw [setLastTti_getSfSched] at start
    rw [← place]
    exact ⟨grants, g, start, ues, queued⟩

theorem tti_ownRnti {s s' : Sched} {rx : Nat} {c : TtiCalls} {o : TtiLog}
    (stepped : s.tti rx c = some (s', o)) (own : OwnRnti s.ueDb) :
    OwnRnti o.pre.ueDb ∧ OwnRnti o.mid.ueDb ∧ OwnRnti s'.ueDb := by
  obtain ⟨-, -, pre, -, lastTti, s₁, dl, mid, ul⟩ := tti_cases stepped
  have inside : rx % 10240 < 10240 := by omega
  have ownPre : OwnRnti o.pre.ueDb := pre ▸ calls_ownRnti own c.before
  have ownDl : OwnRnti s₁.ueDb :=
    ownPre.of_sameUes (generateTtiResultDl_frame inside dl).2
  have ownMid : OwnRnti o.mid.ueDb := mid ▸ calls_ownRnti ownDl c.between
  have ues := generateTtiResultUl_sameUes (s := o.mid) inside
  rw [ul] at ues
  exact ⟨ownPre, ownMid, ownMid.of_sameUes ues⟩

theorem tti_pre_ringOk {s s' : Sched} {rx : Nat} {c : TtiCalls} {o : TtiLog}
    (stepped : s.tti rx c = some (s', o)) (ok : RingOk rx s) : RingOk rx o.pre := by
  obtain ⟨-, -, pre, -⟩ := tti_cases stepped
  rw [pre]
  exact ok.of_sameCarrier (calls_sameCarrier s c.before) (calls_ownRnti ok.own c.before)

/-- Every TTI keeps the ring in order. -/
theorem tti_ringOk {s s' : Sched} {rx : Nat} {c : TtiCalls} {o : TtiLog}
    (stepped : s.tti rx c = some (s', o)) (ok : RingOk rx s) : RingOk (rx + 1) s' where
  far a from' below := by
    by_cases last : a = rx + 40
    · left
      have place : a % nofSfScheds = rx % nofSfScheds := by
        rw [last]; unfold nofSfScheds; omega
      rw [place, tti_own_key stepped]
      omega
    · have own : a % nofSfScheds ≠ rx % nofSfScheds := by unfold nofSfScheds; omega
      have msg3 : a % nofSfScheds ≠ (rx + 9) % nofSfScheds := by unfold nofSfScheds; omega
      rw [tti_sfScheds stepped own msg3]
      exact ok.far a (by omega) (by omega)
  near a from' below := by
    have place := slot_own a
    by_cases msg3 : a = rx + 9
    · subst msg3
      have okPre := tti_pre_ringOk stepped ok
      by_cases key : (s'.sfScheds ((rx + 9) % 10240 % nofSfScheds)).ttiParams.ttiRx = (rx + 9) % 10240
      · rw [getSfSched_of_key key, place]
        rw [place] at key
        rcases (tti_msg3 stepped).2 with same | ⟨grants, g, start, -, queued⟩
        · rw [same] at key ⊢
          rcases ok.far (rx + 9) (by omega) (by omega) with old | unused
          · rw [old] at key
            omega
          · rw [unused]
            exact ⟨⟨rfl, rfl, rfl⟩, by simp⟩
        · have fresh : g.sf.OnlyMsg3 := by
            rw [start, okPre.msg3_fresh]
            exact SfSched.newTti_onlyMsg3 _
          have frame := SfGrid.raUlSched_ulFrame grants g
          rw [queued]
          refine ⟨⟨frame.bcAllocs.trans fresh.bcAllocs, frame.rarAllocs.trans fresh.rarAllocs,
            frame.dataAllocs.trans fresh.dataAllocs⟩, ?_⟩
          intro a member
          rcases SfGrid.mem_raUlSched member with old | ⟨type, -⟩
          · exact fresh.ulDataAllocs a old
          · exact type
      · rw [getSfSched_of_other_key key]
        exact SfSched.newTti_onlyMsg3 _
    · have own : a % nofSfScheds ≠ rx % nofSfScheds := by unfold nofSfScheds; omega
      have other : a % nofSfScheds ≠ (rx + 9) % nofSfScheds := by unfold nofSfScheds; omega
      have same : s'.getSfSched (a % 10240) = s.getSfSched (a % 10240) := by
        simp only [getSfSched, place, tti_sfScheds stepped own other]
      rw [same]
      exact ok.near a (by omega) (by omega)
  own := (tti_ownRnti stepped ok.own).2.2

theorem RingOk.run {rx : Nat} {s last : Sched} {inputs : List TtiCalls} {log : List TtiLog}
    (ok : RingOk rx s) (ran : Ticking.run tti s rx inputs = some (last, log)) :
    RingOk (rx + inputs.length) last :=
  Ticking.run_invariant (I := fun n s _ => RingOk n s) (C := fun _ => True)
    (fun _ _ _ _ _ _ ok stepped _ => tti_ringOk stepped ok) ok ran (by simp)

/-- The ring is in order in front of every TTI of a run. -/
theorem run_ringOk {start i : Nat} {inputs : List TtiCalls} {s : Sched} {log : List TtiLog}
    (ran : run start (inputs.take i) = some (s, log)) (inside : i < inputs.length) :
    RingOk (start + i) s := by
  have all := (init_ringOk start).run ran
  rwa [List.length_take, Nat.min_eq_left (by omega)] at all

end Sched

end SonicaEnb
