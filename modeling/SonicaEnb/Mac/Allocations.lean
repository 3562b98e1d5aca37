import SonicaEnb.Lib.Events
import SonicaEnb.Mac.DlTurn
import SonicaEnb.Mac.Msg3Queue

/-! # Allocations and the UEs they point to

An allocation keeps a pointer to its UE. The subframe it stands in is read again when
its TTI comes: by the uplink run of the same TTI, or, for a Msg3, nine TTIs later. A
pointer is an RNTI here, and it dangles as soon as the RNTI leaves the database.
-/

namespace SonicaEnb

/-- The UEs a subframe points to. -/
def SfSched.users (sf : SfSched) : List Nat :=
  sf.dataAllocs.map DlAlloc.user ++ sf.ulDataAllocs.map UlAlloc.user

/-- The scheduler between two of its calls: `rx` is the TTI whose `dl_sched` comes next, or, with
    `ulNext`, whose `ul_sched` is still to come. -/
structure SchedAt where
  sched : Sched := Sched.init
  rx : Nat
  ulNext : Bool := false

inductive SchedEvent where
  | call (c : SchedCall)
  | dlSched
  | ulSched
  deriving Repr, DecidableEq

namespace SchedAt

def handle (m : SchedAt) : SchedEvent → Option SchedAt
  | .call c => some { m with sched := m.sched.call c }
  | .dlSched =>
      if m.ulNext then none
      else
        (m.sched.dlSched (ttiAdd (m.rx % 10240) fddHarqDelayUlMs)).map fun res =>
          { m with sched := res.1, ulNext := true }
  | .ulSched =>
      if m.ulNext then
        some
          { sched := (m.sched.ulSched (ttiAdd (m.rx % 10240) (fddDelayUlNbMs + fddHarqDelayDlMs))).1
            rx := m.rx + 1 }
      else none

/-- The subframe that will be read at `rx + d`, as it stands now. There are forty places, so each is
    read once in forty TTIs, and what it holds then is gone at its next turn. -/
def slot (m : SchedAt) (d : Nat) : SfSched := m.sched.getSfSched ((m.rx + d) % 10240)

/-- A subframe that is still to be read points to `user`. -/
def Refers (m : SchedAt) (user : Nat) : Prop := ∃ d < nofSfScheds, user ∈ (m.slot d).users

instance (m : SchedAt) (user : Nat) : Decidable (m.Refers user) :=
  inferInstanceAs (Decidable (∃ d < nofSfScheds, user ∈ (m.slot d).users))

/-- Every UE a subframe still to be read points to is in the database. -/
def Sound (m : SchedAt) : Prop := ∀ user, m.Refers user → (m.sched.ueDb.find? user).isSome

end SchedAt

/-! ## Downlink -/

namespace SfGrid

/-- Only UEs of the database are given an allocation. -/
theorem mem_allocDlUser {g g' : SfGrid} {user maxData : Nat} {ret : AllocOutcome} {a : DlAlloc}
    (ran : g.allocDlUser user maxData = some (ret, g')) (member : a ∈ g'.sf.dataAllocs) :
    a ∈ g.sf.dataAllocs ∨ a.user = user := by
  unfold allocDlUser at ran
  split at ran
  · cases ran
    exact .inl member
  · split at ran
    · cases ran
      exact .inl member
    · simp only at ran
      split at ran
      · cases ran
      · cases ran
        rcases List.mem_append.mp member with old | new
        · exact .inl old
        · rw [List.mem_singleton.mp new]
          exact .inr rfl

theorem mem_allocateUser {g g' : SfGrid} {user : Nat} {a : DlAlloc}
    (ran : allocateUser g user = some g') (member : a ∈ g'.sf.dataAllocs) :
    a ∈ g.sf.dataAllocs ∨ (g.ueDb.find? a.user).isSome := by
  unfold allocateUser at ran
  split at ran
  · cases ran
    exact .inl member
  · split at ran
    · cases ran
      split at member <;> exact .inl member
    · split at ran
      · cases ran
        exact .inl member
      · rename_i ue found
        have known : a.user = user → (g.ueDb.find? a.user).isSome := by
          intro own
          rw [own, found]
          rfl
        simp only at ran
        split at ran
        · split at ran
          · cases ran
          all_goals
            rename_i allocated
            cases ran
            exact (mem_allocDlUser allocated member).imp_right known
        · cases ran
          exact .inl member

theorem mem_schedUsersDlLoop {order : List Nat} {g g' : SfGrid} {a : DlAlloc}
    (ran : schedUsersDlLoop order g = some g') (member : a ∈ g'.sf.dataAllocs) :
    a ∈ g.sf.dataAllocs ∨ (g.ueDb.find? a.user).isSome := by
  induction order generalizing g with
  | nil =>
      cases ran
      exact .inl member
  | cons user rest ih =>
      simp only [schedUsersDlLoop] at ran
      split at ran
      · cases ran
      · rename_i g₁ first
        rcases ih ran with old | known
        · exact mem_allocateUser first old
        · exact .inr ((allocateUser_dlFrame first).ues.isSome a.user ▸ known)

end SfGrid

namespace Sched

/-- The own subframe after the downlink run: what it pointed to before, and UEs of the database. -/
theorem generateTtiResultDl_users {s s' : Sched} {ttiRx user : Nat} {dl : DlSchedRes}
    (inside : ttiRx < 10240) (ran : s.generateTtiResultDl ttiRx = some (s', dl))
    (member : user ∈ (s'.getSfSched ttiRx).users) :
    user ∈ (s.getSfSched ttiRx).users ∨ (s.ueDb.find? user).isSome := by
  have key := generateTtiResultDl_own inside ran
  have ul := (generateTtiResultDl_frame inside ran).1
  rcases List.mem_append.mp member with data | uplink
  · obtain ⟨a, there, rfl⟩ := List.mem_map.mp data
    obtain ⟨ret, g₁, g₂, run⟩ := generateTtiResultDl_phases inside ran
    rw [getSfSched_of_key key, run.own] at there
    obtain ⟨_, users⟩ := run.users
    have frame := (SfGrid.allocSibs_dlFrame _ _).trans (SfGrid.raDlSched_dlFrame run.rar)
    rcases SfGrid.mem_schedUsersDlLoop users there with old | known
    · have before : a ∈ g₁.sf.dataAllocs := old
      rw [ctrl_dataAllocs run.rar] at before
      exact .inl (List.mem_append_left _ (List.mem_map_of_mem before))
    · exact .inr ((frame.ues.isSome a.user).symm.trans known)
  · rw [ul] at uplink
    exact .inl (List.mem_append_right _ uplink)

/-- The subframe nine TTIs ahead after the downlink run: the Msg3 queued in it belong to UEs of the
    database. Where the TTI counter wraps in between, nothing is found there. -/
theorem generateTtiResultDl_msg3Users {s s' : Sched} {ttiRx user : Nat} {dl : DlSchedRes}
    (inside : ttiRx < 10240) (ran : s.generateTtiResultDl ttiRx = some (s', dl))
    (member : user ∈ (s'.getSfSched ((ttiRx + 9) % 10240)).users) :
    user ∈ (s.getSfSched ((ttiRx + 9) % 10240)).users ∨ (s.ueDb.find? user).isSome := by
  have place : (ttiRx + 9) % 10240 % nofSfScheds = (ttiRx + 9) % nofSfScheds := by
    unfold nofSfScheds
    omega
  rcases generateTtiResultDl_msg3 inside ran with same | ⟨grants, g, sf, ues, queued⟩
  · have found : s'.getSfSched ((ttiRx + 9) % 10240) = s.getSfSched ((ttiRx + 9) % 10240) := by
      simp only [getSfSched, place, same]
    exact .inl (found ▸ member)
  · have frame := SfGrid.raUlSched_ulFrame grants g
    have key : (s'.sfScheds ((ttiRx + 9) % nofSfScheds)).ttiParams.ttiRx = ttiRx + 9 := by
      rw [queued, frame.ttiParams, sf, getSfSched_ttiRx]
    by_cases wraps : ttiRx + 9 < 10240
    · rw [Nat.mod_eq_of_lt wraps] at member ⊢
      rw [getSfSched_of_key key, queued] at member
      rcases List.mem_append.mp member with data | uplink
      · rw [frame.dataAllocs, sf] at data
        exact .inl (List.mem_append_left _ data)
      · obtain ⟨a, there, rfl⟩ := List.mem_map.mp uplink
        rcases SfGrid.mem_raUlSched there with old | ⟨-, -, known⟩
        · rw [sf] at old
          exact .inl (List.mem_append_right _ (List.mem_map_of_mem old))
        · exact .inr ((ues.isSome a.user).symm.trans known)
    · rw [getSfSched_of_other_key] at member
      · cases member
      · rw [place, key]
        omega

/-- No subframe points to a UE it did not point to before the downlink run, unless the UE is in the
    database. -/
theorem generateTtiResultDl_refers {s s' : Sched} {rx d user : Nat} {dl : DlSchedRes}
    (ran : s.generateTtiResultDl (rx % 10240) = some (s', dl)) (below : d < nofSfScheds)
    (member : user ∈ (s'.getSfSched ((rx + d) % 10240)).users) :
    user ∈ (s.getSfSched ((rx + d) % 10240)).users ∨ (s.ueDb.find? user).isSome := by
  have inside : rx % 10240 < 10240 := by omega
  unfold nofSfScheds at below
  by_cases own : d = 0
  · subst own
    rw [Nat.add_zero] at member ⊢
    exact generateTtiResultDl_users inside ran member
  · by_cases queued : d = 9
    · subst queued
      rw [← Nat.mod_add_mod] at member ⊢
      exact generateTtiResultDl_msg3Users inside ran member
    · have same : s'.sfScheds ((rx + d) % 10240 % nofSfScheds) =
          s.sfScheds ((rx + d) % 10240 % nofSfScheds) := by
        apply generateTtiResultDl_sfScheds inside ran
        · unfold nofSfScheds
          omega
        · unfold nofSfScheds
          omega
      have found : s'.getSfSched ((rx + d) % 10240) = s.getSfSched ((rx + d) % 10240) := by
        simp only [getSfSched, same]
      exact .inl (found ▸ member)

end Sched

namespace SchedAt

open Sched

theorem dlSched_cases {m m' : SchedAt} (handled : m.handle .dlSched = some m') :
    ∃ lastTti s' dl,
      (m.sched.setLastTti lastTti).generateTtiResultDl (m.rx % 10240) = some (s', dl) ∧
      m' = { m with sched := s', ulNext := true } := by
  simp only [handle] at handled
  split at handled
  · cases handled
  · obtain ⟨⟨s', dl⟩, ran, rfl⟩ := Option.map_eq_some_iff.mp handled
    simp only [Sched.dlSched, dlSched_ttiRx] at ran
    exact ⟨_, s', dl, ran, rfl⟩

theorem Sound.dlSched {m m' : SchedAt} (sound : m.Sound) (handled : m.handle .dlSched = some m') :
    m'.Sound := by
  obtain ⟨lastTti, s', dl, run, rfl⟩ := dlSched_cases handled
  have inside : m.rx % 10240 < 10240 := by omega
  have ues := (generateTtiResultDl_frame inside run).2
  rintro user ⟨d, below, member⟩
  have known : (m.sched.ueDb.find? user).isSome := by
    rcases generateTtiResultDl_refers run below member with old | known
    · rw [setLastTti_getSfSched] at old
      exact sound user ⟨d, below, old⟩
    · exact known
  exact (ues.isSome user).trans known

theorem ulSched_cases {m m' : SchedAt} (handled : m.handle .ulSched = some m') :
    m' = { sched := (m.sched.generateTtiResultUl (m.rx % 10240)).1, rx := m.rx + 1 } := by
  simp only [handle, Sched.ulSched, ulSched_ttiRx] at handled
  split at handled
  · exact (Option.some.inj handled).symm
  · cases handled

/-- After the uplink run the own subframe is not read any more. -/
theorem Sound.ulSched {m m' : SchedAt} (sound : m.Sound) (handled : m.handle .ulSched = some m') :
    m'.Sound := by
  obtain rfl := ulSched_cases handled
  have inside : m.rx % 10240 < 10240 := by omega
  have own := generateTtiResultUl_own (s := m.sched) inside
  rintro user ⟨d, below, member⟩
  unfold nofSfScheds at below
  simp only [slot] at member
  refine (generateTtiResultUl_sameUes (s := m.sched) inside).isSome user |>.trans ?_
  by_cases last : d = 39
  · rw [getSfSched_of_other_key] at member
    · cases member
    · have place : (m.rx + 1 + d) % 10240 % nofSfScheds = m.rx % 10240 % nofSfScheds := by
        unfold nofSfScheds
        omega
      rw [place, own]
      omega
  · have same : (m.sched.generateTtiResultUl (m.rx % 10240)).1.sfScheds
        ((m.rx + 1 + d) % 10240 % nofSfScheds) =
        m.sched.sfScheds ((m.rx + 1 + d) % 10240 % nofSfScheds) := by
      apply generateTtiResultUl_sfScheds inside
      unfold nofSfScheds
      omega
    refine sound user ⟨d + 1, by unfold nofSfScheds; omega, ?_⟩
    have next : m.rx + (d + 1) = m.rx + 1 + d := by omega
    rw [slot, next]
    simpa only [getSfSched, same] using member

/-- A call that removes a UE some subframe still points to. -/
def Cuts (m : SchedAt) (e : SchedEvent) : Prop := ∃ rnti, e = .call (.ueRem rnti) ∧ m.Refers rnti

theorem refers_call {m : SchedAt} {c : SchedCall} {user : Nat} :
    { m with sched := m.sched.call c }.Refers user ↔ m.Refers user := by
  have same := call_sameCarrier m.sched c
  simp only [Refers, slot, getSfSched, same.sfScheds]

theorem Sound.call {m : SchedAt} (sound : m.Sound) (c : SchedCall) :
    { m with sched := m.sched.call c }.Sound ↔ ¬ m.Cuts (.call c) := by
  constructor
  · rintro after ⟨rnti, ⟨rfl⟩, refers⟩
    have present := after rnti (refers_call.mpr refers)
    simp [Sched.call, SortedMap.find?_erase] at present
  · intro spared user refers
    have before := refers_call.mp refers
    refine call_keeps_ue ?_ (sound user before)
    rintro rfl
    exact spared ⟨user, rfl, before⟩

/-- One step keeps every pointer alive exactly if it does not remove a UE that is pointed to. -/
theorem Sound.handle {m m' : SchedAt} {e : SchedEvent} (sound : m.Sound)
    (handled : m.handle e = some m') : m'.Sound ↔ ¬ m.Cuts e := by
  cases e with
  | call c =>
      cases handled
      exact sound.call c
  | dlSched => exact iff_of_true (sound.dlSched handled) (by rintro ⟨rnti, same, -⟩; cases same)
  | ulSched => exact iff_of_true (sound.ulSched handled) (by rintro ⟨rnti, same, -⟩; cases same)

theorem sound_init (start : Nat) : Sound { rx := start } := by
  rintro user ⟨d, below, member⟩
  rw [slot, getSfSched_of_other_key] at member
  · cases member
  · have key : (Sched.init.sfScheds ((start + d) % 10240 % nofSfScheds)).ttiParams.ttiRx = 10241 := rfl
    rw [key]
    omega

end SchedAt

/-- In every run, every UE that a subframe still to be read points to is in the database, exactly if
    no `ue_rem` removes such a UE. -/
theorem allocations_alive_iff {start : Nat} {events : List SchedEvent} {last : SchedAt}
    {log : List (Events.Step SchedAt SchedEvent)}
    (ran : Events.run SchedAt.handle { rx := start } events = some (last, log)) :
    (∀ o ∈ log, o.post.Sound) ↔
      ∀ o ∈ log, ∀ rnti, o.event = .call (.ueRem rnti) → ¬ o.pre.Refers rnti := by
  have begins := SchedAt.sound_init start
  constructor
  · intro after o member rnti removes refers
    have before := Events.run_pre begins ran after o member
    have handled := (Events.run_step (I := fun _ => True) (fun _ _ _ _ _ => trivial) trivial ran
      member).2
    exact (before.handle handled).mp (after o member) ⟨rnti, removes, refers⟩
  · intro spared o member
    refine ((Events.run_keeps (I := SchedAt.Sound) (C := fun m e => ¬ m.Cuts e) ?_ begins ran ?_).2
      o member).2
    · intro m e m' sound handled ok
      exact (sound.handle handled).mpr ok
    · rintro o member ⟨rnti, removes, refers⟩
      exact spared o member rnti removes refers

/-- A UE without allocations leaves between the two runs of a TTI. -/
theorem idle_ue_leaves :
    ∃ last log,
      Events.run SchedAt.handle { rx := 12 }
        [.call (.ueCfg 4097 rachUeCfg), .dlSched, .call (.ueRem 4097), .ulSched] = some (last, log) ∧
      ∀ o ∈ log, o.post.Sound := by
  have spared : ((Events.run SchedAt.handle { rx := 12 }
      [.call (.ueCfg 4097 rachUeCfg), .dlSched, .call (.ueRem 4097), .ulSched]).any fun r =>
        r.2.all fun o =>
          match o.event with
          | .call (.ueRem rnti) => !decide (o.pre.Refers rnti)
          | _ => true) = true := by decide +kernel
  obtain ⟨⟨last, log⟩, ran, checked⟩ := (Option.any_eq_true ..).mp spared
  refine ⟨last, log, ran, (allocations_alive_iff ran).mpr ?_⟩
  intro o member rnti removes
  have here := List.all_eq_true.mp checked o member
  simpa [removes] using here

/-- A response goes out for the preamble of a UE and its Msg3 is queued for nine TTIs later; then
    the UE is removed. -/
theorem removed_before_msg3 :
    ∃ last log,
      Events.run SchedAt.handle { rx := 12 }
        ((rachDetected 4097 0).map .call ++ [.dlSched, .call (.ueRem 4097)]) = some (last, log) ∧
      ∃ o ∈ log, ¬ o.post.Sound := by
  have dangling : ((Events.run SchedAt.handle { rx := 12 }
      ((rachDetected 4097 0).map .call ++ [.dlSched, .call (.ueRem 4097)])).any fun r =>
        r.2.any fun o => decide (o.post.Refers 4097) && (o.post.sched.ueDb.find? 4097).isNone) =
      true := by decide +kernel
  obtain ⟨⟨last, log⟩, ran, found⟩ := (Option.any_eq_true ..).mp dangling
  obtain ⟨o, member, refers⟩ := List.any_eq_true.mp found
  rw [Bool.and_eq_true, decide_eq_true_eq] at refers
  refine ⟨last, log, ran, o, member, ?_⟩
  intro sound
  have present := sound 4097 refers.1
  simp [Option.isNone_iff_eq_none.mp refers.2] at present

end SonicaEnb
