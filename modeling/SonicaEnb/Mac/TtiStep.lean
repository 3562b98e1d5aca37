import SonicaEnb.Mac.SchedCarrier

/-! # What one TTI does

The two scheduler runs of a TTI taken apart into their phases, and what each of
them leaves alone. Everything later is proved from these cases.
-/

namespace SonicaEnb

theorem dlSched_ttiRx (rx : Nat) :
    ttiSub (ttiAdd (rx % 10240) fddHarqDelayUlMs) fddHarqDelayUlMs = rx % 10240 := by
  unfold ttiSub ttiAdd fddHarqDelayUlMs
  omega

theorem ulSched_ttiRx (rx : Nat) :
    ttiSub (ttiAdd (rx % 10240) (fddDelayUlNbMs + fddHarqDelayDlMs))
      (fddDelayUlNbMs + fddHarqDelayDlMs) = rx % 10240 := by
  unfold ttiSub ttiAdd fddDelayUlNbMs fddHarqDelayDlMs
  omega

theorem ttiAdd_mod (rx d : Nat) : ttiAdd (rx % 10240) d = (rx + d) % 10240 := Nat.mod_add_mod ..

/-- The ring of subframes is a divisor of the TTI cycle, so places are places of absolute time. -/
theorem slot_mod (rx d : Nat) : (rx % 10240 + d) % nofSfScheds = (rx + d) % nofSfScheds := by
  unfold nofSfScheds
  omega

theorem slot_own (rx : Nat) : rx % 10240 % nofSfScheds = rx % nofSfScheds := slot_mod rx 0

namespace Sched

/-! ## The ring -/

@[simp] theorem store_toShared (s : Sched) (ttiRx : Nat) (g : SfGrid) :
    (s.store ttiRx g).toShared = g.toShared := rfl

@[simp] theorem store_pendingRars (s : Sched) (ttiRx : Nat) (g : SfGrid) :
    (s.store ttiRx g).pendingRars = s.pendingRars := rfl

@[simp] theorem store_sib1SfIdx (s : Sched) (ttiRx : Nat) (g : SfGrid) :
    (s.store ttiRx g).sib1SfIdx = s.sib1SfIdx := rfl

@[simp] theorem store_sfScheds_same (s : Sched) (ttiRx : Nat) (g : SfGrid) :
    (s.store ttiRx g).sfScheds (ttiRx % nofSfScheds) = g.sf := if_pos rfl

theorem store_sfScheds_other (s : Sched) {ttiRx i : Nat} (g : SfGrid)
    (other : i ≠ ttiRx % nofSfScheds) : (s.store ttiRx g).sfScheds i = s.sfScheds i := if_neg other

@[simp] theorem grid_toShared (s : Sched) (ttiRx : Nat) : (s.grid ttiRx).toShared = s.toShared := rfl

@[simp] theorem grid_sf (s : Sched) (ttiRx : Nat) : (s.grid ttiRx).sf = s.getSfSched ttiRx := rfl

theorem getSfSched_ttiRx (s : Sched) (ttiRx : Nat) : (s.getSfSched ttiRx).ttiParams.ttiRx = ttiRx := by
  unfold getSfSched
  simp only
  split
  · rfl
  · rename_i same
    simpa using same

theorem getSfSched_ttiTxDl (s : Sched) (ttiRx : Nat) :
    (s.getSfSched ttiRx).ttiParams.ttiTxDl = ttiAdd ttiRx fddHarqDelayUlMs := by
  rw [TtiParams.ttiTxDl_eq, getSfSched_ttiRx]

theorem getSfSched_ttiTxUl (s : Sched) (ttiRx : Nat) :
    (s.getSfSched ttiRx).ttiParams.ttiTxUl = ttiAdd ttiRx (fddDelayUlNbMs + fddHarqDelayDlMs) := by
  rw [TtiParams.ttiTxUl_eq, getSfSched_ttiRx]

/-- A subframe that is already in its place is found again. -/
theorem getSfSched_of_key {s : Sched} {ttiRx : Nat}
    (key : (s.sfScheds (ttiRx % nofSfScheds)).ttiParams.ttiRx = ttiRx) :
    s.getSfSched ttiRx = s.sfScheds (ttiRx % nofSfScheds) := by
  simp [getSfSched, key]

/-- A subframe left by another TTI is cleared. -/
theorem getSfSched_of_other_key {s : Sched} {ttiRx : Nat}
    (key : (s.sfScheds (ttiRx % nofSfScheds)).ttiParams.ttiRx ≠ ttiRx) :
    s.getSfSched ttiRx = SfSched.newTti ttiRx := by
  simp [getSfSched, key]

/-! ## Calls between the TTIs -/

/-- Calls reach the UEs and the pending RARs only. -/
structure SameCarrier (s s' : Sched) : Prop where
  dlSchedTable : s'.dlSchedTable = s.dlSchedTable
  ulSchedTable : s'.ulSchedTable = s.ulSchedTable
  lastAlloc : s'.lastAlloc = s.lastAlloc
  allocActive : s'.allocActive = s.allocActive
  sfScheds : s'.sfScheds = s.sfScheds
  sib1SfIdx : s'.sib1SfIdx = s.sib1SfIdx

theorem call_sameCarrier (s : Sched) (c : SchedCall) : SameCarrier s (s.call c) := by
  cases c <;> exact ⟨rfl, rfl, rfl, rfl, rfl, rfl⟩

/-- What every call keeps, a list of calls keeps. -/
theorem calls_invariant {P : Sched → Prop} {cs : List SchedCall}
    (keeps : ∀ s c, c ∈ cs → P s → P (s.call c)) {s : Sched} (start : P s) : P (s.calls cs) := by
  induction cs generalizing s with
  | nil => exact start
  | cons c rest ih =>
      exact ih (fun s c' member => keeps s c' (List.mem_cons_of_mem c member))
        (keeps s c List.mem_cons_self start)

theorem calls_sameCarrier (s : Sched) (cs : List SchedCall) : SameCarrier s (s.calls cs) := by
  apply calls_invariant (P := SameCarrier s)
  · intro s' c _ same
    have next := call_sameCarrier s' c
    exact ⟨next.1.trans same.1, next.2.trans same.2, next.3.trans same.3, next.4.trans same.4,
      next.5.trans same.5, next.6.trans same.6⟩
  · exact ⟨rfl, rfl, rfl, rfl, rfl, rfl⟩

/-! ## The phases of a TTI -/

/-- `last_tti` is written by `dl_sched` and read by nothing else in a TTI. -/
def setLastTti (s : Sched) (lastTti : Nat) : Sched := { s with lastTti := lastTti }

@[simp] theorem setLastTti_toShared (s : Sched) (n : Nat) :
    (s.setLastTti n).toShared = s.toShared := rfl

@[simp] theorem setLastTti_sfScheds (s : Sched) (n : Nat) :
    (s.setLastTti n).sfScheds = s.sfScheds := rfl

@[simp] theorem setLastTti_pendingRars (s : Sched) (n : Nat) :
    (s.setLastTti n).pendingRars = s.pendingRars := rfl

@[simp] theorem setLastTti_sib1SfIdx (s : Sched) (n : Nat) :
    (s.setLastTti n).sib1SfIdx = s.sib1SfIdx := rfl

@[simp] theorem setLastTti_getSfSched (s : Sched) (n key : Nat) :
    (s.setLastTti n).getSfSched key = s.getSfSched key := by
  unfold getSfSched
  rw [setLastTti_sfScheds]

theorem tti_cases {s s' : Sched} {rx : Nat} {c : TtiCalls} {o : TtiLog}
    (stepped : s.tti rx c = some (s', o)) :
    o.rx = rx ∧ o.calls = c ∧ o.pre = s.calls c.before ∧ o.post = s' ∧
      ∃ lastTti s₁,
        (o.pre.setLastTti lastTti).generateTtiResultDl (rx % 10240) = some (s₁, o.dl) ∧
        o.mid = s₁.calls c.between ∧
        o.mid.generateTtiResultUl (rx % 10240) = (s', o.ul) := by
  unfold tti at stepped
  simp only [dlSched, ulSched, dlSched_ttiRx, ulSched_ttiRx] at stepped
  split at stepped
  · cases stepped
  · rename_i s₁ dl ran
    simp only [Option.some.injEq, Prod.mk.injEq] at stepped
    obtain ⟨rfl, rfl⟩ := stepped
    exact ⟨rfl, rfl, rfl, rfl, _, s₁, ran, rfl, rfl⟩

theorem tti_tx {s s' : Sched} {rx : Nat} {c : TtiCalls} {o : TtiLog}
    (stepped : s.tti rx c = some (s', o)) : o.tx = rx + 4 := by
  rw [TtiLog.tx, (tti_cases stepped).1]

/-- Calls between TTIs do not touch what the carrier keeps. -/
theorem tti_pre_sameCarrier {s s' : Sched} {rx : Nat} {c : TtiCalls} {o : TtiLog}
    (stepped : s.tti rx c = some (s', o)) : SameCarrier s o.pre := by
  obtain ⟨-, -, pre, -⟩ := tti_cases stepped
  rw [pre]
  exact calls_sameCarrier s c.before

theorem generateTtiResultDl_cases {s s' : Sched} {ttiRx : Nat} {dl : DlSchedRes}
    (inside : ttiRx < 10240) (ran : s.generateTtiResultDl ttiRx = some (s', dl)) :
    ∃ s₁ g, s.schedCtrl ttiRx = some s₁ ∧ allocDlUsers (s₁.grid ttiRx) = some g ∧
      s' = s₁.store ttiRx g.generateSchedResults.1 ∧ dl = g.generateSchedResults.2.1 := by
  have first : ttiRx ≠ sfResultTtiRx := by unfold sfResultTtiRx; omega
  simp only [generateTtiResultDl, first, if_false] at ran
  split at ran
  · cases ran
  · rename_i s₁ ctrl
    split at ran
    · cases ran
    · rename_i g users
      cases ran
      exact ⟨s₁, g, ctrl, users, rfl, rfl⟩

/-- The state in which the downlink phases of a TTI begin. -/
def clearDl (s : Sched) (ttiRx : Nat) : Sched :=
  { s with dlSchedTable := s.dlSchedTable.set (ttiRx % 10240) false }

/-- The state in which the uplink phase of a TTI begins. -/
def clearUl (s : Sched) (ttiRx : Nat) : Sched :=
  { s with ulSchedTable := s.ulSchedTable.set (ttiRx % 10240) false }

/-- The state in which broadcast and RAR of a TTI leave the scheduler, before a Msg3 is queued. -/
def afterRar (s : Sched) (ttiRx : Nat) (pendingRars : List PendingRar) (g : SfGrid) : Sched :=
  { s.clearDl ttiRx with
    sib1SfIdx := (allocSibs s.sib1SfIdx ((s.clearDl ttiRx).grid ttiRx)).1
    pendingRars := pendingRars }.store ttiRx g

theorem schedCtrl_cases {s s' : Sched} {ttiRx : Nat} (ran : s.schedCtrl ttiRx = some s') :
    ∃ ret pendingRars g,
      raDlSched s.pendingRars (allocSibs s.sib1SfIdx ((s.clearDl ttiRx).grid ttiRx)).2 =
        some (ret, pendingRars, g) ∧
      ((ret = .success ∧ s' = (s.afterRar ttiRx pendingRars g).schedMsg3 ttiRx g.sf) ∨
        (ret ≠ .success ∧ s' = s.afterRar ttiRx pendingRars g)) := by
  simp only [schedCtrl] at ran
  split at ran
  · cases ran
  · rename_i ret pendingRars g rar
    refine ⟨ret, pendingRars, g, rar, ?_⟩
    have shape := (Option.some.inj ran).symm
    split at shape
    · rename_i sent
      exact .inl ⟨sent, shape⟩
    · rename_i notSent
      exact .inr ⟨notSent, shape⟩

theorem afterRar_sfScheds_own (s : Sched) (ttiRx : Nat) (pendingRars : List PendingRar)
    (g : SfGrid) : (s.afterRar ttiRx pendingRars g).sfScheds (ttiRx % nofSfScheds) = g.sf :=
  store_sfScheds_same _ ttiRx g

theorem afterRar_sfScheds_other (s : Sched) {ttiRx i : Nat} (pendingRars : List PendingRar)
    (g : SfGrid) (other : i ≠ ttiRx % nofSfScheds) :
    (s.afterRar ttiRx pendingRars g).sfScheds i = s.sfScheds i :=
  store_sfScheds_other _ g other

theorem generateTtiResultUl_eq {s : Sched} {ttiRx : Nat} (inside : ttiRx < 10240) :
    s.generateTtiResultUl ttiRx =
      let g := schedUsersUl ((s.clearUl ttiRx).grid ttiRx)
      ((s.clearUl ttiRx).store ttiRx g.generateSchedResults.1, g.generateSchedResults.2.2) := by
  have first : ttiRx ≠ sfResultTtiRx := by unfold sfResultTtiRx; omega
  simp only [generateTtiResultUl, first, if_false]
  rfl

/-! ## Which subframes a TTI touches -/

theorem schedMsg3_sfScheds (s : Sched) (ttiRx : Nat) (sf : SfSched) {i : Nat}
    (other : i ≠ (ttiRx + 9) % nofSfScheds) : (s.schedMsg3 ttiRx sf).sfScheds i = s.sfScheds i :=
  store_sfScheds_other s _ other

theorem schedCtrl_sfScheds {s s' : Sched} {ttiRx i : Nat} (ran : s.schedCtrl ttiRx = some s')
    (own : i ≠ ttiRx % nofSfScheds) (msg3 : i ≠ (ttiRx + 9) % nofSfScheds) :
    s'.sfScheds i = s.sfScheds i := by
  obtain ⟨ret, pendingRars, g, -, ⟨-, rfl⟩ | ⟨-, rfl⟩⟩ := schedCtrl_cases ran
  · rw [schedMsg3_sfScheds _ _ _ msg3, afterRar_sfScheds_other _ _ _ own]
  · exact afterRar_sfScheds_other _ _ _ own

theorem generateTtiResultDl_sfScheds {s s' : Sched} {ttiRx i : Nat} {dl : DlSchedRes}
    (inside : ttiRx < 10240) (ran : s.generateTtiResultDl ttiRx = some (s', dl))
    (own : i ≠ ttiRx % nofSfScheds) (msg3 : i ≠ (ttiRx + 9) % nofSfScheds) :
    s'.sfScheds i = s.sfScheds i := by
  obtain ⟨s₁, g, ctrl, -, rfl, -⟩ := generateTtiResultDl_cases inside ran
  rw [store_sfScheds_other _ _ own, schedCtrl_sfScheds ctrl own msg3]

theorem generateTtiResultUl_sfScheds {s : Sched} {ttiRx i : Nat} (inside : ttiRx < 10240)
    (own : i ≠ ttiRx % nofSfScheds) : (s.generateTtiResultUl ttiRx).1.sfScheds i = s.sfScheds i := by
  rw [generateTtiResultUl_eq inside]
  exact store_sfScheds_other _ _ own

/-- A TTI writes its own subframe and the one in which its Msg3 are queued. -/
theorem tti_sfScheds {s s' : Sched} {rx i : Nat} {c : TtiCalls} {o : TtiLog}
    (stepped : s.tti rx c = some (s', o)) (own : i ≠ rx % nofSfScheds)
    (msg3 : i ≠ (rx + 9) % nofSfScheds) : s'.sfScheds i = s.sfScheds i := by
  have inside : rx % 10240 < 10240 := by omega
  have ownSlot : i ≠ rx % 10240 % nofSfScheds := by rwa [slot_own]
  obtain ⟨-, -, -, -, lastTti, s₁, dl, mid, ul⟩ := tti_cases stepped
  calc s'.sfScheds i
      = o.mid.sfScheds i := by
        rw [← generateTtiResultUl_sfScheds (s := o.mid) inside ownSlot, ul]
    _ = s₁.sfScheds i := by rw [mid, (calls_sameCarrier s₁ c.between).sfScheds]
    _ = (o.pre.setLastTti lastTti).sfScheds i :=
        generateTtiResultDl_sfScheds inside dl ownSlot (by rwa [slot_mod])
    _ = o.pre.sfScheds i := by rw [setLastTti_sfScheds]
    _ = s.sfScheds i := by rw [(tti_pre_sameCarrier stepped).sfScheds]

end Sched

end SonicaEnb
