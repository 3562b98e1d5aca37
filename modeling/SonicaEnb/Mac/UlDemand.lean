import SonicaEnb.Mac.Allocations

/-! # The uplink demand of a UE

`ul_sched` grants a UE what its bearers have reported. A grant takes back the
reports of two logical channels by name, 0 and 3; what another one has reported
stays, and the UE is granted for it again.
-/

namespace SonicaEnb

/-- What the uplink asks of a bearer. -/
def UeBearer.ulOnly (b : UeBearer) : UeBearer := { direction := b.direction, bsr := b.bsr }

/-- A UE with everything put to zero that its uplink demand does not depend on. -/
def SchedUe.ulOnly (ue : SchedUe) : SchedUe :=
  { rnti := 0, sr := ue.sr, lch := ue.lch.map UeBearer.ulOnly }

/-- What a grant does to the UE it is for. -/
def SchedUe.clearGranted (ue : SchedUe) : SchedUe := (ue.ulBufferState 0 0 true).ulBufferState 3 0 true

/-- Under a configuration the bearer has an uplink. -/
def UeCfg.isUl (cfg : UeCfg) (lcid : Nat) : Bool := bearerIsUl { direction := cfg.ueBearers.getD lcid .idle }

namespace SchedUe

variable {ue : SchedUe}

theorem ulOnly_pending (ue : SchedUe) : ue.ulOnly.getPendingUlNewData = ue.getPendingUlNewData := by
  simp only [getPendingUlNewData, ulOnly, List.map_map]
  rfl

theorem ulOnly_setCfg (ue : SchedUe) (cfg : UeCfg) : (ue.setCfg cfg).ulOnly = ue.ulOnly.setCfg cfg := by
  simp only [ulOnly, setCfg, SchedUe.mk.injEq, true_and, and_true]
  apply List.ext_getElem?
  intro i
  simp only [List.getElem?_map, List.getElem?_mapIdx]
  cases ue.lch[i]? <;> rfl

theorem ulOnly_ulBufferState (ue : SchedUe) (lcId bsr : Nat) :
    (ue.ulBufferState lcId bsr true).ulOnly = ue.ulOnly.ulBufferState lcId bsr true := by
  unfold ulBufferState
  split
  · simp only [ulOnly, SchedUe.mk.injEq, true_and, and_true]
    apply List.ext_getElem?
    intro i
    simp only [List.getElem?_map, List.getElem?_modify]
    cases ue.lch[i]? with
    | none => rfl
    | some b =>
        simp only [Option.map_some]
        split <;> rfl
  · rfl

theorem ulOnly_clearGranted (ue : SchedUe) : ue.clearGranted.ulOnly = ue.ulOnly.clearGranted := by
  simp only [clearGranted, ulOnly_ulBufferState]

@[simp] theorem clearGranted_sr (ue : SchedUe) : ue.clearGranted.sr = ue.sr := rfl

theorem clearGranted_lch (ue : SchedUe) (lcid : Nat) :
    ue.clearGranted.lch[lcid]? =
      ue.lch[lcid]?.map fun b => { b with bsr := if lcid = 0 ∨ lcid = 3 then 0 else b.bsr } := by
  simp only [clearGranted, ulBufferState, maxLc, Nat.zero_mod, Nat.reduceMod, Nat.reduceLT, if_true,
    List.getElem?_modify]
  have none : toInt32 0 = 0 := rfl
  cases ue.lch[lcid]? with
  | none => rfl
  | some b =>
      by_cases srb0 : lcid = 0
      · simp [srb0, none]
      · by_cases drb : lcid = 3
        · simp [drb, none]
        · simp [srb0, drb, Ne.symm srb0, Ne.symm drb]

theorem setCfg_lch (ue : SchedUe) (cfg : UeCfg) (lcid : Nat) :
    (ue.setCfg cfg).lch[lcid]? =
      ue.lch[lcid]?.map fun b => { b with direction := cfg.ueBearers.getD lcid .idle } := by
  simp [setCfg]

/-- The reports, as `uint32_t`, of the logical channels other than 0 and 3 that count. -/
def unnamedReports (counts : Nat → UeBearer → Bool) (ue : SchedUe) : Nat :=
  (ue.lch.mapIdx fun lcid b => if lcid ≠ 0 ∧ lcid ≠ 3 ∧ counts lcid b then asUint32 b.bsr else 0).sum

/-- Where nothing is reported, the sum is zero. -/
theorem unnamedReports_silent (counts : Nat → UeBearer → Bool)
    (silent : ∀ (lcid : Nat) (b : UeBearer), ue.lch[lcid]? = some b → lcid ≠ 0 → lcid ≠ 3 → b.bsr = 0) :
    ue.unnamedReports counts = 0 := by
  rw [unnamedReports, List.sum_eq_zero_iff_forall_eq_nat]
  intro n member
  obtain ⟨lcid, here⟩ := List.mem_iff_getElem?.mp member
  rw [List.getElem?_mapIdx] at here
  obtain ⟨b, there, rfl⟩ := Option.map_eq_some_iff.mp here
  split
  · rename_i unnamed
    rw [silent lcid b there unnamed.1 unnamed.2.1]
    rfl
  · rfl

/-- A UE with the bearers of another one, whose reports on 0 and 3 are gone. -/
theorem pending_of_named {ue' : SchedUe} {bearer : Nat → UeBearer → UeBearer} (noSr : ue'.sr = false)
    (lch : ∀ lcid : Nat, ue'.lch[lcid]? = ue.lch[lcid]?.map (bearer lcid))
    (bsr : ∀ lcid b, (bearer lcid b).bsr = if lcid = 0 ∨ lcid = 3 then 0 else b.bsr) :
    ue'.getPendingUlNewData = ue.unnamedReports (fun lcid b => bearerIsUl (bearer lcid b)) % 2 ^ 32 := by
  have reports : (ue'.lch.map fun b => if bearerIsUl b then asUint32 b.bsr else 0) =
      ue.lch.mapIdx fun lcid b =>
        if lcid ≠ 0 ∧ lcid ≠ 3 ∧ bearerIsUl (bearer lcid b) then asUint32 b.bsr else 0 := by
    apply List.ext_getElem?
    intro lcid
    rw [List.getElem?_map, lch, List.getElem?_mapIdx, Option.map_map]
    congr 1
    funext b
    simp only [Function.comp, bsr]
    by_cases named : lcid = 0 ∨ lcid = 3
    · have none : asUint32 0 = 0 := rfl
      have out : ¬ (lcid ≠ 0 ∧ lcid ≠ 3 ∧ bearerIsUl (bearer lcid b) = true) := by tauto
      rw [if_pos named, none, if_neg out, ite_self]
    · rw [if_neg named]
      rw [not_or] at named
      simp only [ne_eq, named.1, not_false_eq_true, named.2, true_and]
  simp only [getPendingUlNewData, noSr, Bool.false_eq_true, and_false, if_false, reports, unnamedReports]

/-- What a grant leaves, under the configuration it was made in. -/
theorem clearGranted_pending (noSr : ue.sr = false) :
    ue.clearGranted.getPendingUlNewData = ue.unnamedReports (fun _ b => bearerIsUl b) % 2 ^ 32 := by
  have named := pending_of_named (ue.clearGranted_sr.trans noSr) ue.clearGranted_lch fun _ _ => rfl
  exact named

/-- What a grant leaves, under a configuration that came after it. -/
theorem clearGranted_setCfg_pending (noSr : ue.sr = false) (cfg : UeCfg) :
    (ue.clearGranted.setCfg cfg).getPendingUlNewData =
      ue.unnamedReports (fun lcid _ => cfg.isUl lcid) % 2 ^ 32 := by
  have lch (lcid : Nat) : (ue.clearGranted.setCfg cfg).lch[lcid]? =
      ue.lch[lcid]?.map fun b =>
        { b with
          bsr := if lcid = 0 ∨ lcid = 3 then 0 else b.bsr
          direction := cfg.ueBearers.getD lcid .idle } := by
    rw [setCfg_lch, clearGranted_lch, Option.map_map]
    rfl
  have noSr' : (ue.clearGranted.setCfg cfg).sr = false := noSr
  have named := pending_of_named noSr' lch fun _ _ => rfl
  exact named

theorem ext_lch {ue ue' : SchedUe} (rest : { ue with lch := ue'.lch } = ue')
    (lch : ∀ lcid : Nat, ue.lch[lcid]? = ue'.lch[lcid]?) : ue = ue' := by
  rw [← rest, ← List.ext_getElem? lch]

theorem clearGranted_idem (ue : SchedUe) : ue.clearGranted.clearGranted = ue.clearGranted := by
  apply ext_lch rfl
  intro lcid
  simp only [clearGranted_lch]
  cases ue.lch[lcid]? with
  | none => rfl
  | some b =>
      simp only [Option.map_some]
      split <;> rfl

theorem setCfg_clearGranted (ue : SchedUe) (cfg : UeCfg) :
    (ue.setCfg cfg).clearGranted = ue.clearGranted.setCfg cfg := by
  apply ext_lch rfl
  intro lcid
  simp only [clearGranted_lch, setCfg_lch, Option.map_map]
  rfl

theorem setCfg_setCfg (ue : SchedUe) (cfg cfg' : UeCfg) :
    (ue.setCfg cfg).setCfg cfg' = ue.setCfg cfg' := by
  apply ext_lch rfl
  intro lcid
  simp only [setCfg_lch, Option.map_map]
  rfl

/-- A new UE has reported nothing, whatever its configuration. -/
theorem init_setCfg_pending (rnti : Nat) (cfg : UeCfg) :
    ((init rnti).setCfg cfg).getPendingUlNewData = 0 := by
  have silent : ∀ b ∈ ((init rnti).setCfg cfg).lch, b.bsr = 0 := by
    intro b member
    obtain ⟨lcid, here⟩ := List.mem_iff_getElem?.mp member
    rw [setCfg_lch] at here
    obtain ⟨b₀, fresh, rfl⟩ := Option.map_eq_some_iff.mp here
    rw [List.eq_of_mem_replicate (List.mem_of_getElem? fresh)]
  have none : (((init rnti).setCfg cfg).lch.map fun b => if bearerIsUl b then asUint32 b.bsr else 0).sum = 0 := by
    rw [List.sum_eq_zero_iff_forall_eq_nat, List.forall_mem_map]
    intro b member
    rw [silent b member]
    exact ite_self 0
  have noSr : ((init rnti).setCfg cfg).sr = false := rfl
  simp only [getPendingUlNewData, none, noSr, Bool.false_eq_true, and_false, if_false, Nat.zero_mod]

end SchedUe

/-! ## What the downlink leaves of it -/

theorem allocRlcPdu_ulOnly {remTbs lcid bytes : Nat} {lch lch' : List UeBearer}
    (ran : allocRlcPdu remTbs lch = some (lcid, bytes, lch')) :
    lch'.map UeBearer.ulOnly = lch.map UeBearer.ulOnly := by
  have kept : ∀ {b b' : UeBearer}, lch[lcid]? = some b → b'.ulOnly = b.ulOnly →
      (lch.set lcid b').map UeBearer.ulOnly = lch.map UeBearer.ulOnly := by
    intro b b' here same
    obtain ⟨inside, rfl⟩ := List.getElem?_eq_some_iff.mp here
    rw [List.map_set, same, ← List.getElem_map UeBearer.ulOnly, List.set_getElem_self]
    rwa [List.length_map]
  obtain ⟨b, here, ⟨-, -, rfl⟩ | ⟨-, -, -, rfl⟩⟩ := allocRlcPdu_cases ran
  · exact kept here rfl
  · exact kept here rfl

theorem allocateMacSdusLoop_ulOnly (fuel : Nat) (lch : List UeBearer) (remTbs : Nat) :
    (allocateMacSdusLoop fuel lch remTbs).2.1.map UeBearer.ulOnly = lch.map UeBearer.ulOnly := by
  induction fuel generalizing lch remTbs with
  | zero => rfl
  | succ fuel ih =>
      rw [allocateMacSdusLoop]
      split
      · rfl
      · split
        · rfl
        · rename_i lcid bytes lch' found
          split
          · rfl
          · exact (ih lch' _).trans (allocRlcPdu_ulOnly found)

theorem SchedUe.generateFormatN1_ulOnly (ue : SchedUe) (iSf : Nat) :
    (ue.generateFormatN1 iSf).2.ulOnly = ue.ulOnly := by
  simp only [ulOnly, SchedUe.mk.injEq, true_and, and_true]
  exact ⟨rfl, allocateMacSdusLoop_ulOnly _ _ _⟩

/-- What the uplink knows of the demand of a UE. -/
def ulDemand (db : SortedMap Nat SchedUe) (user : Nat) : Option SchedUe :=
  (db.find? user).map SchedUe.ulOnly

theorem SameUes.ulDemand {db db' : SortedMap Nat SchedUe} (same : SameUes SchedUe.ulOnly db db')
    (user : Nat) : SonicaEnb.ulDemand db' user = SonicaEnb.ulDemand db user := by
  unfold SonicaEnb.ulDemand
  cases found : db.find? user with
  | none =>
      have known := same.isSome user
      rw [found] at known
      rw [Option.isNone_iff_eq_none.mp (Option.isSome_eq_false_iff.mp known)]
  | some ue =>
      obtain ⟨ue', found', view⟩ := same.after found
      rw [found', Option.map_some, Option.map_some, view]

theorem ulDemand_modify_same {db : SortedMap Nat SchedUe} {f : SchedUe → SchedUe} (k user : Nat)
    (keeps : ∀ ue, (f ue).ulOnly = ue.ulOnly) : ulDemand (db.modify k f) user = ulDemand db user :=
  (SameUes.modify db k fun ue _ => keeps ue).ulDemand user

theorem ulDemand_modify_other {db : SortedMap Nat SchedUe} (f : SchedUe → SchedUe) {k user : Nat}
    (other : user ≠ k) : ulDemand (db.modify k f) user = ulDemand db user := by
  simp only [ulDemand, SortedMap.find?_modify, other, if_false]

/-! ## A round of `sched_users_ul` -/

namespace SfGrid

/-- What visits of `sched_users_ul` can mean for one UE: nothing, or one grant. -/
inductive UlRound (user : Nat) (g g' : SfGrid) : Prop
  | idle (alloc : g'.sf.isUlAlloc user = g.sf.isUlAlloc user)
      (demand : ulDemand g'.ueDb user = ulDemand g.ueDb user)
  | granted (before : g.sf.isUlAlloc user = false) (after : g'.sf.isUlAlloc user = true)
      (asked : ∃ ue, ulDemand g.ueDb user = some ue ∧ 0 < ue.getPendingUlNewData)
      (demand : ulDemand g'.ueDb user = (ulDemand g.ueDb user).map SchedUe.clearGranted)

theorem UlRound.trans {user : Nat} {g g' g'' : SfGrid} (first : UlRound user g g')
    (second : UlRound user g' g'') : UlRound user g g'' := by
  cases first with
  | idle alloc demand =>
      cases second with
      | idle alloc' demand' => exact .idle (alloc'.trans alloc) (demand'.trans demand)
      | granted before after asked cleared =>
          rw [demand] at asked cleared
          exact .granted (alloc.symm.trans before) after asked cleared
  | granted before after asked cleared =>
      cases second with
      | idle alloc demand => exact .granted before (alloc.trans after) asked (demand.trans cleared)
      | granted notYet _ _ _ =>
          rw [after] at notYet
          cases notYet

theorem visit_ulRound (g : SfGrid) (visited user : Nat) :
    UlRound user g (allocateUserNewtxPrbs g visited) := by
  rw [allocateUserNewtxPrbs_eq]
  cases asks : g.ulAsker visited with
  | none => exact .idle rfl rfl
  | some ue =>
      simp only
      split
      · exact .idle rfl (ulDemand_modify_same visited user fun _ => rfl)
      · split
        · by_cases own : user = visited
          · subst own
            unfold ulAsker at asks
            split at asks
            · cases asks
            · rename_i notYet
              obtain ⟨found, pending⟩ := Option.filter_eq_some_iff.mp asks
              have known : ulDemand g.ueDb user = some ue.ulOnly := by rw [ulDemand, found]; rfl
              refine .granted (Bool.eq_false_iff.mpr notYet) ?_ ⟨_, known, ?_⟩ ?_
              · simp [grantUl, SfSched.isUlAlloc]
              · rw [SchedUe.ulOnly_pending]
                exact of_decide_eq_true pending
              · rw [known, Option.map_some, ← SchedUe.ulOnly_clearGranted]
                simp [ulDemand, grantUl, SortedMap.find?_modify, found, SchedUe.clearGranted]
          · refine .idle ?_ (ulDemand_modify_other _ own)
            simp [grantUl, SfSched.isUlAlloc, Ne.symm own]
        · exact .idle rfl rfl

theorem schedUsersUl_ulRound (g : SfGrid) (user : Nat) : UlRound user g (schedUsersUl g) := by
  unfold schedUsersUl
  generalize visitOrder g g.sf.ttiParams.ttiTxUl = order
  induction order generalizing g with
  | nil => exact .idle rfl rfl
  | cons visited rest ih => exact (visit_ulRound g visited user).trans (ih _)

end SfGrid

/-! ## One event -/

/-- What an event makes of the demand of `user` that brings none of its own. -/
def demandAfter (user : Nat) (demand : Option SchedUe) : SchedEvent → Option SchedUe
  | .call (.ueCfg rnti cfg) =>
      if rnti = user then some ((demand.getD (SchedUe.init 0)).setCfg cfg) else demand
  | .call (.ueRem rnti) => if rnti = user then none else demand
  | _ => demand

theorem Sched.call_ulDemand {c : SchedCall} {user : Nat} (s : Sched)
    (noBsr : ∀ lcid bsr setValue, c ≠ .ulBsr user lcid bsr setValue) :
    ulDemand (s.call c).ueDb user = demandAfter user (ulDemand s.ueDb user) (.call c) := by
  cases c with
  | ueCfg rnti cfg =>
      simp only [Sched.call, ulDemand, demandAfter, SortedMap.find?_insert]
      by_cases own : rnti = user
      · subst own
        simp only [if_true, Option.map_some, SchedUe.ulOnly_setCfg]
        cases s.ueDb.find? rnti <;> rfl
      · simp only [own, Ne.symm own, if_false]
  | ueRem rnti =>
      simp only [Sched.call, ulDemand, demandAfter, SortedMap.find?_erase]
      by_cases own : rnti = user
      · simp only [own, if_true, Option.map_none]
      · simp only [own, Ne.symm own, if_false]
  | dlRachInfo info => rfl
  | dlRlcBufferState rnti lcId txQueue retxQueue =>
      apply ulDemand_modify_same
      intro ue
      unfold SchedUe.dlBufferState
      split
      · simp only [SchedUe.ulOnly, SchedUe.mk.injEq, true_and, and_true]
        apply map_modify_same
        intro b
        simp only [UeBearer.ulOnly]
      · rfl
  | dlMacBufferState rnti ce nofCmds =>
      apply ulDemand_modify_same
      intro ue
      unfold SchedUe.macBufferState
      split <;> rfl
  | ulBsr rnti lcid bsr setValue =>
      have other : user ≠ rnti := by
        rintro rfl
        exact noBsr lcid bsr setValue rfl
      exact ulDemand_modify_other _ other
  | ulWaitTimer rnti waitTime setValue => exact ulDemand_modify_same rnti user fun _ => rfl

namespace SchedAt

/-- `allocate_user_newtx_prbs` has a SUCCESS for `user`: the subframe of the TTI holds an uplink
    allocation for it that was not there. -/
def GrantsUl (o : Events.Step SchedAt SchedEvent) (user : Nat) : Prop :=
  o.event = .ulSched ∧ (o.pre.slot 0).isUlAlloc user = false ∧
    (o.post.sched.getSfSched (o.pre.rx % 10240)).isUlAlloc user = true

/-- `alloc_dl_user` has a SUCCESS for `user`. -/
def AllocatesDl (o : Events.Step SchedAt SchedEvent) (user : Nat) : Prop :=
  o.event = .dlSched ∧ (o.pre.slot 0).isDlAlloc user = false ∧ (o.post.slot 0).isDlAlloc user = true

instance (o : Events.Step SchedAt SchedEvent) (user : Nat) : Decidable (GrantsUl o user) :=
  inferInstanceAs (Decidable (_ ∧ _ ∧ _))

instance (o : Events.Step SchedAt SchedEvent) (user : Nat) : Decidable (AllocatesDl o user) :=
  inferInstanceAs (Decidable (_ ∧ _ ∧ _))

/-- What brings a UE demand: a BSR or a DPR, which both come as `ul_bsr`, or a downlink allocation. -/
def BringsDemand (o : Events.Step SchedAt SchedEvent) (user : Nat) : Prop :=
  (∃ lcid bsr setValue, o.event = .call (.ulBsr user lcid bsr setValue)) ∨ AllocatesDl o user

theorem ulSched_ulRound {m m' : SchedAt} (handled : m.handle .ulSched = some m') (user : Nat) :
    (GrantsUl ⟨m, .ulSched, m'⟩ user ∧
        (∃ ue, ulDemand m.sched.ueDb user = some ue ∧ 0 < ue.getPendingUlNewData) ∧
        ulDemand m'.sched.ueDb user = (ulDemand m.sched.ueDb user).map SchedUe.clearGranted) ∨
      (¬ GrantsUl ⟨m, .ulSched, m'⟩ user ∧
        ulDemand m'.sched.ueDb user = ulDemand m.sched.ueDb user) := by
  obtain rfl := ulSched_cases handled
  have inside : m.rx % 10240 < 10240 := by omega
  have own := Sched.getSfSched_of_key (Sched.generateTtiResultUl_own (s := m.sched) inside)
  have round := SfGrid.schedUsersUl_ulRound ((m.sched.clearUl (m.rx % 10240)).grid (m.rx % 10240)) user
  have results : ∀ g : SfGrid, ulDemand g.generateSchedResults.1.ueDb user = ulDemand g.ueDb user :=
    fun g => (SfGrid.dlDataSchedResult_keeps SchedUe.generateFormatN1_ulOnly _ _).ulDemand user
  rw [Sched.generateTtiResultUl_eq inside, Sched.store_sfScheds_same] at own
  simp only [GrantsUl, slot, Nat.add_zero, true_and, Sched.generateTtiResultUl_eq inside, own,
    Sched.store_toShared, results]
  cases round with
  | idle alloc demand =>
      refine .inr ⟨?_, demand⟩
      rintro ⟨before, after⟩
      rw [SfGrid.generateSchedResults_eq, alloc] at after
      have same : (m.sched.getSfSched (m.rx % 10240)).isUlAlloc user = true := after
      rw [same] at before
      cases before
  | granted before after asked demand => exact .inl ⟨⟨before, after⟩, asked, demand⟩

theorem dlSched_ulDemand {m m' : SchedAt} {user : Nat} (handled : m.handle .dlSched = some m')
    (quiet : ¬ AllocatesDl ⟨m, .dlSched, m'⟩ user) :
    ulDemand m'.sched.ueDb user = ulDemand m.sched.ueDb user := by
  obtain ⟨lastTti, s', dl, ran, rfl⟩ := dlSched_cases handled
  have inside : m.rx % 10240 < 10240 := by omega
  obtain ⟨ret, g₁, g₂, run⟩ := Sched.generateTtiResultDl_phases inside ran
  have before := Sched.ctrl_dataAllocs run.rar
  have results : ulDemand s'.ueDb user = ulDemand g₂.ueDb user := by
    rw [congrArg Shared.ueDb run.shared]
    exact (SfGrid.dlDataSchedResult_keeps SchedUe.generateFormatN1_ulOnly _ _).ulDemand user
  have start : g₁.ueDb = m.sched.ueDb := run.ueDb
  rw [results, ← start]
  obtain ⟨ul, users⟩ := run.users
  rcases SfGrid.schedUsersDl_open_cases users with ⟨-, rfl⟩ | ⟨picked, ue, npdschTtis, turn, -, -, rfl⟩
  · rfl
  · apply ulDemand_modify_other
    rintro rfl
    apply quiet
    refine ⟨rfl, ?_, ?_⟩
    · have notYet := SfGrid.openTurns_notYet (SfGrid.openPick_some turn).2.1
      simp only [SfSched.isDlAlloc, before] at notYet
      exact notYet
    · have after := run.ownSf
      simp only [slot, Nat.add_zero, after]
      simp [SfGrid.served, SfSched.isDlAlloc]

/-! ## From a grant on -/

/-- `get_pending_ul_new_data` is 0 for `user`, if it is known at all. -/
def NoDemand (m : SchedAt) (user : Nat) : Prop :=
  ∀ ue, m.sched.ueDb.find? user = some ue → ue.getPendingUlNewData = 0

theorem noDemand_iff {m : SchedAt} {user : Nat} :
    m.NoDemand user ↔ ∀ ue, ulDemand m.sched.ueDb user = some ue → ue.getPendingUlNewData = 0 := by
  unfold NoDemand ulDemand
  cases m.sched.ueDb.find? user with
  | none => simp
  | some ue => simp [SchedUe.ulOnly_pending]

/-- An event that brings no demand, in front of which the reports on 0 and 3 are gone. -/
theorem demandAfter_of_quiet {o : Events.Step SchedAt SchedEvent} {user : Nat}
    (handled : o.pre.handle o.event = some o.post) (quiet : ¬ BringsDemand o user)
    (cleared : (ulDemand o.pre.sched.ueDb user).map SchedUe.clearGranted =
      ulDemand o.pre.sched.ueDb user) :
    ulDemand o.post.sched.ueDb user = demandAfter user (ulDemand o.pre.sched.ueDb user) o.event := by
  obtain ⟨m, e, m'⟩ := o
  simp only at handled cleared ⊢
  cases e with
  | call c =>
      cases handled
      apply Sched.call_ulDemand
      rintro lcid bsr setValue rfl
      exact quiet (.inl ⟨lcid, bsr, setValue, rfl⟩)
  | dlSched => exact dlSched_ulDemand handled fun allocates => quiet (.inr allocates)
  | ulSched =>
      rcases ulSched_ulRound handled user with ⟨-, -, demand⟩ | ⟨-, demand⟩
      · exact demand.trans cleared
      · exact demand

theorem granted_had_demand {o : Events.Step SchedAt SchedEvent} {user : Nat}
    (handled : o.pre.handle o.event = some o.post) (granted : GrantsUl o user) :
    ¬ o.pre.NoDemand user := by
  obtain ⟨m, e, m'⟩ := o
  obtain ⟨rfl, -⟩ := id granted
  rcases ulSched_ulRound handled user with ⟨-, ⟨ue, known, pending⟩, -⟩ | ⟨not, -⟩
  · intro none
    have zero := noDemand_iff.mp none ue known
    omega
  · exact absurd granted not

/-- The configurations that reach `user` before it leaves. -/
def cfgsFor (user : Nat) (events : List SchedEvent) : List UeCfg :=
  (events.takeWhile fun e => e != .call (.ueRem user)).filterMap fun e =>
    match e with
    | .call (.ueCfg rnti cfg) => if rnti = user then some cfg else none
    | _ => none

/-- An event configures `user`, removes it, or leaves its demand as it is. -/
theorem demandAfter_cases (user : Nat) (demand : Option SchedUe) (e : SchedEvent)
    (rest : List SchedEvent) :
    (∃ cfg, demandAfter user demand e = some ((demand.getD (SchedUe.init 0)).setCfg cfg) ∧
        cfgsFor user (e :: rest) = cfg :: cfgsFor user rest) ∨
      (demandAfter user demand e = none ∧ cfgsFor user (e :: rest) = []) ∨
      (demandAfter user demand e = demand ∧ cfgsFor user (e :: rest) = cfgsFor user rest) := by
  cases e with
  | dlSched => exact .inr (.inr ⟨rfl, rfl⟩)
  | ulSched => exact .inr (.inr ⟨rfl, rfl⟩)
  | call c =>
      cases c with
      | ueCfg rnti cfg =>
          by_cases own : rnti = user
          · exact .inl ⟨cfg, by simp [demandAfter, own], by simp [cfgsFor, own]⟩
          · exact .inr (.inr ⟨by simp [demandAfter, own], by simp [cfgsFor, own]⟩)
      | ueRem rnti =>
          by_cases own : rnti = user
          · exact .inr (.inl ⟨by simp [demandAfter, own], by simp [cfgsFor, own]⟩)
          · exact .inr (.inr ⟨by simp [demandAfter, own], by simp [cfgsFor, own]⟩)
      | dlRachInfo info => exact .inr (.inr ⟨rfl, rfl⟩)
      | dlRlcBufferState rnti lcId txQueue retxQueue => exact .inr (.inr ⟨rfl, rfl⟩)
      | dlMacBufferState rnti ce nofCmds => exact .inr (.inr ⟨rfl, rfl⟩)
      | ulBsr rnti lcid bsr setValue => exact .inr (.inr ⟨rfl, rfl⟩)
      | ulWaitTimer rnti waitTime setValue => exact .inr (.inr ⟨rfl, rfl⟩)

/-- A UE that has left, or has come anew and reported nothing. -/
def Blank (demand : Option SchedUe) : Prop :=
  demand = none ∨ ∃ cfg, demand = some ((SchedUe.init 0).setCfg cfg)

theorem Blank.cleared {demand : Option SchedUe} (blank : Blank demand) :
    demand.map SchedUe.clearGranted = demand := by
  rcases blank with rfl | ⟨cfg, rfl⟩
  · rfl
  · rw [Option.map_some, SchedUe.setCfg_clearGranted]
    rfl

theorem Blank.noDemand {m : SchedAt} {user : Nat} (blank : Blank (ulDemand m.sched.ueDb user)) :
    m.NoDemand user := by
  rw [noDemand_iff]
  intro ue known
  rcases blank with gone | ⟨cfg, new⟩
  · rw [gone] at known
    cases known
  · rw [new] at known
    cases known
    exact SchedUe.init_setCfg_pending 0 cfg

theorem Blank.after {demand : Option SchedUe} (blank : Blank demand) (user : Nat) (e : SchedEvent) :
    Blank (demandAfter user demand e) := by
  unfold demandAfter
  split
  · rename_i rnti cfg
    split
    · rcases blank with rfl | ⟨old, rfl⟩
      · exact .inr ⟨cfg, rfl⟩
      · exact .inr ⟨cfg, congrArg some (SchedUe.setCfg_setCfg _ old cfg)⟩
    · exact blank
  · split
    · exact .inl rfl
    · exact blank
  · exact blank

section

variable {m : SchedAt} {user : Nat} {ue : SchedUe} {window : List (Events.Step SchedAt SchedEvent)}

theorem window_blank (linked : Events.Linked handle m window)
    (quiet : ∀ o ∈ window, ¬ BringsDemand o user) (blank : Blank (ulDemand m.sched.ueDb user)) :
    ∀ o ∈ window, o.post.NoDemand user := by
  induction window generalizing m with
  | nil => simp
  | cons o rest ih =>
      obtain ⟨rfl, handled, later⟩ := linked
      obtain ⟨here, quiet⟩ := List.forall_mem_cons.mp quiet
      have next : Blank (ulDemand o.post.sched.ueDb user) := by
        rw [demandAfter_of_quiet handled here blank.cleared]
        exact blank.after user o.event
      exact List.forall_mem_cons.mpr ⟨next.noDemand, ih later quiet next⟩

theorem noDemand_of_known (known : ulDemand m.sched.ueDb user = some ue) :
    m.NoDemand user ↔ ue.getPendingUlNewData = 0 := by
  rw [noDemand_iff, known]
  simp

/-- As long as nothing brings demand, a UE asks for nothing exactly if it asks for nothing under any
    of the configurations it has in that time. -/
theorem window_noDemand_iff (linked : Events.Linked handle m window)
    (quiet : ∀ o ∈ window, ¬ BringsDemand o user) (known : ulDemand m.sched.ueDb user = some ue)
    (cleared : ue.clearGranted = ue) :
    (m.NoDemand user ∧ ∀ o ∈ window, o.post.NoDemand user) ↔
      ue.getPendingUlNewData = 0 ∧
        ∀ cfg ∈ cfgsFor user (window.map Events.Step.event), (ue.setCfg cfg).getPendingUlNewData = 0 := by
  induction window generalizing m ue with
  | nil =>
      rw [noDemand_of_known known]
      simp [cfgsFor]
  | cons o rest ih =>
      obtain ⟨rfl, handled, later⟩ := linked
      obtain ⟨here, quiet⟩ := List.forall_mem_cons.mp quiet
      have settled : (ulDemand o.pre.sched.ueDb user).map SchedUe.clearGranted =
          ulDemand o.pre.sched.ueDb user := by
        rw [known, Option.map_some, cleared]
      have next := demandAfter_of_quiet handled here settled
      rw [List.forall_mem_cons, noDemand_of_known known, List.map_cons]
      rcases demandAfter_cases user (ulDemand o.pre.sched.ueDb user) o.event
          (rest.map Events.Step.event) with ⟨cfg, after, cfgs⟩ | ⟨after, cfgs⟩ | ⟨after, cfgs⟩
      · rw [known, Option.getD_some] at after
        have stays : (ue.setCfg cfg).clearGranted = ue.setCfg cfg := by
          rw [SchedUe.setCfg_clearGranted, cleared]
        rw [known] at next
        rw [ih later quiet (next.trans after) stays, cfgs, List.forall_mem_cons]
        simp only [SchedUe.setCfg_setCfg]
      · have blank : Blank (ulDemand o.post.sched.ueDb user) := .inl (next.trans after)
        have idle := window_blank later quiet blank
        rw [cfgs]
        exact ⟨fun all => ⟨all.1, by simp⟩, fun all => ⟨all.1, blank.noDemand, idle⟩⟩
      · have same := (next.trans after).trans known
        rw [ih later quiet same cleared, cfgs]
        exact ⟨fun all => all.2, fun all => ⟨all.1, all⟩⟩

end

end SchedAt

/-- What the bearers with an uplink have reported on other logical channels than 0 and 3 adds up to nothing,
    now and under each of the configurations. -/
def SchedUe.ReportsNamed (ue : SchedUe) (cfgs : List UeCfg) : Prop :=
  ue.unnamedReports (fun _ b => bearerIsUl b) % 2 ^ 32 = 0 ∧
    ∀ cfg ∈ cfgs, ue.unnamedReports (fun lcid _ => cfg.isUl lcid) % 2 ^ 32 = 0

theorem SchedUe.reportsNamed_iff {ue : SchedUe} (noSr : ue.sr = false) (cfgs : List UeCfg) :
    ue.ReportsNamed cfgs ↔
      ue.clearGranted.getPendingUlNewData = 0 ∧
        ∀ cfg ∈ cfgs, (ue.clearGranted.setCfg cfg).getPendingUlNewData = 0 := by
  simp only [clearGranted_pending noSr, clearGranted_setCfg_pending noSr, ReportsNamed]

/-- A UE that has reported on 0 and 3 alone. -/
theorem SchedUe.reportsNamed_of_silent {ue : SchedUe} (cfgs : List UeCfg)
    (silent : ∀ (lcid : Nat) (b : UeBearer), ue.lch[lcid]? = some b → lcid ≠ 0 → lcid ≠ 3 → b.bsr = 0) :
    ue.ReportsNamed cfgs := by
  simp only [ReportsNamed, unnamedReports_silent _ silent, Nat.zero_mod, implies_true, and_self]

namespace SchedAt

/-- The grant `o` served the demand of `user`: there is none after it, and no further grant, in the
    steps that follow. -/
def ServesDemand (o : Events.Step SchedAt SchedEvent) (window : List (Events.Step SchedAt SchedEvent))
    (user : Nat) : Prop :=
  (∀ p ∈ o :: window, p.post.NoDemand user) ∧ ∀ p ∈ window, ¬ GrantsUl p user

end SchedAt

open SchedAt in
/-- In every run, a grant to a UE without a scheduling request serves its demand until something
    brings new demand, exactly if the UE had reported nothing on other logical channels than 0 and 3
    that is asked for in that time. -/
theorem grant_serves_demand_iff {m last : SchedAt} {events : List SchedEvent}
    {before window after : List (Events.Step SchedAt SchedEvent)} {o : Events.Step SchedAt SchedEvent}
    {user : Nat} {ue : SchedUe}
    (ran : Events.run handle m events = some (last, before ++ o :: (window ++ after)))
    (granted : GrantsUl o user) (known : o.pre.sched.ueDb.find? user = some ue) (noSr : ue.sr = false)
    (quiet : ∀ p ∈ window, ¬ BringsDemand p user) :
    ServesDemand o window user ↔ ue.ReportsNamed (cfgsFor user (window.map Events.Step.event)) := by
  obtain ⟨handled, linked⟩ := (Events.run_linked ran).tail
  have linked := linked.front
  have cleared : ue.clearGranted.ulOnly.clearGranted = ue.clearGranted.ulOnly := by
    rw [← SchedUe.ulOnly_clearGranted, SchedUe.clearGranted_idem]
  have next : ulDemand o.post.sched.ueDb user = some ue.clearGranted.ulOnly := by
    obtain ⟨pre, e, post⟩ := o
    obtain ⟨rfl, -⟩ := id granted
    rcases ulSched_ulRound handled user with ⟨-, -, demand⟩ | ⟨not, -⟩
    · rw [demand, ulDemand, known]
      exact congrArg some (SchedUe.ulOnly_clearGranted ue).symm
    · exact absurd granted not
  have stays := window_noDemand_iff linked quiet next cleared
  simp only [← SchedUe.ulOnly_setCfg, SchedUe.ulOnly_pending] at stays
  rw [SchedUe.reportsNamed_iff noSr, ← stays, ServesDemand, List.forall_mem_cons]
  constructor
  · exact fun served => served.1
  · intro none
    refine ⟨none, ?_⟩
    intro p member again
    have before := linked.pre (P := fun m => m.NoDemand user) none.1 none.2 p member
    exact granted_had_demand (linked.handled p member) again before

/-- A UE that reports on SRB0 is granted, and gets a bearer with an uplink afterwards. -/
def srb0Demand : List SchedEvent :=
  [.call (.ueCfg 0x46 rachUeCfg), .call (.ulBsr 0x46 0 50 true), .dlSched, .ulSched,
    .call (.ueCfg 0x46 ⟨[.both, .both]⟩), .dlSched, .ulSched]

open SchedAt in
theorem srb0_demand_served :
    ∃ last before o window, Events.run handle { rx := 12 } srb0Demand =
        some (last, before ++ o :: (window ++ [])) ∧
      GrantsUl o 0x46 ∧ ServesDemand o window 0x46 := by
  have checked : ((Events.run handle { rx := 12 } srb0Demand).any fun r =>
      r.2[3]?.any fun o => decide (GrantsUl o 0x46) &&
        ((o.pre.sched.ueDb.find? 0x46).any fun ue =>
          !ue.sr && ue.lch.tail.all fun b => b.bsr == 0) &&
        (r.2.drop 4).all fun p => !decide (AllocatesDl p 0x46)) = true := by decide +kernel
  obtain ⟨⟨last, log⟩, ran, found⟩ := (Option.any_eq_true ..).mp checked
  obtain ⟨o, here, facts⟩ := (Option.any_eq_true ..).mp found
  simp only [Bool.and_eq_true, decide_eq_true_eq, Option.any_eq_true, List.all_eq_true,
    Bool.not_eq_true', decide_eq_false_iff_not, beq_iff_eq] at facts
  obtain ⟨⟨granted, ue, known, noSr, silent⟩, noDl⟩ := facts
  obtain ⟨inside, rfl⟩ := List.getElem?_eq_some_iff.mp here
  have shape : log = log.take 3 ++ log[3] :: (log.drop 4 ++ []) := by simp
  have names : (log.drop 4).map Events.Step.event = srb0Demand.drop 4 := by
    rw [List.map_drop, Events.run_events ran]
  rw [shape] at ran
  refine ⟨last, _, _, _, ran, granted, (grant_serves_demand_iff ran granted known noSr ?_).mpr ?_⟩
  · rintro p member (⟨lcid, bsr, setValue, reports⟩ | allocates)
    · have listed : p.event ∈ srb0Demand.drop 4 := names ▸ List.mem_map_of_mem member
      rw [reports] at listed
      simp [srb0Demand] at listed
    · exact noDl p member allocates
  · refine SchedUe.reportsNamed_of_silent _ fun lcid b there srb0 _ => silent b ?_
    obtain ⟨k, rfl⟩ := Nat.exists_eq_succ_of_ne_zero srb0
    exact List.mem_of_getElem? (i := k) (by rwa [List.getElem?_tail])

/-- A UE that reports on SRB1 in the same way. -/
def srb1Demand : List SchedEvent :=
  [.call (.ueCfg 0x46 ⟨[.both, .both]⟩), .call (.ulBsr 0x46 1 125 true), .dlSched, .ulSched,
    .dlSched, .ulSched]

open SchedAt in
/-- It is granted, and in the next TTI it is granted again. -/
theorem srb1_demand_granted_again :
    ∃ last before o window ue, Events.run handle { rx := 12 } srb1Demand =
        some (last, before ++ o :: (window ++ [])) ∧
      GrantsUl o 0x46 ∧ o.pre.sched.ueDb.find? 0x46 = some ue ∧ ue.sr = false ∧
      (∀ p ∈ window, ¬ BringsDemand p 0x46) ∧ ¬ ServesDemand o window 0x46 := by
  have checked : ((Events.run handle { rx := 12 } srb1Demand).any fun r =>
      r.2[3]?.any fun o => decide (GrantsUl o 0x46) &&
        ((o.pre.sched.ueDb.find? 0x46).any fun ue => !ue.sr) &&
        ((r.2.drop 4).all fun p => !decide (AllocatesDl p 0x46)) &&
        (r.2.drop 4).any fun p => decide (GrantsUl p 0x46)) = true := by decide +kernel
  obtain ⟨⟨last, log⟩, ran, found⟩ := (Option.any_eq_true ..).mp checked
  obtain ⟨o, here, facts⟩ := (Option.any_eq_true ..).mp found
  simp only [Bool.and_eq_true, decide_eq_true_eq, Option.any_eq_true, List.all_eq_true,
    List.any_eq_true, Bool.not_eq_true', decide_eq_false_iff_not] at facts
  obtain ⟨⟨⟨granted, ue, known, noSr⟩, noDl⟩, p, later, again⟩ := facts
  obtain ⟨inside, rfl⟩ := List.getElem?_eq_some_iff.mp here
  have shape : log = log.take 3 ++ log[3] :: (log.drop 4 ++ []) := by simp
  have names : (log.drop 4).map Events.Step.event = srb1Demand.drop 4 := by
    rw [List.map_drop, Events.run_events ran]
  rw [shape] at ran
  refine ⟨last, _, _, _, ue, ran, granted, known, noSr, ?_, fun served => served.2 p later again⟩
  rintro p member (⟨lcid, bsr, setValue, reports⟩ | allocates)
  · have listed : p.event ∈ srb1Demand.drop 4 := names ▸ List.mem_map_of_mem member
    rw [reports] at listed
    simp [srb1Demand] at listed
  · exact noDl p member allocates

end SonicaEnb
