import SonicaEnb.Mac.TtiStep

/-! # What the phases leave alone

The downlink phases write the downlink table, the downlink lists of their
subframe and the UEs; the uplink phases their uplink counterparts. No phase adds
or removes a UE, and none changes an RNTI.
-/

namespace SonicaEnb

/-! ## The UE database -/

/-- The same UEs under the same keys, as far as `v` sees them. -/
structure SameUes {α : Type} (v : SchedUe → α) (db db' : SortedMap Nat SchedUe) : Prop where
  keys : db'.keys = db.keys
  same : ∀ k ue', db'.find? k = some ue' → ∃ ue, db.find? k = some ue ∧ v ue' = v ue

namespace SameUes

variable {α β : Type} {v : SchedUe → α} {db db' db'' : SortedMap Nat SchedUe}

theorem refl (db : SortedMap Nat SchedUe) : SameUes v db db :=
  ⟨rfl, fun _ ue found => ⟨ue, found, rfl⟩⟩

theorem trans (first : SameUes v db db') (second : SameUes v db' db'') : SameUes v db db'' := by
  refine ⟨second.keys.trans first.keys, ?_⟩
  intro k ue'' found
  obtain ⟨ue', found', same'⟩ := second.same k ue'' found
  obtain ⟨ue, found, same⟩ := first.same k ue' found'
  exact ⟨ue, found, same'.trans same⟩

theorem modify (db : SortedMap Nat SchedUe) (k : Nat) {f : SchedUe → SchedUe}
    (keeps : ∀ ue, db.find? k = some ue → v (f ue) = v ue) : SameUes v db (db.modify k f) := by
  refine ⟨SortedMap.keys_modify db k f, ?_⟩
  intro j ue' found
  rw [SortedMap.find?_modify] at found
  by_cases same : j = k
  · subst same
    rw [if_pos rfl, Option.map_eq_some_iff] at found
    obtain ⟨ue, found, rfl⟩ := found
    exact ⟨ue, found, keeps ue found⟩
  · rw [if_neg same] at found
    exact ⟨ue', found, rfl⟩

theorem isSome (same : SameUes v db db') (k : Nat) : (db'.find? k).isSome = (db.find? k).isSome := by
  rw [Bool.eq_iff_iff, ← SortedMap.mem_keys_iff, ← SortedMap.mem_keys_iff, same.keys]

/-- A UE known before is known after, and looks the same. -/
theorem after (same : SameUes v db db') {k : Nat} {ue : SchedUe} (found : db.find? k = some ue) :
    ∃ ue', db'.find? k = some ue' ∧ v ue' = v ue := by
  have known := same.isSome k
  rw [found] at known
  obtain ⟨ue', found'⟩ := Option.isSome_iff_exists.mp known
  obtain ⟨old, foundOld, view⟩ := same.same k ue' found'
  rw [found] at foundOld
  cases foundOld
  exact ⟨ue', found', view⟩

theorem symm (same : SameUes v db db') : SameUes v db' db := by
  refine ⟨same.keys.symm, ?_⟩
  intro k ue found
  obtain ⟨ue', found', view⟩ := same.after found
  exact ⟨ue', found', view.symm⟩

/-- What is the same seen closely is the same from further away. -/
theorem map (same : SameUes v db db') (f : α → β) : SameUes (f ∘ v) db db' := by
  refine ⟨same.keys, ?_⟩
  intro k ue' found
  obtain ⟨ue, found, view⟩ := same.same k ue' found
  exact ⟨ue, found, congrArg f view⟩

end SameUes

/-- Changing an element in what `v` does not see. -/
theorem map_modify_same {α β : Type} {v : α → β} {f : α → α} (keeps : ∀ a, v (f a) = v a) (l : List α)
    (i : Nat) : (l.modify i f).map v = l.map v := by
  apply List.ext_getElem?
  intro j
  rw [List.getElem?_map, List.getElem?_modify, List.getElem?_map]
  cases l[j]? with
  | none => simp
  | some a =>
      simp only [Option.map_some]
      split
      · exact congrArg some (keeps a)
      · rfl

/-- What of a bearer the downlink uses. -/
def UeBearer.dlView (b : UeBearer) : BearerDirection × Int × Int := (b.direction, b.bufRetx, b.bufTx)

/-- What of a UE the downlink uses: its RNTI, its control elements and its downlink buffers. -/
def SchedUe.dlView (ue : SchedUe) : Nat × List DlSchLcid × List (BearerDirection × Int × Int) :=
  (ue.rnti, ue.pendingCes, ue.lch.map UeBearer.dlView)

theorem SameUes.rnti {db db' : SortedMap Nat SchedUe} (same : SameUes SchedUe.dlView db db') :
    SameUes SchedUe.rnti db db' := same.map Prod.fst

theorem SchedUe.ulBufferState_dlView (ue : SchedUe) (lcId bsr : Nat) (setValue : Bool) :
    (ue.ulBufferState lcId bsr setValue).dlView = ue.dlView := by
  unfold ulBufferState
  split
  · simp only [dlView, Prod.mk.injEq, true_and]
    apply map_modify_same
    intro b
    rfl
  · rfl

/-- Every UE stands under its own RNTI. -/
def OwnRnti (db : SortedMap Nat SchedUe) : Prop := ∀ k ue, db.find? k = some ue → ue.rnti = k

theorem OwnRnti.of_sameUes {db db' : SortedMap Nat SchedUe} (own : OwnRnti db)
    (same : SameUes SchedUe.rnti db db') : OwnRnti db' := by
  intro k ue' found
  obtain ⟨ue, found, rnti⟩ := same.same k ue' found
  exact rnti.trans (own k ue found)

theorem OwnRnti.modify {db : SortedMap Nat SchedUe} (own : OwnRnti db) {k : Nat}
    {f : SchedUe → SchedUe} (keeps : ∀ ue, (f ue).rnti = ue.rnti) : OwnRnti (db.modify k f) :=
  own.of_sameUes (.modify db k fun ue _ => keeps ue)

@[simp] theorem SchedUe.dlBufferState_rnti (ue : SchedUe) (lcId txQueue retxQueue : Nat) :
    (ue.dlBufferState lcId txQueue retxQueue).rnti = ue.rnti := by
  unfold dlBufferState; split <;> rfl

@[simp] theorem SchedUe.macBufferState_rnti (ue : SchedUe) (cmd : DlSchLcid) (nofCmds : Nat) :
    (ue.macBufferState cmd nofCmds).rnti = ue.rnti := by
  unfold macBufferState; split <;> rfl

@[simp] theorem SchedUe.ulBufferState_rnti (ue : SchedUe) (lcId bsr : Nat) (setValue : Bool) :
    (ue.ulBufferState lcId bsr setValue).rnti = ue.rnti := by
  unfold ulBufferState; split <;> rfl

@[simp] theorem SchedUe.ulWaitTimer_rnti (ue : SchedUe) (waitTime : Nat) (setValue : Bool) :
    (ue.ulWaitTimer waitTime setValue).rnti = ue.rnti := rfl

theorem Sched.call_ownRnti {s : Sched} (own : OwnRnti s.ueDb) (c : SchedCall) :
    OwnRnti (s.call c).ueDb := by
  cases c with
  | ueCfg rnti cfg =>
      intro k ue found
      simp only [Sched.call, SortedMap.find?_insert] at found
      split at found
      · rename_i same
        cases found
        rw [same]
        cases here : s.ueDb.find? rnti with
        | none => rfl
        | some ue => exact own rnti ue here
      · exact own k ue found
  | ueRem rnti =>
      intro k ue found
      simp only [Sched.call, SortedMap.find?_erase] at found
      split at found
      · cases found
      · exact own k ue found
  | dlRachInfo info => exact own
  | dlRlcBufferState rnti lcId txQueue retxQueue =>
      exact own.modify fun ue => ue.dlBufferState_rnti lcId txQueue retxQueue
  | dlMacBufferState rnti ce nofCmds => exact own.modify fun ue => ue.macBufferState_rnti ce nofCmds
  | ulBsr rnti lcid bsr setValue =>
      exact own.modify fun ue => ue.ulBufferState_rnti lcid bsr setValue
  | ulWaitTimer rnti waitTime setValue =>
      exact own.modify fun ue => ue.ulWaitTimer_rnti waitTime setValue

theorem Sched.calls_ownRnti {s : Sched} (own : OwnRnti s.ueDb) (cs : List SchedCall) :
    OwnRnti (s.calls cs).ueDb :=
  Sched.calls_invariant (P := fun s => OwnRnti s.ueDb) (fun _ c _ own => call_ownRnti own c) own

/-! ## Downlink -/

namespace SfGrid

/-- What the downlink phases of a TTI leave alone. -/
structure DlFrame (g g' : SfGrid) : Prop where
  ttiParams : g'.sf.ttiParams = g.sf.ttiParams
  ulDataAllocs : g'.sf.ulDataAllocs = g.sf.ulDataAllocs
  ulSchedTable : g'.ulSchedTable = g.ulSchedTable
  ues : SameUes SchedUe.rnti g.ueDb g'.ueDb

namespace DlFrame

variable {g g' g'' : SfGrid}

theorem refl (g : SfGrid) : DlFrame g g := ⟨rfl, rfl, rfl, .refl _⟩

theorem trans (first : DlFrame g g') (second : DlFrame g' g'') : DlFrame g g'' :=
  ⟨second.1.trans first.1, second.2.trans first.2, second.3.trans first.3, first.4.trans second.4⟩

end DlFrame

theorem allocSibs_dlFrame (sib1SfIdx : Nat) (g : SfGrid) : DlFrame g (allocSibs sib1SfIdx g).2 := by
  simp only [allocSibs]
  split
  · split <;> exact ⟨rfl, rfl, rfl, .refl _⟩
  · split
    · split <;> exact ⟨rfl, rfl, rfl, .refl _⟩
    · exact .refl g

theorem allocRar_cases (g : SfGrid) (rar : PendingRar) :
    (rar.msg3Grant = [] ∧ g.allocRar rar = (.error, 0, g)) ∨
      ∃ info rest alloc, rar.msg3Grant = info :: rest ∧ alloc.rarGrant.map (·.data) = [info] ∧
        (∀ grant ∈ alloc.rarGrant, grant.grant.iMcs = 0) ∧ alloc.allocData.rnti = rar.raRnti ∧
        alloc.allocData.reqBytes = 8 ∧
        g.allocRar rar = (.success, 1, { g with sf.rarAllocs := g.sf.rarAllocs ++ [alloc] }) := by
  unfold allocRar
  cases rar.msg3Grant with
  | nil => exact .inl ⟨rfl, rfl⟩
  | cons info rest => exact .inr ⟨info, rest, _, rfl, rfl, by simp, rfl, rfl, rfl⟩

theorem raDlSched_dlFrame {pendingRars rest : List PendingRar} {g g' : SfGrid} {ret : AllocOutcome}
    (ran : raDlSched pendingRars g = some (ret, rest, g')) : DlFrame g g' := by
  unfold raDlSched at ran
  cases pendingRars with
  | nil => cases ran; exact .refl g
  | cons rar later =>
      simp only at ran
      split at ran
      · cases ran; exact .refl g
      · split at ran
        · cases ran; exact .refl g
        · split at ran
          · cases ran; exact .refl g
          · rcases allocRar_cases g rar with ⟨-, failed⟩ | ⟨info, _, alloc, -, -, -, -, -, sent⟩
            · simp [failed] at ran
            · simp only [sent] at ran
              split at ran <;> cases ran <;> exact ⟨rfl, rfl, rfl, .refl _⟩

theorem allocDlUser_dlFrame {g g' : SfGrid} {user maxData : Nat} {ret : AllocOutcome}
    (ran : g.allocDlUser user maxData = some (ret, g')) : DlFrame g g' := by
  unfold allocDlUser at ran
  split at ran
  · cases ran; exact .refl g
  · split at ran
    · cases ran; exact .refl g
    · simp only at ran
      split at ran
      · cases ran
      · cases ran
        exact ⟨rfl, rfl, rfl, .modify _ _ fun ue _ => by simp⟩

theorem allocateUser_dlFrame {g g' : SfGrid} {user : Nat} (ran : allocateUser g user = some g') :
    DlFrame g g' := by
  unfold allocateUser at ran
  split at ran
  · cases ran; exact .refl g
  · split at ran
    · cases ran
      split <;> exact ⟨rfl, rfl, rfl, .refl _⟩
    · split at ran
      · cases ran; exact .refl g
      · simp only at ran
        split at ran
        · split at ran
          · cases ran
          · rename_i allocated
            cases ran
            have frame := allocDlUser_dlFrame allocated
            exact ⟨frame.1, frame.2, frame.3, frame.4⟩
          · rename_i allocated
            cases ran
            exact allocDlUser_dlFrame allocated
        · cases ran; exact .refl g

theorem schedUsersDlLoop_dlFrame {order : List Nat} {g g' : SfGrid}
    (ran : schedUsersDlLoop order g = some g') : DlFrame g g' := by
  induction order generalizing g with
  | nil => cases ran; exact .refl _
  | cons user rest ih =>
      simp only [schedUsersDlLoop] at ran
      split at ran
      · cases ran
      · rename_i g₁ first
        exact (allocateUser_dlFrame first).trans (ih ran)

theorem allocDlUsers_eq (g : SfGrid) : allocDlUsers g = schedUsersDl g := by
  simp [allocDlUsers, sfDlMask, Nat.mod_one]

theorem allocDlUsers_dlFrame {g g' : SfGrid} (ran : allocDlUsers g = some g') : DlFrame g g' := by
  rw [allocDlUsers_eq] at ran
  exact schedUsersDlLoop_dlFrame ran

/-! ## Results -/

/-- What filling a transport block keeps of a UE, building the results keeps of all. -/
theorem dlDataSchedResult_keeps {α : Type} {v : SchedUe → α}
    (keeps : ∀ (ue : SchedUe) iSf, v (ue.generateFormatN1 iSf).2 = v ue) (allocs : List DlAlloc)
    (db : SortedMap Nat SchedUe) : SameUes v db (dlDataSchedResult allocs db).2 := by
  induction allocs generalizing db with
  | nil => exact .refl db
  | cons a rest ih =>
      simp only [dlDataSchedResult]
      split
      · exact ih db
      · rename_i ue found
        have first : SameUes v db (db.modify a.user fun _ => (ue.generateFormatN1 a.iSf).2) := by
          refine .modify db a.user fun ue' found' => ?_
          rw [found] at found'
          cases found'
          exact keeps ue a.iSf
        split <;> exact first.trans (ih _)

theorem dlDataSchedResult_sameUes (allocs : List DlAlloc) (db : SortedMap Nat SchedUe) :
    SameUes SchedUe.rnti db (dlDataSchedResult allocs db).2 :=
  dlDataSchedResult_keeps (fun _ _ => rfl) allocs db

/-- Results are built from the lists of the subframe; of the state only the UEs change. -/
theorem generateSchedResults_eq (g : SfGrid) :
    g.generateSchedResults.1 = { g with ueDb := (dlDataSchedResult g.sf.dataAllocs g.ueDb).2 } := rfl

theorem generateSchedResults_sameUes (g : SfGrid) : SameUes SchedUe.rnti g.ueDb g.generateSchedResults.1.ueDb :=
  dlDataSchedResult_sameUes g.sf.dataAllocs g.ueDb

/-! ## Uplink -/

/-- What the uplink phases leave alone; uplink allocations are only added. -/
structure UlFrame (g g' : SfGrid) : Prop where
  ttiParams : g'.sf.ttiParams = g.sf.ttiParams
  bcAllocs : g'.sf.bcAllocs = g.sf.bcAllocs
  rarAllocs : g'.sf.rarAllocs = g.sf.rarAllocs
  dataAllocs : g'.sf.dataAllocs = g.sf.dataAllocs
  dlSchedTable : g'.dlSchedTable = g.dlSchedTable
  lastAlloc : g'.lastAlloc = g.lastAlloc
  allocActive : g'.allocActive = g.allocActive
  ulDataAllocs : g.sf.ulDataAllocs <+: g'.sf.ulDataAllocs
  ues : SameUes SchedUe.dlView g.ueDb g'.ueDb

namespace UlFrame

variable {g g' g'' : SfGrid}

theorem refl (g : SfGrid) : UlFrame g g := ⟨rfl, rfl, rfl, rfl, rfl, rfl, rfl, List.prefix_refl _, .refl _⟩

theorem trans (first : UlFrame g g') (second : UlFrame g' g'') : UlFrame g g'' :=
  ⟨second.1.trans first.1, second.2.trans first.2, second.3.trans first.3, second.4.trans first.4,
    second.5.trans first.5, second.6.trans first.6, second.7.trans first.7, first.8.trans second.8,
    first.9.trans second.9⟩

end UlFrame

theorem pushUlAlloc_ulFrame (g : SfGrid) (alloc : UlAlloc) : UlFrame g (g.pushUlAlloc alloc) :=
  ⟨rfl, rfl, rfl, rfl, rfl, rfl, rfl, List.prefix_append _ _, .refl _⟩

/-- A queued Msg3 changes no UE. -/
theorem allocUlMsg3_ulFrame (g : SfGrid) (user : Nat) (alloc : UlHarqAlloc) (mcs : Nat) :
    UlFrame g (g.allocUlMsg3 user alloc mcs).2 := by
  unfold allocUlMsg3
  simp only
  split
  · exact .refl g
  · exact ⟨rfl, rfl, rfl, rfl, rfl, rfl, rfl, List.prefix_append _ _, .refl _⟩

theorem allocUlNpdcch_ulFrame (g : SfGrid) (type : UlAllocType) (user : Nat) :
    UlFrame g (g.allocUlNpdcch type user).2 := by
  unfold allocUlNpdcch
  split
  · exact .refl g
  · simp only
    split
    · exact ⟨rfl, rfl, rfl, rfl, rfl, rfl, rfl, List.prefix_refl _, .modify _ _ fun _ _ => rfl⟩
    · split
      · exact .refl g
      · split
        · exact .refl g
        · split
          · exact .refl g
          · split
            · exact .refl g
            · exact ⟨rfl, rfl, rfl, rfl, rfl, rfl, rfl, List.prefix_append _ _, .refl _⟩

theorem allocUl_ulFrame (g : SfGrid) (user : Nat) (alloc : UlHarqAlloc) (type : UlAllocType)
    (mcs : Nat) : UlFrame g (g.allocUl user alloc type mcs).2 := by
  unfold allocUl
  split
  · exact .refl g
  · cases type with
    | newtx => exact allocUlNpdcch_ulFrame g .newtx user
    | noadaptRetx => exact pushUlAlloc_ulFrame g _
    | adaptRetx => exact allocUlNpdcch_ulFrame g .adaptRetx user
    | msg3 => exact allocUlMsg3_ulFrame g user alloc mcs

theorem allocMsg3_ulFrame (g : SfGrid) (user : Nat) (grant : DlSchedRarGrant) :
    UlFrame g (g.allocMsg3 user grant).2 := by
  unfold allocMsg3
  split
  · exact allocUl_ulFrame g user _ .msg3 _
  · exact .refl g

theorem raUlSched_ulFrame (grants : List DlSchedRarGrant) (g : SfGrid) :
    UlFrame g (raUlSched grants g) := by
  induction grants generalizing g with
  | nil => exact .refl g
  | cons grant rest ih =>
      rw [raUlSched, List.foldl_cons]
      refine UlFrame.trans ?_ (ih _)
      split
      · exact .refl g
      · exact allocMsg3_ulFrame g _ grant

theorem allocateUserNewtxPrbs_ulFrame (g : SfGrid) (user : Nat) :
    UlFrame g (allocateUserNewtxPrbs g user) := by
  unfold allocateUserNewtxPrbs
  split
  · exact .refl g
  · split
    · exact .refl g
    · split
      · have frame := allocUl_ulFrame g user {} .newtx 0
        split
        · rename_i g₁ allocated
          rw [allocUlUser] at allocated
          rw [allocated] at frame
          exact ⟨frame.1, frame.2, frame.3, frame.4, frame.5, frame.6, frame.7, frame.8,
            frame.9.trans (.modify _ _ fun ue _ => by
              rw [SchedUe.ulBufferState_dlView, SchedUe.ulBufferState_dlView])⟩
        · rename_i ret g₁ _ allocated
          rw [allocUlUser] at allocated
          rwa [allocated] at frame
      · exact .refl g

theorem schedUsersUl_ulFrame (g : SfGrid) : UlFrame g (schedUsersUl g) := by
  unfold schedUsersUl
  generalize visitOrder g g.sf.ttiParams.ttiTxUl = order
  induction order generalizing g with
  | nil => exact .refl g
  | cons user rest ih => exact (allocateUserNewtxPrbs_ulFrame g user).trans (ih _)

end SfGrid

end SonicaEnb
