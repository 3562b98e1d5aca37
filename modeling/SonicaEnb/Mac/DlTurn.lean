import SonicaEnb.Mac.Ring

/-! # What the downlink phases of a TTI do

Broadcast, random access and users take their turns in this order, and each is
described here by what it finds in front of it. A phase that does nothing leaves
the grid as it was. `sched_users_dl` visits the UEs in turn and serves at most
one of them; who it is can be read off the state in front of the loop: `dlPick`.
-/

namespace SonicaEnb

namespace SfGrid

/-! ## Broadcast -/

/-- One more SIB1 subframe, in the TTI of the grid. -/
def sendSib1 (g : SfGrid) (isNewSib : Bool) : SfGrid :=
  { g with
    dlSchedTable := g.dlSchedTable.set g.sf.ttiParams.ttiTxDl true
    sf.bcAllocs := g.sf.bcAllocs ++ [⟨raDlSib1, .dlBc, isNewSib⟩] }

/-- A SIB2 that starts in the TTI of the grid. -/
def sendSib2 (g : SfGrid) : SfGrid :=
  { g with
    dlSchedTable := g.dlSchedTable.mark (sib2Ttis g.sf.ttiParams.ttiTxDl)
    sf.bcAllocs := g.sf.bcAllocs ++ [⟨raDlSib2, .dlBc, false⟩] }

def isSib1Tti (g : SfGrid) : Bool :=
  isSib1Sf (g.sf.ttiParams.ttiTxDl / 10) (g.sf.ttiParams.ttiTxDl % 10)

def isSib2Tti (g : SfGrid) : Bool :=
  isValidDlSf g.sf.ttiParams.ttiTxDl &&
    isSib2Sf (g.sf.ttiParams.ttiTxDl / 10) (g.sf.ttiParams.ttiTxDl % 10)

/-- The TTI of the grid is reserved. -/
def taken (g : SfGrid) : Bool := g.dlSchedTable g.sf.ttiParams.ttiTxDl

theorem allocSibs_cases (k : Nat) (g : SfGrid) :
    (g.isSib1Tti = true ∧ g.taken = false ∧
        allocSibs k g = (if k + 1 = sib1NumSf then 0 else k + 1, g.sendSib1 (k == 0))) ∨
      (g.isSib1Tti = false ∧ g.isSib2Tti = true ∧ g.taken = false ∧
        allocSibs k g = (k, g.sendSib2)) ∨
      (((g.isSib1Tti = true ∨ g.isSib2Tti = true) → g.taken = true) ∧ allocSibs k g = (k, g)) := by
  simp only [allocSibs, isSib1Tti, isSib2Tti, taken, sendSib1, sendSib2]
  split
  · rename_i sib1
    split
    · rename_i marked
      exact .inr (.inr ⟨fun _ => marked, rfl⟩)
    · rename_i free
      exact .inl ⟨sib1, by simpa using free, rfl⟩
  · rename_i notSib1
    have notSib1 := Bool.eq_false_iff.mpr notSib1
    split
    · rename_i sib2
      split
      · rename_i marked
        exact .inr (.inr ⟨fun _ => marked, rfl⟩)
      · rename_i free
        exact .inr (.inl ⟨notSib1, sib2, by simpa using free, rfl⟩)
    · rename_i notSib2
      refine .inr (.inr ⟨?_, rfl⟩)
      rintro (sib1 | sib2)
      · rw [notSib1] at sib1; cases sib1
      · exact absurd sib2 notSib2

theorem sendSib1_taken (g : SfGrid) (isNewSib : Bool) : (g.sendSib1 isNewSib).taken = true :=
  Wheel.set_same _ _ _

theorem sendSib2_taken {g : SfGrid} (sib2 : g.isSib2Tti = true) : g.sendSib2.taken = true := by
  have valid : isValidDlSf g.sf.ttiParams.ttiTxDl = true := by
    simp only [isSib2Tti, Bool.and_eq_true] at sib2
    exact sib2.1
  have first : g.sf.ttiParams.ttiTxDl ∈ sib2Ttis g.sf.ttiParams.ttiTxDl := by
    change _ ∈ validDlSfs (10239 + 1) _ (7 + 1)
    rw [validDlSfs, if_pos valid]
    exact List.mem_cons_self
  simp [taken, sendSib2, Wheel.mark_apply, first]

/-! ## Random access -/

/-- The conditions `ra_sched::dl_sched` puts on the TTI of the DCI. -/
def rarTtiFree (g : SfGrid) : Bool :=
  isValidDlSf g.sf.ttiParams.ttiTxDl && !g.taken && decide (g.sf.ttiParams.ttiTxDl % 16 < 8)

/-- A response that is in the subframe, whatever is reserved for it. -/
def sendRar (g : SfGrid) (alloc : RarAlloc) : SfGrid :=
  { g with sf.rarAllocs := g.sf.rarAllocs ++ [alloc] }

/-- The reservations for a response: its DCI and its NPDSCH subframe. -/
def reserveRar (g : SfGrid) : SfGrid :=
  { g with dlSchedTable :=
      (g.dlSchedTable.set g.sf.ttiParams.ttiTxDl true).set (rarTxTti g.sf.ttiParams.ttiTxDl) true }

theorem reserveRar_marks (g : SfGrid) :
    g.reserveRar.dlSchedTable g.sf.ttiParams.ttiTxDl = true ∧
      g.reserveRar.dlSchedTable (rarTxTti g.sf.ttiParams.ttiTxDl) = true := by
  refine ⟨?_, Wheel.set_same _ _ _⟩
  simp only [reserveRar]
  rw [Wheel.set]
  split
  · rfl
  · exact Wheel.set_same _ _ _

/-- The allocation `alloc_rar` makes from the first grant of a pending response. -/
structure AnswersWith (rar : PendingRar) (info : DlSchedRarInfo) (alloc : RarAlloc) : Prop where
  data : alloc.rarGrant.map (·.data) = [info]
  iMcs : ∀ grant ∈ alloc.rarGrant, grant.grant.iMcs = 0
  rnti : alloc.allocData.rnti = rar.raRnti
  reqBytes : alloc.allocData.reqBytes = 8

theorem AnswersWith.single {rar : PendingRar} {info : DlSchedRarInfo} {alloc : RarAlloc}
    (answers : AnswersWith rar info alloc) :
    ∃ grant, alloc.rarGrant = [grant] ∧ grant.data = info ∧ grant.grant.iMcs = 0 := by
  obtain ⟨grant, only⟩ := List.length_eq_one_iff.mp
    (by simpa using congrArg List.length answers.data : alloc.rarGrant.length = 1)
  have data := answers.data
  rw [only] at data
  exact ⟨grant, only, by simpa using data, answers.iMcs grant (by simp [only])⟩

/-- Nothing is sent; or the only grant of the oldest response is, with its reservations; or one of
    several grants is, and nothing is reserved for it. -/
theorem raDlSched_cases {pendingRars rest : List PendingRar} {g g' : SfGrid} {ret : AllocOutcome}
    (ran : raDlSched pendingRars g = some (ret, rest, g')) :
    ((pendingRars = [] ∨ g.rarTtiFree = false) ∧ ret ≠ .success ∧ rest = pendingRars ∧ g' = g) ∨
      ∃ rar later info more alloc, pendingRars = rar :: later ∧ g.rarTtiFree = true ∧
        rar.msg3Grant = info :: more ∧ AnswersWith rar info alloc ∧
        ((more = [] ∧ ret = .success ∧ rest = later ∧ g' = (g.sendRar alloc).reserveRar) ∨
          (more ≠ [] ∧ ret = .dciCollision ∧ rest = { rar with msg3Grant := more } :: later ∧
            g' = g.sendRar alloc)) := by
  unfold raDlSched at ran
  cases pendingRars with
  | nil =>
      cases ran
      exact .inl ⟨.inl rfl, by decide, rfl, rfl⟩
  | cons rar later =>
      simp only at ran
      split at ran
      · rename_i invalid
        cases ran
        exact .inl ⟨.inr (by simp_all [rarTtiFree]), by decide, rfl, rfl⟩
      · rename_i valid
        split at ran
        · rename_i marked
          cases ran
          exact .inl ⟨.inr (by simp_all [rarTtiFree, taken]), by decide, rfl, rfl⟩
        · rename_i free
          split at ran
          · rename_i outside
            cases ran
            refine .inl ⟨.inr ?_, by decide, rfl, rfl⟩
            have late : ¬ g.sf.ttiParams.ttiTxDl % 16 < 8 := by omega
            simp [rarTtiFree, late]
          · rename_i inside
            right
            have early : g.sf.ttiParams.ttiTxDl % 16 < 8 := by omega
            rcases allocRar_cases g rar with
              ⟨-, failed⟩ | ⟨info, more, alloc, grants, data, iMcs, rnti, reqBytes, sent⟩
            · simp [failed] at ran
            · refine ⟨rar, later, info, more, alloc, rfl, by simp_all [rarTtiFree, taken], grants,
                ⟨data, iMcs, rnti, reqBytes⟩, ?_⟩
              simp only [sent, grants, List.length_cons] at ran
              split at ran
              · rename_i all
                cases ran
                have none : more = [] := List.length_eq_zero_iff.mp (by omega)
                exact .inl ⟨none, rfl, rfl, rfl⟩
              · rename_i some
                cases ran
                refine .inr ⟨?_, rfl, rfl, rfl⟩
                rintro rfl
                exact some rfl

/-! ## Users -/

/-- The UE has something to send in downlink. -/
def wantsDl (g : SfGrid) (user : Nat) : Bool :=
  match g.ueDb.find? user with
  | none => false
  | some ue => decide (ue.getRequestedDlBytes.1 > 0)

/-- More than 25 TTIs since the last allocation. -/
def throttleOver (g : SfGrid) : Bool :=
  decide ((g.sf.ttiParams.ttiTxDl + 10240 - g.lastAlloc) % 10240 > 25)

def dlOrder (g : SfGrid) : List Nat := visitOrder g g.sf.ttiParams.ttiTxDl

/-- The UEs whose visit can end in an allocation. -/
def dlTurns (g : SfGrid) : List Nat :=
  if g.allocActive then if g.throttleOver then g.dlOrder.tail else [] else g.dlOrder

/-- The UE that `sched_users_dl` serves in this TTI. -/
def dlPick (g : SfGrid) : Option Nat :=
  if g.dlUserTtiFree then g.dlTurns.find? g.wantsDl else none

/-- The throttle after the loop when nobody was served. -/
def throttleLeft (g : SfGrid) : Bool := g.allocActive && !(g.throttleOver && !g.dlOrder.isEmpty)

/-- The UEs that have no data in the subframe yet; the others are passed over. -/
def dlOpen (g : SfGrid) : List Nat := g.dlOrder.filter fun user => !g.sf.isDlAlloc user

/-- `dlTurns` for a subframe that may hold data already. -/
def openTurns (g : SfGrid) : List Nat :=
  if g.allocActive then if g.throttleOver then g.dlOpen.tail else [] else g.dlOpen

/-- `dlPick` for a subframe that may hold data already. -/
def openPick (g : SfGrid) : Option Nat :=
  if g.dlUserTtiFree then g.openTurns.find? g.wantsDl else none

/-- `throttleLeft` for a subframe that may hold data already. -/
def openThrottle (g : SfGrid) : Bool := g.allocActive && !(g.throttleOver && !g.dlOpen.isEmpty)

/-- `i_sf` as `alloc_dl_user` chooses it. -/
def iSfFor (maxData : Nat) : Nat := if maxData > 20 then 2 else 0

/-- The grid after `user` was served and its data placed on `npdschTtis`. -/
def served (g : SfGrid) (user : Nat) (ue : SchedUe) (npdschTtis : List Nat) : SfGrid :=
  { g with
    dlSchedTable := (g.dlSchedTable.set g.sf.ttiParams.ttiTxDl true).mark npdschTtis
    sf.dataAllocs := g.sf.dataAllocs ++ [⟨user, iSfFor ue.getRequestedDlBytes.2, npdschTtis⟩]
    ueDb := g.ueDb.modify user fun ue => (ue.ulBufferState 3 70 false).ulWaitTimer 30 true
    lastAlloc := g.sf.ttiParams.ttiTxDl
    allocActive := true }

/-- Where the data of a served UE goes. -/
def dlData (g : SfGrid) (ue : SchedUe) : Option (List Nat) :=
  reserveNpdsch 10240 (g.dlSchedTable.set g.sf.ttiParams.ttiTxDl true)
    ((g.sf.ttiParams.ttiTxDl + 5) % 10240) (iSfToNSfNpdsch.getD (iSfFor ue.getRequestedDlBytes.2) 0)

/-- What serving `user` comes to; the UE is one that `dlPick` has found. -/
def serve (g : SfGrid) (user : Nat) : Option SfGrid :=
  match g.ueDb.find? user with
  | none => some g
  | some ue => (g.dlData ue).map (g.served user ue)

theorem allocDlUser_notYet {g : SfGrid} {user maxData : Nat} (notYet : g.sf.isDlAlloc user = false) :
    g.allocDlUser user maxData =
      if !g.dlUserTtiFree then some (.rbCollision, g)
      else
        (reserveNpdsch 10240 (g.dlSchedTable.set g.sf.ttiParams.ttiTxDl true)
          ((g.sf.ttiParams.ttiTxDl + 5) % 10240) (iSfToNSfNpdsch.getD (iSfFor maxData) 0)).map
          fun npdschTtis => (.success, { g with
            dlSchedTable := (g.dlSchedTable.set g.sf.ttiParams.ttiTxDl true).mark npdschTtis
            sf.dataAllocs := g.sf.dataAllocs ++ [⟨user, iSfFor maxData, npdschTtis⟩]
            ueDb := g.ueDb.modify user fun ue => (ue.ulBufferState 3 70 false).ulWaitTimer 30 true }) := by
  simp only [allocDlUser, notYet, Bool.false_eq_true, if_false]
  split
  · rfl
  · simp only [iSfFor]
    split
    · rename_i stuck
      rw [stuck]
      rfl
    · rename_i ttis found
      rw [found]
      rfl

/-- One visit while the throttle is off. -/
theorem allocateUser_inactive {g : SfGrid} {user : Nat} (notYet : g.sf.isDlAlloc user = false)
    (inactive : g.allocActive = false) :
    allocateUser g user =
      if g.dlUserTtiFree && g.wantsDl user then g.serve user else some g := by
  simp only [allocateUser, notYet, Bool.false_eq_true, if_false, inactive, wantsDl, serve, dlData]
  rcases Option.eq_none_or_eq_some (g.ueDb.find? user) with unknown | ⟨ue, known⟩
  · simp [unknown]
  · simp only [known, allocDlUser_notYet notYet]
    by_cases wants : ue.getRequestedDlBytes.1 > 0
    · cases g.dlUserTtiFree with
      | false => simp
      | true =>
          simp only [wants, Bool.not_true, Bool.false_eq_true, if_false, decide_true, Bool.and_self,
            if_true]
          cases reserveNpdsch 10240 (g.dlSchedTable.set g.sf.ttiParams.ttiTxDl true)
              ((g.sf.ttiParams.ttiTxDl + 5) % 10240)
              (iSfToNSfNpdsch.getD (iSfFor ue.getRequestedDlBytes.2) 0) with
          | none => rfl
          | some ttis => rfl
    · simp [wants]

/-- One visit while the throttle is on. -/
theorem allocateUser_active {g : SfGrid} {user : Nat} (notYet : g.sf.isDlAlloc user = false)
    (active : g.allocActive = true) :
    allocateUser g user = some (if g.throttleOver then { g with allocActive := false } else g) := by
  simp [allocateUser, notYet, active, throttleOver]

/-- After an allocation in this TTI every further visit does nothing. -/
theorem allocateUser_after {g : SfGrid} (user : Nat) (active : g.allocActive = true)
    (now : g.lastAlloc = g.sf.ttiParams.ttiTxDl) : allocateUser g user = some g := by
  have zero : (g.sf.ttiParams.ttiTxDl + 10240 - g.lastAlloc) % 10240 = 0 := by rw [now]; omega
  unfold allocateUser
  split
  · rfl
  · simp [zero]

theorem loop_after {g : SfGrid} (order : List Nat) (active : g.allocActive = true)
    (now : g.lastAlloc = g.sf.ttiParams.ttiTxDl) : schedUsersDlLoop order g = some g := by
  induction order with
  | nil => rfl
  | cons user rest ih => simp only [schedUsersDlLoop, allocateUser_after user active now, ih]

/-- The loop with the throttle off serves the first UE that wants something. -/
theorem loop_inactive {g : SfGrid} (order : List Nat)
    (notYet : ∀ user ∈ order, g.sf.isDlAlloc user = false) (inactive : g.allocActive = false) :
    schedUsersDlLoop order g =
      match if g.dlUserTtiFree then order.find? g.wantsDl else none with
      | none => some g
      | some user => g.serve user := by
  induction order with
  | nil => simp [schedUsersDlLoop]
  | cons user rest ih =>
      obtain ⟨here, later⟩ := List.forall_mem_cons.mp notYet
      have ih := ih later
      simp only [schedUsersDlLoop, allocateUser_inactive here inactive]
      cases free : g.dlUserTtiFree with
      | false =>
          rw [free] at ih
          simpa using ih
      | true =>
          cases wants : g.wantsDl user with
          | false =>
              rw [free] at ih
              simpa [List.find?_cons, wants] using ih
          | true =>
              simp only [Bool.and_self, if_true, List.find?_cons, wants]
              cases outcome : g.serve user with
              | none => rfl
              | some g' =>
                  unfold serve at outcome
                  split at outcome
                  · rename_i unknown
                    simp [wantsDl, unknown] at wants
                  · obtain ⟨ttis, -, rfl⟩ := Option.map_eq_some_iff.mp outcome
                    exact loop_after rest rfl rfl

theorem loop_active {g : SfGrid} (order : List Nat)
    (notYet : ∀ user ∈ order, g.sf.isDlAlloc user = false) (active : g.allocActive = true) (elapsed : g.throttleOver = false) :
    schedUsersDlLoop order g = some g := by
  induction order with
  | nil => rfl
  | cons user rest ih =>
      obtain ⟨here, later⟩ := List.forall_mem_cons.mp notYet
      simp only [schedUsersDlLoop, allocateUser_active here active, elapsed, Bool.false_eq_true,
        if_false, ih later]

/-- A visit takes no data out of the subframe. -/
theorem allocateUser_isDlAlloc {g g' : SfGrid} {visited user : Nat}
    (ran : allocateUser g visited = some g') (yet : g.sf.isDlAlloc user = true) :
    g'.sf.isDlAlloc user = true := by
  cases here : g.sf.isDlAlloc visited with
  | true =>
      simp only [allocateUser, here, if_true, Option.some.injEq] at ran
      exact ran ▸ yet
  | false =>
      cases active : g.allocActive with
      | true =>
          rw [allocateUser_active here active, Option.some.injEq] at ran
          rw [← ran]
          split <;> exact yet
      | false =>
          rw [allocateUser_inactive here active] at ran
          split at ran
          · unfold serve at ran
            split at ran
            · cases ran
              exact yet
            · obtain ⟨npdschTtis, -, rfl⟩ := Option.map_eq_some_iff.mp ran
              simp only [SfSched.isDlAlloc, served, List.any_append, Bool.or_eq_true]
              exact .inl yet
          · cases ran
            exact yet

/-- UEs with data in the subframe can be left out of the loop. -/
theorem loop_skips {g : SfGrid} {skip : Nat → Bool} (order : List Nat)
    (yet : ∀ user, skip user = true → g.sf.isDlAlloc user = true) :
    schedUsersDlLoop order g = schedUsersDlLoop (order.filter fun user => !skip user) g := by
  induction order generalizing g with
  | nil => rfl
  | cons user rest ih =>
      cases skipped : skip user with
      | true =>
          have idle : allocateUser g user = some g := by
            rw [allocateUser, if_pos (yet user skipped)]
          simp only [schedUsersDlLoop, idle, List.filter_cons, skipped, Bool.not_true,
            Bool.false_eq_true, if_false]
          exact ih yet
      | false =>
          simp only [schedUsersDlLoop, List.filter_cons, skipped, Bool.not_false, if_true]
          cases visit : allocateUser g user with
          | none => rfl
          | some g' => exact ih fun other skips => allocateUser_isDlAlloc visit (yet other skips)

/-- `sched_users_dl` in one equation. -/
theorem schedUsersDl_open (g : SfGrid) :
    schedUsersDl g =
      match g.openPick with
      | none => some { g with allocActive := g.openThrottle }
      | some user => { g with allocActive := false }.serve user := by
  have skips : schedUsersDl g = schedUsersDlLoop g.dlOpen g := loop_skips g.dlOrder fun _ yet => yet
  have notYet : ∀ user ∈ g.dlOpen, g.sf.isDlAlloc user = false := by
    intro user member
    simpa using (List.mem_filter.mp member).2
  rw [skips]
  unfold openPick openTurns openThrottle
  cases active : g.allocActive with
  | false =>
      have same : { g with allocActive := false } = g := by rw [← active]
      simp only [loop_inactive g.dlOpen notYet active, Bool.false_eq_true, if_false, Bool.false_and,
        same]
  | true =>
      cases elapsed : g.throttleOver with
      | false =>
          have same : { g with allocActive := true } = g := by rw [← active]
          simp [loop_active g.dlOpen notYet active elapsed, same]
      | true =>
          cases order : g.dlOpen with
          | nil =>
              have same : { g with allocActive := true } = g := by rw [← active]
              simp [schedUsersDlLoop, same]
          | cons user rest =>
              rw [order] at notYet
              obtain ⟨here, later⟩ := List.forall_mem_cons.mp notYet
              simp only [schedUsersDlLoop, allocateUser_active here active, elapsed, if_true]
              rw [loop_inactive rest (g := { g with allocActive := false }) later rfl]
              have sameFree : { g with allocActive := false }.dlUserTtiFree = g.dlUserTtiFree := rfl
              have sameWants : { g with allocActive := false }.wantsDl = g.wantsDl := rfl
              simp only [sameFree, sameWants, List.tail_cons, List.isEmpty_cons, Bool.not_false,
                Bool.and_self, Bool.not_true, Bool.and_false]

theorem not_dlUserTtiFree {g : SfGrid} (blocked : g.taken = true ∨ g.isSib1Tti = true) :
    g.dlUserTtiFree = false := by
  rcases blocked with taken | sib1
  · simp only [SfGrid.taken] at taken
    simp [dlUserTtiFree, taken]
  · simp only [isSib1Tti] at sib1
    simp [dlUserTtiFree, sib1]

theorem openPick_none {g : SfGrid} (notFree : g.dlUserTtiFree = false) : g.openPick = none := by
  simp [openPick, notFree]

theorem wantsDl_some {g : SfGrid} {user : Nat} (wants : g.wantsDl user = true) :
    ∃ ue, g.ueDb.find? user = some ue ∧ 0 < ue.getRequestedDlBytes.1 := by
  unfold wantsDl at wants
  split at wants
  · cases wants
  · rename_i ue found
    exact ⟨ue, found, by simpa using wants⟩

theorem openPick_some {g : SfGrid} {user : Nat} (picked : g.openPick = some user) :
    g.dlUserTtiFree = true ∧ user ∈ g.openTurns ∧ g.wantsDl user = true := by
  unfold openPick at picked
  split at picked
  · rename_i free
    exact ⟨free, List.mem_of_find?_eq_some picked, List.find?_some picked⟩
  · cases picked

/-- The UEs whose turn it is have no data in the subframe yet. -/
theorem openTurns_notYet {g : SfGrid} {user : Nat} (member : user ∈ g.openTurns) :
    g.sf.isDlAlloc user = false := by
  have inside : user ∈ g.dlOpen := by
    unfold openTurns at member
    split at member
    · split at member
      · exact List.mem_of_mem_tail member
      · cases member
    · exact member
  simpa using (List.mem_filter.mp inside).2

/-- Nobody is served, or the UE picked is. -/
theorem schedUsersDl_open_cases {g g' : SfGrid} (ran : schedUsersDl g = some g') :
    (g.openPick = none ∧ g' = { g with allocActive := g.openThrottle }) ∨
      ∃ user ue npdschTtis, g.openPick = some user ∧ g.ueDb.find? user = some ue ∧
        g.dlData ue = some npdschTtis ∧ g' = g.served user ue npdschTtis := by
  rw [schedUsersDl_open] at ran
  cases picked : g.openPick with
  | none =>
      rw [picked] at ran
      exact .inl ⟨rfl, (Option.some.inj ran).symm⟩
  | some user =>
      rw [picked] at ran
      obtain ⟨ue, found, -⟩ := wantsDl_some (openPick_some picked).2.2
      simp only [serve, found] at ran
      obtain ⟨npdschTtis, placed, rfl⟩ := Option.map_eq_some_iff.mp ran
      exact .inr ⟨user, ue, npdschTtis, rfl, found, placed, rfl⟩

/-! ### Subframes without data -/

theorem dlOpen_of_fresh {g : SfGrid} (fresh : g.sf.dataAllocs = []) : g.dlOpen = g.dlOrder := by
  simp [dlOpen, SfSched.isDlAlloc, fresh]

theorem openPick_of_fresh {g : SfGrid} (fresh : g.sf.dataAllocs = []) : g.openPick = g.dlPick := by
  simp only [openPick, openTurns, dlOpen_of_fresh fresh, dlPick, dlTurns]

theorem openThrottle_of_fresh {g : SfGrid} (fresh : g.sf.dataAllocs = []) :
    g.openThrottle = g.throttleLeft := by
  simp only [openThrottle, dlOpen_of_fresh fresh, throttleLeft]

theorem schedUsersDl_eq {g : SfGrid} (fresh : g.sf.dataAllocs = []) :
    schedUsersDl g =
      match g.dlPick with
      | none => some { g with allocActive := g.throttleLeft }
      | some user => { g with allocActive := false }.serve user := by
  rw [schedUsersDl_open, openPick_of_fresh fresh, openThrottle_of_fresh fresh]

theorem dlPick_none {g : SfGrid} (blocked : g.taken = true ∨ g.isSib1Tti = true) : g.dlPick = none := by
  simp [dlPick, not_dlUserTtiFree blocked]

theorem dlPick_some {g : SfGrid} {user : Nat} (picked : g.dlPick = some user) :
    g.dlUserTtiFree = true ∧ user ∈ g.dlTurns ∧ ∃ ue, g.ueDb.find? user = some ue ∧
      0 < ue.getRequestedDlBytes.1 := by
  unfold dlPick at picked
  split at picked
  · rename_i free
    exact ⟨free, List.mem_of_find?_eq_some picked, wantsDl_some (List.find?_some picked)⟩
  · cases picked

theorem schedUsersDl_cases {g g' : SfGrid} (fresh : g.sf.dataAllocs = [])
    (ran : schedUsersDl g = some g') :
    (g.dlPick = none ∧ g' = { g with allocActive := g.throttleLeft }) ∨
      ∃ user ue npdschTtis, g.dlPick = some user ∧ g.ueDb.find? user = some ue ∧
        g.dlData ue = some npdschTtis ∧ g' = g.served user ue npdschTtis := by
  rw [← openPick_of_fresh fresh, ← openThrottle_of_fresh fresh]
  exact schedUsersDl_open_cases ran

/-- `sched_users_dl` comes to the same UEs in the same order, behind the same throttle. -/
structure SameTurns (g g' : SfGrid) : Prop where
  dlOrder : g'.dlOrder = g.dlOrder
  dlOpen : g'.dlOpen = g.dlOpen
  wantsDl : g'.wantsDl = g.wantsDl
  throttleOver : g'.throttleOver = g.throttleOver
  allocActive : g'.allocActive = g.allocActive

namespace SameTurns

variable {g g' : SfGrid}

theorem dlTurns (same : SameTurns g g') : g'.dlTurns = g.dlTurns := by
  simp only [SfGrid.dlTurns, same.dlOrder, same.throttleOver, same.allocActive]

theorem openTurns (same : SameTurns g g') : g'.openTurns = g.openTurns := by
  simp only [SfGrid.openTurns, same.dlOpen, same.throttleOver, same.allocActive]

theorem throttleLeft (same : SameTurns g g') : g'.throttleLeft = g.throttleLeft := by
  simp only [SfGrid.throttleLeft, same.dlOrder, same.throttleOver, same.allocActive]

end SameTurns

end SfGrid

namespace Sched

/-! ## The phases together -/

/-- Counter and grid after the broadcast phase. -/
def afterSibs (s : Sched) (ttiRx : Nat) : Nat × SfGrid :=
  allocSibs s.sib1SfIdx ((s.clearDl ttiRx).grid ttiRx)

/-- What the downlink run of a TTI leaves, from the grids after random access and after users. -/
structure DlRun (s : Sched) (ttiRx : Nat) (s' : Sched) (dl : DlSchedRes) (ret : AllocOutcome)
    (g₁ g₂ : SfGrid) : Prop where
  rar : raDlSched s.pendingRars (s.afterSibs ttiRx).2 = some (ret, s'.pendingRars, g₁)
  users : ∃ ul, schedUsersDl { g₁ with ulSchedTable := ul } = some g₂
  sib1SfIdx : s'.sib1SfIdx = (s.afterSibs ttiRx).1
  shared : s'.toShared =
    { g₂.toShared with ueDb := (SfGrid.dlDataSchedResult g₂.sf.dataAllocs g₂.ueDb).2 }
  own : s'.sfScheds (ttiRx % nofSfScheds) = g₂.sf
  msg3 : s'.sfScheds ((ttiRx + 9) % nofSfScheds) =
    if ret = .success then
      (raUlSched g₁.sf.msg3Grants { g₁ with sf := s.getSfSched (ttiRx + 9) }).sf
    else s.sfScheds ((ttiRx + 9) % nofSfScheds)
  ulSchedTable : s'.ulSchedTable =
    if ret = .success then
      (raUlSched g₁.sf.msg3Grants { g₁ with sf := s.getSfSched (ttiRx + 9) }).ulSchedTable
    else s.ulSchedTable
  result : dl = g₂.generateSchedResults.2.1

/-- Of what the subframes share, a queued Msg3 changes the uplink table. -/
theorem schedMsg3_toShared (s : Sched) (ttiRx : Nat) (sf : SfSched) :
    (s.schedMsg3 ttiRx sf).toShared =
      { s.toShared with ulSchedTable := (s.schedMsg3 ttiRx sf).ulSchedTable } := by
  have frame := SfGrid.raUlSched_ulFrame sf.msg3Grants (s.grid (ttiRx + 9))
  exact Shared.ext frame.dlSchedTable rfl (SfGrid.raUlSched_ueDb sf.msg3Grants (s.grid (ttiRx + 9)))
    frame.lastAlloc frame.allocActive

/-- The grid in front of the users, after broadcast and random access. -/
theorem grid_afterCtrl {s s₁ : Sched} {ttiRx : Nat} {ret : AllocOutcome} {pendingRars : List PendingRar}
    {g₁ : SfGrid}
    (rar : raDlSched s.pendingRars (allocSibs s.sib1SfIdx ((s.clearDl ttiRx).grid ttiRx)).2 =
      some (ret, pendingRars, g₁))
    (outcome : (ret = .success ∧ s₁ = (s.afterRar ttiRx pendingRars g₁).schedMsg3 ttiRx g₁.sf) ∨
      (ret ≠ .success ∧ s₁ = s.afterRar ttiRx pendingRars g₁)) :
    s₁.grid ttiRx = { g₁ with ulSchedTable := s₁.ulSchedTable } := by
  have frame := (SfGrid.allocSibs_dlFrame _ _).trans (SfGrid.raDlSched_dlFrame rar)
  have key : g₁.sf.ttiParams.ttiRx = ttiRx := by
    rw [frame.ttiParams]
    exact getSfSched_ttiRx _ _
  have place : s₁.sfScheds (ttiRx % nofSfScheds) = g₁.sf := by
    rcases outcome with ⟨-, rfl⟩ | ⟨-, rfl⟩
    · rw [schedMsg3_sfScheds _ _ _ (own_ne_msg3 ttiRx), afterRar_sfScheds_own]
    · exact afterRar_sfScheds_own s ttiRx pendingRars g₁
  have found : s₁.getSfSched ttiRx = g₁.sf := by
    rw [getSfSched_of_key (by rw [place]; exact key), place]
  rw [grid, found]
  rcases outcome with ⟨-, rfl⟩ | ⟨-, rfl⟩
  · rw [schedMsg3_toShared]
    rfl
  · rfl

/-- The phases of a downlink run, from its two halves. -/
theorem DlRun.of_halves {s s₁ : Sched} {ttiRx : Nat} {g₂ : SfGrid} (ctrl : s.schedCtrl ttiRx = some s₁)
    (users : allocDlUsers (s₁.grid ttiRx) = some g₂) :
    ∃ ret g₁, DlRun s ttiRx (s₁.store ttiRx g₂.generateSchedResults.1) g₂.generateSchedResults.2.1
      ret g₁ g₂ := by
  obtain ⟨ret, pendingRars, g₁, rar, outcome⟩ := schedCtrl_cases ctrl
  rw [SfGrid.allocDlUsers_eq, grid_afterCtrl rar outcome] at users
  have frame := (SfGrid.allocSibs_dlFrame _ _).trans (SfGrid.raDlSched_dlFrame rar)
  have other := (own_ne_msg3 ttiRx).symm
  have free := afterRar_sfScheds_other s pendingRars g₁ other
  have kept := (SfGrid.schedUsersDlLoop_dlFrame users).ulSchedTable
  rcases outcome with ⟨sent, rfl⟩ | ⟨notSent, rfl⟩
  · have start : (s.afterRar ttiRx pendingRars g₁).grid (ttiRx + 9) =
        { g₁ with sf := s.getSfSched (ttiRx + 9) } := by
      simp only [grid, getSfSched, free]
      rfl
    refine ⟨ret, g₁, rar, ⟨_, users⟩, rfl, rfl, store_sfScheds_same _ _ _, ?_, ?_, rfl⟩
    · rw [if_pos sent, store_sfScheds_other _ _ other, ← start]
      exact store_sfScheds_same _ _ _
    · rw [if_pos sent, ← start]
      exact kept
  · refine ⟨ret, g₁, rar, ⟨_, users⟩, rfl, rfl, store_sfScheds_same _ _ _, ?_, ?_, rfl⟩
    · rw [if_neg notSent, store_sfScheds_other _ _ other, free]
    · rw [if_neg notSent]
      exact kept.trans frame.ulSchedTable

theorem generateTtiResultDl_phases {s s' : Sched} {ttiRx : Nat} {dl : DlSchedRes}
    (inside : ttiRx < 10240) (ran : s.generateTtiResultDl ttiRx = some (s', dl)) :
    ∃ ret g₁ g₂, DlRun s ttiRx s' dl ret g₁ g₂ := by
  obtain ⟨s₁, g₂, ctrl, users, rfl, rfl⟩ := generateTtiResultDl_cases inside ran
  obtain ⟨ret, g₁, run⟩ := DlRun.of_halves ctrl users
  exact ⟨ret, g₁, g₂, run⟩

/-- The grid in front of the downlink phases. -/
def dlGrid (s : Sched) (ttiRx : Nat) : SfGrid := (s.clearDl ttiRx).grid ttiRx

theorem dlGrid_tx (s : Sched) (ttiRx : Nat) :
    (s.dlGrid ttiRx).sf.ttiParams.ttiTxDl = (ttiRx + 4) % 10240 := getSfSched_ttiTxDl _ _

/-- The response of which a grant is sent in the downlink run for `ttiRx`. -/
def rarDue (s : Sched) (ttiRx : Nat) : Option PendingRar :=
  let g := s.dlGrid ttiRx
  if g.rarTtiFree && !g.isSib1Tti && !g.isSib2Tti then s.pendingRars.head? else none

section

variable {s s' : Sched} {ttiRx : Nat} {dl : DlSchedRes} {ret : AllocOutcome} {g₁ g₂ : SfGrid}

theorem DlRun.dlSchedTable (run : DlRun s ttiRx s' dl ret g₁ g₂) :
    s'.dlSchedTable = g₂.dlSchedTable := by rw [run.shared]

theorem DlRun.lastAlloc (run : DlRun s ttiRx s' dl ret g₁ g₂) : s'.lastAlloc = g₂.lastAlloc := by
  rw [run.shared]

theorem DlRun.allocActive (run : DlRun s ttiRx s' dl ret g₁ g₂) :
    s'.allocActive = g₂.allocActive := by rw [run.shared]

end

/-- Where a response may go out, no SIB went out before it. -/
theorem afterSibs_of_free {s : Sched} {ttiRx : Nat} (free : (s.afterSibs ttiRx).2.rarTtiFree = true) :
    s.afterSibs ttiRx = (s.sib1SfIdx, s.dlGrid ttiRx) ∧ (s.dlGrid ttiRx).isSib1Tti = false ∧
      (s.dlGrid ttiRx).isSib2Tti = false := by
  have notTaken : (s.afterSibs ttiRx).2.taken = false := by
    simp only [SfGrid.rarTtiFree, Bool.and_eq_true, Bool.not_eq_true'] at free
    exact free.1.2
  rcases SfGrid.allocSibs_cases s.sib1SfIdx (s.dlGrid ttiRx) with
    ⟨-, -, sent⟩ | ⟨-, sib2, -, sent⟩ | ⟨blocked, same⟩
  · have taken : (s.afterSibs ttiRx).2.taken = true := by
      rw [afterSibs, ← dlGrid, sent]
      exact SfGrid.sendSib1_taken _ _
    rw [taken] at notTaken; cases notTaken
  · have taken : (s.afterSibs ttiRx).2.taken = true := by
      rw [afterSibs, ← dlGrid, sent]
      exact SfGrid.sendSib2_taken sib2
    rw [taken] at notTaken; cases notTaken
  · have unchanged : s.afterSibs ttiRx = (s.sib1SfIdx, s.dlGrid ttiRx) := same
    rw [unchanged] at notTaken
    refine ⟨unchanged, ?_, ?_⟩
    · cases sib1 : (s.dlGrid ttiRx).isSib1Tti with
      | false => rfl
      | true => rw [blocked (.inl sib1)] at notTaken; cases notTaken
    · cases sib2 : (s.dlGrid ttiRx).isSib2Tti with
      | false => rfl
      | true => rw [blocked (.inr sib2)] at notTaken; cases notTaken

/-- Broadcast and random access make no data allocation. -/
theorem ctrl_dataAllocs {s : Sched} {ttiRx : Nat} {ret : AllocOutcome} {rest : List PendingRar}
    {g₁ : SfGrid} (ran : raDlSched s.pendingRars (s.afterSibs ttiRx).2 = some (ret, rest, g₁)) :
    g₁.sf.dataAllocs = (s.getSfSched ttiRx).dataAllocs := by
  have sibs : (s.afterSibs ttiRx).2.sf.dataAllocs = (s.getSfSched ttiRx).dataAllocs := by
    rw [afterSibs, ← dlGrid]
    rcases SfGrid.allocSibs_cases s.sib1SfIdx (s.dlGrid ttiRx) with
      ⟨-, -, sent⟩ | ⟨-, -, -, sent⟩ | ⟨-, sent⟩ <;> rw [sent] <;> rfl
  rcases SfGrid.raDlSched_cases ran with
    ⟨-, -, -, rfl⟩ | ⟨rar, later, info, more, alloc, -, -, -, -, ⟨-, -, -, rfl⟩ | ⟨-, -, -, rfl⟩⟩ <;>
    exact sibs

/-- Where no response may go out after the SIBs, none was due. -/
theorem rarDue_of_not_free {s : Sched} {ttiRx : Nat}
    (notFree : s.pendingRars = [] ∨ (s.afterSibs ttiRx).2.rarTtiFree = false) :
    s.rarDue ttiRx = none := by
  simp only [rarDue]
  split
  · rename_i conditions
    simp only [Bool.and_eq_true, Bool.not_eq_true'] at conditions
    obtain ⟨⟨free, noSib1⟩, noSib2⟩ := conditions
    rcases notFree with none | notFree
    · rw [none]; rfl
    · rcases SfGrid.allocSibs_cases s.sib1SfIdx (s.dlGrid ttiRx) with
        ⟨sib1, -⟩ | ⟨-, sib2, -⟩ | ⟨-, same⟩
      · rw [sib1] at noSib1; cases noSib1
      · rw [sib2] at noSib2; cases noSib2
      · rw [afterSibs, ← dlGrid, same, free] at notFree; cases notFree
  · rfl

/-- The random access phase, in terms of the response that is due. -/
theorem DlRun.rar_cases {s s' : Sched} {ttiRx : Nat} {dl : DlSchedRes} {ret : AllocOutcome}
    {g₁ g₂ : SfGrid} (run : DlRun s ttiRx s' dl ret g₁ g₂) :
    (s.rarDue ttiRx = none ∧ ret ≠ .success ∧ s'.pendingRars = s.pendingRars ∧
        g₁ = (s.afterSibs ttiRx).2) ∨
      ∃ rar later info more alloc, s.rarDue ttiRx = some rar ∧ s.pendingRars = rar :: later ∧
        rar.msg3Grant = info :: more ∧ SfGrid.AnswersWith rar info alloc ∧
        s'.sib1SfIdx = s.sib1SfIdx ∧ (s.dlGrid ttiRx).rarTtiFree = true ∧
        ((more = [] ∧ ret = .success ∧ s'.pendingRars = later ∧
            g₁ = ((s.dlGrid ttiRx).sendRar alloc).reserveRar) ∨
          (more ≠ [] ∧ ret = .dciCollision ∧
            s'.pendingRars = { rar with msg3Grant := more } :: later ∧
            g₁ = (s.dlGrid ttiRx).sendRar alloc)) := by
  rcases SfGrid.raDlSched_cases run.rar with
    ⟨notFree, ret, pending, rfl⟩ | ⟨rar, later, info, more, alloc, pending, free, grants, answers, sent⟩
  · exact .inl ⟨rarDue_of_not_free notFree, ret, pending, rfl⟩
  · right
    obtain ⟨unchanged, noSib1, noSib2⟩ := afterSibs_of_free free
    have counter := run.sib1SfIdx
    rw [unchanged] at free sent counter
    have due : s.rarDue ttiRx = some rar := by
      simp [rarDue, free, noSib1, noSib2, pending]
    exact ⟨rar, later, info, more, alloc, due, pending, grants, answers, counter, free, sent⟩

/-- The users phase keeps what was reserved and what was sent before it. -/
theorem DlRun.users_keep {s s' : Sched} {ttiRx : Nat} {dl : DlSchedRes} {ret : AllocOutcome}
    {g₁ g₂ : SfGrid} (run : DlRun s ttiRx s' dl ret g₁ g₂) (fresh : g₁.sf.dataAllocs = []) :
    g₂.sf.rarAllocs = g₁.sf.rarAllocs ∧ g₂.sf.bcAllocs = g₁.sf.bcAllocs ∧
      (∀ i, g₁.dlSchedTable i = true → g₂.dlSchedTable i = true) ∧
      ((g₁.dlPick = none ∧ g₂.dlSchedTable = g₁.dlSchedTable ∧ g₂.sf.dataAllocs = []) ∨
        ∃ user ue npdschTtis, g₁.dlPick = some user ∧ g₁.ueDb.find? user = some ue ∧
          g₁.dlData ue = some npdschTtis ∧
          g₂.dlSchedTable = (g₁.served user ue npdschTtis).dlSchedTable ∧
          g₂.sf.dataAllocs = [⟨user, SfGrid.iSfFor ue.getRequestedDlBytes.2, npdschTtis⟩]) := by
  obtain ⟨ul, users⟩ := run.users
  rcases SfGrid.schedUsersDl_cases (g := { g₁ with ulSchedTable := ul }) fresh users with
    ⟨none, rfl⟩ | ⟨user, ue, npdschTtis, picked, found, placed, rfl⟩
  · exact ⟨rfl, rfl, fun _ marked => marked, .inl ⟨none, rfl, fresh⟩⟩
  · refine ⟨rfl, rfl, ?_, .inr ⟨user, ue, npdschTtis, picked, found, placed, rfl, ?_⟩⟩
    · intro i marked
      apply Wheel.mark_of_marked
      by_cases own : i = g₁.sf.ttiParams.ttiTxDl
      · rw [own]; exact Wheel.set_same _ _ _
      · rw [Wheel.set_other _ _ own]; exact marked
    · simp [SfGrid.served, fresh]

/-- Broadcast and random access leave the TTI open to the UEs. -/
def usersOpen (s : Sched) (ttiRx : Nat) : Bool :=
  (s.dlGrid ttiRx).dlUserTtiFree && !(s.dlGrid ttiRx).isSib2Tti &&
    (s.rarDue ttiRx).all fun rar => rar.msg3Grant.length != 1

/-- The UE that the downlink run for `ttiRx` serves. -/
def dlUserDue (s : Sched) (ttiRx : Nat) : Option Nat :=
  if (s.dlGrid ttiRx).isSib2Tti then none
  else
    match s.rarDue ttiRx with
    | none => (s.dlGrid ttiRx).dlPick
    | some rar => if rar.msg3Grant.length = 1 then none else (s.dlGrid ttiRx).dlPick

section

variable {s s' : Sched} {ttiRx : Nat} {dl : DlSchedRes} {ret : AllocOutcome} {g₁ g₂ : SfGrid}

/-- Broadcast and random access leave the UEs and the throttle as they are. -/
theorem DlRun.untouched (run : DlRun s ttiRx s' dl ret g₁ g₂) :
    g₁.ueDb = s.ueDb ∧ g₁.lastAlloc = s.lastAlloc ∧ g₁.allocActive = s.allocActive := by
  rcases run.rar_cases with
    ⟨-, -, -, rfl⟩ | ⟨rar, later, info, more, alloc, -, -, -, -, -, -, ⟨-, -, -, rfl⟩ | ⟨-, -, -, rfl⟩⟩
  · rw [afterSibs, ← dlGrid]
    rcases SfGrid.allocSibs_cases s.sib1SfIdx (s.dlGrid ttiRx) with
      ⟨-, -, sent⟩ | ⟨-, -, -, sent⟩ | ⟨-, sent⟩ <;> rw [sent] <;> exact ⟨rfl, rfl, rfl⟩
  · exact ⟨rfl, rfl, rfl⟩
  · exact ⟨rfl, rfl, rfl⟩

theorem DlRun.ueDb (run : DlRun s ttiRx s' dl ret g₁ g₂) : g₁.ueDb = s.ueDb := run.untouched.1

theorem DlRun.throttle (run : DlRun s ttiRx s' dl ret g₁ g₂) :
    g₁.lastAlloc = s.lastAlloc ∧ g₁.allocActive = s.allocActive := run.untouched.2

theorem DlRun.frame (run : DlRun s ttiRx s' dl ret g₁ g₂) : SfGrid.DlFrame (s.dlGrid ttiRx) g₁ :=
  (SfGrid.allocSibs_dlFrame s.sib1SfIdx (s.dlGrid ttiRx)).trans (SfGrid.raDlSched_dlFrame run.rar)

theorem DlRun.usersOpen (run : DlRun s ttiRx s' dl ret g₁ g₂) :
    g₁.dlUserTtiFree = s.usersOpen ttiRx := by
  unfold Sched.usersOpen
  rcases run.rar_cases with
    ⟨notDue, -, -, rfl⟩ | ⟨rar, later, info, more, alloc, due, -, grants, -, -, free, last | part⟩
  · rw [notDue, afterSibs, ← dlGrid]
    rcases SfGrid.allocSibs_cases s.sib1SfIdx (s.dlGrid ttiRx) with
      ⟨sib1, -, sent⟩ | ⟨-, sib2, -, sent⟩ | ⟨blocked, same⟩
    · rw [sent, SfGrid.not_dlUserTtiFree (.inl (SfGrid.sendSib1_taken _ _)),
        SfGrid.not_dlUserTtiFree (.inr sib1)]
      rfl
    · rw [sent, SfGrid.not_dlUserTtiFree (.inl (SfGrid.sendSib2_taken sib2)), sib2]
      simp
    · rw [same]
      cases sib2 : (s.dlGrid ttiRx).isSib2Tti with
      | true =>
          rw [SfGrid.not_dlUserTtiFree (.inl (blocked (.inr sib2)))]
          rfl
      | false => simp
  · obtain ⟨rfl, -, -, rfl⟩ := last
    rw [SfGrid.not_dlUserTtiFree (.inl (SfGrid.reserveRar_marks _).1), due]
    simp [grants]
  · obtain ⟨several, -, -, rfl⟩ := part
    have noSib2 : (s.dlGrid ttiRx).isSib2Tti = false := by
      simp only [rarDue] at due
      split at due
      · rename_i conditions
        simp only [Bool.and_eq_true, Bool.not_eq_true'] at conditions
        exact conditions.2
      · cases due
    have many : (rar.msg3Grant.length != 1) = true := by
      rw [grants, List.length_cons, bne_iff_ne]
      have := List.length_pos_iff.mpr several
      omega
    rw [due, noSib2, Option.all_some, many, Bool.and_true, Bool.not_false, Bool.and_true]
    rfl

/-- The users phase finds the UEs, the throttle and the turns as they were. -/
theorem DlRun.turns (run : DlRun s ttiRx s' dl ret g₁ g₂) : SfGrid.SameTurns (s.dlGrid ttiRx) g₁ := by
  have ues : g₁.ueDb = (s.dlGrid ttiRx).ueDb := run.ueDb
  have params : g₁.sf.ttiParams = (s.dlGrid ttiRx).sf.ttiParams := run.frame.ttiParams
  have allocs : g₁.sf.dataAllocs = (s.getSfSched ttiRx).dataAllocs := ctrl_dataAllocs run.rar
  change _ = (s.dlGrid ttiRx).sf.dataAllocs at allocs
  have last : g₁.lastAlloc = (s.dlGrid ttiRx).lastAlloc := run.throttle.1
  have order : g₁.dlOrder = (s.dlGrid ttiRx).dlOrder := by
    simp only [SfGrid.dlOrder, visitOrder, ues, params]
  refine ⟨order, ?_, ?_, ?_, run.throttle.2⟩
  · simp only [SfGrid.dlOpen, order, SfSched.isDlAlloc, allocs]
  · funext user
    simp only [SfGrid.wantsDl, ues]
  · simp only [SfGrid.throttleOver, params, last]

theorem dlUserDue_eq (s : Sched) (ttiRx : Nat) :
    s.dlUserDue ttiRx =
      if s.usersOpen ttiRx then (s.dlGrid ttiRx).dlTurns.find? (s.dlGrid ttiRx).wantsDl else none := by
  unfold dlUserDue Sched.usersOpen SfGrid.dlPick
  cases (s.dlGrid ttiRx).isSib2Tti with
  | true => simp
  | false =>
      cases s.rarDue ttiRx with
      | none => simp
      | some rar =>
          by_cases last : rar.msg3Grant.length = 1
          · simp [last]
          · simp [last]

theorem DlRun.pick (run : DlRun s ttiRx s' dl ret g₁ g₂) : g₁.dlPick = s.dlUserDue ttiRx := by
  rw [SfGrid.dlPick, run.usersOpen, run.turns.dlTurns, run.turns.wantsDl, dlUserDue_eq]

theorem DlRun.ttiParams (run : DlRun s ttiRx s' dl ret g₁ g₂) :
    g₁.sf.ttiParams = (s.getSfSched ttiRx).ttiParams ∧
      g₂.sf.ttiParams = (s.getSfSched ttiRx).ttiParams := by
  have first := run.frame.ttiParams
  obtain ⟨ul, users⟩ := run.users
  exact ⟨first, (SfGrid.schedUsersDlLoop_dlFrame users).ttiParams.trans first⟩

theorem DlRun.ownSf (run : DlRun s ttiRx s' dl ret g₁ g₂) : s'.getSfSched ttiRx = g₂.sf := by
  rw [getSfSched_of_key, run.own]
  rw [run.own, run.ttiParams.2, getSfSched_ttiRx]

/-- Until the users have their turn, the subframe holds no data. -/
theorem DlRun.fresh (run : DlRun s ttiRx s' dl ret g₁ g₂)
    (unscheduled : (s.getSfSched ttiRx).NoDl) : g₁.sf.dataAllocs = [] :=
  (ctrl_dataAllocs run.rar).trans unscheduled.dataAllocs

end

end Sched

end SonicaEnb
