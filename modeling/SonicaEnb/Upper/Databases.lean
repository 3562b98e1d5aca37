import SonicaEnb.Upper.Stack

/-! # The UE databases of the layers

RRC, RLC, PDCP and the scheduler know the same UEs, and MAC knows these and the
ones whose preamble was detected but whose task has not run.
-/

namespace SonicaEnb

/-- The events of the stack, and two calls that reach it by its interfaces: any command for the
    queue of RRC, and `ue_set_crnti` from a UE object of RRC. -/
inductive StackInput where
  | event (e : StackEvent)
  | command (p : RrcPdu)
  | ueSetCrnti (tempCrnti crnti : Nat) (given : Bool)
  deriving Repr, DecidableEq

namespace Stack

def feed (s : Stack) : StackInput → Option Stack
  | .event e => s.handle e
  | .command p => some (s.push p)
  | .ueSetCrnti tempCrnti crnti given =>
      match s.rrcUsers.find? crnti with
      | none => none
      | some _ => some { s with mac := (s.mac.ueSetCrnti tempCrnti crnti given).2 }

/-- The key sets agree. -/
structure Consistent (s : Stack) : Prop where
  rlc : s.rlcUsers = s.rrcUsers.keySet
  pdcp : s.pdcpUsers = s.rrcUsers.keySet
  sched : s.mac.schedUes = s.rrcUsers.keySet
  mac : s.mac.ueDb.keySet = s.rrcUsers.keySet ∪ s.rachTasks.toFinset
  queued : Disjoint s.rrcUsers.keySet s.rachTasks.toFinset

/-- What keeps them so: no RNTI waits twice, and all are ordinary ones. -/
structure Joining (s : Stack) : Prop extends Consistent s where
  once : s.rachTasks.Nodup
  plain : ∀ rnti ∈ s.rachTasks, rnti < 60000
  next : s.mac.lastRnti < 60000

/-- The RNTI that the event takes is not in use. -/
def Fresh (s : Stack) (i : StackInput) : Prop :=
  i = .event .rachDetected → s.mac.ueDb.find? s.mac.lastRnti = none

theorem joining_init : Joining {} where
  rlc := rfl
  pdcp := rfl
  sched := rfl
  mac := rfl
  queued := Finset.disjoint_empty_left _
  once := List.nodup_nil
  plain := nofun
  next := by decide

/-- Nothing but the databases and the queue of tasks matters. -/
theorem Joining.congr {s s' : Stack} (joining : s.Joining)
    (mac : s'.mac.ueDb.keySet = s.mac.ueDb.keySet) (sched : s'.mac.schedUes = s.mac.schedUes)
    (next : s'.mac.lastRnti = s.mac.lastRnti) (rrc : s'.rrcUsers.keySet = s.rrcUsers.keySet)
    (rlc : s'.rlcUsers = s.rlcUsers) (pdcp : s'.pdcpUsers = s.pdcpUsers)
    (tasks : s'.rachTasks = s.rachTasks) : s'.Joining where
  rlc := by rw [rlc, rrc, joining.rlc]
  pdcp := by rw [pdcp, rrc, joining.pdcp]
  sched := by rw [sched, rrc, joining.sched]
  mac := by rw [mac, rrc, tasks, joining.mac]
  queued := by rw [rrc, tasks]; exact joining.queued
  once := by rw [tasks]; exact joining.once
  plain := by rw [tasks]; exact joining.plain
  next := by rw [next]; exact joining.next

theorem Joining.push {s : Stack} (joining : s.Joining) (p : RrcPdu) : (s.push p).Joining :=
  joining.congr rfl rfl rfl rfl rfl rfl rfl

theorem Joining.rachDetected {s : Stack} (joining : s.Joining)
    (fresh : s.mac.ueDb.find? s.mac.lastRnti = none) : s.rachDetected.Joining := by
  have unknown : s.mac.lastRnti ∉ s.mac.ueDb.keySet := by
    rw [SortedMap.mem_keySet, fresh]
    simp
  rw [joining.mac, Finset.mem_union, not_or, List.mem_toFinset] at unknown
  obtain ⟨notUser, notQueued⟩ := unknown
  have tasks : s.rachDetected.rachTasks = s.rachTasks ++ [s.mac.lastRnti] := rfl
  have known : s.rachDetected.mac.ueDb.keySet = insert s.mac.lastRnti s.mac.ueDb.keySet := by
    ext rnti
    exact SortedMap.mem_keySet_insert.trans (Finset.mem_insert).symm
  refine ⟨⟨joining.rlc, joining.pdcp, joining.sched, ?_, ?_⟩, ?_, ?_, ?_⟩
  · rw [known, joining.mac, tasks]
    ext rnti
    simp only [Finset.mem_insert, Finset.mem_union, List.mem_toFinset, List.mem_append,
      List.mem_singleton]
    tauto
  · rw [tasks, Finset.disjoint_left]
    intro rnti user member
    rcases List.mem_append.mp (List.mem_toFinset.mp member) with earlier | now
    · exact Finset.disjoint_left.mp joining.queued user (List.mem_toFinset.mpr earlier)
    · exact notUser (List.mem_singleton.mp now ▸ user)
  · rw [tasks]
    exact List.nodup_append.mpr ⟨joining.once, List.nodup_singleton _, by
      rintro rnti member other here rfl
      exact notQueued (List.mem_singleton.mp here ▸ member)⟩
  · rw [tasks]
    intro rnti member
    rcases List.mem_append.mp member with earlier | now
    · exact joining.plain rnti earlier
    · rw [List.mem_singleton.mp now]
      exact joining.next
  · show (if s.mac.lastRnti + 1 ≥ 60000 then 4097 else s.mac.lastRnti + 1) < 60000
    split <;> omega

theorem Joining.rachTask {s : Stack} {rnti : Nat} {rest : List Nat} (joining : s.Joining)
    (tasks : s.rachTasks = rnti :: rest) : ({ s with rachTasks := rest }.rachTask rnti).Joining := by
  have waiting : rnti ∈ s.rachTasks.toFinset := by simp [tasks]
  have notUser : rnti ∉ s.rrcUsers.keySet := Finset.disjoint_right.mp joining.queued waiting
  have absent : s.rrcUsers.find? rnti = none := by
    simpa [SortedMap.mem_keySet] using notUser
  have ordinary : rnti ≠ mRnti := by
    have below := joining.plain rnti (by simp [tasks])
    rintro rfl
    exact absurd below (by decide)
  have once := joining.once
  rw [tasks] at once
  obtain ⟨notAgain, restOnce⟩ := List.nodup_cons.mp once
  have next : { s with rachTasks := rest }.rachTask rnti =
      { s with
        rachTasks := rest
        mac := s.mac.schedUeCfg rnti
        rrcUsers := s.rrcUsers.insert rnti {}
        rlcUsers := insert rnti s.rlcUsers
        pdcpUsers := insert rnti s.pdcpUsers } := by
    simp [Stack.rachTask, addUser, absent, ordinary]
  have users : (s.rrcUsers.insert rnti {}).keySet = insert rnti s.rrcUsers.keySet := by
    ext other
    exact SortedMap.mem_keySet_insert.trans Finset.mem_insert.symm
  rw [next]
  refine ⟨⟨?_, ?_, ?_, ?_, ?_⟩, restOnce, ?_, joining.next⟩
  · simp only [users, joining.rlc]
  · simp only [users, joining.pdcp]
  · simp only [users, MacDb.schedUeCfg, joining.sched]
  · simp only [users, MacDb.schedUeCfg, joining.mac, tasks]
    ext other
    simp only [Finset.mem_insert, Finset.mem_union, List.mem_toFinset, List.mem_cons]
    tauto
  · simp only [users]
    rw [Finset.disjoint_left]
    intro other user member
    rcases Finset.mem_insert.mp user with rfl | earlier
    · exact notAgain (List.mem_toFinset.mp member)
    · refine Finset.disjoint_left.mp joining.queued earlier ?_
      rw [tasks, List.mem_toFinset]
      exact List.mem_cons_of_mem rnti (List.mem_toFinset.mp member)
  · intro other member
    exact joining.plain other (by rw [tasks]; exact List.mem_cons_of_mem rnti member)

/-- A UE of RRC is in MAC and in the scheduler, so configuring it adds nothing. -/
theorem Joining.ueSetCrnti {s : Stack} {crnti : Nat} (joining : s.Joining)
    (user : crnti ∈ s.rrcUsers.keySet) (tempCrnti : Nat) (given : Bool) :
    { s with mac := (s.mac.ueSetCrnti tempCrnti crnti given).2 }.Joining := by
  have scheduled : insert crnti s.mac.schedUes = s.mac.schedUes :=
    Finset.insert_eq_of_mem (joining.sched ▸ user)
  have same : (s.mac.ueSetCrnti tempCrnti crnti given).2 = s.mac := by
    rw [MacDb.ueSetCrnti_snd]
    unfold MacDb.ueCfg
    cases s.mac.ueDb.find? crnti with
    | none => rfl
    | some _ => cases given <;> simp [MacDb.schedUeCfg, scheduled]
  rw [same]
  exact joining

theorem Joining.remUser {s : Stack} {rnti : Nat} (joining : s.Joining)
    (user : rnti ∈ s.rrcUsers.keySet) : (s.remUser rnti).Joining := by
  have known : rnti ∈ s.mac.ueDb.keySet := by
    rw [joining.mac]
    exact Finset.mem_union_left _ user
  obtain ⟨ue, found⟩ := Option.isSome_iff_exists.mp (SortedMap.mem_keySet.mp known)
  have notQueued : rnti ∉ s.rachTasks.toFinset := Finset.disjoint_left.mp joining.queued user
  have mac : s.mac.ueRem rnti =
      { s.mac with ueDb := s.mac.ueDb.erase rnti, schedUes := s.mac.schedUes.erase rnti } := by
    simp [MacDb.ueRem, found]
  have users : (s.rrcUsers.erase rnti).keySet = s.rrcUsers.keySet.erase rnti := by
    ext other
    exact SortedMap.mem_keySet_erase.trans Finset.mem_erase.symm
  have entries : (s.mac.ueDb.erase rnti).keySet = s.mac.ueDb.keySet.erase rnti := by
    ext other
    exact SortedMap.mem_keySet_erase.trans Finset.mem_erase.symm
  refine ⟨⟨?_, ?_, ?_, ?_, ?_⟩, joining.once, joining.plain, ?_⟩
  · simp only [Stack.remUser, users, joining.rlc]
  · simp only [Stack.remUser, users, joining.pdcp]
  · simp only [Stack.remUser, users, mac, joining.sched]
  · simp only [Stack.remUser, users, mac, entries, joining.mac]
    rw [Finset.erase_union_distrib, Finset.erase_eq_of_notMem notQueued]
  · simp only [Stack.remUser, users]
    exact Finset.disjoint_of_subset_left (Finset.erase_subset rnti _) joining.queued
  · simp only [Stack.remUser, mac]
    exact joining.next

theorem Joining.ttiClockTurn {s : Stack} (joining : s.Joining) (p : RrcPdu) :
    (s.ttiClockTurn p).Joining := by
  unfold Stack.ttiClockTurn
  split
  · exact joining
  · rename_i ue found
    have user : p.rnti ∈ s.rrcUsers.keySet := by
      rw [SortedMap.mem_keySet, found]
      rfl
    obtain ⟨rnti, cmd⟩ := p
    cases cmd with
    | ulCcch msg =>
        cases msg with
        | rrcConnRequest hasTmsi =>
            exact (joining.ueSetCrnti user rnti true).congr rfl rfl rfl (by simp [handleCmd, handleRrcConReq])
              rfl rfl rfl
        | other => exact joining
    | ulDcch msg =>
        cases msg with
        | rrcConnSetupComplete => exact joining.congr rfl rfl rfl rfl rfl rfl rfl
        | ulInfoTransfer => exact joining
        | other => exact joining
    | remUser => exact joining.remUser user
    | relUser => exact joining.push _
    | invalidBearer => exact joining

/-- A message from the MME changes S1AP and the queue of RRC. -/
theorem Joining.handleMme {s s' : Stack} {msg : MmeMsg} (joining : s.Joining)
    (handled : s.handleMme msg = some s') : s'.Joining := by
  cases msg with
  | ueMsg enbId mmeId =>
      cases handled
      exact joining.congr rfl rfl rfl rfl rfl rfl rfl
  | releasePair enbId mmeId =>
      simp only [Stack.handleMme] at handled
      split at handled
      · cases handled
        exact joining
      · cases handled
        exact joining.congr rfl rfl rfl rfl rfl rfl rfl
  | releaseMmeId mmeId enbId =>
      simp only [Stack.handleMme] at handled
      split at handled
      · split at handled
        · cases handled
        · split at handled
          · cases handled
            exact joining.congr rfl rfl rfl rfl rfl rfl rfl
          · cases handled
      · cases handled
        exact joining

theorem Joining.feed {s s' : Stack} {i : StackInput} (joining : s.Joining)
    (fed : s.feed i = some s') (fresh : s.Fresh i) : s'.Joining := by
  cases i with
  | event e =>
      cases e with
      | rachDetected =>
          cases fed
          exact joining.rachDetected (fresh rfl)
      | rachTask =>
          simp only [Stack.feed, Stack.handle] at fed
          split at fed
          · cases fed
          · rename_i rnti rest tasks
            cases fed
            exact joining.rachTask tasks
      | ulMsg rnti msg =>
          cases fed
          exact joining.push _
      | ttiClockTurn =>
          simp only [Stack.feed, Stack.handle] at fed
          split at fed
          · cases fed
          · rename_i p rest queue
            cases fed
            have popped : { s with rxPduQueue := rest }.Joining :=
              joining.congr rfl rfl rfl rfl rfl rfl rfl
            exact popped.ttiClockTurn p
      | mme msg => exact joining.handleMme fed
  | command p =>
      cases fed
      exact joining.push p
  | ueSetCrnti tempCrnti crnti given =>
      simp only [Stack.feed] at fed
      split at fed
      · cases fed
      · rename_i ue found
        cases fed
        refine joining.ueSetCrnti ?_ tempCrnti given
        rw [SortedMap.mem_keySet, found]
        rfl

end Stack

/-- In every run in which no RNTI is given away while it is in use, the databases of all layers stay
    consistent. -/
theorem databases_consistent {inputs : List StackInput} {last : Stack}
    {log : List (Events.Step Stack StackInput)}
    (ran : Events.run Stack.feed {} inputs = some (last, log))
    (fresh : ∀ o ∈ log, o.event = .event .rachDetected →
      o.pre.mac.ueDb.find? o.pre.mac.lastRnti = none) :
    last.Consistent ∧ ∀ o ∈ log, o.post.Consistent := by
  have kept := Events.run_keeps (I := Stack.Joining) (C := Stack.Fresh)
    (fun _ _ _ before fed ok => before.feed fed ok) Stack.joining_init ran fresh
  exact ⟨kept.1.toConsistent, fun o member => (kept.2 o member).2.toConsistent⟩

/-- A UE joins, asks for a connection and is released while a second one waits to join. -/
theorem one_leaves_while_one_joins :
    ∃ last log,
      Events.run Stack.feed {}
        [.event .rachDetected, .event .rachTask, .event (.ulMsg 4097 (.ccch (.rrcConnRequest true))),
          .event .ttiClockTurn, .event .rachDetected, .command ⟨4097, .relUser⟩,
          .event .ttiClockTurn, .event .ttiClockTurn] = some (last, log) ∧
      (last.Consistent ∧ ∀ o ∈ log, o.post.Consistent) ∧ last.mac.ueDb.keySet = {4098} := by
  have ran : Events.run Stack.feed {}
      [.event .rachDetected, .event .rachTask, .event (.ulMsg 4097 (.ccch (.rrcConnRequest true))),
        .event .ttiClockTurn, .event .rachDetected, .command ⟨4097, .relUser⟩,
        .event .ttiClockTurn, .event .ttiClockTurn] = some (_, _) := rfl
  refine ⟨_, _, ran, databases_consistent ran ?_, by decide +kernel⟩
  intro o member _
  simp only [List.mem_cons, List.not_mem_nil, or_false] at member
  rcases member with rfl | rfl | rfl | rfl | rfl | rfl | rfl | rfl <;> rfl

end SonicaEnb
