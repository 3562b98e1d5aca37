import SonicaEnb.Upper.Stack

/-! # S1AP contexts and RRC users

A context enters S1AP when RRC handles an RRCConnectionSetupComplete, and leaves it
when the MME releases it. The release then travels through the queue of RRC, twice,
before the user is removed.
-/

namespace SonicaEnb

namespace S1apUsers

/-- Some context belongs to `rnti`. -/
def Holds (s : S1apUsers) (rnti : Nat) : Prop :=
  ∃ enbId ctxt, s.users.find? enbId = some ctxt ∧ ctxt.rnti = rnti

/-- No two contexts belong to one RNTI. -/
def Unique (s : S1apUsers) : Prop :=
  ∀ i j a b, s.users.find? i = some a → s.users.find? j = some b → a.rnti = b.rnti → i = j

theorem hasRnti_of_holds {s : S1apUsers} {rnti : Nat} (valid : rnti ≠ invalidRnti)
    (holds : s.Holds rnti) : s.hasRnti rnti = true := by
  obtain ⟨enbId, ctxt, found, rfl⟩ := holds
  simp only [hasRnti, Bool.and_eq_true, decide_eq_true_eq, List.any_eq_true]
  exact ⟨valid, _, SortedMap.mem_entries_of_find? found, rfl⟩

/-- A new UE changes nothing, or has a context of its own that no other had. -/
theorem initialUe_cases (s : S1apUsers) {rnti : Nat} (valid : rnti ≠ invalidRnti) (hasTmsi : Bool) :
    (s.initialUe rnti hasTmsi).users = s.users ∨
      ¬ s.Holds rnti ∧ (s.initialUe rnti hasTmsi).users =
        s.users.insert s.nextEnbUeS1apId { rnti } := by
  by_cases present : s.takeId.hasRnti rnti = true
  · have kept : s.initialUe rnti hasTmsi = s.takeId := by
      cases hasTmsi <;> simp [initialUe, addUser, present]
    exact .inl (by rw [kept]; rfl)
  · have absent : ¬ s.Holds rnti := fun holds => present (hasRnti_of_holds (s := s.takeId) valid holds)
    have added : s.initialUe rnti hasTmsi = s.takeId.addUser s.nextEnbUeS1apId { rnti } := by
      simp [initialUe, present]
    rw [added]
    unfold addUser
    simp only [present]
    split
    · exact .inl rfl
    · split
      · exact .inl rfl
      · split
        · exact .inl rfl
        · exact .inr ⟨absent, rfl⟩

theorem findS1apmsgUser_rnti (s : S1apUsers) (enbId mmeId : Nat) {i : Nat} {ctxt : UeCtxt}
    (found : (s.findS1apmsgUser enbId mmeId).2.users.find? i = some ctxt) :
    ∃ old, s.users.find? i = some old ∧ old.rnti = ctxt.rnti := by
  unfold findS1apmsgUser at found
  split at found
  · exact ⟨ctxt, found, rfl⟩
  · rename_i before here
    simp only [SortedMap.find?_insert] at found
    split at found
    · rename_i same
      cases found
      exact ⟨before, same ▸ here, rfl⟩
    · exact ⟨ctxt, found, rfl⟩

end S1apUsers

namespace Stack

/-- A command that ends with the removal of `rnti` waits in the queue. -/
def Leaving (s : Stack) (rnti : Nat) : Prop :=
  ⟨rnti, .relUser⟩ ∈ s.rxPduQueue ∨ ⟨rnti, .remUser⟩ ∈ s.rxPduQueue

structure Tracked (s : Stack) : Prop where
  users : ∀ rnti, s.s1ap.Holds rnti → rnti ∈ s.rrcUsers.keySet
  staying : ∀ rnti, s.s1ap.Holds rnti → ¬ s.Leaving rnti
  unique : s.s1ap.Unique
  valid : ∀ rnti ∈ s.rrcUsers.keySet, rnti ≠ invalidRnti
  waiting : ∀ rnti ∈ s.rachTasks, rnti ≠ invalidRnti
  next : s.mac.lastRnti ≠ invalidRnti

/-- An RRCConnectionSetupComplete of a UE is not handled while the UE is about to be removed. -/
def Undisturbed (s : Stack) (e : StackEvent) : Prop :=
  ∀ rnti rest, e = .ttiClockTurn →
    s.rxPduQueue = ⟨rnti, .ulDcch .rrcConnSetupComplete⟩ :: rest →
    rnti ∈ s.rrcUsers.keySet → ¬ s.Leaving rnti

theorem tracked_init : Tracked {} where
  users := by rintro rnti ⟨enbId, ctxt, found, -⟩; cases found
  staying := by rintro rnti ⟨enbId, ctxt, found, -⟩; cases found
  unique := by intro i j a b found; cases found
  valid := by intro rnti member; cases member
  waiting := nofun
  next := by decide

theorem leaving_push {s : Stack} {p : RrcPdu} {rnti : Nat} (leaving : (s.push p).Leaving rnti) :
    s.Leaving rnti ∨ p = ⟨rnti, .relUser⟩ ∨ p = ⟨rnti, .remUser⟩ := by
  simp only [Leaving, push, List.mem_append, List.mem_singleton] at leaving
  rcases leaving with (earlier | now) | (earlier | now)
  · exact .inl (.inl earlier)
  · exact .inr (.inl now.symm)
  · exact .inl (.inr earlier)
  · exact .inr (.inr now.symm)

theorem Tracked.push {s : Stack} {p : RrcPdu} (tracked : s.Tracked)
    (harmless : ∀ rnti, s.s1ap.Holds rnti → p ≠ ⟨rnti, .relUser⟩ ∧ p ≠ ⟨rnti, .remUser⟩) :
    (s.push p).Tracked where
  users := tracked.users
  staying := by
    intro rnti holds leaving
    rcases leaving_push leaving with earlier | rel | rem
    · exact tracked.staying rnti holds earlier
    · exact (harmless rnti holds).1 rel
    · exact (harmless rnti holds).2 rem
  unique := tracked.unique
  valid := tracked.valid
  waiting := tracked.waiting
  next := tracked.next

theorem Tracked.pop {s : Stack} {p : RrcPdu} {rest : List RrcPdu} (tracked : s.Tracked)
    (queue : s.rxPduQueue = p :: rest) : { s with rxPduQueue := rest }.Tracked where
  users := tracked.users
  staying := by
    intro rnti holds leaving
    refine tracked.staying rnti holds ?_
    unfold Leaving
    rw [queue]
    exact leaving.imp (List.mem_cons_of_mem p) (List.mem_cons_of_mem p)
  unique := tracked.unique
  valid := tracked.valid
  waiting := tracked.waiting
  next := tracked.next

theorem Tracked.rachDetected {s : Stack} (tracked : s.Tracked) : s.rachDetected.Tracked where
  users := tracked.users
  staying := tracked.staying
  unique := tracked.unique
  valid := tracked.valid
  waiting := by
    intro rnti member
    rcases List.mem_append.mp member with earlier | now
    · exact tracked.waiting rnti earlier
    · rw [List.mem_singleton.mp now]
      exact tracked.next
  next := by
    show (if s.mac.lastRnti + 1 ≥ 60000 then 4097 else s.mac.lastRnti + 1) ≠ invalidRnti
    unfold invalidRnti
    split <;> omega

theorem addUser_rrcUsers (s : Stack) (rnti other : Nat) :
    (other ∈ s.rrcUsers.keySet → other ∈ (s.addUser rnti).rrcUsers.keySet) ∧
      (other ∈ (s.addUser rnti).rrcUsers.keySet → other = rnti ∨ other ∈ s.rrcUsers.keySet) := by
  unfold addUser
  split
  · exact ⟨id, .inr⟩
  · simp only
    split
    · exact ⟨id, .inr⟩
    · rw [SortedMap.mem_keySet_insert]
      exact ⟨.inr, id⟩

theorem addUser_others (s : Stack) (rnti : Nat) :
    (s.addUser rnti).s1ap = s.s1ap ∧ (s.addUser rnti).rxPduQueue = s.rxPduQueue ∧
      (s.addUser rnti).rachTasks = s.rachTasks ∧ (s.addUser rnti).mac = s.mac := by
  unfold addUser
  split <;> simp

theorem Tracked.rachTask {s : Stack} {rnti : Nat} {rest : List Nat} (tracked : s.Tracked)
    (tasks : s.rachTasks = rnti :: rest) : ({ s with rachTasks := rest }.rachTask rnti).Tracked := by
  obtain ⟨s1ap, queue, waiting, mac⟩ :=
    addUser_others { s with rachTasks := rest, mac := s.mac.schedUeCfg rnti } rnti
  have users :=
    addUser_rrcUsers { s with rachTasks := rest, mac := s.mac.schedUeCfg rnti } rnti
  refine ⟨?_, ?_, ?_, ?_, ?_, ?_⟩
  · intro other holds
    rw [Stack.rachTask, s1ap] at holds
    exact (users other).1 (tracked.users other holds)
  · intro other holds leaving
    rw [Stack.rachTask, s1ap] at holds
    rw [Stack.rachTask, Leaving, queue] at leaving
    exact tracked.staying other holds leaving
  · rw [Stack.rachTask, s1ap]
    exact tracked.unique
  · intro other member
    rcases (users other).2 member with rfl | earlier
    · exact tracked.waiting other (by simp [tasks])
    · exact tracked.valid other earlier
  · intro other member
    rw [Stack.rachTask, waiting] at member
    exact tracked.waiting other (by rw [tasks]; exact List.mem_cons_of_mem rnti member)
  · rw [Stack.rachTask, mac]
    exact tracked.next

theorem Tracked.setupComplete {s : Stack} {rnti : Nat} {ue : RrcUe} (tracked : s.Tracked)
    (user : rnti ∈ s.rrcUsers.keySet) (staying : ¬ s.Leaving rnti) :
    (s.handleRrcConSetupComplete rnti ue).Tracked := by
  rcases s.s1ap.initialUe_cases (tracked.valid rnti user) ue.hasTmsi with same | ⟨absent, added⟩
  · have held {other : Nat} (holds : (s.handleRrcConSetupComplete rnti ue).s1ap.Holds other) :
        s.s1ap.Holds other := by
      obtain ⟨enbId, ctxt, found, named⟩ := holds
      exact ⟨enbId, ctxt, same ▸ found, named⟩
    refine ⟨fun other holds => tracked.users other (held holds),
      fun other holds => tracked.staying other (held holds), ?_, tracked.valid, tracked.waiting,
      tracked.next⟩
    intro i j a b foundA foundB
    exact tracked.unique i j a b (same ▸ foundA) (same ▸ foundB)
  · have cases {i : Nat} {ctxt : UeCtxt}
        (found : (s.handleRrcConSetupComplete rnti ue).s1ap.users.find? i = some ctxt) :
        i = s.s1ap.nextEnbUeS1apId ∧ ctxt.rnti = rnti ∨ s.s1ap.users.find? i = some ctxt := by
      rw [show (s.handleRrcConSetupComplete rnti ue).s1ap.users = _ from added,
        SortedMap.find?_insert] at found
      split at found
      · rename_i here
        cases found
        exact .inl ⟨here, rfl⟩
      · exact .inr found
    have held {other : Nat} (holds : (s.handleRrcConSetupComplete rnti ue).s1ap.Holds other) :
        other = rnti ∨ s.s1ap.Holds other := by
      obtain ⟨enbId, ctxt, found, named⟩ := holds
      rcases cases found with ⟨-, own⟩ | before
      · exact .inl (named.symm.trans own)
      · exact .inr ⟨enbId, ctxt, before, named⟩
    refine ⟨?_, ?_, ?_, tracked.valid, tracked.waiting, tracked.next⟩
    · intro other holds
      rcases held holds with rfl | before
      · exact user
      · exact tracked.users other before
    · intro other holds
      rcases held holds with rfl | before
      · exact staying
      · exact tracked.staying other before
    · intro i j a b foundA foundB same
      rcases cases foundA with ⟨here, ownA⟩ | beforeA
      · rcases cases foundB with ⟨there, -⟩ | beforeB
        · exact here.trans there.symm
        · exact absurd ⟨j, b, beforeB, same.symm.trans ownA⟩ absent
      · rcases cases foundB with ⟨-, ownB⟩ | beforeB
        · exact absurd ⟨i, a, beforeA, same.trans ownB⟩ absent
        · exact tracked.unique i j a b beforeA beforeB same

/-- Only users without a context are removed. -/
theorem Tracked.remUser {s : Stack} {rnti : Nat} (tracked : s.Tracked)
    (absent : ¬ s.s1ap.Holds rnti) : (s.remUser rnti).Tracked where
  users := by
    intro other holds
    refine SortedMap.mem_keySet_erase.mpr ⟨?_, tracked.users other holds⟩
    rintro rfl
    exact absent holds
  staying := tracked.staying
  unique := tracked.unique
  valid := fun other member => tracked.valid other (SortedMap.mem_keySet_erase.mp member).2
  waiting := tracked.waiting
  next := by
    have same : (s.mac.ueRem rnti).lastRnti = s.mac.lastRnti := by
      unfold MacDb.ueRem
      split <;> rfl
    exact same ▸ tracked.next

theorem Tracked.handleRrcConReq {s : Stack} (tracked : s.Tracked) (rnti : Nat) (hasTmsi : Bool) :
    (s.handleRrcConReq rnti hasTmsi).Tracked where
  users := by
    intro other holds
    simp only [Stack.handleRrcConReq, SortedMap.keySet_modify]
    exact tracked.users other holds
  staying := tracked.staying
  unique := tracked.unique
  valid := by
    simp only [Stack.handleRrcConReq, SortedMap.keySet_modify]
    exact tracked.valid
  waiting := tracked.waiting
  next := by
    have same : (s.mac.ueSetCrnti rnti rnti true).2.lastRnti = s.mac.lastRnti := by
      rw [MacDb.ueSetCrnti_snd]
      unfold MacDb.ueCfg
      split <;> rfl
    exact same ▸ tracked.next

theorem Tracked.ttiClockTurn {s : Stack} {p : RrcPdu} {rest : List RrcPdu} (tracked : s.Tracked)
    (queue : s.rxPduQueue = p :: rest) (undisturbed : s.Undisturbed .ttiClockTurn) :
    ({ s with rxPduQueue := rest }.ttiClockTurn p).Tracked := by
  have popped := tracked.pop queue
  -- a context is never held while the element at the front asks to release or remove its UE
  have gone (command : p.cmd = .relUser ∨ p.cmd = .remUser) : ¬ s.s1ap.Holds p.rnti := by
    intro holds
    refine tracked.staying p.rnti holds ?_
    unfold Leaving
    rw [queue]
    obtain ⟨rnti, cmd⟩ := p
    rcases command with rfl | rfl
    · exact .inl List.mem_cons_self
    · exact .inr List.mem_cons_self
  unfold Stack.ttiClockTurn
  split
  · exact popped
  · rename_i ue found
    have user : p.rnti ∈ s.rrcUsers.keySet := by
      rw [SortedMap.mem_keySet, show s.rrcUsers.find? p.rnti = some ue from found]
      rfl
    obtain ⟨rnti, cmd⟩ := p
    cases cmd with
    | ulCcch msg =>
        cases msg with
        | rrcConnRequest hasTmsi => exact popped.handleRrcConReq rnti hasTmsi
        | other => exact popped
    | ulDcch msg =>
        cases msg with
        | rrcConnSetupComplete =>
            refine popped.setupComplete user ?_
            intro leaving
            refine undisturbed rnti rest rfl queue user ?_
            unfold Leaving
            rw [queue]
            exact leaving.imp (List.mem_cons_of_mem _) (List.mem_cons_of_mem _)
        | ulInfoTransfer => exact popped
        | other => exact popped
    | remUser => exact popped.remUser (gone (.inr rfl))
    | relUser =>
        refine popped.push ?_
        intro other holds
        refine ⟨nofun, ?_⟩
        rintro ⟨rfl⟩
        exact gone (.inl rfl) holds
    | invalidBearer => exact popped

/-- A released context was the only one of its RNTI. -/
theorem Tracked.releaseUe {s : Stack} {enbId : Nat} {ctxt : UeCtxt} (tracked : s.Tracked)
    (found : s.s1ap.users.find? enbId = some ctxt) : (s.releaseUe enbId ctxt).Tracked := by
  have kept {i : Nat} {other : UeCtxt}
      (later : (s.s1ap.erase enbId).users.find? i = some other) :
      i ≠ enbId ∧ s.s1ap.users.find? i = some other := by
    simp only [S1apUsers.erase, SortedMap.find?_erase] at later
    split at later
    · cases later
    · rename_i different
      exact ⟨different, later⟩
  have held {rnti : Nat} (holds : (s.s1ap.erase enbId).Holds rnti) :
      rnti ≠ ctxt.rnti ∧ s.s1ap.Holds rnti := by
    obtain ⟨i, other, later, rfl⟩ := holds
    obtain ⟨different, before⟩ := kept later
    refine ⟨?_, i, other, before, rfl⟩
    intro same
    exact different (tracked.unique i enbId other ctxt before found same)
  have erased : { s with s1ap := s.s1ap.erase enbId }.Tracked := by
    refine ⟨fun rnti holds => tracked.users rnti (held holds).2,
      fun rnti holds => tracked.staying rnti (held holds).2, ?_, tracked.valid, tracked.waiting,
      tracked.next⟩
    intro i j a b foundA foundB
    exact tracked.unique i j a b (kept foundA).2 (kept foundB).2
  refine erased.push ?_
  intro rnti holds
  refine ⟨?_, nofun⟩
  rintro ⟨rfl⟩
  exact (held holds).1 rfl

theorem Tracked.findS1apmsgUser {s : Stack} (tracked : s.Tracked) (enbId mmeId : Nat) :
    { s with s1ap := (s.s1ap.findS1apmsgUser enbId mmeId).2 }.Tracked := by
  have held {rnti : Nat} (holds : (s.s1ap.findS1apmsgUser enbId mmeId).2.Holds rnti) :
      s.s1ap.Holds rnti := by
    obtain ⟨i, ctxt, found, rfl⟩ := holds
    obtain ⟨old, before, same⟩ := s.s1ap.findS1apmsgUser_rnti enbId mmeId found
    exact ⟨i, old, before, same⟩
  refine ⟨fun rnti holds => tracked.users rnti (held holds),
    fun rnti holds => tracked.staying rnti (held holds), ?_, tracked.valid, tracked.waiting,
    tracked.next⟩
  intro i j a b foundA foundB same
  obtain ⟨oldA, beforeA, sameA⟩ := s.s1ap.findS1apmsgUser_rnti enbId mmeId foundA
  obtain ⟨oldB, beforeB, sameB⟩ := s.s1ap.findS1apmsgUser_rnti enbId mmeId foundB
  exact tracked.unique i j oldA oldB beforeA beforeB (sameA.trans (same.trans sameB.symm))

theorem Tracked.handleMme {s s' : Stack} {msg : MmeMsg} (tracked : s.Tracked)
    (handled : s.handleMme msg = some s') : s'.Tracked := by
  cases msg with
  | ueMsg enbId mmeId =>
      cases handled
      exact tracked.findS1apmsgUser enbId mmeId
  | releasePair enbId mmeId =>
      have renamed := tracked.findS1apmsgUser enbId mmeId
      simp only [Stack.handleMme] at handled
      split at handled
      · cases handled
        exact tracked
      · rename_i ctxt s1ap found
        cases handled
        rw [found] at renamed
        refine renamed.releaseUe ?_
        unfold S1apUsers.findS1apmsgUser at found
        split at found
        · cases found
        · cases found
          simp [SortedMap.find?_insert]
  | releaseMmeId mmeId enbId =>
      simp only [Stack.handleMme] at handled
      split at handled
      · split at handled
        · cases handled
        · rename_i ctxt found
          split at handled
          · cases handled
            exact tracked.releaseUe found
          · cases handled
      · cases handled
        exact tracked

theorem Tracked.handle {s s' : Stack} {e : StackEvent} (tracked : s.Tracked)
    (handled : s.handle e = some s') (undisturbed : s.Undisturbed e) : s'.Tracked := by
  cases e with
  | rachDetected =>
      cases handled
      exact tracked.rachDetected
  | rachTask =>
      simp only [Stack.handle] at handled
      split at handled
      · cases handled
      · rename_i rnti rest tasks
        cases handled
        exact tracked.rachTask tasks
  | ulMsg rnti msg =>
      cases handled
      refine tracked.push ?_
      intro other holds
      cases msg <;> exact ⟨nofun, nofun⟩
  | ttiClockTurn =>
      simp only [Stack.handle] at handled
      split at handled
      · cases handled
      · rename_i p rest queue
        cases handled
        exact tracked.ttiClockTurn queue undisturbed
  | mme msg => exact tracked.handleMme handled

end Stack

/-- In every run in which no RRCConnectionSetupComplete is handled for a UE whose release or removal
    waits in the queue of RRC, every S1AP context belongs to an RRC user. -/
theorem contexts_have_users {events : List StackEvent} {last : Stack}
    {log : List (Events.Step Stack StackEvent)}
    (ran : Events.run Stack.handle {} events = some (last, log))
    (undisturbed : ∀ o ∈ log, ∀ rnti rest, o.event = .ttiClockTurn →
      o.pre.rxPduQueue = ⟨rnti, .ulDcch .rrcConnSetupComplete⟩ :: rest →
      rnti ∈ o.pre.rrcUsers.keySet → ¬ o.pre.Leaving rnti) :
    ∀ o ∈ log, ∀ enbId ctxt, o.post.s1ap.users.find? enbId = some ctxt →
      ctxt.rnti ∈ o.post.rrcUsers.keySet := by
  have kept := Events.run_keeps (I := Stack.Tracked) (C := Stack.Undisturbed)
    (fun _ _ _ before handled ok => before.handle handled ok) Stack.tracked_init ran undisturbed
  intro o member enbId ctxt found
  exact (kept.2 o member).2.users ctxt.rnti ⟨enbId, ctxt, found, rfl⟩

/-- A UE connects and is released by the MME. -/
theorem connected_and_released :
    ∃ last log,
      Events.run Stack.handle {}
        [.rachDetected, .rachTask, .ulMsg 4097 (.dcch .rrcConnSetupComplete), .ttiClockTurn,
          .mme (.releasePair 1 7), .ttiClockTurn, .ttiClockTurn] = some (last, log) ∧
      ∀ o ∈ log, ∀ enbId ctxt, o.post.s1ap.users.find? enbId = some ctxt →
        ctxt.rnti ∈ o.post.rrcUsers.keySet := by
  have ran : Events.run Stack.handle {}
      [.rachDetected, .rachTask, .ulMsg 4097 (.dcch .rrcConnSetupComplete), .ttiClockTurn,
        .mme (.releasePair 1 7), .ttiClockTurn, .ttiClockTurn] = some (_, _) := rfl
  refine ⟨_, _, ran, contexts_have_users ran ?_⟩
  intro o member rnti rest turn queue _
  simp only [List.mem_cons, List.not_mem_nil, or_false] at member
  rcases member with rfl | rfl | rfl | rfl | rfl | rfl | rfl
  · cases turn
  · cases turn
  · cases turn
  · cases queue
    rintro (rel | rem)
    · exact absurd rel (by decide)
    · exact absurd rem (by decide)
  · cases turn
  · cases queue
  · cases queue

/-- The UE repeats its RRCConnectionSetupComplete, and the MME releases it before RRC gets to it:
    the repeated message opens a second context, and then the user is removed. -/
theorem repeated_setup_complete :
    ∃ last log,
      Events.run Stack.handle {}
        [.rachDetected, .rachTask, .ulMsg 4097 (.ccch (.rrcConnRequest false)), .ttiClockTurn,
          .ulMsg 4097 (.dcch .rrcConnSetupComplete), .ttiClockTurn,
          .ulMsg 4097 (.dcch .rrcConnSetupComplete), .mme (.releasePair 1 7),
          .ttiClockTurn, .ttiClockTurn, .ttiClockTurn] = some (last, log) ∧
      (∃ o ∈ log, o.post.s1ap.users.find? 2 = some { rnti := 4097 } ∧
        4097 ∉ o.post.rrcUsers.keySet) := by
  refine ⟨_, _, rfl, _, List.mem_of_getElem? (i := 10) rfl, rfl, ?_⟩
  decide +kernel

end SonicaEnb
