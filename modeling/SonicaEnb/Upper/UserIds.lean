import SonicaEnb.Upper.UserList

/-! # The identities of the UEs of S1AP

A UE has an identity of the eNB, under which the list stores it, an RNTI, and later
one of the MME. The first two stay unique through everything that reaches the list.
The third is taken from messages as it comes.
-/

namespace SonicaEnb

namespace S1ap

variable {s s' : S1ap} {walk : List Nat} {u : Nat}

/-! ## What the senders leave alone -/

@[simp] theorem send_users (s : S1ap) (u : Nat) (msg : S1apUe → S1apMsg) :
    (s.send u msg).users = s.users := by
  unfold send
  split
  · rfl
  · split <;> rfl

@[simp] theorem sendInitialuemessage_users (s : S1ap) (u : Nat) (hasTmsi : Bool) :
    (s.sendInitialuemessage u hasTmsi).users = s.users := send_users s u _

@[simp] theorem sendUectxtreleasecomplete_users (s : S1ap) (u : Nat) :
    (s.sendUectxtreleasecomplete u).users = s.users := send_users s u _

/-- A UE whose release was asked for. -/
def requested (ue : S1apUe) : S1apUe := { ue with releaseRequested := true }

theorem sendUectxtreleaserequest_users (s : S1ap) (u : Nat) :
    (s.sendUectxtreleaserequest u).users = s.users ∨
      (s.sendUectxtreleaserequest u).users = s.users.modify u requested := by
  unfold sendUectxtreleaserequest
  split
  · exact .inl rfl
  · split
    · exact .inl rfl
    · split
      · exact .inl rfl
      · exact .inr (send_users _ u _)

/-! ## What an event does to the list -/

/-- An event in the list of UEs: nothing, a new UE, changes inside one UE, or a UE less. -/
inductive Change (s : S1ap) (e : S1apEvent) : SortedMap Nat S1apUe → Prop where
  | same : Change s e s.users
  | added {walk : List Nat} {rnti : Nat} {hasTmsi : Bool}
      (event : e = .initialUe walk rnti hasTmsi) (walks : s.Walks walk)
      (newRnti : s.findUeRnti walk rnti = none) (newId : s.users.find? s.nextEnbUeS1apId = none) :
      Change s e (s.users.insert s.nextEnbUeS1apId (s.newUe rnti).1)
  | requested (u : Nat) : Change s e (s.users.modify u requested)
  | assigned {enbId mmeId : Nat} {csFallback : Bool} {users : SortedMap Nat S1apUe}
      (event : e = .ueMsg enbId mmeId csFallback) (known : (s.users.find? enbId).isSome)
      (users_eq : users = s.users.modify enbId (setMmeId mmeId) ∨
        users = (s.users.modify enbId (setMmeId mmeId)).modify enbId S1ap.requested) :
      Change s e users
  | erased {u : Nat} {ue : S1apUe} (found : s.users.find? u = some ue) :
      Change s e (s.users.erase ue.enbUeS1apId)
  /-- a release by the pair of identities, which assigns one of them first -/
  | erasedPair {enbId mmeId : Nat} {ue : S1apUe} (found : s.users.find? enbId = some ue) :
      Change s e ((s.users.modify enbId (setMmeId mmeId)).erase ue.enbUeS1apId)

theorem findUeEnbid_some {enbId : Nat} (found : s.findUeEnbid enbId = some u) :
    u = enbId ∧ (s.users.find? enbId).isSome := by
  unfold findUeEnbid at found
  split at found
  · rename_i known
    exact ⟨(Option.some.inj found).symm, known⟩
  · cases found

theorem erase_users {ue : S1apUe} (found : s.users.find? u = some ue) :
    (s.erase u).users = s.users.erase ue.enbUeS1apId := by
  simp [erase, found]

theorem release_users {ue : S1apUe} (found : s.users.find? u = some ue) :
    (s.release u).users = s.users.erase ue.enbUeS1apId := by
  unfold release
  have found' : (s.sendUectxtreleasecomplete u).users.find? u = some ue := by simpa using found
  rw [erase_users found', sendUectxtreleasecomplete_users]

theorem initialUe_change {rnti : Nat} {hasTmsi : Bool} (walks : s.Walks walk) :
    Change s (.initialUe walk rnti hasTmsi) (s.initialUe walk rnti hasTmsi).users := by
  unfold initialUe newUe
  simp only
  split
  · rw [sendInitialuemessage_users]
    exact .same
  · unfold announce
    split
    · rename_i refused
      unfold addUser at refused
      split at refused
      · cases refused; exact .same
      · split at refused
        · cases refused; exact .same
        · split at refused
          · cases refused; exact .same
          · cases refused
    · rename_i added
      rw [sendInitialuemessage_users]
      unfold addUser at added
      split at added
      · cases added
      · rename_i newRnti
        split at added
        · cases added
        · rename_i newId
          split at added
          · cases added
          · cases added
            apply Change.added rfl walks (Option.not_isSome_iff_eq_none.mp newRnti)
            simpa [findUeEnbid] using newId

theorem userRelease_change {rnti : Nat} {e : S1apEvent} : Change s e (s.userRelease walk rnti).users := by
  unfold userRelease
  split
  · exact .same
  · rename_i u _
    cases found : s.users.find? u with
    | none => exact .same
    | some ue =>
        simp only
        split
        · rw [erase_users found]
          exact .erased found
        · split
          · rcases sendUectxtreleaserequest_users s u with same | changed
            · rw [same]
              exact .same
            · rw [changed]
              exact .requested u
          · exact .same

theorem handleUeMsg_users {enbId : Nat} (known : (s.users.find? enbId).isSome) (mmeId : Nat)
    (csFallback : Bool) :
    (s.handleUeMsg enbId mmeId csFallback).users = s.users.modify enbId (setMmeId mmeId) ∨
      (s.handleUeMsg enbId mmeId csFallback).users =
        (s.users.modify enbId (setMmeId mmeId)).modify enbId requested := by
  simp only [handleUeMsg, findS1apmsgUser, findUeEnbid, known, if_true]
  split
  · exact sendUectxtreleaserequest_users _ enbId
  · exact .inl rfl

theorem handleUeMsg_change {enbId mmeId : Nat} {csFallback : Bool} :
    Change s (.ueMsg enbId mmeId csFallback) (s.handleUeMsg enbId mmeId csFallback).users := by
  by_cases known : (s.users.find? enbId).isSome
  · exact .assigned rfl known (handleUeMsg_users known mmeId csFallback)
  · have same : (s.handleUeMsg enbId mmeId csFallback).users = s.users := by
      simp [handleUeMsg, findS1apmsgUser, findUeEnbid, known]
    rw [same]
    exact .same

theorem handleReleasePair_change {enbId mmeId : Nat} {e : S1apEvent} :
    Change s e (s.handleReleasePair enbId mmeId).users := by
  unfold handleReleasePair findS1apmsgUser
  cases found : s.findUeEnbid enbId with
  | none => exact .same
  | some u =>
      obtain ⟨rfl, known⟩ := findUeEnbid_some found
      obtain ⟨ue, here⟩ := Option.isSome_iff_exists.mp known
      simp only
      have here' : (s.users.modify u (setMmeId mmeId)).find? u = some (setMmeId mmeId ue) := by
        simp [SortedMap.find?_modify, here]
      rw [release_users here']
      change Change s e ((s.users.modify u (setMmeId mmeId)).erase ue.enbUeS1apId)
      exact .erasedPair here

theorem handleReleaseMmeId_change {mmeId : Nat} {e : S1apEvent} :
    Change s e (s.handleReleaseMmeId walk mmeId).users := by
  unfold handleReleaseMmeId
  cases found : s.findUeMmeid walk mmeId with
  | none => exact .same
  | some u =>
      obtain ⟨ue, here, -⟩ := SortedMap.search_some found
      simp only
      rw [release_users here]
      exact .erased here

theorem handle_change {e : S1apEvent} (handled : s.handle e = some s') : Change s e s'.users := by
  cases e with
  | initialUe walk rnti hasTmsi =>
      simp only [handle] at handled
      split at handled
      · rename_i walks
        cases handled
        exact initialUe_change walks
      · cases handled
  | userRelease walk rnti =>
      simp only [handle] at handled
      split at handled
      · cases handled
        exact userRelease_change
      · cases handled
  | ueMsg enbId mmeId csFallback =>
      cases handled
      exact handleUeMsg_change
  | releasePair enbId mmeId =>
      cases handled
      exact handleReleasePair_change
  | releaseMmeId walk mmeId =>
      simp only [handle] at handled
      split at handled
      · cases handled
        exact handleReleaseMmeId_change
      · cases handled
  | mmeConnected up =>
      cases handled
      exact .same

end S1ap

/-! ## Identity of the eNB and RNTI -/

/-- Every UE stands under its own identity. -/
def Keyed (users : SortedMap Nat S1apUe) : Prop := ∀ k ue, users.find? k = some ue → ue.enbUeS1apId = k

namespace Keyed

variable {users : SortedMap Nat S1apUe}

theorem empty : Keyed SortedMap.empty := by
  intro k ue found
  cases found

theorem modify (keyed : Keyed users) (k : Nat) {f : S1apUe → S1apUe}
    (keeps : ∀ ue, (f ue).enbUeS1apId = ue.enbUeS1apId) : Keyed (users.modify k f) := by
  intro j ue' found
  rw [SortedMap.find?_modify] at found
  split at found
  · obtain ⟨ue, here, rfl⟩ := Option.map_eq_some_iff.mp found
    exact (keeps ue).trans (keyed j ue here)
  · exact keyed j ue' found

theorem erase (keyed : Keyed users) (k : Nat) : Keyed (users.erase k) := by
  intro j ue found
  rw [SortedMap.find?_erase] at found
  split at found
  · cases found
  · exact keyed j ue found

theorem insert (keyed : Keyed users) (user : S1apUe) : Keyed (users.insert user.enbUeS1apId user) := by
  intro j ue found
  rw [SortedMap.find?_insert] at found
  split at found
  · rename_i here
    cases found
    exact here.symm
  · exact keyed j ue found

end Keyed

theorem S1ap.Change.keyed {s : S1ap} {e : S1apEvent} {users : SortedMap Nat S1apUe}
    (change : s.Change e users) (keyed : Keyed s.users) : Keyed users := by
  cases change with
  | same => exact keyed
  | @added walk rnti hasTmsi event walks newRnti newId => exact keyed.insert (s.newUe rnti).1
  | requested u => exact keyed.modify u fun _ => rfl
  | @assigned enbId mmeId csFallback users event known users_eq =>
      have assigned : Keyed (s.users.modify enbId (setMmeId mmeId)) := keyed.modify enbId fun _ => rfl
      rcases users_eq with rfl | rfl
      · exact assigned
      · exact assigned.modify enbId fun _ => rfl
  | @erased u ue found => exact keyed.erase ue.enbUeS1apId
  | @erasedPair enbId mmeId ue found =>
      have assigned : Keyed (s.users.modify enbId (setMmeId mmeId)) := keyed.modify enbId fun _ => rfl
      exact assigned.erase ue.enbUeS1apId

/-- Every UE stands under its own identity, and no two have one RNTI. -/
structure Distinct (users : SortedMap Nat S1apUe) : Prop where
  key : Keyed users
  rnti : ∀ j ue k ue', users.find? j = some ue → users.find? k = some ue' → ue.rnti = ue'.rnti → j = k
  valid : ∀ k ue, users.find? k = some ue → ue.rnti ≠ invalidRnti

namespace Distinct

variable {users : SortedMap Nat S1apUe}

theorem empty : Distinct SortedMap.empty where
  key := .empty
  rnti _ _ _ _ found := by cases found
  valid _ _ found := by cases found

theorem modify (distinct : Distinct users) (k : Nat) {f : S1apUe → S1apUe}
    (keepsRnti : ∀ ue, (f ue).rnti = ue.rnti) (keepsId : ∀ ue, (f ue).enbUeS1apId = ue.enbUeS1apId) :
    Distinct (users.modify k f) := by
  have old {j : Nat} {ue' : S1apUe} (found : (users.modify k f).find? j = some ue') :
      ∃ ue, users.find? j = some ue ∧ ue'.rnti = ue.rnti := by
    rw [SortedMap.find?_modify] at found
    split at found
    · obtain ⟨ue, here, rfl⟩ := Option.map_eq_some_iff.mp found
      exact ⟨ue, here, keepsRnti ue⟩
    · exact ⟨ue', found, rfl⟩
  refine ⟨distinct.key.modify k keepsId, ?_, ?_⟩
  · intro j ue₁ i ue₂ found₁ found₂ same
    obtain ⟨ue, here, rnti⟩ := old found₁
    obtain ⟨ue', there, rnti'⟩ := old found₂
    exact distinct.rnti j ue i ue' here there (by rw [← rnti, same, rnti'])
  · intro j ue' found
    obtain ⟨ue, here, rnti⟩ := old found
    rw [rnti]
    exact distinct.valid j ue here

theorem requested (distinct : Distinct users) (k : Nat) : Distinct (users.modify k S1ap.requested) :=
  distinct.modify k (fun _ => rfl) fun _ => rfl

theorem assigned (distinct : Distinct users) (k mmeId : Nat) :
    Distinct (users.modify k (S1ap.setMmeId mmeId)) :=
  distinct.modify k (fun _ => rfl) fun _ => rfl

theorem erase (distinct : Distinct users) (k : Nat) : Distinct (users.erase k) := by
  have old {j : Nat} {ue : S1apUe} (found : (users.erase k).find? j = some ue) :
      users.find? j = some ue := by
    rw [SortedMap.find?_erase] at found
    split at found
    · cases found
    · exact found
  exact ⟨distinct.key.erase k,
    fun j ue i ue' found found' => distinct.rnti j ue i ue' (old found) (old found'),
    fun j ue found => distinct.valid j ue (old found)⟩

theorem insert (distinct : Distinct users) (user : S1apUe) (valid : user.rnti ≠ invalidRnti)
    (newRnti : ∀ k ue, users.find? k = some ue → ue.rnti ≠ user.rnti) :
    Distinct (users.insert user.enbUeS1apId user) := by
  refine ⟨distinct.key.insert user, ?_, ?_⟩
  · intro j ue i ue' found found' same
    rw [SortedMap.find?_insert] at found found'
    split at found
    · rename_i here
      cases found
      split at found'
      · rename_i there
        exact here.trans there.symm
      · exact absurd same.symm (newRnti i ue' found')
    · split at found'
      · cases found'
        exact absurd same (newRnti j ue found)
      · exact distinct.rnti j ue i ue' found found' same
  · intro j ue found
    rw [SortedMap.find?_insert] at found
    split at found
    · cases found
      exact valid
    · exact distinct.valid j ue found

end Distinct

/-- RRC knows its UEs by RNTIs other than the invalid one. -/
def S1apEvent.ValidRnti : S1apEvent → Prop
  | .initialUe _ rnti _ => rnti ≠ invalidRnti
  | _ => True

namespace S1ap

variable {s s' : S1ap} {walk : List Nat} {u : Nat}

theorem Change.distinct {e : S1apEvent} {users : SortedMap Nat S1apUe} (change : s.Change e users)
    (valid : e.ValidRnti) (distinct : Distinct s.users) : Distinct users := by
  cases change with
  | same => exact distinct
  | @added walk rnti hasTmsi event walks newRnti newId =>
      subst event
      have valid : rnti ≠ invalidRnti := valid
      have unlisted : ∀ k ue, s.users.find? k = some ue → ue.rnti ≠ rnti := by
        intro k ue found
        simp only [findUeRnti, valid, if_false] at newRnti
        simpa using (SortedMap.search_none walks).mp newRnti k ue found
      exact distinct.insert (s.newUe rnti).1 valid unlisted
  | requested u => exact distinct.requested u
  | @assigned enbId mmeId csFallback users event known users_eq =>
      rcases users_eq with rfl | rfl
      · exact distinct.assigned enbId mmeId
      · exact (distinct.assigned enbId mmeId).requested enbId
  | @erased u ue found => exact distinct.erase ue.enbUeS1apId
  | @erasedPair enbId mmeId ue found => exact (distinct.assigned enbId mmeId).erase ue.enbUeS1apId

theorem findUeRnti_iff (distinct : Distinct s.users) (walks : s.Walks walk) {rnti : Nat} :
    s.findUeRnti walk rnti = some u ↔ ∃ ue, s.users.find? u = some ue ∧ ue.rnti = rnti := by
  have one : s.users.OneSuits fun ue => decide (ue.rnti = rnti) := by
    intro j ue k ue' found found' same same'
    exact distinct.rnti j ue k ue' found found' ((of_decide_eq_true same).trans (of_decide_eq_true same').symm)
  unfold findUeRnti
  split
  · rename_i invalid
    constructor
    · intro found
      cases found
    · rintro ⟨ue, found, same⟩
      exact absurd (same.trans invalid) (distinct.valid u ue found)
  · rw [one.search_iff walks]
    simp only [decide_eq_true_eq]

theorem findUeEnbid_iff (distinct : Distinct s.users) {enbId : Nat} :
    s.findUeEnbid enbId = some u ↔ ∃ ue, s.users.find? u = some ue ∧ ue.enbUeS1apId = enbId := by
  constructor
  · intro found
    obtain ⟨rfl, known⟩ := findUeEnbid_some found
    obtain ⟨ue, here⟩ := Option.isSome_iff_exists.mp known
    exact ⟨ue, here, distinct.key u ue here⟩
  · rintro ⟨ue, found, rfl⟩
    rw [distinct.key u ue found]
    simp [findUeEnbid, found]

/-- In every run, from any value of the counter, in which RRC names valid RNTIs: the list keeps its
    UEs apart, the searches find the one UE that matches, and `erase` removes that UE and no other. -/
theorem user_list_represents {first : Nat} {events : List S1apEvent} {last : S1ap}
    {log : List (Events.Step S1ap S1apEvent)} (ran : run first events = some (last, log))
    (valid : ∀ e ∈ events, e.ValidRnti) :
    Distinct last.users ∧
      (∀ walk rnti u, last.Walks walk →
        (last.findUeRnti walk rnti = some u ↔ ∃ ue, last.users.find? u = some ue ∧ ue.rnti = rnti)) ∧
      (∀ enbId u,
        last.findUeEnbid enbId = some u ↔ ∃ ue, last.users.find? u = some ue ∧ ue.enbUeS1apId = enbId) ∧
      ∀ u ue, last.users.find? u = some ue →
        ∀ k, (last.erase u).users.find? k = if k = u then none else last.users.find? k := by
  have events := Events.run_events ran
  have distinct : Distinct last.users :=
    (Events.run_keeps (I := fun s : S1ap => Distinct s.users) (C := fun _ e => e.ValidRnti)
      (fun s e s' distinct handled valid => (handle_change handled).distinct valid distinct)
      .empty ran fun o member => valid o.event (events ▸ List.mem_map_of_mem member)).1
  refine ⟨distinct, fun walk rnti u walks => findUeRnti_iff distinct walks,
    fun enbId u => findUeEnbid_iff distinct, ?_⟩
  intro u ue found k
  rw [erase_users found, distinct.key u ue found, SortedMap.find?_erase]

/-- Two UEs enter, one by each overload; the MME releases the first by its own identity for it. -/
def enterAndLeave : List S1apEvent :=
  [.mmeConnected true, .initialUe [] 0x46 false, .ueMsg 1 7 false, .initialUe [1] 0x47 true,
    .initialUe [2, 1] 0x47 true, .releaseMmeId [2, 1] 7]

theorem first_released : ∃ last log, run 1 enterAndLeave = some (last, log) ∧ last.users.keys = [2] ∧
    last.findUeRnti [2] 0x47 = some 2 ∧ Distinct last.users := by
  have checked : ((run 1 enterAndLeave).any fun r => decide (r.1.users.keys = [2] ∧
      r.1.findUeRnti [2] 0x47 = some 2)) = true := by decide +kernel
  obtain ⟨⟨last, log⟩, ran, facts⟩ := Option.any_eq_true .. |>.mp checked
  obtain ⟨keys, found⟩ := of_decide_eq_true facts
  have valid : ∀ e ∈ enterAndLeave, e.ValidRnti := by
    simp [enterAndLeave, S1apEvent.ValidRnti, invalidRnti]
  exact ⟨last, log, ran, keys, found, (user_list_represents ran valid).1⟩

end S1ap

end SonicaEnb
