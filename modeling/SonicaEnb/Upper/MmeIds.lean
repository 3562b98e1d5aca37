import SonicaEnb.Upper.UserIds

/-! # The identities the MME gives

`add_user` lets no UE in whose MME identity is taken, but a UE that enters has none:
what is compared is the 0 of the default. The identity comes later, with a message,
and then nothing is compared. So two UEs can share an identity, and a UE that was
given 0 keeps every new one out.
-/

namespace SonicaEnb

namespace S1ap

/-! ## Sharing an identity -/

/-- No two UEs have one identity of the MME. -/
def MmeIdsDiffer (s : S1ap) : Prop :=
  ∀ j ue k ue', s.users.find? j = some ue → s.users.find? k = some ue' →
    ue.mmeUeS1apIdPresent = true → ue'.mmeUeS1apIdPresent = true → ue.mmeUeS1apId = ue'.mmeUeS1apId → j = k

/-- `find_ue_mmeid` selects one UE, whatever the order of the hash table. -/
def MmeIdSelects (s : S1ap) : Prop :=
  ∀ mmeId walk walk', s.Walks walk → s.Walks walk' → s.findUeMmeid walk mmeId = s.findUeMmeid walk' mmeId

theorem matchesMmeId_iff {mmeId : Nat} {ctxt : UeCtxt} :
    S1apUsers.matchesMmeId mmeId ctxt = true ↔
      ctxt.mmeUeS1apIdPresent = true ∧ ctxt.mmeUeS1apId = mmeId := by
  simp [S1apUsers.matchesMmeId]

variable {s s' : S1ap}

theorem mmeIdsDiffer_iff : s.MmeIdsDiffer ↔
    ∀ mmeId, s.users.OneSuits fun ue => S1apUsers.matchesMmeId mmeId ue.toUeCtxt := by
  constructor
  · intro differ mmeId j ue k ue' found found' suits suits'
    obtain ⟨present, same⟩ := matchesMmeId_iff.mp suits
    obtain ⟨present', same'⟩ := matchesMmeId_iff.mp suits'
    exact differ j ue k ue' found found' present present' (same.trans same'.symm)
  · intro one j ue k ue' found found' present present' same
    exact one ue.mmeUeS1apId j ue k ue' found found' (matchesMmeId_iff.mpr ⟨present, rfl⟩)
      (matchesMmeId_iff.mpr ⟨present', same.symm⟩)

/-- The order of the hash table matters exactly where two UEs share an identity. -/
theorem mmeIdSelects_iff : s.MmeIdSelects ↔ s.MmeIdsDiffer := by
  rw [mmeIdsDiffer_iff]
  simp only [SortedMap.oneSuits_iff]
  rfl

/-- The identity the MME has given the UE under `k`. -/
def mmeIdOf (s : S1ap) (k : Nat) : Option Nat :=
  (s.users.find? k).bind fun ue => if ue.mmeUeS1apIdPresent then some ue.mmeUeS1apId else none

/-- A message other than a release gives a UE an identity that another one has. -/
def Clashes (s : S1ap) : S1apEvent → Prop
  | .ueMsg enbId mmeId _ =>
      (s.users.find? enbId).isSome ∧ ∃ k ∈ s.users.keys, k ≠ enbId ∧ s.mmeIdOf k = some mmeId
  | _ => False

instance (s : S1ap) : (e : S1apEvent) → Decidable (s.Clashes e)
  | .ueMsg .. => inferInstanceAs (Decidable (_ ∧ _))
  | .initialUe .. => inferInstanceAs (Decidable False)
  | .userRelease .. => inferInstanceAs (Decidable False)
  | .releasePair .. => inferInstanceAs (Decidable False)
  | .releaseMmeId .. => inferInstanceAs (Decidable False)
  | .mmeConnected .. => inferInstanceAs (Decidable False)

theorem mmeIdOf_some {k mmeId : Nat} : s.mmeIdOf k = some mmeId ↔
    ∃ ue, s.users.find? k = some ue ∧ ue.mmeUeS1apIdPresent = true ∧ ue.mmeUeS1apId = mmeId := by
  simp only [mmeIdOf, Option.bind_eq_some_iff, Option.ite_none_right_eq_some, Option.some.injEq]

theorem mmeIdsDiffer_of : s.MmeIdsDiffer ↔
    ∀ j k mmeId, s.mmeIdOf j = some mmeId → s.mmeIdOf k = some mmeId → j = k := by
  simp only [mmeIdOf_some]
  constructor
  · rintro differ j k mmeId ⟨ue, found, present, same⟩ ⟨ue', found', present', same'⟩
    exact differ j ue k ue' found found' present present' (same.trans same'.symm)
  · intro differ j ue k ue' found found' present present' same
    exact differ j k ue.mmeUeS1apId ⟨ue, found, present, rfl⟩ ⟨ue', found', present', same.symm⟩

theorem mmeIdOf_congr {k : Nat} (same : s'.users.find? k = s.users.find? k) : s'.mmeIdOf k = s.mmeIdOf k := by
  rw [mmeIdOf, same, mmeIdOf]

/-- An identity assigned by `find_s1apmsg_user`, whether a release was asked for or not. -/
theorem mmeIdOf_assigned {enbId mmeId : Nat} (known : (s.users.find? enbId).isSome)
    (users_eq : s'.users = s.users.modify enbId (setMmeId mmeId) ∨
      s'.users = (s.users.modify enbId (setMmeId mmeId)).modify enbId requested) (k : Nat) :
    s'.mmeIdOf k = if k = enbId then some mmeId else s.mmeIdOf k := by
  by_cases here : k = enbId
  · subst here
    obtain ⟨ue, found⟩ := Option.isSome_iff_exists.mp known
    rcases users_eq with same | same
    · simp [mmeIdOf, same, SortedMap.find?_modify, found, setMmeId]
    · simp [mmeIdOf, same, SortedMap.find?_modify, found, setMmeId, requested]
  · rw [if_neg here]
    apply mmeIdOf_congr
    rcases users_eq with same | same
    · simp [same, SortedMap.find?_modify, here]
    · simp [same, SortedMap.find?_modify, here]

/-- An event gives one UE one identity, by a message, or gives none. -/
theorem handle_mmeIdOf {e : S1apEvent} (keyed : Keyed s.users) (handled : s.handle e = some s') :
    (∃ enbId mmeId csFallback, e = .ueMsg enbId mmeId csFallback ∧ (s.users.find? enbId).isSome ∧
        ∀ k, s'.mmeIdOf k = if k = enbId then some mmeId else s.mmeIdOf k) ∨
      ∀ k, s'.mmeIdOf k = s.mmeIdOf k ∨ s'.mmeIdOf k = none := by
  have change := handle_change handled
  generalize users_eq : s'.users = users at change
  cases change with
  | same => exact .inr fun k => .inl (mmeIdOf_congr (by rw [users_eq]))
  | @added walk rnti hasTmsi event walks newRnti newId =>
      right
      intro k
      by_cases new : k = s.nextEnbUeS1apId
      · right
        simp [mmeIdOf, users_eq, SortedMap.find?_insert, new, newUe]
      · left
        apply mmeIdOf_congr
        rw [users_eq, SortedMap.find?_insert, if_neg new]
  | requested u =>
      right
      intro k
      left
      rw [mmeIdOf, users_eq, SortedMap.find?_modify, mmeIdOf]
      split
      · cases s.users.find? k with
        | none => rfl
        | some ue => rfl
      · rfl
  | @assigned enbId mmeId csFallback users event known assigned =>
      subst users_eq
      exact .inl ⟨enbId, mmeId, csFallback, event, known, mmeIdOf_assigned known assigned⟩
  | @erased u ue found =>
      right
      intro k
      by_cases gone : k = ue.enbUeS1apId
      · exact .inr (by simp [mmeIdOf, users_eq, SortedMap.find?_erase, gone])
      · exact .inl (mmeIdOf_congr (by rw [users_eq, SortedMap.find?_erase, if_neg gone]))
  | @erasedPair enbId mmeId ue found =>
      right
      intro k
      -- the UE that was given an identity is the one that leaves
      rw [keyed enbId ue found] at users_eq
      by_cases gone : k = enbId
      · exact .inr (by simp [mmeIdOf, users_eq, SortedMap.find?_erase, gone])
      · exact .inl (mmeIdOf_congr (by
          rw [users_eq, SortedMap.find?_erase, if_neg gone, SortedMap.find?_modify, if_neg gone]))

theorem MmeIdsDiffer.handle {e : S1apEvent} (differ : s.MmeIdsDiffer) (keyed : Keyed s.users)
    (handled : s.handle e = some s') (clean : ¬ s.Clashes e) : s'.MmeIdsDiffer := by
  rw [mmeIdsDiffer_of] at differ ⊢
  intro j k mmeId idJ idK
  rcases handle_mmeIdOf keyed handled with ⟨enbId, given, csFallback, event, known, after⟩ | after
  · subst event
    have noOther : ∀ i, i ≠ enbId → s.mmeIdOf i ≠ some given := by
      intro i other same
      obtain ⟨ue, found, -⟩ := mmeIdOf_some.mp same
      have listed : i ∈ s.users.keys := by
        rw [SortedMap.mem_keys_iff, found]
        rfl
      exact clean ⟨known, i, listed, other, same⟩
    rw [after] at idJ idK
    split at idJ
    · cases idJ
      split at idK
      · rename_i here there
        exact here.trans there.symm
      · rename_i other
        exact absurd idK (noOther k other)
    · rename_i other
      split at idK
      · cases idK
        exact absurd idJ (noOther j other)
      · exact differ j k mmeId idJ idK
  · have old {i : Nat} (given : s'.mmeIdOf i = some mmeId) : s.mmeIdOf i = some mmeId := by
      rcases after i with same | none
      · rwa [same] at given
      · rw [none] at given
        cases given
    exact differ j k mmeId (old idJ) (old idK)

/-- A message that gives an identity twice leaves two UEs with it. -/
theorem Clashes.shares {e : S1apEvent} (clash : s.Clashes e) (handled : s.handle e = some s') :
    ¬ s'.MmeIdsDiffer := by
  cases e with
  | ueMsg enbId mmeId csFallback =>
      obtain ⟨known, k, -, other, given⟩ := clash
      cases handled
      have after := mmeIdOf_assigned known (handleUeMsg_users known mmeId csFallback)
      rw [mmeIdsDiffer_of]
      intro differ
      apply other
      apply differ k enbId mmeId
      · rw [after, if_neg other, given]
      · rw [after, if_pos rfl]
  | initialUe walk rnti hasTmsi => exact clash.elim
  | userRelease walk rnti => exact clash.elim
  | releasePair enbId mmeId => exact clash.elim
  | releaseMmeId walk mmeId => exact clash.elim
  | mmeConnected up => exact clash.elim

/-- In every run, from any value of the counter: no two UEs share an identity of the MME, and a
    search by it selects one UE, after every event, exactly when no message gives a UE an identity
    that another one has. -/
theorem mme_ids_differ_iff {first : Nat} {events : List S1apEvent} {last : S1ap}
    {log : List (Events.Step S1ap S1apEvent)} (ran : run first events = some (last, log)) :
    (∀ o ∈ log, o.post.MmeIdsDiffer ∧ o.post.MmeIdSelects) ↔ ∀ o ∈ log, ¬ o.pre.Clashes o.event := by
  constructor
  · intro differ o member clash
    obtain ⟨-, handled⟩ := Events.run_step (I := fun s : S1ap => Keyed s.users)
      (fun s e s' keyed handled => (handle_change handled).keyed keyed) .empty ran member
    exact clash.shares handled (differ o member).1
  · intro clean o member
    have kept := Events.run_keeps (I := fun s : S1ap => Keyed s.users ∧ s.MmeIdsDiffer)
      (C := fun s e => ¬ s.Clashes e)
      (fun s e s' good handled clean =>
        ⟨(handle_change handled).keyed good.1, good.2.handle good.1 handled clean⟩)
      ⟨.empty, fun _ _ _ _ found => by cases found⟩ ran clean
    have differ := (kept.2 o member).2.2
    exact ⟨differ, mmeIdSelects_iff.mpr differ⟩

/-- Two UEs enter, and messages name each of them with the identity the MME has for it. -/
def twoNamed (first second : Nat) : List S1apEvent :=
  [.mmeConnected true, .initialUe [] 0x46 false, .initialUe [1] 0x47 false, .ueMsg 1 first false,
    .ueMsg 2 second false]

theorem two_named_apart : ∃ last log, run 1 (twoNamed 7 8) = some (last, log) ∧
    last.mmeIdOf 1 = some 7 ∧ last.mmeIdOf 2 = some 8 ∧ ∀ o ∈ log, o.post.MmeIdsDiffer ∧ o.post.MmeIdSelects := by
  have checked : ((run 1 (twoNamed 7 8)).any fun r => decide ((r.1.mmeIdOf 1 = some 7 ∧
      r.1.mmeIdOf 2 = some 8) ∧ ∀ o ∈ r.2, ¬ o.pre.Clashes o.event)) = true := by decide +kernel
  obtain ⟨⟨last, log⟩, ran, facts⟩ := Option.any_eq_true .. |>.mp checked
  obtain ⟨⟨first, second⟩, clean⟩ := of_decide_eq_true facts
  exact ⟨last, log, ran, first, second, (mme_ids_differ_iff ran).mpr clean⟩

/-- Both are given the identity 7: a release by it takes the UE that the hash table shows first. -/
theorem two_named_alike : ∃ last log, run 1 (twoNamed 7 7) = some (last, log) ∧ ¬ last.MmeIdsDiffer ∧
    last.findUeMmeid [1, 2] 7 = some 1 ∧ last.findUeMmeid [2, 1] 7 = some 2 := by
  have checked : ((run 1 (twoNamed 7 7)).any fun r => decide (r.1.Walks [1, 2] ∧ r.1.Walks [2, 1] ∧
      r.1.findUeMmeid [1, 2] 7 = some 1 ∧ r.1.findUeMmeid [2, 1] 7 = some 2)) = true := by decide +kernel
  obtain ⟨⟨last, log⟩, ran, facts⟩ := Option.any_eq_true .. |>.mp checked
  obtain ⟨walks, walks', found, found'⟩ := of_decide_eq_true facts
  refine ⟨last, log, ran, ?_, found, found'⟩
  intro differ
  have same := mmeIdSelects_iff.mpr differ 7 [1, 2] [2, 1] walks walks'
  rw [found, found'] at same
  cases same

/-! ## Entering the list -/

/-- A UE has been given the identity `mmeId`. -/
def MmeIdTaken (s : S1ap) (mmeId : Nat) : Prop := ∃ k, s.mmeIdOf k = some mmeId

/-- `initial_ue` for `rnti` in `s` has put a new UE into the list. -/
def Admits (s s' : S1ap) (rnti : Nat) : Prop := s'.users.find? s.nextEnbUeS1apId = some (s.newUe rnti).1

variable {walk : List Nat} {rnti : Nat}

theorem findUeMmeid_isSome (walks : s.Walks walk) (mmeId : Nat) :
    (s.findUeMmeid walk mmeId).isSome ↔ s.MmeIdTaken mmeId := by
  rw [findUeMmeid, SortedMap.search_isSome walks]
  unfold MmeIdTaken
  simp only [mmeIdOf_some, matchesMmeId_iff]

/-- What `initial_ue` does for a UE that is new by its RNTI and by the counter. -/
theorem initialUe_new (walks : s.Walks walk) (newRnti : ∀ k ue, s.users.find? k = some ue → ue.rnti ≠ rnti)
    (newId : s.users.find? s.nextEnbUeS1apId = none) (hasTmsi : Bool) :
    (s.MmeIdTaken 0 ∧ s.initialUe walk rnti hasTmsi = (s.newUe rnti).2) ∨
      (¬ s.MmeIdTaken 0 ∧ s.initialUe walk rnti hasTmsi =
        { (s.newUe rnti).2 with users := s.users.insert s.nextEnbUeS1apId (s.newUe rnti).1 }.sendInitialuemessage
          s.nextEnbUeS1apId hasTmsi) := by
  have unknown : (s.newUe rnti).2.findUeRnti walk rnti = none := by
    unfold findUeRnti
    split
    · rfl
    · apply (SortedMap.search_none walks).mpr
      intro k ue found
      simpa using newRnti k ue found
  have fresh : (s.newUe rnti).2.findUeEnbid s.nextEnbUeS1apId = none := by
    simp [findUeEnbid, newUe, newId]
  have lookup : (if hasTmsi then (s.newUe rnti).2.findUeRnti walk rnti else none) = none := by
    split
    · exact unknown
    · rfl
  have checked : ((s.newUe rnti).2.findUeMmeid walk 0).isSome ↔ s.MmeIdTaken 0 :=
    findUeMmeid_isSome walks 0
  by_cases taken : s.MmeIdTaken 0
  · left
    refine ⟨taken, ?_⟩
    have refused : (s.newUe rnti).2.addUser walk (s.newUe rnti).1 = (none, (s.newUe rnti).2) := by
      unfold addUser
      split
      · rfl
      · split
        · rfl
        · exact if_pos (checked.mpr taken)
    unfold initialUe
    simp only [lookup, refused, announce]
  · right
    refine ⟨taken, ?_⟩
    have added : (s.newUe rnti).2.addUser walk (s.newUe rnti).1 = (some s.nextEnbUeS1apId,
        { (s.newUe rnti).2 with users := s.users.insert s.nextEnbUeS1apId (s.newUe rnti).1 }) := by
      unfold addUser
      rw [if_neg (by rw [show (s.newUe rnti).1.rnti = rnti from rfl, unknown]; simp),
        if_neg (by rw [show (s.newUe rnti).1.enbUeS1apId = s.nextEnbUeS1apId from rfl, fresh]; simp)]
      exact if_neg fun found => taken (checked.mp found)
    unfold initialUe
    simp only [lookup, added, announce]

theorem initialUe_admits_iff (walks : s.Walks walk)
    (newRnti : ∀ k ue, s.users.find? k = some ue → ue.rnti ≠ rnti)
    (newId : s.users.find? s.nextEnbUeS1apId = none) (hasTmsi : Bool) :
    (s.Admits (s.initialUe walk rnti hasTmsi) rnti ↔ ¬ s.MmeIdTaken 0) ∧
      (s.Admits (s.initialUe walk rnti hasTmsi) rnti ∧ (s.initialUe walk rnti hasTmsi).sent =
          s.sent ++ [.initialUeMessage s.nextEnbUeS1apId hasTmsi] ↔
        s.mmeConnected = true ∧ ¬ s.MmeIdTaken 0) := by
  rcases initialUe_new walks newRnti newId hasTmsi with ⟨taken, after⟩ | ⟨notTaken, after⟩
  · have refused : ¬ s.Admits (s.initialUe walk rnti hasTmsi) rnti := by
      intro admitted
      rw [Admits, after, newUe, newId] at admitted
      cases admitted
    exact ⟨iff_of_false refused (not_not_intro taken),
      iff_of_false (fun both => refused both.1) fun both => both.2 taken⟩
  · have admitted : s.Admits (s.initialUe walk rnti hasTmsi) rnti := by
      rw [Admits, after, sendInitialuemessage_users, SortedMap.find?_insert, if_pos rfl]
    refine ⟨iff_of_true admitted notTaken, ?_⟩
    rw [after]
    cases connected : s.mmeConnected with
    | false => simp [sendInitialuemessage, send, newUe, connected]
    | true =>
        simp only [notTaken, not_false_eq_true, and_self, iff_true]
        refine ⟨by rw [← after]; exact admitted, ?_⟩
        simp [sendInitialuemessage, send, newUe, connected, SortedMap.find?_insert]

/-- In every run, for a UE that is new by its RNTI and by the counter: `initial_ue` puts it into the
    list exactly when no UE has been given the identity 0, and then announces it exactly when there
    is an MME. -/
theorem new_ue_admitted_iff {first : Nat} {events : List S1apEvent} {last : S1ap}
    {log : List (Events.Step S1ap S1apEvent)} (ran : run first events = some (last, log))
    {o : Events.Step S1ap S1apEvent} (member : o ∈ log) {hasTmsi : Bool}
    (entering : o.event = .initialUe walk rnti hasTmsi)
    (newRnti : ∀ k ue, o.pre.users.find? k = some ue → ue.rnti ≠ rnti)
    (newId : o.pre.users.find? o.pre.nextEnbUeS1apId = none) :
    (o.pre.Admits o.post rnti ↔ ¬ o.pre.MmeIdTaken 0) ∧
      (o.pre.Admits o.post rnti ∧ o.post.sent =
          o.pre.sent ++ [.initialUeMessage o.pre.nextEnbUeS1apId hasTmsi] ↔
        o.pre.mmeConnected = true ∧ ¬ o.pre.MmeIdTaken 0) := by
  obtain ⟨-, handled⟩ := Events.run_step (I := fun _ => True) (fun _ _ _ _ _ => trivial) trivial ran member
  rw [entering] at handled
  simp only [handle] at handled
  split at handled
  · rename_i walks
    rw [← Option.some.inj handled]
    exact initialUe_admits_iff walks newRnti newId hasTmsi
  · cases handled

/-- A UE enters and a message names it with `mmeId`; then another UE enters. -/
def enterAfter (mmeId : Nat) : List S1apEvent :=
  [.mmeConnected true, .initialUe [] 0x46 false, .ueMsg 1 mmeId false, .initialUe [1] 0x47 false]

/-- After the identity 7 the second UE is admitted and announced. -/
theorem second_admitted : ∃ last log o, run 1 (enterAfter 7) = some (last, log) ∧ o ∈ log ∧
    o.event = .initialUe [1] 0x47 false ∧ o.pre.Admits o.post 0x47 ∧
    o.post.sent = o.pre.sent ++ [.initialUeMessage 2 false] := by
  have checked : ((run 1 (enterAfter 7)).any fun r => r.2.any fun o =>
      decide (o.event = .initialUe [1] 0x47 false ∧ o.pre.users.keys = [1] ∧ o.pre.nextEnbUeS1apId = 2 ∧
        o.pre.mmeConnected = true ∧ o.pre.mmeIdOf 1 = some 7) &&
        (o.pre.users.find? 1).any fun ue => ue.rnti = 0x46) = true := by decide +kernel
  obtain ⟨⟨last, log⟩, ran, facts⟩ := Option.any_eq_true .. |>.mp checked
  obtain ⟨o, member, facts⟩ := List.any_eq_true.mp facts
  obtain ⟨facts, rnti⟩ := Bool.and_eq_true_iff.mp facts
  obtain ⟨entering, keys, next, connected, given⟩ := of_decide_eq_true facts
  obtain ⟨ue, found, rnti⟩ := (Option.any_eq_true ..).mp rnti
  have only : ∀ k, (o.pre.users.find? k).isSome → k = 1 := by
    intro k known
    rw [← SortedMap.mem_keys_iff, keys] at known
    simpa using known
  have newRnti : ∀ k ue, o.pre.users.find? k = some ue → ue.rnti ≠ 0x47 := by
    intro k ue' found' same
    have here := only k (by rw [found']; rfl)
    subst here
    rw [found] at found'
    cases found'
    rw [of_decide_eq_true rnti] at same
    cases same
  have newId : o.pre.users.find? o.pre.nextEnbUeS1apId = none := by
    rw [next]
    apply Option.not_isSome_iff_eq_none.mp
    intro known
    cases only 2 known
  have free : ¬ o.pre.MmeIdTaken 0 := by
    rintro ⟨k, taken⟩
    obtain ⟨ue', found', -⟩ := mmeIdOf_some.mp taken
    have here := only k (by rw [found']; rfl)
    rw [here, given] at taken
    cases taken
  obtain ⟨admitted, sent⟩ :=
    (new_ue_admitted_iff ran member entering newRnti newId).2.mpr ⟨connected, free⟩
  exact ⟨last, log, o, ran, member, entering, admitted, next ▸ sent⟩

/-- After the identity 0 the second UE is kept out, although no UE has its RNTI or its identity. -/
theorem second_kept_out : ∃ last log, run 1 (enterAfter 0) = some (last, log) ∧ last.users.keys = [1] ∧
    ∃ o ∈ log, o.event = .initialUe [1] 0x47 false ∧ o.pre.mmeConnected = true ∧
      o.pre.users.keys = [1] ∧ o.pre.nextEnbUeS1apId = 2 ∧ ((o.pre.users.find? 1).any fun ue => ue.rnti = 0x46) ∧
      ¬ o.pre.Admits o.post 0x47 ∧ o.post.sent = o.pre.sent := by
  have checked : ((run 1 (enterAfter 0)).any fun r => decide (r.1.users.keys = [1] ∧
      ∃ o ∈ r.2, o.event = .initialUe [1] 0x47 false ∧ o.pre.mmeConnected = true ∧
        o.pre.users.keys = [1] ∧ o.pre.nextEnbUeS1apId = 2 ∧
        ((o.pre.users.find? 1).any fun ue => ue.rnti = 0x46) ∧ o.post.users.find? 2 = none ∧
        o.post.sent = o.pre.sent)) = true := by decide +kernel
  obtain ⟨⟨last, log⟩, ran, facts⟩ := Option.any_eq_true .. |>.mp checked
  obtain ⟨keys, o, member, entering, connected, before, next, rnti, out, silent⟩ := of_decide_eq_true facts
  refine ⟨last, log, ran, keys, o, member, entering, connected, before, next, rnti, ?_, silent⟩
  rw [Admits, next, out]
  intro admitted
  cases admitted

end S1ap

end SonicaEnb
