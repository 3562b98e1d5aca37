import SonicaEnb.Upper.UserIds

/-! # The user list as the other databases see it

`S1apUsers` keeps of every UE its context only, and asks whether an identity is taken
where the source walks a hash table. What reaches the list does there what it does
here, whatever the order of the table.
-/

namespace SonicaEnb

namespace S1ap

variable {s s' : S1ap} {walk : List Nat} {u : Nat}

/-- The contexts of the UEs, with the counter. -/
def toUsers (s : S1ap) : S1apUsers := ⟨s.users.map S1apUe.toUeCtxt, s.nextEnbUeS1apId⟩

@[simp] theorem send_nextEnbUeS1apId (s : S1ap) (u : Nat) (msg : S1apUe → S1apMsg) :
    (s.send u msg).nextEnbUeS1apId = s.nextEnbUeS1apId := by
  unfold send
  split
  · rfl
  · split <;> rfl

theorem toUsers_congr (users : s'.users = s.users) (next : s'.nextEnbUeS1apId = s.nextEnbUeS1apId) :
    s'.toUsers = s.toUsers := by
  rw [toUsers, users, next, toUsers]

theorem findUeRnti_isSome (walks : s.Walks walk) (rnti : Nat) :
    (s.findUeRnti walk rnti).isSome = s.toUsers.hasRnti rnti := by
  unfold findUeRnti S1apUsers.hasRnti
  by_cases invalid : rnti = invalidRnti
  · simp [invalid]
  · rw [Bool.eq_iff_iff]
    simp only [invalid, if_false, ne_eq, not_false_eq_true, decide_true, Bool.true_and, toUsers]
    rw [SortedMap.search_isSome walks, SortedMap.any_entries_iff (p := fun ctxt : UeCtxt => decide (ctxt.rnti = rnti))]
    simp [SortedMap.find?_map]

theorem findUeMmeid_hasMmeId (walks : s.Walks walk) (mmeId : Nat) :
    (s.findUeMmeid walk mmeId).isSome = s.toUsers.hasMmeId mmeId := by
  unfold findUeMmeid S1apUsers.hasMmeId
  rw [Bool.eq_iff_iff, SortedMap.search_isSome walks,
    SortedMap.any_entries_iff (p := fun ctxt : UeCtxt => S1apUsers.matchesMmeId mmeId ctxt)]
  simp [toUsers, SortedMap.find?_map]

/-- `add_user`, whatever the order of the hash table. -/
theorem addUser_toUsers (walks : s.Walks walk) (user : S1apUe) :
    (s.addUser walk user).2.toUsers = s.toUsers.addUser user.enbUeS1apId user.toUeCtxt := by
  have known : (s.findUeEnbid user.enbUeS1apId).isSome =
      (s.toUsers.users.find? user.enbUeS1apId).isSome := by
    unfold findUeEnbid
    rw [toUsers, SortedMap.find?_map, Option.isSome_map]
    split <;> simp [*]
  unfold addUser S1apUsers.addUser
  rw [findUeRnti_isSome walks, findUeMmeid_hasMmeId walks, known]
  split
  · rfl
  · split
    · rfl
    · split
      · rfl
      · have same : (s.users.insert user.enbUeS1apId user).map S1apUe.toUeCtxt =
            (s.users.map S1apUe.toUeCtxt).insert user.enbUeS1apId user.toUeCtxt := by
          apply SortedMap.ext_find?
          intro k
          simp only [SortedMap.find?_map, SortedMap.find?_insert]
          split <;> rfl
        simp only [toUsers, same]

theorem sendInitialuemessage_toUsers (s : S1ap) (u : Nat) (hasTmsi : Bool) :
    (s.sendInitialuemessage u hasTmsi).toUsers = s.toUsers :=
  toUsers_congr (send_users s u _) (send_nextEnbUeS1apId s u _)

theorem announce_toUsers (added : Option Nat × S1ap) (hasTmsi : Bool) :
    (announce added hasTmsi).toUsers = added.2.toUsers := by
  obtain ⟨_ | u, s⟩ := added
  · rfl
  · exact sendInitialuemessage_toUsers s u hasTmsi

theorem initialUe_toUsers (walks : s.Walks walk) (rnti : Nat) (hasTmsi : Bool) :
    (s.initialUe walk rnti hasTmsi).toUsers = s.toUsers.initialUe rnti hasTmsi := by
  have walks' : (s.newUe rnti).2.Walks walk := walks
  have found := findUeRnti_isSome walks' rnti
  have added := addUser_toUsers walks' (s.newUe rnti).1
  have counted : (s.newUe rnti).2.toUsers = s.toUsers.takeId := rfl
  rw [counted] at found added
  have announced : (announce ((s.newUe rnti).2.addUser walk (s.newUe rnti).1) hasTmsi).toUsers =
      s.toUsers.takeId.addUser s.toUsers.nextEnbUeS1apId { rnti := rnti } :=
    (announce_toUsers _ hasTmsi).trans added
  unfold initialUe S1apUsers.initialUe
  cases hasTmsi with
  | false => exact announced
  | true =>
      cases lookup : (s.newUe rnti).2.findUeRnti walk rnti with
      | none =>
          rw [lookup] at found
          simp only [lookup, ← found, if_true, Option.isSome_none, Bool.and_false, Bool.false_eq_true, if_false]
          exact announced
      | some u =>
          rw [lookup] at found
          simp only [lookup, ← found, if_true, Option.isSome_some, Bool.and_self]
          exact (sendInitialuemessage_toUsers _ u true).trans counted

/-! ## Messages from the MME -/

/-- A change that a context does not show. -/
theorem map_modify_same {users : SortedMap Nat S1apUe} (u : Nat) {f : S1apUe → S1apUe}
    (keeps : ∀ ue, (f ue).toUeCtxt = ue.toUeCtxt) :
    (users.modify u f).map S1apUe.toUeCtxt = users.map S1apUe.toUeCtxt := by
  apply SortedMap.ext_find?
  intro k
  rw [SortedMap.find?_map, SortedMap.find?_map, SortedMap.find?_modify]
  split
  · rw [Option.map_map]
    congr 1
    funext ue
    exact keeps ue
  · rfl

theorem sendUectxtreleaserequest_toUsers (s : S1ap) (u : Nat) :
    (s.sendUectxtreleaserequest u).toUsers = s.toUsers := by
  have next : (s.sendUectxtreleaserequest u).nextEnbUeS1apId = s.nextEnbUeS1apId := by
    unfold sendUectxtreleaserequest
    split
    · rfl
    · split
      · rfl
      · split
        · rfl
        · exact send_nextEnbUeS1apId _ u _
  rcases sendUectxtreleaserequest_users s u with same | changed
  · exact toUsers_congr same next
  · have same : (s.users.modify u requested).map S1apUe.toUeCtxt = s.users.map S1apUe.toUeCtxt :=
      map_modify_same u fun _ => rfl
    rw [toUsers, changed, next, same, toUsers]

theorem findS1apmsgUser_toUsers (s : S1ap) (enbId mmeId : Nat) :
    ((s.findS1apmsgUser enbId mmeId).1.isSome = (s.toUsers.findS1apmsgUser enbId mmeId).1.isSome) ∧
      (s.findS1apmsgUser enbId mmeId).2.toUsers = (s.toUsers.findS1apmsgUser enbId mmeId).2 := by
  unfold findS1apmsgUser S1apUsers.findS1apmsgUser findUeEnbid
  cases found : s.users.find? enbId with
  | none => simp [toUsers, found]
  | some ue =>
      have same : (s.users.modify enbId (setMmeId mmeId)).map S1apUe.toUeCtxt =
          (s.users.map S1apUe.toUeCtxt).insert enbId
            { ue.toUeCtxt with mmeUeS1apIdPresent := true, mmeUeS1apId := mmeId } := by
        apply SortedMap.ext_find?
        intro k
        rw [SortedMap.find?_map, SortedMap.find?_modify, SortedMap.find?_insert, SortedMap.find?_map]
        split
        · rename_i here
          subst here
          rw [found]
          rfl
        · rfl
      simp only [Option.isSome_some, if_true, toUsers, SortedMap.find?_map, found, Option.map_some, same,
        and_self]

theorem handleUeMsg_toUsers (s : S1ap) (enbId mmeId : Nat) (csFallback : Bool) :
    (s.handleUeMsg enbId mmeId csFallback).toUsers = (s.toUsers.findS1apmsgUser enbId mmeId).2 := by
  rw [← (findS1apmsgUser_toUsers s enbId mmeId).2]
  unfold handleUeMsg
  rcases s.findS1apmsgUser enbId mmeId with ⟨_ | u, t⟩
  · rfl
  · cases csFallback with
    | false => rfl
    | true => exact sendUectxtreleaserequest_toUsers t u

theorem erase_toUsers (keyed : Keyed s.users) {ue : S1apUe} (found : s.users.find? u = some ue) :
    (s.erase u).toUsers = s.toUsers.erase u := by
  have same : (s.users.erase u).map S1apUe.toUeCtxt = (s.users.map S1apUe.toUeCtxt).erase u := by
    apply SortedMap.ext_find?
    intro k
    simp only [SortedMap.find?_map, SortedMap.find?_erase]
    split <;> rfl
  unfold erase
  simp only [found, keyed u ue found]
  rw [toUsers, same]
  rfl

/-- The end of a release takes the UE it found out of the list. -/
theorem release_toUsers (keyed : Keyed s.users) {ue : S1apUe} (found : s.users.find? u = some ue) :
    (s.release u).toUsers = s.toUsers.erase u := by
  have users := sendUectxtreleasecomplete_users s u
  have next : (s.sendUectxtreleasecomplete u).nextEnbUeS1apId = s.nextEnbUeS1apId :=
    send_nextEnbUeS1apId s u _
  rw [release, erase_toUsers (users ▸ keyed) (users ▸ found), toUsers_congr users next]

end S1ap

end SonicaEnb
