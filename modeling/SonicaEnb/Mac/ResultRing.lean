import SonicaEnb.Mac.DlTurn

/-! # The ring of results

`generate_tti_result` looks into a ring of results before it schedules anything,
and answers from there when the entry carries the TTI it is asked for. An entry is
cleared before it is filled, its `tti_params` with it, and nothing writes them
again: no TTI ever finds itself in the ring. So the scheduler of the other modules
has no ring, and is this one.
-/

namespace SonicaEnb

/-- `sf_sched_results.size()` -/
def nofSfSchedResults : Nat := 80

/-- `sf_sched_result`; nothing reads or writes its masks. -/
structure SfSchedResult where
  ttiParams : TtiParams := TtiParams.ofRx sfResultTtiRx
  dlSchedResult : DlSchedRes := {}
  ulSchedResult : UlSchedRes := {}
  deriving Repr, DecidableEq

/-- The scheduler with the ring of its results. -/
structure CarrierSched extends Sched where
  sfSchedResults : Nat → SfSchedResult := fun _ => {}

namespace Sched

/-- What `generate_tti_result` does for a TTI that it has not found: the branch that `dl_flag`
    selects, then `generate_sched_results`. -/
def scheduleTti (s : Sched) (ttiRx : Nat) (dlFlag : Bool) : Option (Sched × DlSchedRes × UlSchedRes) :=
  if dlFlag then
    match s.schedCtrl ttiRx with
    | none => none
    | some s =>
        match allocDlUsers (s.grid ttiRx) with
        | none => none
        | some ttiSched =>
            let (ttiSched, dl, ul) := ttiSched.generateSchedResults
            some (s.store ttiRx ttiSched, dl, ul)
  else
    let s := { s with ulSchedTable := s.ulSchedTable.set (ttiRx % 10240) false }
    let (ttiSched, dl, ul) := (schedUsersUl (s.grid ttiRx)).generateSchedResults
    some (s.store ttiRx ttiSched, dl, ul)

end Sched

namespace CarrierSched

/-- `get_next_sf_result` -/
def getNextSfResult (s : CarrierSched) (ttiRx : Nat) : SfSchedResult :=
  s.sfSchedResults (ttiRx % nofSfSchedResults)

/-- `generate_tti_result` -/
def generateTtiResult (s : CarrierSched) (ttiRx : Nat) (dlFlag : Bool) :
    Option (CarrierSched × SfSchedResult) :=
  if ttiRx ≠ (s.getNextSfResult ttiRx).ttiParams.ttiRx then
    match s.scheduleTti ttiRx dlFlag with
    | none => none
    | some (sched, dl, ul) =>
        -- `*sf_result = {}`: the TTI of the entry is the default again
        let sfResult : SfSchedResult := { dlSchedResult := dl, ulSchedResult := ul }
        some ({ toSched := sched
                sfSchedResults := fun i =>
                  if i = ttiRx % nofSfSchedResults then sfResult else s.sfSchedResults i },
          sfResult)
  else some (s, s.getNextSfResult ttiRx)

/-- The TTI stands in the ring: it is answered without being scheduled. -/
def Stored (s : CarrierSched) (ttiRx : Nat) : Prop := (s.getNextSfResult ttiRx).ttiParams.ttiRx = ttiRx

instance (s : CarrierSched) (ttiRx : Nat) : Decidable (s.Stored ttiRx) :=
  inferInstanceAs (Decidable (_ = _))

variable {s s' : CarrierSched} {ttiRx : Nat} {dlFlag : Bool} {r : SfSchedResult}

theorem generateTtiResult_stored (stored : s.Stored ttiRx) :
    s.generateTtiResult ttiRx dlFlag = some (s, s.getNextSfResult ttiRx) := by
  rw [generateTtiResult, if_neg (not_not_intro stored.symm)]

/-- A TTI that is not in the ring is scheduled, and then stands there under the default. -/
theorem generateTtiResult_cases (notStored : ¬ s.Stored ttiRx)
    (ran : s.generateTtiResult ttiRx dlFlag = some (s', r)) :
    ∃ dl ul, s.scheduleTti ttiRx dlFlag = some (s'.toSched, dl, ul) ∧
      r = { dlSchedResult := dl, ulSchedResult := ul } ∧ s'.getNextSfResult ttiRx = r := by
  rw [generateTtiResult, if_pos fun same => notStored same.symm] at ran
  split at ran
  · cases ran
  · rename_i sched dl ul scheduled
    cases ran
    exact ⟨dl, ul, scheduled, rfl, if_pos rfl⟩

theorem generateTtiResult_of_schedule {sched : Sched} {dl : DlSchedRes} {ul : UlSchedRes}
    (notStored : ¬ s.Stored ttiRx) (scheduled : s.scheduleTti ttiRx dlFlag = some (sched, dl, ul)) :
    ∃ s', s.generateTtiResult ttiRx dlFlag =
      some (s', { dlSchedResult := dl, ulSchedResult := ul }) ∧ s'.toSched = sched := by
  rw [generateTtiResult, if_pos fun same => notStored same.symm, scheduled]
  exact ⟨_, rfl, rfl⟩

/-! ## The ring stores nothing -/

/-- Every entry carries the default. -/
def Blank (s : CarrierSched) : Prop := ∀ i, (s.sfSchedResults i).ttiParams.ttiRx = sfResultTtiRx

theorem Blank.not_stored (blank : s.Blank) (inside : ttiRx < 10240) : ¬ s.Stored ttiRx := by
  intro stored
  have key := (blank (ttiRx % nofSfSchedResults)).symm.trans stored
  unfold sfResultTtiRx at key
  omega

theorem Blank.generateTtiResult (blank : s.Blank) (inside : ttiRx < 10240)
    (ran : s.generateTtiResult ttiRx dlFlag = some (s', r)) : s'.Blank := by
  have notStored := blank.not_stored inside
  rw [CarrierSched.generateTtiResult, if_pos fun same => notStored same.symm] at ran
  split at ran
  · cases ran
  · cases ran
    intro i
    simp only
    split
    · rfl
    · exact blank i

/-- From a ring that stores nothing, the downlink call is the one without a ring. -/
theorem Blank.downlink (blank : s.Blank) (inside : ttiRx < 10240) :
    (s.generateTtiResult ttiRx true).map (fun a => (a.1.toSched, a.2.dlSchedResult)) =
      s.toSched.generateTtiResultDl ttiRx := by
  have notStored := blank.not_stored inside
  have first : ttiRx ≠ sfResultTtiRx := by unfold sfResultTtiRx; omega
  rw [CarrierSched.generateTtiResult, if_pos fun same => notStored same.symm,
    Sched.generateTtiResultDl, if_neg first]
  simp only [Sched.scheduleTti, if_true]
  cases s.schedCtrl ttiRx with
  | none => rfl
  | some s₁ =>
      simp only
      cases allocDlUsers (s₁.grid ttiRx) with
      | none => rfl
      | some g => rfl

/-- And the uplink call is too. -/
theorem Blank.uplink (blank : s.Blank) (inside : ttiRx < 10240) :
    (s.generateTtiResult ttiRx false).map (fun a => (a.1.toSched, a.2.ulSchedResult)) =
      some (s.toSched.generateTtiResultUl ttiRx) := by
  have notStored := blank.not_stored inside
  have first : ttiRx ≠ sfResultTtiRx := by unfold sfResultTtiRx; omega
  rw [CarrierSched.generateTtiResult, if_pos fun same => notStored same.symm,
    Sched.generateTtiResultUl, if_neg first]
  rfl

end CarrierSched

end SonicaEnb
