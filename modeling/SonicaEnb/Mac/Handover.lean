import SonicaEnb.Mac.DlOnce
import SonicaEnb.Mac.Exclusive

/-! # What MAC hands to PHY

The result of a downlink run holds at most one element of each kind, and MAC copies
the elements one over the other into the one grant PHY gets. Whatever else was
collected, the grant is that of a SIB, else of a response, else of a user.
-/

namespace SonicaEnb

/-- The DCI of every random access response. -/
def rarDci (rnti : Nat) : RaNbiotDlDci :=
  { mcsIdx := 4, format := 1
    alloc := { hasSib1 := false, isRa := false, iDelay := 0, iSf := 0, iRep := 0
               harqAck := 1, iNStart := 0, rnti := rnti } }

namespace Sched

variable {s s' : Sched} {rx : Nat} {c : TtiCalls} {o : TtiLog}

/-- The response of a TTI, of which one grant goes out. -/
theorem tti_rarAllocs (stepped : s.tti rx c = some (s', o)) (ok : RingOk rx s) :
    (o.pre.rarDue (rx % 10240) = none ∧ o.sf.rarAllocs = []) ∨
      ∃ rar alloc, o.pre.rarDue (rx % 10240) = some rar ∧ o.sf.rarAllocs = [alloc] ∧
        alloc.allocData.reqBytes = 8 ∧ isValidDlSf (rx + 4) = true ∧ o.sf.bcAllocs = [] := by
  have okPre := tti_pre_ringOk stepped ok
  obtain ⟨lastTti, s₁, ret, g₁, g₂, run, -, allocs⟩ := tti_dlRun stepped
  have unscheduled : ((o.pre.setLastTti lastTti).getSfSched (rx % 10240)).NoDl := by
    rw [setLastTti_getSfSched]
    exact okPre.own_noDl
  obtain ⟨rars, bcs, -⟩ := run.users_keep (run.fresh unscheduled)
  have noRar : ((o.pre.setLastTti lastTti).dlGrid (rx % 10240)).sf.rarAllocs = [] := unscheduled.rarAllocs
  have noBc : ((o.pre.setLastTti lastTti).dlGrid (rx % 10240)).sf.bcAllocs = [] := unscheduled.bcAllocs
  rw [allocs.rarAllocs, allocs.bcAllocs, rars, bcs]
  rcases run.rar_cases with
    ⟨notDue, -, -, rfl⟩ | ⟨rar, later, info, more, alloc, due, -, -, answers, -, free, sent⟩
  · left
    refine ⟨notDue, ?_⟩
    rw [afterSibs, ← dlGrid]
    rcases SfGrid.allocSibs_cases (o.pre.setLastTti lastTti).sib1SfIdx
        ((o.pre.setLastTti lastTti).dlGrid (rx % 10240)) with
      ⟨-, -, sent⟩ | ⟨-, -, -, sent⟩ | ⟨-, sent⟩ <;> rw [sent] <;> exact noRar
  · right
    refine ⟨rar, alloc, due, ?_, answers.reqBytes, ?_, ?_⟩
    · rcases sent with ⟨-, -, -, rfl⟩ | ⟨-, -, -, rfl⟩ <;>
        simp [SfGrid.reserveRar, SfGrid.sendRar, noRar]
    · simp only [SfGrid.rarTtiFree, dlGrid_ttiTxDl, isValidDlSf_mod, Bool.and_eq_true] at free
      exact free.1.1
    · rcases sent with ⟨-, -, -, rfl⟩ | ⟨-, -, -, rfl⟩ <;> exact noBc

/-- The data of a TTI, that of the user that is due. -/
theorem tti_data (stepped : s.tti rx c = some (s', o)) (ok : RingOk rx s) :
    (o.pre.dlUserDue (rx % 10240) = none ∧ o.dl.data = []) ∨
      ∃ user ue, o.pre.dlUserDue (rx % 10240) = some user ∧ o.pre.ueDb.find? user = some ue ∧
        o.dl.data = [(ue.afterAlloc.generateFormatN1 (SfGrid.iSfFor ue.getRequestedDlBytes.2)).1] := by
  have okPre := tti_pre_ringOk stepped ok
  obtain ⟨lastTti, s₁, ret, g₁, g₂, run, -, -⟩ := tti_dlRun stepped
  have unscheduled : ((o.pre.setLastTti lastTti).getSfSched (rx % 10240)).NoDl := by
    rw [setLastTti_getSfSched]
    exact okPre.own_noDl
  have same := setLastTti_dlUserDue o.pre lastTti (rx % 10240)
  rcases run.ues unscheduled with ⟨none, -, data, -⟩ | ⟨user, ue, npdschTtis, due, found, -, data, -⟩
  · exact .inl ⟨same ▸ none, data⟩
  · exact .inr ⟨user, ue, same ▸ due, found, data⟩

theorem tti_lists (stepped : s.tti rx c = some (s', o)) (ok : RingOk rx s)
    (due : (o.pre.dlUserDue (rx % 10240)).isSome) : o.dl.data ≠ [] := by
  rcases tti_data stepped ok with ⟨none, -⟩ | ⟨user, ue, -, -, listed⟩
  · rw [none] at due
    cases due
  · rw [listed]
    exact List.cons_ne_nil _ _

/-- A TTI that lists data serves a user: the throttle was over and runs again. -/
theorem tti_served (stepped : s.tti rx c = some (s', o)) (ok : RingOk rx s) (some : o.dl.data ≠ []) :
    s'.allocActive = true ∧ s'.lastAlloc = (rx + 4) % 10240 ∧
      (o.pre.allocActive = true → (o.pre.dlGrid (rx % 10240)).throttleOver = true) := by
  cases tti_dlOutcome stepped ok with
  | nothing _ _ _ _ _ _ _ _ data => exact absurd (tti_no_data stepped data) some
  | sib1 _ _ _ _ _ _ _ data => exact absurd (tti_no_data stepped data) some
  | sib2 _ _ _ _ _ _ _ data => exact absurd (tti_no_data stepped data) some
  | rar _ _ _ _ _ _ _ _ _ _ _ data => exact absurd (tti_no_data stepped data) some
  | user _ _ _ _ _ _ _ _ _ _ _ _ elapsed last active => exact ⟨active, last, elapsed⟩

end Sched

/-- The grant PHY gets for the TTI received at `rx`, with what it was made from. -/
inductive Handed (rx : Nat) (o : TtiLog) (grant : DlSchedPhy) : Prop where
  | nothing (none : grant.nofGrants = 0)
  | sib1 (occasion : (rx + 4) % 20 = 14)
      (only : grant = ⟨{ dci := raDlSib1, data := some (.bcch 0), isNewSib := o.pre.sib1SfIdx == 0 }, 1⟩)
  | sib2 (occasion : Sched.isSib2Start (rx + 4) = true)
      (free : o.pre.dlCleared rx ((rx + 4) % 10240) = false)
      (only : grant = ⟨{ dci := raDlSib2, data := some (.bcch 1) }, 1⟩)
  | rar (rar : PendingRar) (rnti : Nat) (due : o.pre.rarDue (rx % 10240) = some rar)
      (valid : isValidDlSf (rx + 4) = true) (grants : 0 < grant.nofGrants)
      (dci : grant.npdsch = { dci := rarDci rnti, data := some (.rarPayload 0), hasNpdcch := true })
  | user (user : Nat) (ue : SchedUe) (due : o.pre.dlUserDue (rx % 10240) = some user)
      (found : o.pre.ueDb.find? user = some ue) (valid : isValidDlSf (rx + 4) = true)
      (notDue : o.pre.rarDue (rx % 10240) = none) (grants : 0 < grant.nofGrants)
      (dci : grant.npdsch.dci =
        (ue.afterAlloc.generateFormatN1 (SfGrid.iSfFor ue.getRequestedDlBytes.2)).1.dci)
      (npdcch : grant.npdsch.hasNpdcch = true)
      (data : grant.npdsch.data = none ∨ grant.npdsch.data = some (.ueTx grant.npdsch.dci.alloc.rnti))

namespace Sched

variable {s s' : Sched} {rx : Nat} {c : TtiCalls} {o : TtiLog}

theorem getDlSched_bc (known : Nat → Bool) {dl : DlSchedRes} {b : DlSchedBc} (bc : dl.bc = [b])
    (rar : dl.rar = []) (data : dl.data = []) :
    getDlSched known dl =
      { npdsch := { dci := b.dci, isNewSib := b.isNewSib
                    data := some (.bcch (if b.dci.alloc.hasSib1 then 0 else 1)) }
        nofGrants := 1 } := by
  simp [getDlSched, bc, rar, data, DlSchedPhy.copyBc]

theorem getDlSched_data {known : Nat → Bool} {dl : DlSchedRes} {elem : DlSchedData} (bc : dl.bc = [])
    (rar : dl.rar = []) (data : dl.data = [elem]) (isKnown : known elem.dci.alloc.rnti = true) :
    getDlSched known dl =
      { npdsch := { dci := elem.dci, hasNpdcch := true
                    data := if elem.pdu.length > 0 then some (.ueTx elem.dci.alloc.rnti) else none }
        nofGrants := 1 } := by
  simp [getDlSched, bc, rar, data, DlSchedPhy.copyData, isKnown]

/-- The response is copied over whatever data was collected before it. -/
theorem getDlSched_rar (known : Nat → Bool) {dl : DlSchedRes} {rnti : Nat} {grants : List DlSchedRarGrant}
    (bc : dl.bc = []) (rar : dl.rar = [⟨8, rarDci rnti, grants⟩]) :
    0 < (getDlSched known dl).nofGrants ∧ (getDlSched known dl).npdsch =
      { dci := rarDci rnti, data := some (.rarPayload 0), hasNpdcch := true } := by
  have fresh : ∀ (elems : List DlSchedData) (res : DlSchedPhy), res.npdsch.isNewSib = false →
      (elems.foldl (DlSchedPhy.copyData known) res).npdsch.isNewSib = false := by
    intro elems
    induction elems with
    | nil => exact fun _ old => old
    | cons elem rest ih =>
        intro res old
        apply ih
        simp only [DlSchedPhy.copyData]
        split <;> exact old
  have isNewSib := fresh dl.data {} rfl
  simp only [getDlSched, bc, rar, List.foldl_nil, List.zipIdx_singleton, List.foldl_cons,
    DlSchedPhy.copyRar, assembleRar, isNewSib]
  exact ⟨Nat.succ_pos _, by simp [rarPayloadLen]⟩

/-- What every TTI hands to PHY, whichever UEs MAC knows. -/
theorem tti_handed (stepped : s.tti rx c = some (s', o)) (ok : RingOk rx s) (known : Nat → Bool) :
    Handed rx o (getDlSched known o.dl) := by
  have outcome := tti_dlOutcome stepped ok
  have bcs := tti_bc stepped
  rcases tti_rarAllocs stepped ok with ⟨notDue, noRar⟩ | ⟨rar, alloc, due, only, size, valid, noBc⟩
  · have rars : o.dl.rar = [] := by
      rw [tti_rar stepped, SfGrid.rarSchedResult, noRar]
      rfl
    cases outcome with
    | nothing _ _ _ _ _ _ _ bc data =>
        have bcs : o.dl.bc = [] := by rw [bcs, SfGrid.bcSchedResult, bc]; rfl
        apply Handed.nothing
        simp [getDlSched, bcs, rars, tti_no_data stepped data]
    | sib1 _ occasion _ _ _ _ bc data =>
        have bcs : o.dl.bc = [⟨raDlSib1, o.pre.sib1SfIdx == 0⟩] := by rw [bcs, SfGrid.bcSchedResult, bc]; rfl
        exact .sib1 occasion (getDlSched_bc known bcs rars (tti_no_data stepped data))
    | sib2 _ occasion free _ _ _ bc data =>
        have bcs : o.dl.bc = [⟨raDlSib2, false⟩] := by rw [bcs, SfGrid.bcSchedResult, bc]; rfl
        exact .sib2 occasion free (getDlSched_bc known bcs rars (tti_no_data stepped data))
    | rar _ _ _ _ _ _ _ _ _ last =>
        rw [lastRarDue, notDue] at last
        cases last
    | user user ue npdschTtis _ due found _ _ valid _ _ _ _ _ _ _ _ bc =>
        have bcs : o.dl.bc = [] := by rw [bcs, SfGrid.bcSchedResult, bc]; rfl
        rcases tti_data stepped ok with ⟨none, -⟩ | ⟨user', ue', due', found', data⟩
        · rw [due] at none
          cases none
        · rw [due] at due'
          cases due'
          rw [found] at found'
          cases found'
          cases isKnown : known (ue.afterAlloc.generateFormatN1
              (SfGrid.iSfFor ue.getRequestedDlBytes.2)).1.dci.alloc.rnti with
          | false =>
              apply Handed.nothing
              simp [getDlSched, bcs, rars, data, DlSchedPhy.copyData, isKnown]
          | true =>
              have grant := getDlSched_data bcs rars data isKnown
              refine .user user ue due found valid notDue ?_ ?_ ?_ ?_ <;> rw [grant]
              · exact Nat.one_pos
              · simp only
                split
                · exact .inr rfl
                · exact .inl rfl
  · have bcs : o.dl.bc = [] := by rw [bcs, SfGrid.bcSchedResult, noBc]; rfl
    have rars : o.dl.rar = [⟨8, rarDci alloc.allocData.rnti, alloc.rarGrant⟩] := by
      rw [tti_rar stepped, SfGrid.rarSchedResult, only, ← size]
      rfl
    have grant := getDlSched_rar known bcs rars
    exact .rar rar alloc.allocData.rnti due valid grant.1 grant.2

/-- In a SIB1 subframe SIB1 is handed over. -/
theorem tti_handed_sib1 (windows : Windows rx s) (stepped : s.tti rx c = some (s', o))
    (occasion : (rx + 4) % 20 = 14) (known : Nat → Bool) :
    getDlSched known o.dl =
      ⟨{ dci := raDlSib1, data := some (.bcch 0), isNewSib := s.sib1SfIdx == 0 }, 1⟩ := by
  have counterPre := (tti_pre_sameCarrier stepped).sib1SfIdx
  rw [← counterPre]
  cases tti_dlOutcome stepped windows.ring with
  | nothing _ noSib1 =>
      have marked := noSib1 occasion
      rw [(windows.dl.pre stepped).sib1_free occasion] at marked
      cases marked
  | sib1 _ _ _ _ _ _ bc data rar =>
      have bcs : o.dl.bc = [⟨raDlSib1, o.pre.sib1SfIdx == 0⟩] := by
        rw [tti_bc stepped, SfGrid.bcSchedResult, bc]
        rfl
      have rars : o.dl.rar = [] := by
        rw [tti_rar stepped, SfGrid.rarSchedResult, rar]
        rfl
      exact getDlSched_bc known bcs rars (tti_no_data stepped data)
  | sib2 _ start =>
      have residue := sib2Start_residue start
      omega
  | rar _ _ _ _ noSib1 => exact absurd occasion noSib1
  | user _ _ _ _ _ _ _ _ _ _ noSib1 => exact absurd occasion noSib1

end Sched

end SonicaEnb
