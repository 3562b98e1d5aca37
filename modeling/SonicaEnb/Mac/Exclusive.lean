import SonicaEnb.Mac.Broadcast
import SonicaEnb.Mac.Mac

/-! # One transmission per downlink TTI

Every TTI that a run gives away is listed: the subframes of SIB1 and SIB2, the
DCIs and responses of random access, the DCIs and data of users, the DCIs of new
uplink transmissions. Two of the writers do not look where they write. SIB2 checks
its first subframe only, and a response checks the TTI of its DCI only and, when it
has more than one grant, reserves nothing at all. Where neither happens, nothing is
given away twice.
-/

namespace SonicaEnb

namespace TtiLog

/-- The downlink TTIs given away in this TTI, in absolute time. -/
def dlClaims (o : TtiLog) : List Nat :=
  (o.dl.bc.flatMap fun b => if b.dci.alloc.hasSib1 then [o.tx] else sib2Times o.tx) ++
    (o.dl.rar.flatMap fun _ => [o.tx, rarTx o.tx]) ++
    (o.sf.dataAllocs.flatMap fun a => o.tx :: a.npdschTtis.map (Wheel.unwrap 10240 o.tx)) ++
    o.newtxGrants.map fun _ => o.tx

/-- A SIB2 about to be sent finds all its subframes free; a response about to be sent has one grant
    only and finds its subframe free. -/
def DlClean (o : TtiLog) : Prop :=
  (Sched.isSib2Start o.tx = true → o.pre.dlSchedTable (o.tx % 10240) = false →
      ∀ a ∈ sib2Times o.tx, o.pre.dlSchedTable (a % 10240) = false) ∧
    ∀ rar ∈ o.pre.rarDue (o.rx % 10240),
      rar.msg3Grant.length = 1 ∧ o.pre.dlSchedTable (rarTx o.tx % 10240) = false

instance (o : TtiLog) : Decidable o.DlClean := inferInstanceAs (Decidable (_ ∧ _))

end TtiLog

/-! ## What MAC collects -/

theorem SfGrid.dlDataSchedResult_length (allocs : List DlAlloc) (ueDb : SortedMap Nat SchedUe) :
    (dlDataSchedResult allocs ueDb).1.length ≤ allocs.length := by
  induction allocs generalizing ueDb with
  | nil => simp [dlDataSchedResult]
  | cons a rest ih =>
      rw [dlDataSchedResult]
      split
      · have := ih ueDb
        simp only [List.length_cons]
        omega
      · rename_i ue _
        have := ih (ueDb.modify a.user fun _ => (ue.generateFormatN1 a.iSf).2)
        simp only
        split <;> simp only [List.length_cons] <;> omega

/-- A loop whose turns collect at most one grant each. -/
theorem foldl_nofGrants_le {α : Type} {copy : DlSchedPhy → α → DlSchedPhy}
    (one : ∀ res elem, (copy res elem).nofGrants ≤ res.nofGrants + 1) (elems : List α) (res : DlSchedPhy) :
    (elems.foldl copy res).nofGrants ≤ res.nofGrants + elems.length := by
  induction elems generalizing res with
  | nil => simp
  | cons elem rest ih =>
      have first := one res elem
      have more := ih (copy res elem)
      simp only [List.foldl_cons, List.length_cons]
      omega

/-- MAC collects at most one grant for every element of the scheduler's result. -/
theorem getDlSched_nofGrants_le (known : Nat → Bool) (dl : DlSchedRes) :
    (getDlSched known dl).nofGrants ≤ dl.data.length + dl.rar.length + dl.bc.length := by
  have copyData : ∀ res elem, (DlSchedPhy.copyData known res elem).nofGrants ≤ res.nofGrants + 1 := by
    intro res elem
    simp only [DlSchedPhy.copyData]
    split <;> simp
  have copyRar : ∀ res elem, (DlSchedPhy.copyRar res elem).nofGrants ≤ res.nofGrants + 1 :=
    fun _ _ => Nat.le_refl _
  have copyBc : ∀ res elem, (DlSchedPhy.copyBc res elem).nofGrants ≤ res.nofGrants + 1 :=
    fun _ _ => Nat.le_refl _
  have data := foldl_nofGrants_le copyData dl.data {}
  have rar := foldl_nofGrants_le copyRar dl.rar.zipIdx (dl.data.foldl (DlSchedPhy.copyData known) {})
  rw [List.length_zipIdx] at rar
  have bc := foldl_nofGrants_le copyBc dl.bc
    (dl.rar.zipIdx.foldl DlSchedPhy.copyRar (dl.data.foldl (DlSchedPhy.copyData known) {}))
  simp only [getDlSched] at data rar bc ⊢
  omega

namespace Sched

/-! ## One TTI -/

variable {s s' : Sched} {rx : Nat} {c : TtiCalls} {o : TtiLog}

/-- The responses of the result are those of the subframe. -/
theorem tti_rar (stepped : s.tti rx c = some (s', o)) : o.dl.rar = SfGrid.rarSchedResult o.sf := by
  obtain ⟨lastTti, s₁, ret, g₁, g₂, run, -, allocs⟩ := tti_dlRun stepped
  rw [run.result, SfGrid.rarSchedResult, allocs.rarAllocs]
  rfl

theorem tti_data_length (stepped : s.tti rx c = some (s', o)) :
    o.dl.data.length ≤ o.sf.dataAllocs.length := by
  obtain ⟨lastTti, s₁, ret, g₁, g₂, run, -, allocs⟩ := tti_dlRun stepped
  rw [run.result, allocs.dataAllocs]
  exact SfGrid.dlDataSchedResult_length _ _

theorem tti_no_data (stepped : s.tti rx c = some (s', o)) (none : o.sf.dataAllocs = []) : o.dl.data = [] := by
  have length := tti_data_length stepped
  rw [none] at length
  exact List.length_eq_zero_iff.mp (by simpa using length)

/-- The DCI of a new transmission goes where the downlink run left the TTI free. -/
theorem tti_newtx_free (stepped : s.tti rx c = some (s', o)) (ok : RingOk rx s)
    (granted : o.newtxGrants ≠ []) : s'.dlSchedTable ((rx + 4) % 10240) = false := by
  rcases tti_newtx_table stepped ok with ⟨none, -⟩ | ⟨due, -, -⟩
  · exact absurd none granted
  · obtain ⟨-, -, -, -, lastTti, s₁, -, -, ul⟩ := tti_cases stepped
    have same := (generateTtiResultUl_sameDl (s := o.mid) (by omega : rx % 10240 < 10240)).1.dlSchedTable
    rw [ul] at same
    simp only [SfGrid.newtxDue, SfGrid.newtxTtiFree, Bool.and_eq_true, Bool.not_eq_true'] at due
    have free := due.1.1.1.2
    have txDl : (o.mid.ulGrid (rx % 10240)).sf.ttiParams.ttiTxDl = (rx + 4) % 10240 := by
      rw [← ttiAdd_mod]
      exact getSfSched_ttiTxDl _ _
    rw [txDl] at free
    rw [same]
    exact free

/-- What the TTI received at `rx` may claim: nothing before the TTI it sends, and only TTIs it found
    free and, but for the one it sends, marks. -/
structure FairClaims (rx : Nat) (pre post : Sched) (claims : List Nat) : Prop where
  nodup : claims.Nodup
  from' : ∀ a ∈ claims, rx + 4 ≤ a ∧ a < rx + 18
  free : ∀ a ∈ claims, pre.dlSchedTable (a % 10240) = false
  marked : ∀ a ∈ claims, a = rx + 4 ∨ post.dlSchedTable (a % 10240) = true

/-- A TTI in which the downlink run took the TTI sent has no DCI for a new transmission. -/
theorem tti_no_newtx (stepped : s.tti rx c = some (s', o)) (ok : RingOk rx s)
    (taken : s'.dlSchedTable ((rx + 4) % 10240) = true) : o.newtxGrants = [] := by
  by_contra granted
  rw [tti_newtx_free stepped ok granted] at taken
  cases taken

theorem FairClaims.one {pre post : Sched} (free : pre.dlSchedTable ((rx + 4) % 10240) = false) :
    FairClaims rx pre post [rx + 4] where
  nodup := List.nodup_singleton _
  from' a member := by
    rw [List.mem_singleton.mp member]
    omega
  free a member := by
    rw [List.mem_singleton.mp member]
    exact free
  marked a member := .inl (List.mem_singleton.mp member)

theorem FairClaims.nil {pre post : Sched} : FairClaims rx pre post [] where
  nodup := List.nodup_nil
  from' a member := by cases member
  free a member := by cases member
  marked a member := by cases member

/-- A DCI and the subframes it points to. -/
theorem FairClaims.dci {pre post : Sched} {times : List Nat} (nodup : times.Nodup)
    (now : pre.dlSchedTable ((rx + 4) % 10240) = false)
    (ahead : ∀ a ∈ times, rx + 5 ≤ a ∧ a < rx + 18 ∧ pre.dlSchedTable (a % 10240) = false ∧
      post.dlSchedTable (a % 10240) = true) :
    FairClaims rx pre post ((rx + 4) :: times) where
  nodup := by
    refine List.nodup_cons.mpr ⟨?_, nodup⟩
    intro member
    have := (ahead _ member).1
    omega
  from' a member := by
    rcases List.mem_cons.mp member with rfl | later
    · omega
    · obtain ⟨lower, upper, -⟩ := ahead a later
      omega
  free a member := by
    rcases List.mem_cons.mp member with rfl | later
    · exact now
    · exact (ahead a later).2.2.1
  marked a member := by
    rcases List.mem_cons.mp member with rfl | later
    · exact .inl rfl
    · exact .inr (ahead a later).2.2.2

/-- The data TTIs of a user, read back from the table's places. -/
theorem npdschTimes_unwrap (tti n : Nat) :
    ((npdschTimes tti n).map (· % 10240)).map (Wheel.unwrap 10240 tti) = npdschTimes tti n := by
  rw [List.map_map]
  conv_rhs => rw [← List.map_id (npdschTimes tti n)]
  apply List.map_congr_left
  intro a member
  obtain ⟨lower, upper, -⟩ := mem_npdschTimes member
  exact Wheel.unwrap_eq (by omega) (by omega)

theorem dlCleared_now (s : Sched) (rx : Nat) :
    s.dlCleared rx ((rx + 4) % 10240) = s.dlSchedTable ((rx + 4) % 10240) :=
  dlCleared_other (by omega) (by omega)

/-- The subframes of a SIB2 that finds them all free. -/
theorem FairClaims.sib2 {pre post : Sched} (occasion : isSib2Start (rx + 4) = true)
    (table : post.dlSchedTable = (pre.dlCleared rx).mark ((sib2Times (rx + 4)).map (· % 10240)))
    (free : ∀ a ∈ sib2Times (rx + 4), pre.dlSchedTable (a % 10240) = false) :
    FairClaims rx pre post (sib2Times (rx + 4)) where
  nodup := firstTimes_nodup
  from' a member := by
    have residue := sib2Start_residue occasion
    obtain ⟨lower, upper, -⟩ := (mem_sib2Times (by omega)).mp member
    omega
  free := free
  marked a member := by
    right
    rw [table]
    exact Wheel.mark_of_mem _ (List.mem_map_of_mem member)

/-- A SIB2 sends in the TTI it is decided in. -/
theorem now_mem_sib2Times (occasion : isSib2Start (rx + 4) = true) : rx + 4 ∈ sib2Times (rx + 4) := by
  have residue := sib2Start_residue occasion
  have valid : isValidDlSf (rx + 4) = true := by
    rw [isValidDlSf_iff]
    omega
  exact (mem_sib2Times (by omega)).mpr ⟨by omega, by omega, valid⟩

/-- The DCI and the data of a user. -/
theorem DlWindow.user_claims {pre post : Sched} (window : DlWindow rx pre) {n : Nat}
    (free : pre.dlCleared rx ((rx + 4) % 10240) = false) (valid : isValidDlSf (rx + 4) = true)
    (search : (rx + 4) % 8 < 2)
    (elapsed : pre.allocActive = true → (pre.dlGrid (rx % 10240)).throttleOver = true)
    (table : post.dlSchedTable = ((pre.dlCleared rx).set ((rx + 4) % 10240) true).mark
      ((npdschTimes (rx + 4) n).map (· % 10240))) :
    FairClaims rx pre post ((rx + 4) :: npdschTimes (rx + 4) n) := by
  apply FairClaims.dci firstTimes_nodup (by rw [← dlCleared_now]; exact free)
  intro a member
  obtain ⟨lower, upper, -⟩ := mem_npdschTimes member
  have ahead := window.data_free free valid search elapsed (a := a) (by omega) (by omega)
  rw [Wheel.set_other _ _ (by omega), dlCleared_other (by omega) (by omega)] at ahead
  refine ⟨by omega, by omega, ahead, ?_⟩
  rw [table]
  exact Wheel.mark_of_mem _ (List.mem_map_of_mem member)

/-- The claims of a clean TTI. -/
theorem tti_fairClaims (windows : Windows rx s) (stepped : s.tti rx c = some (s', o)) (clean : o.DlClean) :
    FairClaims rx o.pre s' o.dlClaims ∧ o.dl.data.length + o.dl.rar.length + o.dl.bc.length ≤ 1 := by
  have windowPre := windows.dl.pre stepped
  have rxOf := (tti_cases stepped).1
  have dataLength := tti_data_length stepped
  have noNewtx := tti_no_newtx stepped windows.ring
  obtain ⟨sib2Clean, rarClean⟩ := clean
  simp only [tti_tx stepped, rxOf] at sib2Clean rarClean
  have notDue : o.pre.lastRarDue (rx % 10240) = false → o.pre.rarDue (rx % 10240) = none := by
    intro notLast
    cases due : o.pre.rarDue (rx % 10240) with
    | none => rfl
    | some rar =>
        have one := (rarClean rar due).1
        simp [lastRarDue, due, one] at notLast
  unfold TtiLog.dlClaims
  rw [tti_bc stepped, tti_rar stepped, SfGrid.bcSchedResult, SfGrid.rarSchedResult, tti_tx stepped]
  cases tti_dlOutcome stepped windows.ring with
  | nothing table _ _ _ _ _ notLast bc data rar =>
      rw [data] at dataLength
      rw [bc, data, rar (notDue notLast)]
      refine ⟨?_, by simp only [List.length_nil, List.map_nil] at dataLength ⊢; omega⟩
      -- only the DCI of a new transmission is left
      rcases tti_newtx_table stepped windows.ring with ⟨none, -⟩ | ⟨-, ⟨a, one⟩, -⟩
      · rw [none]
        exact FairClaims.nil
      · rw [one]
        apply FairClaims.one
        rw [← dlCleared_now, ← table]
        exact tti_newtx_free stepped windows.ring (by rw [one]; simp)
  | sib1 table occasion free _ _ _ bc data rar =>
      rw [data] at dataLength
      rw [noNewtx (by rw [table, Wheel.set_same]), bc, data, rar]
      rw [dlCleared_now] at free
      exact ⟨.one free, by simpa using dataLength⟩
  | sib2 table occasion free _ _ _ bc data rar =>
      rw [dlCleared_now] at free
      have claims := FairClaims.sib2 occasion table (sib2Clean occasion free)
      have now : s'.dlSchedTable ((rx + 4) % 10240) = true := by
        rw [table]
        exact Wheel.mark_of_mem _ (List.mem_map_of_mem (now_mem_sib2Times occasion))
      rw [data] at dataLength
      rw [noNewtx now, bc, data, rar]
      exact ⟨by simpa [raDlSib2] using claims, by simpa using dataLength⟩
  | rar table free valid search _ _ _ _ _ last bc data rar =>
      obtain ⟨alloc, only⟩ := rar
      obtain ⟨lower, upper⟩ := rarTx_le (rx + 4)
      have now : s'.dlSchedTable ((rx + 4) % 10240) = true := by
        rw [table, Wheel.set_other _ _ (by omega), Wheel.set_same]
      rw [data] at dataLength
      rw [noNewtx now, bc, data, only]
      rw [dlCleared_now] at free
      refine ⟨?_, by simpa using dataLength⟩
      obtain ⟨due, isDue, -⟩ := Option.any_eq_true .. |>.mp last
      have claims : FairClaims rx o.pre s' [rx + 4, rarTx (rx + 4)] := by
        apply FairClaims.dci (List.nodup_singleton _) free
        intro a member
        rw [List.mem_singleton.mp member]
        refine ⟨by omega, by omega, (rarClean due isDue).2, ?_⟩
        rw [table, Wheel.set_same]
      simpa using claims
  | user user ue npdschTtis table due found placed free valid search _ _ elapsed _ _ _ notLast bc data rar =>
      rw [windowPre.reserve free valid search elapsed] at placed
      cases placed
      have now : s'.dlSchedTable ((rx + 4) % 10240) = true := by
        rw [table]
        exact Wheel.mark_of_marked _ _ (Wheel.set_same _ _ _)
      have claims := windowPre.user_claims free valid search elapsed table
      rw [data] at dataLength
      rw [noNewtx now, bc, data, rar (notDue notLast)]
      rw [← npdschTimes_unwrap] at claims
      exact ⟨by simpa using claims, by simpa using dataLength⟩

/-! ## Runs -/

/-- In front of the TTI received at `now`: nothing was given away twice, and what lies ahead of what
    was given away is marked. -/
structure Exclusive (now : Nat) (s : Sched) (past : List TtiLog) : Prop where
  windows : Windows now s
  nodup : (past.flatMap TtiLog.dlClaims).Nodup
  marked : ∀ a ∈ past.flatMap TtiLog.dlClaims,
    a < now + 4 ∨ (a < now + 17 ∧ s.dlSchedTable (a % 10240) = true)
  single : ∀ o ∈ past, o.dl.data.length + o.dl.rar.length + o.dl.bc.length ≤ 1

theorem init_exclusive (start : Nat) : Exclusive start init [] where
  windows := init_windows start
  nodup := List.nodup_nil
  marked _ member := by cases member
  single _ member := by cases member

theorem tti_exclusive {past : List TtiLog} (inv : Exclusive rx s past) (stepped : s.tti rx c = some (s', o))
    (clean : o.DlClean) : Exclusive (rx + 1) s' (past ++ [o]) := by
  obtain ⟨fair, single⟩ := tti_fairClaims inv.windows stepped clean
  have outcome := tti_dlOutcome stepped inv.windows.ring
  have tablePre := (tti_pre_sameCarrier stepped).dlSchedTable
  have claims : (past ++ [o]).flatMap TtiLog.dlClaims = past.flatMap TtiLog.dlClaims ++ o.dlClaims := by
    simp
  refine ⟨tti_windows inv.windows stepped, ?_, ?_, ?_⟩
  · rw [claims, List.nodup_append]
    refine ⟨inv.nodup, fair.nodup, ?_⟩
    -- what was given away before and lies ahead is marked, what is given away now was not
    rintro a old b new rfl
    have unmarked := fair.free a new
    obtain ⟨lower, -⟩ := fair.from' a new
    rcases inv.marked a old with elapsed | ⟨-, marked⟩
    · omega
    · rw [tablePre, marked] at unmarked
      cases unmarked
  · intro a member
    rw [claims, List.mem_append] at member
    rcases member with old | new
    · rcases inv.marked a old with elapsed | ⟨near, marked⟩
      · exact .inl (by omega)
      · by_cases now : a < rx + 5
        · exact .inl now
        · refine .inr ⟨by omega, outcome.keeps ?_⟩
          rw [dlCleared_other (by omega) (by omega), tablePre]
          exact marked
    · obtain ⟨lower, upper⟩ := fair.from' a new
      rcases fair.marked a new with rfl | marked
      · exact .inl (by omega)
      · exact .inr ⟨by omega, marked⟩
  · intro p member
    rcases List.mem_append.mp member with old | new
    · exact inv.single p old
    · rw [List.mem_singleton.mp new]
      exact single

/-- In every run whose TTIs are clean, no downlink TTI is given away twice, and MAC never collects
    more than one grant for a TTI. -/
theorem dl_grid_exclusive {start : Nat} {inputs : List TtiCalls} {last : Sched} {log : List TtiLog}
    (ran : run start inputs = some (last, log)) (clean : ∀ o ∈ log, o.DlClean) :
    (log.flatMap TtiLog.dlClaims).Nodup ∧
      ∀ o ∈ log, ∀ known, (getDlSched known o.dl).nofGrants ≤ 1 := by
  have all := Ticking.run_invariant (I := Exclusive) (C := TtiLog.DlClean)
    (fun _ _ _ _ _ _ inv stepped clean => tti_exclusive inv stepped clean) (init_exclusive start) ran clean
  refine ⟨all.nodup, ?_⟩
  intro o member known
  exact Nat.le_trans (getDlSched_nofGrants_le known o.dl) (all.single o member)

/-- A response, a user, a new uplink transmission, SIB1 and SIB2 in one clean run. -/
theorem five_kinds_exclusive : ∃ last log,
    run 12 (⟨rachDetected 0x46 0 ++ dlWaiting 0x47 ++ ulWaiting 0x48, []⟩ :: idleTtis 30) = some (last, log) ∧
      log.flatMap TtiLog.dlClaims = [16, 21, 17, 22, 23, 24, 32, 34, 41, 42, 43, 44, 46, 47, 48, 51] ∧
      (log.flatMap TtiLog.dlClaims).Nodup := by
  have checked : ((run 12 (⟨rachDetected 0x46 0 ++ dlWaiting 0x47 ++ ulWaiting 0x48, []⟩ ::
      idleTtis 30)).any fun r => (r.2.all fun o => decide o.DlClean) && decide (r.2.flatMap TtiLog.dlClaims =
        [16, 21, 17, 22, 23, 24, 32, 34, 41, 42, 43, 44, 46, 47, 48, 51])) = true := by decide +kernel
  obtain ⟨⟨last, log⟩, ran, facts⟩ := Option.any_eq_true .. |>.mp checked
  simp only [Bool.and_eq_true, List.all_eq_true, decide_eq_true_eq] at facts
  exact ⟨last, log, ran, facts.2, (dl_grid_exclusive ran facts.1).1⟩

/-- Two preambles of one NPRACH and a user that waits: the first of the two responses and the user
    both take TTI 16, and MAC collects both. -/
theorem response_and_user_meet : ∃ last log,
    run 12 [⟨dlWaiting 0x46 ++ rachDetected 0x47 0 ++ rachDetected 0x48 0, []⟩] = some (last, log) ∧
      ¬ (log.flatMap TtiLog.dlClaims).Nodup ∧
      ∃ o ∈ log, (getDlSched (fun _ => true) o.dl).nofGrants = 2 := by
  have checked : ((run 12 [⟨dlWaiting 0x46 ++ rachDetected 0x47 0 ++ rachDetected 0x48 0, []⟩]).any fun r =>
      decide (r.2.flatMap TtiLog.dlClaims = [16, 21, 16, 21, 22, 23]) &&
        r.2.any fun o => decide ((getDlSched (fun _ => true) o.dl).nofGrants = 2)) = true := by
    decide +kernel
  obtain ⟨⟨last, log⟩, ran, facts⟩ := Option.any_eq_true .. |>.mp checked
  simp only [Bool.and_eq_true, List.any_eq_true, decide_eq_true_eq] at facts
  refine ⟨last, log, ran, ?_, facts.2⟩
  rw [facts.1]
  decide

end Sched

end SonicaEnb
