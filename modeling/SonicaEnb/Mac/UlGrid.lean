import SonicaEnb.Mac.DlTurn
import SonicaEnb.Mac.Msg3Queue

/-! # The uplink grid over whole runs

A Msg3 checks and marks all four subframes of its transmission, a new transmission
only the first of its four. So a new transmission can run into one that began in
the TTI before, or into a Msg3 that begins after its first subframe; in runs in
which neither happens no two transmissions meet.

Times are absolute: the table is a window of 10240 TTIs that moves along.
-/

namespace SonicaEnb

/-- The subframe of a RAR whose DCI is at absolute TTI `tti`. -/
def rarTx (tti : Nat) : Nat := tti + 5 + validSkip (tti + 5)

theorem rarTxTti_mod (tti : Nat) : rarTxTti (tti % 10240) = rarTx tti % 10240 := by
  rw [rarTxTti, Nat.mod_add_mod, firstValidDlSf_mod, rarTx]

theorem rarTx_le (tti : Nat) : tti + 5 ≤ rarTx tti ∧ rarTx tti ≤ tti + 7 := by
  have skip := validSkip_le (tti + 5)
  unfold rarTx
  omega

theorem msg3RxTti_mod (rx : Nat) :
    SfGrid.msg3RxTti (ttiAdd (rx % 10240 + 9) fddHarqDelayUlMs) = rarTx (rx + 4) % 10240 + 13 := by
  have back : (ttiAdd (rx % 10240 + 9) fddHarqDelayUlMs + 10240 - 9) % 10240 = (rx + 4) % 10240 := by
    unfold ttiAdd fddHarqDelayUlMs
    omega
  rw [SfGrid.msg3RxTti, back, Nat.mod_add_mod, firstValidDlSf_mod, rarTx]

theorem ulInterval_mod (a len : Nat) : SfGrid.ulInterval (a % 10240 + 13) len = SfGrid.ulInterval (a + 13) len := by
  unfold SfGrid.ulInterval
  congr 1
  funext i
  omega

theorem mem_ulInterval {start len i : Nat} (inside : i < len) :
    (start + i) % 10240 ∈ SfGrid.ulInterval start len :=
  List.mem_map.mpr ⟨i, List.mem_range.mpr inside, rfl⟩

namespace TtiLog

/-- The new transmissions granted in this TTI. -/
def newtxGrants (o : TtiLog) : List UlAlloc := o.sf.ulDataAllocs.filter fun a => a.type == .newtx

/-- First subframe of a Msg3 whose RAR is scheduled in this TTI. -/
def msg3Start (o : TtiLog) : Nat := rarTx o.tx + 13

/-- First subframe of a new transmission granted in this TTI, `tti_tx_ul`. -/
def newtxStart (o : TtiLog) : Nat := o.rx + 13

/-- The first subframes of all uplink transmissions granted in this TTI. -/
def ulStarts (o : TtiLog) : List Nat :=
  o.queuedMsg3.map (fun _ => o.msg3Start) ++ o.newtxGrants.map (fun _ => o.newtxStart)

end TtiLog

/-- Transmissions of four subframes that do not meet. -/
def Apart (a b : Nat) : Prop := a + 4 ≤ b ∨ b + 4 ≤ a

namespace Sched

/-- The grid in front of the uplink phase. -/
def ulGrid (s : Sched) (ttiRx : Nat) : SfGrid := (s.clearUl ttiRx).grid ttiRx

end Sched

/-- Where `ul_sched` grants a new transmission, none was granted in the TTI before, and the three
    subframes after its first are not reserved. -/
def TtiLog.UlClean (o : TtiLog) : Prop :=
  (o.mid.ulGrid (o.rx % 10240)).newtxDue = true →
    (∀ a ∈ (o.mid.getSfSched ((o.rx + 10239) % 10240)).ulDataAllocs, a.type ≠ .newtx) ∧
      ∀ i < 3, o.mid.ulSchedTable ((o.newtxStart + 1 + i) % 10240) = false

instance (o : TtiLog) : Decidable o.UlClean := inferInstanceAs (Decidable (_ → _))

namespace Sched

/-! ## One TTI -/

/-- Conditions under which a new transmission is due, in absolute time. -/
theorem newtxDue_first {s : Sched} {rx : Nat} (due : (s.ulGrid (rx % 10240)).newtxDue = true) :
    s.ulSchedTable ((rx + 13) % 10240) = false := by
  simp only [SfGrid.newtxDue, SfGrid.newtxTtiFree, Bool.and_eq_true, Bool.not_eq_true'] at due
  have free := due.1.2
  have txUl : (s.ulGrid (rx % 10240)).sf.ttiParams.ttiTxUl = (rx + 13) % 10240 := by
    rw [← ttiAdd_mod]
    exact getSfSched_ttiTxUl _ _
  rw [txUl, Nat.mod_mod] at free
  simp only [ulGrid, clearUl, grid, Nat.mod_mod] at free
  rwa [Wheel.set_other _ _ (by omega)] at free

theorem newtxDue_searchSpace {s : Sched} {rx : Nat}
    (due : (s.ulGrid (rx % 10240)).newtxDue = true) : (rx + 4) % 8 < 2 := by
  simp only [SfGrid.newtxDue, SfGrid.newtxTtiFree, Bool.and_eq_true, decide_eq_true_eq] at due
  have inside := due.1.1.2
  have txDl : (s.ulGrid (rx % 10240)).sf.ttiParams.ttiTxDl = (rx + 4) % 10240 := by
    rw [← ttiAdd_mod]
    exact getSfSched_ttiTxDl _ _
  rw [txDl] at inside
  omega

variable {s s' : Sched} {rx : Nat} {c : TtiCalls} {o : TtiLog}

/-- The downlink run and the uplink table: nothing, or a Msg3 where four subframes were free. -/
theorem tti_msg3_table (stepped : s.tti rx c = some (s', o)) (ok : RingOk rx s) :
    (o.queuedMsg3 = [] ∧ o.mid.ulSchedTable = s.ulSchedTable) ∨
      ∃ a, o.queuedMsg3 = [a] ∧
        (∀ i < 4, s.ulSchedTable ((o.msg3Start + i) % 10240) = false) ∧
        o.mid.ulSchedTable = s.ulSchedTable.mark (SfGrid.ulInterval o.msg3Start 4) := by
  have okPre := tti_pre_ringOk stepped ok
  obtain ⟨rxOf, -, pre, -, lastTti, s₁, dl, mid, -⟩ := tti_cases stepped
  obtain ⟨ret, g₁, g₂, run⟩ := generateTtiResultDl_phases (by omega) dl
  have sameMid := calls_sameCarrier s₁ c.between
  have table := (tti_pre_sameCarrier stepped).ulSchedTable
  have queue : o.queuedMsg3 = (s₁.getSfSched (rx % 10240 + 9)).ulDataAllocs.filter fun a =>
      a.type == .msg3 := by
    rw [TtiLog.queuedMsg3, rxOf, mid]
    simp only [getSfSched, sameMid.sfScheds]
  have midTable : o.mid.ulSchedTable = s₁.ulSchedTable := by rw [mid, sameMid.ulSchedTable]
  rw [queue, midTable]
  have fresh : (o.pre.setLastTti lastTti).getSfSched (rx % 10240 + 9) =
      SfSched.newTti (rx % 10240 + 9) := by
    rw [setLastTti_getSfSched, okPre.msg3_fresh]
  have place := run.msg3
  have tableAfter := run.ulSchedTable
  by_cases sent : ret = .success
  · rw [if_pos sent, fresh] at place tableAfter
    have sameUl : g₁.ulSchedTable = s.ulSchedTable := run.frame.ulSchedTable.trans table
    have key : (s₁.sfScheds ((rx % 10240 + 9) % nofSfScheds)).ttiParams.ttiRx = rx % 10240 + 9 := by
      rw [place, (SfGrid.raUlSched_ulFrame _ _).ttiParams]
      rfl
    rw [getSfSched_of_key key, place]
    rcases SfGrid.raUlSched_cases g₁.sf.msg3Grants
        { g₁ with sf := SfSched.newTti (rx % 10240 + 9) } with same | ⟨a, type, -, -, free, queued⟩
    · left
      rw [same] at tableAfter ⊢
      exact ⟨rfl, tableAfter.trans sameUl⟩
    · right
      have ttis : SfGrid.msg3Ttis { g₁ with sf := SfSched.newTti (rx % 10240 + 9) } =
          SfGrid.ulInterval o.msg3Start 4 := by
        change SfGrid.ulInterval (SfGrid.msg3RxTti (ttiAdd (rx % 10240 + 9) fddHarqDelayUlMs)) 4 = _
        rw [msg3RxTti_mod, ulInterval_mod, TtiLog.msg3Start, TtiLog.tx, rxOf]
      have unmarked := List.any_eq_false.mp free
      rw [ttis] at unmarked
      rw [queued] at tableAfter ⊢
      refine ⟨a, ?_, ?_, ?_⟩
      · simp [SfGrid.queueMsg3, SfSched.newTti, type]
      · intro i inside
        rw [← sameUl]
        simpa using unmarked _ (mem_ulInterval inside)
      · rw [tableAfter, ← sameUl, ← ttis]
        rfl
  · rw [if_neg sent] at place tableAfter
    left
    have same : s₁.getSfSched (rx % 10240 + 9) = SfSched.newTti (rx % 10240 + 9) := by
      rw [← fresh]
      simp only [getSfSched, place]
    rw [same]
    exact ⟨rfl, tableAfter.trans table⟩

/-- The uplink run and the uplink table: nothing, or a new transmission whose first subframe was
    free. -/
theorem tti_newtx_table (stepped : s.tti rx c = some (s', o)) (ok : RingOk rx s) :
    (o.newtxGrants = [] ∧ s'.ulSchedTable = o.mid.ulSchedTable.set (rx % 10240) false) ∨
      ((o.mid.ulGrid (rx % 10240)).newtxDue = true ∧ (∃ a, o.newtxGrants = [a]) ∧
        s'.ulSchedTable = ((o.mid.ulSchedTable.set (rx % 10240) false).set ((rx + 13) % 10240) true).set
          ((rx + 4) % 10240) true) := by
  have allocs := tti_ulDataAllocs stepped
  have only := (ok.near rx (by omega) (by omega)).ulDataAllocs
  rw [← allocs] at only
  obtain ⟨rxOf, -, -, post, lastTti, s₁, -, -, ul⟩ := tti_cases stepped
  rw [TtiLog.ulDataAllocs, rxOf] at only
  rw [generateTtiResultUl_eq (by omega)] at ul
  have after : (o.mid.clearUl (rx % 10240)).store (rx % 10240)
      (schedUsersUl (o.mid.ulGrid (rx % 10240))).generateSchedResults.1 = s' := congrArg Prod.fst ul
  have place : o.sf = (schedUsersUl (o.mid.ulGrid (rx % 10240))).sf := by
    rw [TtiLog.sf, post, rxOf, ← after]
    exact store_sfScheds_same _ _ _
  have table : s'.ulSchedTable = (schedUsersUl (o.mid.ulGrid (rx % 10240))).ulSchedTable := by
    rw [← after]
    rfl
  have noNewtx : ((o.mid.ulGrid (rx % 10240)).sf.ulDataAllocs.filter fun a => a.type == .newtx) = [] := by
    rw [List.filter_eq_nil_iff]
    intro a member
    rw [only a member]
    decide
  rw [TtiLog.newtxGrants, place, table]
  rcases SfGrid.schedUsersUl_cases (o.mid.ulGrid (rx % 10240)) with ⟨sf, -, ul⟩ | ⟨due, ⟨a, type, sf⟩, -, ul⟩
  · left
    rw [sf, ul]
    refine ⟨noNewtx, ?_⟩
    simp only [ulGrid, clearUl, grid, Nat.mod_mod]
  · right
    refine ⟨due, ⟨a, ?_⟩, ?_⟩
    · simp [sf, noNewtx, type]
    · rw [ul]
      have txUl : (o.mid.ulGrid (rx % 10240)).sf.ttiParams.ttiTxUl = (rx + 13) % 10240 := by
        rw [← ttiAdd_mod]
        exact getSfSched_ttiTxUl _ _
      have txDl : (o.mid.ulGrid (rx % 10240)).sf.ttiParams.ttiTxDl = (rx + 4) % 10240 := by
        rw [← ttiAdd_mod]
        exact getSfSched_ttiTxDl _ _
      rw [txUl, txDl]
      simp only [ulGrid, clearUl, grid, Nat.mod_mod]

/-- A place the TTI does not write stands between its two runs as it stood before. -/
theorem tti_mid_sfScheds (stepped : s.tti rx c = some (s', o)) {i : Nat} (own : i ≠ rx % nofSfScheds)
    (msg3 : i ≠ (rx + 9) % nofSfScheds) : o.mid.sfScheds i = s.sfScheds i := by
  have whole := tti_sfScheds stepped own msg3
  obtain ⟨-, -, -, -, lastTti, s₁, -, -, ul⟩ := tti_cases stepped
  have ownSlot : i ≠ rx % 10240 % nofSfScheds := by rwa [slot_own]
  have half := generateTtiResultUl_sfScheds (s := o.mid) (by omega : rx % 10240 < 10240) ownSlot
  rw [ul] at half
  exact half.symm.trans whole

/-! ## Runs -/

/-- Before the TTI at `now`, with the log of a run so far. -/
structure UlInv (now : Nat) (s : Sched) (past : List TtiLog) : Prop where
  ring : RingOk now s
  before : ∀ p ∈ past, p.rx < now ∧ (p.rx + 1 = now → p.post = s)
  searchSpace : ∀ p ∈ past, p.newtxGrants ≠ [] → p.tx % 8 < 2
  marked : ∀ p ∈ past, p.queuedMsg3 ≠ [] → ∀ i < 4, now ≤ p.msg3Start + i →
    s.ulSchedTable ((p.msg3Start + i) % 10240) = true
  apart : (past.flatMap TtiLog.ulStarts).Pairwise Apart

theorem init_ulInv (start : Nat) : UlInv start init [] where
  ring := init_ringOk start
  before _ member := by cases member
  searchSpace _ member := by cases member
  marked _ member := by cases member
  apart := .nil

theorem mem_ulStarts {o : TtiLog} {a : Nat} (member : a ∈ o.ulStarts) :
    (o.queuedMsg3 ≠ [] ∧ a = o.msg3Start) ∨ (o.newtxGrants ≠ [] ∧ a = o.newtxStart) := by
  rcases List.mem_append.mp member with msg3 | newtx
  · obtain ⟨x, inside, rfl⟩ := List.mem_map.mp msg3
    exact .inl ⟨List.ne_nil_of_mem inside, rfl⟩
  · obtain ⟨x, inside, rfl⟩ := List.mem_map.mp newtx
    exact .inr ⟨List.ne_nil_of_mem inside, rfl⟩

/-- A Msg3 is checked in full, so it keeps apart from everything granted before. -/
theorem UlInv.msg3_apart {past : List TtiLog} (inv : UlInv rx s past) (rxOf : o.rx = rx)
    (free : ∀ i < 4, s.ulSchedTable ((o.msg3Start + i) % 10240) = false) {p : TtiLog}
    (member : p ∈ past) {b : Nat} (start : b ∈ p.ulStarts) : Apart b o.msg3Start := by
  have earlier := (inv.before p member).1
  obtain ⟨lower, upper⟩ := rarTx_le o.tx
  have later : rx + 22 ≤ o.msg3Start := by
    unfold TtiLog.msg3Start
    unfold TtiLog.tx at lower ⊢
    omega
  rcases mem_ulStarts start with ⟨queued, rfl⟩ | ⟨granted, rfl⟩
  · by_contra meets
    unfold Apart at meets
    -- the later of the two first subframes lies in both transmissions
    by_cases order : o.msg3Start ≤ p.msg3Start
    · have marked := inv.marked p member queued 0 (by omega) (by omega)
      have unmarked := free (p.msg3Start - o.msg3Start) (by omega)
      have same : o.msg3Start + (p.msg3Start - o.msg3Start) = p.msg3Start + 0 := by omega
      rw [same, marked] at unmarked
      cases unmarked
    · have marked := inv.marked p member queued (o.msg3Start - p.msg3Start) (by omega) (by omega)
      have unmarked := free 0 (by omega)
      have same : p.msg3Start + (o.msg3Start - p.msg3Start) = o.msg3Start + 0 := by omega
      rw [same, unmarked] at marked
      cases marked
  · left
    unfold TtiLog.newtxStart
    omega

/-- No new transmission was granted in the TTI before a clean one. -/
theorem UlInv.newtx_before {past : List TtiLog} (inv : UlInv rx s past)
    (stepped : s.tti rx c = some (s', o)) (rxOf : o.rx = rx)
    (none : ∀ a ∈ (o.mid.getSfSched ((o.rx + 10239) % 10240)).ulDataAllocs, a.type ≠ .newtx)
    {p : TtiLog} (member : p ∈ past) (granted : p.newtxGrants ≠ []) : p.rx + 1 ≠ rx := by
  intro last
  have post := (inv.before p member).2 last
  have place : p.rx % 10240 % nofSfScheds = (rx + 39) % nofSfScheds := by
    unfold nofSfScheds
    omega
  have kept : o.mid.sfScheds ((rx + 39) % nofSfScheds) = s.sfScheds ((rx + 39) % nofSfScheds) := by
    apply tti_mid_sfScheds stepped <;> unfold nofSfScheds <;> omega
  have own : p.sf = s.sfScheds ((rx + 39) % nofSfScheds) := by rw [TtiLog.sf, post, place]
  rcases inv.ring.far (rx + 39) (by omega) (by omega) with key | unused
  · have slot : (rx + 10239) % 10240 % nofSfScheds = (rx + 39) % nofSfScheds := by
      unfold nofSfScheds
      omega
    have found : o.mid.getSfSched ((rx + 10239) % 10240) = p.sf := by
      rw [getSfSched_of_key, slot, kept, own]
      rw [slot, kept]
      exact key.trans (by omega)
    rw [rxOf, found] at none
    apply granted
    rw [TtiLog.newtxGrants, List.filter_eq_nil_iff]
    intro a inside
    simpa using none a inside
  · apply granted
    rw [TtiLog.newtxGrants, own, unused]
    rfl

/-- In a clean TTI a new transmission keeps apart from everything granted before. -/
theorem UlInv.newtx_apart {past : List TtiLog} (inv : UlInv rx s past)
    (stepped : s.tti rx c = some (s', o)) (rxOf : o.rx = rx) (clean : o.UlClean)
    (due : (o.mid.ulGrid (rx % 10240)).newtxDue = true)
    (grows : ∀ i, s.ulSchedTable i = true → o.mid.ulSchedTable i = true)
    {p : TtiLog} (member : p ∈ past) {b : Nat} (start : b ∈ p.ulStarts) : Apart b o.newtxStart := by
  have earlier := (inv.before p member).1
  obtain ⟨none, unmarked⟩ := clean (by rw [rxOf]; exact due)
  have first := newtxDue_first due
  have search := newtxDue_searchSpace due
  unfold TtiLog.newtxStart at unmarked ⊢
  rw [rxOf] at unmarked ⊢
  rcases mem_ulStarts start with ⟨queued, rfl⟩ | ⟨granted, rfl⟩
  · -- all four subframes of the new transmission are unmarked, those of the Msg3 are marked
    have free : ∀ a, rx + 13 ≤ a → a ≤ rx + 16 → s.ulSchedTable (a % 10240) = false := by
      intro a from' upTo
      by_contra marked
      have marked := grows _ (by simpa using marked)
      by_cases here : a = rx + 13
      · rw [here, first] at marked
        cases marked
      · have later := unmarked (a - (rx + 14)) (by omega)
        have same : rx + 13 + 1 + (a - (rx + 14)) = a := by omega
        rw [same, marked] at later
        cases later
    by_contra meets
    unfold Apart at meets
    by_cases order : rx + 13 ≤ p.msg3Start
    · have marked := inv.marked p member queued 0 (by omega) (by omega)
      rw [Nat.add_zero, free p.msg3Start (by omega) (by omega)] at marked
      cases marked
    · have marked := inv.marked p member queued (rx + 13 - p.msg3Start) (by omega) (by omega)
      have same : p.msg3Start + (rx + 13 - p.msg3Start) = rx + 13 := by omega
      rw [same, free (rx + 13) (by omega) (by omega)] at marked
      cases marked
  · left
    have before := inv.newtx_before stepped rxOf none member granted
    have search' := inv.searchSpace p member granted
    unfold TtiLog.tx at search'
    unfold TtiLog.newtxStart
    omega

/-- The downlink run takes no mark from the uplink table. -/
theorem tti_ul_grows (stepped : s.tti rx c = some (s', o)) (ok : RingOk rx s) {i : Nat}
    (marked : s.ulSchedTable i = true) : o.mid.ulSchedTable i = true := by
  rcases tti_msg3_table stepped ok with ⟨-, same⟩ | ⟨a, -, -, more⟩
  · rw [same]
    exact marked
  · rw [more]
    exact Wheel.mark_of_marked _ _ marked

/-- The uplink run takes the mark of the present only. -/
theorem tti_ul_keeps (stepped : s.tti rx c = some (s', o)) (ok : RingOk rx s) {a : Nat} (from' : rx < a)
    (below : a < rx + 10240) (marked : o.mid.ulSchedTable (a % 10240) = true) :
    s'.ulSchedTable (a % 10240) = true := by
  have cleared : (o.mid.ulSchedTable.set (rx % 10240) false) (a % 10240) = true := by
    rw [Wheel.set_other _ _ (by omega)]
    exact marked
  rcases tti_newtx_table stepped ok with ⟨-, same⟩ | ⟨-, -, more⟩
  · rw [same]
    exact cleared
  · rw [more]
    simp only [Wheel.set] at cleared ⊢
    split
    · rfl
    · split
      · rfl
      · exact cleared

/-- A TTI grants at most one transmission of each kind, nine subframes apart. -/
theorem tti_ulStarts_apart (stepped : s.tti rx c = some (s', o)) (ok : RingOk rx s) :
    o.ulStarts.Pairwise Apart := by
  obtain ⟨lower, upper⟩ := rarTx_le o.tx
  unfold TtiLog.ulStarts
  rcases tti_msg3_table stepped ok with ⟨none, -⟩ | ⟨a, one, -⟩ <;>
    rcases tti_newtx_table stepped ok with ⟨none', -⟩ | ⟨-, ⟨a', one'⟩, -⟩
  · simp [none, none']
  · simp [none, one']
  · simp [one, none']
  · simp only [one, one', List.map_cons, List.map_nil, List.singleton_append,
      List.pairwise_cons, List.mem_singleton, forall_eq]
    refine ⟨.inr ?_, by simp⟩
    unfold TtiLog.newtxStart TtiLog.msg3Start
    unfold TtiLog.tx at lower upper ⊢
    omega

/-- A clean TTI keeps the invariant. -/
theorem tti_ulInv {past : List TtiLog} (inv : UlInv rx s past) (stepped : s.tti rx c = some (s', o))
    (clean : o.UlClean) : UlInv (rx + 1) s' (past ++ [o]) := by
  obtain ⟨rxOf, -, -, post, -⟩ := tti_cases stepped
  have msg3 := tti_msg3_table stepped inv.ring
  have newtx := tti_newtx_table stepped inv.ring
  obtain ⟨lower, upper⟩ := rarTx_le o.tx
  have later : rx + 22 ≤ o.msg3Start ∧ o.msg3Start ≤ rx + 24 := by
    unfold TtiLog.msg3Start
    unfold TtiLog.tx at lower upper ⊢
    omega
  have grows := fun i => tti_ul_grows (i := i) stepped inv.ring
  have keeps := fun a from' below => tti_ul_keeps (a := a) stepped inv.ring from' below
  refine ⟨tti_ringOk stepped inv.ring, ?_, ?_, ?_, ?_⟩
  · intro p member
    rcases List.mem_append.mp member with old | new
    · have := (inv.before p old).1
      exact ⟨by omega, by omega⟩
    · rw [List.mem_singleton.mp new, rxOf]
      exact ⟨by omega, fun _ => post⟩
  · intro p member granted
    rcases List.mem_append.mp member with old | new
    · exact inv.searchSpace p old granted
    · rw [List.mem_singleton.mp new] at granted ⊢
      rcases newtx with ⟨none, -⟩ | ⟨due, -, -⟩
      · exact absurd none granted
      · rw [TtiLog.tx, rxOf]
        exact newtxDue_searchSpace due
  · intro p member queued i inside from'
    rcases List.mem_append.mp member with old | new
    · have earlier := (inv.before p old).1
      obtain ⟨-, upper'⟩ := rarTx_le p.tx
      have bound : p.msg3Start + i < rx + 10240 := by
        unfold TtiLog.msg3Start
        unfold TtiLog.tx at upper' ⊢
        omega
      exact keeps _ (by omega) bound (grows _ (inv.marked p old queued i inside (by omega)))
    · rw [List.mem_singleton.mp new] at queued from' ⊢
      rcases msg3 with ⟨none, -⟩ | ⟨a, -, -, more⟩
      · exact absurd none queued
      · apply keeps _ (by omega) (by omega)
        rw [more, Wheel.mark_apply]
        simp [mem_ulInterval inside]
  · rw [List.flatMap_append, List.pairwise_append]
    refine ⟨inv.apart, ?_, ?_⟩
    · simp only [List.flatMap_cons, List.flatMap_nil, List.append_nil]
      exact tti_ulStarts_apart stepped inv.ring
    · intro b old a new
      obtain ⟨p, member, start⟩ := List.mem_flatMap.mp old
      simp only [List.flatMap_cons, List.flatMap_nil, List.append_nil] at new
      rcases mem_ulStarts new with ⟨queued, rfl⟩ | ⟨granted, rfl⟩
      · rcases msg3 with ⟨none, -⟩ | ⟨a, -, free, -⟩
        · exact absurd none queued
        · exact inv.msg3_apart rxOf free member start
      · rcases newtx with ⟨none, -⟩ | ⟨due, -, -⟩
        · exact absurd none granted
        · exact inv.newtx_apart stepped rxOf clean due grows member start

/-- In every run whose TTIs are clean, all uplink transmissions granted keep apart. -/
theorem ul_grants_apart_of_clean {start : Nat} {inputs : List TtiCalls} {last : Sched}
    {log : List TtiLog} (ran : run start inputs = some (last, log)) (clean : ∀ o ∈ log, o.UlClean) :
    (log.flatMap TtiLog.ulStarts).Pairwise Apart := by
  have all := Ticking.run_invariant (I := UlInv) (C := TtiLog.UlClean)
    (fun _ _ _ _ _ _ inv stepped clean => tti_ulInv inv stepped clean) (init_ulInv start) ran clean
  exact all.apart

/-- A UE known as after its preamble, with uplink data reported on SRB0. -/
def ulWaiting (rnti : Nat) : List SchedCall := [.ueCfg rnti rachUeCfg, .ulBsr rnti 0 50 true]

/-- A Msg3 for 0x46 from TTI 34 on and a new transmission of 0x47 from TTI 26 on. -/
theorem msg3_and_newtx_apart :
    ∃ last log, run 12 (⟨rachDetected 0x46 0 ++ ulWaiting 0x47, []⟩ :: idleTtis 1) = some (last, log) ∧
      log.flatMap TtiLog.ulStarts = [34, 26] ∧ (log.flatMap TtiLog.ulStarts).Pairwise Apart := by
  have checked : ((run 12 (⟨rachDetected 0x46 0 ++ ulWaiting 0x47, []⟩ :: idleTtis 1)).any fun r =>
      (r.2.all fun o => decide o.UlClean) &&
        decide (r.2.flatMap TtiLog.ulStarts = [34, 26])) = true := by decide +kernel
  obtain ⟨⟨last, log⟩, ran, facts⟩ := Option.any_eq_true .. |>.mp checked
  simp only [Bool.and_eq_true, List.all_eq_true, decide_eq_true_eq] at facts
  exact ⟨last, log, ran, facts.2, ul_grants_apart_of_clean ran facts.1⟩

/-- Two UEs that wait are granted in consecutive TTIs: from 25 to 28 and from 26 to 29. -/
theorem consecutive_newtx_meet :
    ∃ last log, run 12 (⟨ulWaiting 0x46 ++ ulWaiting 0x47, []⟩ :: idleTtis 1) = some (last, log) ∧
      ¬ (log.flatMap TtiLog.ulStarts).Pairwise Apart := by
  have checked : ((run 12 (⟨ulWaiting 0x46 ++ ulWaiting 0x47, []⟩ :: idleTtis 1)).any fun r =>
      decide (r.2.flatMap TtiLog.ulStarts = [25, 26])) = true := by decide +kernel
  obtain ⟨⟨last, log⟩, ran, starts⟩ := Option.any_eq_true .. |>.mp checked
  refine ⟨last, log, ran, ?_⟩
  rw [of_decide_eq_true starts]
  simp [Apart]

end Sched

end SonicaEnb
