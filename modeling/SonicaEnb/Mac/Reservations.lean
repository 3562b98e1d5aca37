import SonicaEnb.Mac.DlWindow
import SonicaEnb.Phy.SfWorker

/-! # How far reservations reach

All marks of both tables lie within a few TTIs of the present, so the tables are
never full and every loop that looks for room ends. What a user is given in the
downlink table is what the PHY computes from the DCI alone, although the PHY knows
nothing of the table.
-/

namespace SonicaEnb

namespace Sched

/-! ## The uplink table -/

/-- In front of the TTI received at `now`: no uplink mark lies more than 26 TTIs ahead. -/
def UlWindow (now : Nat) (s : Sched) : Prop :=
  ∀ i, s.ulSchedTable i = true → ∃ a, i = a % 10240 ∧ now ≤ a ∧ a < now + 27

theorem tti_ulWindow {s s' : Sched} {rx : Nat} {c : TtiCalls} {o : TtiLog}
    (stepped : s.tti rx c = some (s', o)) (ok : RingOk rx s) (window : UlWindow rx s) :
    UlWindow (rx + 1) s' := by
  have rxOf := (tti_cases stepped).1
  -- the Msg3 of a RAR
  have between : ∀ i, o.mid.ulSchedTable i = true → ∃ a, i = a % 10240 ∧ rx ≤ a ∧ a < rx + 28 := by
    intro i marked
    rcases tti_msg3_table stepped ok with ⟨-, same⟩ | ⟨grant, -, -, more⟩
    · rw [same] at marked
      obtain ⟨a, slot, from', below⟩ := window i marked
      exact ⟨a, slot, from', by omega⟩
    · rw [more] at marked
      rcases Wheel.mark_raised marked with new | old
      · obtain ⟨k, inside, rfl⟩ := List.mem_map.mp new
        have length := List.mem_range.mp inside
        obtain ⟨lower, upper⟩ := rarTx_le o.tx
        refine ⟨o.msg3Start + k, rfl, ?_, ?_⟩ <;>
          · simp only [TtiLog.msg3Start, TtiLog.tx, rxOf] at lower upper ⊢
            omega
      · obtain ⟨a, slot, from', below⟩ := window i old
        exact ⟨a, slot, from', by omega⟩
  -- the entry cleared and a new transmission
  have cleared : ∀ i, (o.mid.ulSchedTable.set (rx % 10240) false) i = true →
      ∃ a, i = a % 10240 ∧ rx + 1 ≤ a ∧ a < rx + 28 := by
    intro i marked
    obtain ⟨other, stood⟩ := Wheel.set_lowered marked
    obtain ⟨a, slot, from', below⟩ := between i stood
    exact ⟨a, slot, by omega, below⟩
  intro i marked
  rcases tti_newtx_table stepped ok with ⟨-, same⟩ | ⟨-, -, more⟩
  · rw [same] at marked
    obtain ⟨a, slot, from', below⟩ := cleared i marked
    exact ⟨a, slot, from', by omega⟩
  · rw [more] at marked
    rcases Wheel.set_raised marked with grant | rest
    · exact ⟨rx + 4, grant, by omega, by omega⟩
    · rcases Wheel.set_raised rest with start | old
      · exact ⟨rx + 13, start, by omega, by omega⟩
      · obtain ⟨a, slot, from', below⟩ := cleared i old
        exact ⟨a, slot, from', by omega⟩

/-! ## Runs -/

/-- What holds in front of every TTI of every run from empty tables. -/
structure Windows (now : Nat) (s : Sched) : Prop where
  ring : RingOk now s
  dl : DlWindow now s
  ul : UlWindow now s

theorem init_windows (start : Nat) : Windows start init :=
  ⟨init_ringOk start, init_dlWindow start, fun _ marked => by cases marked⟩

theorem tti_windows {s s' : Sched} {rx : Nat} {c : TtiCalls} {o : TtiLog} (windows : Windows rx s)
    (stepped : s.tti rx c = some (s', o)) : Windows (rx + 1) s' :=
  ⟨tti_ringOk stepped windows.ring, tti_dlWindow stepped windows.ring windows.dl,
    tti_ulWindow stepped windows.ring windows.ul⟩

/-- Every TTI of a run begins in a state of which all this is known. -/
theorem run_tti {start : Nat} {inputs : List TtiCalls} {last : Sched} {log : List TtiLog}
    (ran : run start inputs = some (last, log)) {o : TtiLog} (member : o ∈ log) :
    ∃ s c s', Windows o.rx s ∧ s.tti o.rx c = some (s', o) := by
  obtain ⟨s, rx, c, s', windows, stepped⟩ :=
    Ticking.run_mem_invariant (I := Windows) (fun _ _ _ _ _ ok stepped => tti_windows ok stepped)
      (init_windows start) ran member
  rw [← (tti_cases stepped).1] at windows stepped
  exact ⟨s, c, s', windows, stepped⟩

/-- From empty tables a run never gets stuck, whatever is called. -/
theorem run_returns (start : Nat) (inputs : List TtiCalls) :
    ∃ last log, run start inputs = some (last, log) :=
  Ticking.run_returns (I := Windows) (fun _ _ _ _ _ ok stepped => tti_windows ok stepped)
    (fun _ _ c ok => tti_returns c ok.ring ok.dl) (init_windows start) inputs

/-! ## The reservation loop -/

theorem npdsch_room_twenty (tti : Nat) : 10 ≤ ((List.range' tti 20).filter isNpdschSf).length := by
  rw [count_periodic isNpdschSf_periodic]
  have all : ∀ r < 20, 10 ≤ ((List.range 20).filter fun i => isNpdschSf ((r + i) % 20)).length := by decide
  exact all (tti % 20) (Nat.mod_lt _ (by omega))

/-- Twenty free TTIs in a row are room for every allocation. -/
theorem room_of_free {table : Wheel} {tti k : Nat} (inside : k ≤ 40)
    (free : ∀ a, tti + k ≤ a → a < tti + k + 20 → table (a % 10240) = false) :
    10 ≤ ((List.range' tti 60).filter fun a => isNpdschSf a && !table (a % 10240)).length := by
  have split : List.range' tti 60 =
      List.range' tti k ++ List.range' (tti + k) 20 ++ List.range' (tti + k + 20) (40 - k) := by
    rw [List.range'_append_1, Nat.add_assoc tti k 20, List.range'_append_1]
    congr 1
    omega
  have same : ∀ a ∈ List.range' (tti + k) 20, (isNpdschSf a && !table (a % 10240)) = isNpdschSf a := by
    intro a member
    have range := List.mem_range'_1.mp member
    rw [free a range.1 range.2]
    simp
  have room := npdsch_room_twenty (tti + k)
  rw [split, List.filter_append, List.filter_append, List.filter_congr same]
  simp only [List.length_append]
  omega

/-- From wherever the loop starts, it ends. -/
theorem DlWindow.loop_ends {now : Nat} {s : Sched} (window : DlWindow now s) {n : Nat}
    (known : n ∈ iSfToNSfNpdsch) (tti : Nat) :
    ∃ npdschTtis, reserveNpdsch 10240 s.dlSchedTable (tti % 10240) n = some npdschTtis := by
  have small : n ≤ 10 := by
    have all : ∀ n ∈ iSfToNSfNpdsch, n ≤ 10 := by decide
    exact all n known
  have unmarked : ∀ a, now + 17 ≤ a → a < now + 10240 → s.dlSchedTable (a % 10240) = false := by
    intro a from' below
    by_contra marked
    obtain ⟨b, slot, start, recent | by'⟩ := window.marks _ (by simpa using marked)
    · omega
    · have := by'.upTo
      omega
  obtain ⟨t, slot, from', below⟩ : ∃ t, t % 10240 = tti % 10240 ∧ now ≤ t ∧ t < now + 10240 :=
    ⟨Wheel.unwrap 10240 now (tti % 10240), Wheel.unwrap_slot (Nat.mod_lt _ (by omega)),
      Wheel.unwrap_ge _ _ _, Wheel.unwrap_lt _ _ (by omega)⟩
  have room : 10 ≤ ((List.range' t 60).filter fun a => isNpdschSf a && !s.dlSchedTable (a % 10240)).length := by
    -- the free stretch lies behind the marks, or before they come round again
    by_cases late : t ≤ now + 10180
    · apply room_of_free (k := 40) (by omega)
      intro a lower upper
      exact unmarked a (by omega) (by omega)
    · by_cases turn : t ≤ now + 10217
      · apply room_of_free (k := 0) (by omega)
        intro a lower upper
        exact unmarked a (by omega) (by omega)
      · apply room_of_free (k := 40) (by omega)
        intro a lower upper
        have same : a % 10240 = (a - 10240) % 10240 := by omega
        rw [same]
        exact unmarked (a - 10240) (by omega) (by omega)
  have ends := reserveNpdsch_eq (by omega : 60 ≤ 10240) (by omega : 60 ≤ 10240) (Nat.le_trans small room)
  rw [← slot]
  exact ⟨_, ends⟩

/-- A run never gets stuck, and after every TTI all marks of both tables are within 32 TTIs. -/
theorem reservations_within_window (start : Nat) (inputs : List TtiCalls) :
    ∃ last log, run start inputs = some (last, log) ∧ ∀ o ∈ log,
      (∀ i, o.post.dlSchedTable i = true ∨ o.post.ulSchedTable i = true →
        ∃ k, 1 ≤ k ∧ k ≤ 32 ∧ i = (o.rx + k) % 10240) ∧
      ∀ n ∈ iSfToNSfNpdsch, ∀ tti, ∃ npdschTtis,
        reserveNpdsch 10240 o.post.dlSchedTable (tti % 10240) n = some npdschTtis := by
  obtain ⟨last, log, ran⟩ := run_returns start inputs
  refine ⟨last, log, ran, ?_⟩
  intro o member
  obtain ⟨s, c, s', windows, stepped⟩ := run_tti ran member
  have after := tti_windows windows stepped
  obtain ⟨-, -, -, post, -⟩ := tti_cases stepped
  rw [post]
  refine ⟨?_, fun n known tti => after.dl.loop_ends known tti⟩
  rintro i (marked | marked)
  · obtain ⟨a, slot, from', recent | by'⟩ := after.dl.marks i marked
    · exact ⟨a - o.rx, by omega, by omega, by omega⟩
    · have := by'.upTo
      exact ⟨a - o.rx, by omega, by omega, by omega⟩
  · obtain ⟨a, slot, from', below⟩ := after.ul i marked
    exact ⟨a - o.rx, by omega, by omega, by omega⟩

/-! ## The scheduler and the PHY -/

end Sched

/-- The subframes of an NPDSCH that begins at `start` and takes `n` of them: the first that are valid
    and without SIB1. -/
def npdschSfs (start n : Nat) : List Nat :=
  (((List.range 10240).map fun i => (start + i) % 10240).filter fun tti =>
    isValidDlSf tti && !isSib1Sf (tti / 10) (tti % 10)).take n

theorem npdschSfs_mod (tti n : Nat) :
    npdschSfs (tti % 10240) n = (firstTimes isNpdschSf tti 10240 n).map (· % 10240) := by
  unfold npdschSfs firstTimes
  rw [List.filter_map, List.range'_eq_map_range, List.filter_map, ← List.map_take, ← List.map_take,
    List.map_map]
  have test : ((fun tti => isValidDlSf tti && !isSib1Sf (tti / 10) (tti % 10)) ∘
      fun i => (tti % 10240 + i) % 10240) = isNpdschSf ∘ fun i => tti + i := by
    funext i
    simp only [Function.comp, Nat.mod_add_mod]
    exact isNpdschSf_mod (tti + i)
  have place : (fun i => (tti % 10240 + i) % 10240) = (· % 10240) ∘ fun i => tti + i := by
    funext i
    exact Nat.mod_add_mod ..
  rw [test, place]

/-- Beginning at the first valid subframe makes no difference. -/
theorem firstTimes_validSkip (tti span n : Nat) :
    firstTimes isNpdschSf tti (span + validSkip tti) n = firstTimes isNpdschSf (tti + validSkip tti) span n := by
  have invalid : ∀ a, isValidDlSf a = false → isNpdschSf a = false := by
    intro a not
    rw [isNpdschSf, not, Bool.false_and]
  have cases : validSkip tti = 0 ∨ validSkip tti = 1 ∨ validSkip tti = 2 := by
    have := validSkip_le tti
    omega
  have zero := validSkip_eq_zero tti
  rcases cases with none | one | two
  · rw [none, Nat.add_zero, Nat.add_zero]
  · have first : isValidDlSf tti = false := by
      rw [← Bool.not_eq_true, ← zero]
      omega
    rw [one, firstTimes_skip (invalid _ first)]
  · have first : isValidDlSf tti = false := by
      rw [← Bool.not_eq_true, ← zero]
      omega
    have next := validSkip_succ first
    have second : isValidDlSf (tti + 1) = false := by
      rw [← Bool.not_eq_true, ← validSkip_eq_zero]
      omega
    rw [two, firstTimes_skip (invalid _ first), firstTimes_skip (invalid _ second)]

/-- What the PHY computes from the start of an NPDSCH is what the reservation loop would find in an
    empty table. -/
theorem npdschSfs_start {tti n : Nat} (few : n ≤ 3) :
    npdschSfs (firstValidDlSf ((tti + 5) % 10240)) n = (npdschTimes tti n).map (· % 10240) := by
  have room := Nat.le_trans few (npdsch_room (tti + 5))
  have roomStart := Nat.le_trans few (npdsch_room (tti + 5 + validSkip (tti + 5)))
  rw [firstValidDlSf_mod, npdschSfs_mod, firstTimes_longer roomStart (by omega), ← firstTimes_validSkip,
    firstTimes_longer room (by omega), npdschTimes]

/-- The grant the PHY makes from the DCI of a user with one or three subframes. -/
theorem generateFormatN1_grant (ue : SchedUe) (maxData tti : Nat) (mode : NbiotMode) :
    ∃ grant, raNbiotDlDciToGrant (ue.generateFormatN1 (SfGrid.iSfFor maxData)).1.dci
        (tti % 10240 / 10) (tti % 10240 % 10) dummyRMax false mode = some grant ∧
      grant.startSfn * 10 + grant.startSfidx = firstValidDlSf ((tti + 5) % 10240) ∧
      grant.nofSf * grant.nofRep = iSfToNSfNpdsch.getD (SfGrid.iSfFor maxData) 0 := by
  have mcs : SchedUe.selectMcs ue.getRequestedDlBytes.2 (SfGrid.iSfFor maxData) < 13 := by
    unfold SchedUe.selectMcs
    cases found : (List.range 13).find? fun mcs =>
        decide (tbsNbiot mcs (SfGrid.iSfFor maxData) / 8 > ue.getRequestedDlBytes.2) with
    | none => decide
    | some mcs => exact List.mem_range.mp (List.mem_of_find?_eq_some found)
  have blocks : ∀ m < 13, 0 < tbsNbiot m (SfGrid.iSfFor maxData) / 8 := by
    unfold SfGrid.iSfFor
    split <;> decide
  have block := blocks _ mcs
  have subframes : min (SfGrid.iSfFor maxData) 7 = SfGrid.iSfFor maxData ∧
      SfGrid.iSfFor maxData < 6 ∧
      (SfGrid.iSfFor maxData + 1) * 1 = iSfToNSfNpdsch.getD (SfGrid.iSfFor maxData) 0 := by
    unfold SfGrid.iSfFor
    split <;> decide
  have dci : (ue.generateFormatN1 (SfGrid.iSfFor maxData)).1.dci =
      { mcsIdx := SchedUe.selectMcs ue.getRequestedDlBytes.2 (SfGrid.iSfFor maxData), ndi := true, format := 1
        alloc := { rnti := ue.rnti, iSf := SfGrid.iSfFor maxData, harqAck := 1 } } := by
    simp only [SchedUe.generateFormatN1, block, if_true]
  have k0 : ∀ d : RaNbiotDlDci, d.dciIsN2 = false → d.alloc.iDelay = 0 → raK0FromDci d dummyRMax = 0 := by
    intro d format delay
    simp [raK0FromDci, format, delay, dummyRMax, k0TableFormatN1RSt128]
  have tbs : tbsNbiot (min (SchedUe.selectMcs ue.getRequestedDlBytes.2 (SfGrid.iSfFor maxData)) 12)
      (min (SfGrid.iSfFor maxData) 7) ≠ 0 := by
    rw [subframes.1, Nat.min_eq_left (by omega)]
    omega
  have tti' : tti % 10240 / 10 * 10 + tti % 10240 % 10 = tti % 10240 := by omega
  rw [dci]
  simp only [raNbiotDlDciToGrant, limitDlDci, Bool.false_eq_true, if_false, tbs, k0, tti', Nat.add_zero,
    Nat.mod_add_mod]
  refine ⟨_, rfl, by simp only; omega, ?_⟩
  simp only [raNSfFromDci, subframes.1, subframes.2.1, if_true]
  exact subframes.2.2

namespace Sched

/-- The data TTIs a user is given are those the PHY computes from its DCI, whatever else is in the
    table and whatever the queues of the UE hold. -/
theorem user_npdsch_as_phy {start : Nat} {inputs : List TtiCalls} {last : Sched} {log : List TtiLog}
    (ran : run start inputs = some (last, log)) {o : TtiLog} (member : o ∈ log) {a : DlAlloc}
    (allocated : a ∈ o.sf.dataAllocs) (ue : SchedUe) (mode : NbiotMode) :
    o.post.dlSchedTable = ((o.pre.dlCleared o.rx).set (o.tx % 10240) true).mark a.npdschTtis ∧
      ∃ grant, raNbiotDlDciToGrant (ue.generateFormatN1 a.iSf).1.dci (o.tx % 10240 / 10)
          (o.tx % 10240 % 10) dummyRMax false mode = some grant ∧
        (grant.nofSf * grant.nofRep = 1 ∨ grant.nofSf * grant.nofRep = 3) ∧
        a.npdschTtis = npdschSfs (grant.startSfn * 10 + grant.startSfidx) (grant.nofSf * grant.nofRep) := by
  obtain ⟨s, c, s', windows, stepped⟩ := run_tti ran member
  have windowPre := windows.dl.pre stepped
  have post := (tti_cases stepped).2.2.2.1
  have nothing : ∀ {P : Prop}, o.sf.dataAllocs = [] → P := by
    intro P none
    rw [none] at allocated
    cases allocated
  cases tti_dlOutcome stepped windows.ring with
  | nothing _ _ _ _ _ _ _ _ data => exact nothing data
  | sib1 _ _ _ _ _ _ _ data => exact nothing data
  | sib2 _ _ _ _ _ _ _ data => exact nothing data
  | rar _ _ _ _ _ _ _ _ _ _ _ data => exact nothing data
  | user user ue' npdschTtis table due found placed free valid search noSib1 noSib2 elapsed last active
      counter notLast bc data =>
      rw [data, List.mem_singleton] at allocated
      subst allocated
      rw [windowPre.reserve free valid search elapsed] at placed
      refine ⟨post ▸ table, ?_⟩
      obtain ⟨grant, made, begins, nofSf⟩ :=
        generateFormatN1_grant ue ue'.getRequestedDlBytes.2 o.tx mode
      have count := iSfFor_nofSf ue'.getRequestedDlBytes.2
      refine ⟨grant, made, by rw [nofSf]; exact count, ?_⟩
      rw [begins, nofSf, npdschSfs_start (by omega)]
      exact (Option.some.inj placed).symm

/-- A UE known as after its preamble, with 30 bytes queued on SRB0. -/
def dlWaiting (rnti : Nat) : List SchedCall := [.ueCfg rnti rachUeCfg, .dlRlcBufferState rnti 0 30 0]

/-- A user served at TTI 16 gets TTIs 21, 22 and 23, as the PHY expects. -/
theorem thirty_bytes_as_phy : ∃ last log o a, run 12 [⟨dlWaiting 0x46, []⟩] = some (last, log) ∧
    o ∈ log ∧ a ∈ o.sf.dataAllocs ∧ a.npdschTtis = [21, 22, 23] ∧
    ∃ grant, raNbiotDlDciToGrant ((SchedUe.init 0x46).generateFormatN1 a.iSf).1.dci (o.tx % 10240 / 10)
        (o.tx % 10240 % 10) dummyRMax false .standalone = some grant ∧
      a.npdschTtis = npdschSfs (grant.startSfn * 10 + grant.startSfidx) (grant.nofSf * grant.nofRep) := by
  have checked : ((run 12 [⟨dlWaiting 0x46, []⟩]).any fun r => r.2.any fun o => o.sf.dataAllocs.any fun a =>
      decide (a.npdschTtis = [21, 22, 23])) = true := by decide +kernel
  obtain ⟨⟨last, log⟩, ran, facts⟩ := Option.any_eq_true .. |>.mp checked
  obtain ⟨o, member, facts⟩ := List.any_eq_true.mp facts
  obtain ⟨a, allocated, ttis⟩ := List.any_eq_true.mp facts
  obtain ⟨-, grant, made, -, same⟩ := user_npdsch_as_phy ran member allocated (SchedUe.init 0x46) .standalone
  exact ⟨last, log, o, a, ran, member, allocated, of_decide_eq_true ttis, grant, made, same⟩

end Sched

end SonicaEnb
