import SonicaEnb.Phy.Enb

/-! # Uplink grants between MAC and PHY

The worker keeps one uplink grant, for sixteen TTIs after MAC has handed it over.
As long as no other grant arrives in that time, every grant is configured after
13 TTIs, decoded over four and reported once, and its buffer has left its slot
before the slot is asked for again.
-/

namespace SonicaEnb

/-! ## What the scheduler hands over -/

/-- An element of the uplink result as `set_ul_sched_result` builds it. -/
def UlSchedData.FromScheduler (elem : UlSchedData) : Prop :=
  ∃ ue needsNpdcch mcs, elem = SchedUe.generateFormatN0 ue needsNpdcch mcs

/-- A grant over 12 subcarriers and 4 resource units, without repetition or extra delay. -/
def UlSchedGrant.FourSubframes (g : UlSchedGrant) : Prop :=
  ∃ mcs, g.dci.raDci = { iMcs := mcs, iRu := 3, iSc := 18 }

theorem UlSchedData.FromScheduler.raDci {elem : UlSchedData} (made : elem.FromScheduler)
    (size : elem.tbs > 0) : ∃ mcs, elem.dci.raDci = { iMcs := mcs, iRu := 3, iSc := 18 } := by
  obtain ⟨ue, needsNpdcch, mcs, rfl⟩ := made
  simp only [SchedUe.generateFormatN0] at size ⊢
  exact ⟨mcs, by rw [if_pos size]⟩

/-- Such a grant starts nine TTIs after its DCI and fills four subframes. -/
theorem UlSchedGrant.FourSubframes.toGrant {g : UlSchedGrant} (four : g.FourSubframes) (rxTti : Nat) :
    ∃ ugrant, raNbiotUlDciToGrant g.dci.raDci rxTti = some ugrant ∧ ugrant.nofSlots = 8 ∧
      ugrant.nofRep = 1 ∧ ugrant.txTti = (rxTti + 9) % 10240 := by
  obtain ⟨mcs, dci⟩ := four
  rw [dci]
  exact ⟨_, rfl, rfl, rfl, rfl⟩

namespace MacUl

theorem getUlSched_fourSubframes {ttiTxUl : Nat} {elems : List UlSchedData} {mac : MacUl}
    (made : ∀ elem ∈ elems, elem.FromScheduler) :
    ∀ g ∈ (getUlSched ttiTxUl elems mac).1, g.FourSubframes := by
  induction elems generalizing mac with
  | nil => simp [getUlSched]
  | cons elem rest ih =>
      have later : ∀ e ∈ rest, e.FromScheduler := fun e member => made e (List.mem_cons_of_mem _ member)
      simp only [getUlSched]
      split
      · rename_i size
        split
        · exact ih later
        · intro g member
          rcases List.mem_cons.mp member with rfl | member
          · exact (made elem List.mem_cons_self).raDci size
          · exact ih later g member
      · exact ih later

/-! ## Pending buffers -/

/-- Buffers are pending only in slots that satisfy `P`. -/
def PendingIn (mac : MacUl) (P : Nat → Nat → Prop) : Prop :=
  ∀ rnti ue i, mac.ueDb.find? rnti = some ue → ue.pendingBuffers i ≠ none → P rnti i

/-- No UE has a buffer pending. -/
def AllFree (mac : MacUl) : Prop := PendingIn mac fun _ _ => False

/-- At most the buffer of one grant is pending, in the slot of its TTI. -/
def OnlyPending (mac : MacUl) (rnti tti : Nat) : Prop :=
  PendingIn mac fun r i => r = rnti ∧ i = tti % nofRxHarqProc

theorem AllFree.empty {mac : MacUl} (free : AllFree mac) {rnti i : Nat} {ue : MacUe}
    (found : mac.ueDb.find? rnti = some ue) : ue.pendingBuffers i = none := by
  by_contra pending
  exact free rnti ue i found pending

theorem call_pendingIn {mac : MacUl} {P : Nat → Nat → Prop} (inside : PendingIn mac P) (c : MacCall) :
    PendingIn (mac.call c) P := by
  intro r ue i found pending
  cases c with
  | ueAdd added =>
      simp only [call, ueAdd, SortedMap.find?_insert] at found
      split at found
      · cases found
        exact absurd rfl pending
      · exact inside r ue i found pending
  | ueRem removed =>
      simp only [call, ueRem, SortedMap.find?_erase] at found
      split at found
      · cases found
      · exact inside r ue i found pending

/-- UEs come without pending buffers and take theirs along when they go. -/
theorem calls_pendingIn {mac : MacUl} {P : Nat → Nat → Prop} (inside : PendingIn mac P)
    (cs : List MacCall) : PendingIn (mac.calls cs) P := by
  induction cs generalizing mac with
  | nil => exact inside
  | cons c rest ih => exact ih (call_pendingIn inside c)

theorem getUlSched_nil {ttiTxUl : Nat} {elems : List UlSchedData} {mac : MacUl}
    (none : (getUlSched ttiTxUl elems mac).1 = []) : (getUlSched ttiTxUl elems mac).2 = mac := by
  induction elems with
  | nil => rfl
  | cons elem rest ih =>
      simp only [getUlSched] at none ⊢
      split at none
      · split at none
        · rename_i size _ _
          simp only [if_pos size]
          exact ih none
        · cases none
      · rename_i size
        simp only [if_neg size]
        exact ih none

/-- A single grant from a MAC without pending buffers gets a buffer, and it is the only one. -/
theorem getUlSched_one {ttiTxUl : Nat} {elems : List UlSchedData} {mac : MacUl} {g : UlSchedGrant}
    (free : AllFree mac) (one : (getUlSched ttiTxUl elems mac).1 = [g]) :
    g.data.isSome ∧ OnlyPending (getUlSched ttiTxUl elems mac).2 g.dci.rnti ttiTxUl := by
  induction elems with
  | nil => cases one
  | cons elem rest ih =>
      simp only [getUlSched] at one ⊢
      split at one
      · rename_i size
        split at one
        · simp only [if_pos size]
          exact ih one
        · rename_i ue found
          simp only [if_pos size]
          obtain ⟨rfl, none⟩ := List.cons.inj one
          rw [getUlSched_nil none]
          have empty := free.empty found (i := ttiTxUl % nofRxHarqProc)
          simp only [MacUe.requestBuffer, if_pos size, empty]
          refine ⟨rfl, ?_⟩
          intro r ue' i found' pending
          rw [SortedMap.find?_modify] at found'
          by_cases same : r = elem.dci.rnti
          · rw [if_pos same, same, found] at found'
            cases found'
            refine ⟨same, ?_⟩
            by_contra other
            simp only [MacUe.setPending, if_neg other] at pending
            exact pending (free.empty found)
          · rw [if_neg same] at found'
            exact absurd (free.empty found') pending
      · rename_i size
        simp only [if_neg size]
        exact ih one

/-- The report of a grant empties its slot, whatever the outcome. -/
theorem crcInfo_allFree {mac : MacUl} {rnti tti : Nat} (only : OnlyPending mac rnti tti) (crc : Bool) :
    AllFree (mac.crcInfo tti rnti crc) := by
  intro r ue i found pending
  simp only [crcInfo, SortedMap.find?_modify] at found
  by_cases same : r = rnti
  · rw [if_pos same, Option.map_eq_some_iff] at found
    obtain ⟨old, foundOld, rfl⟩ := found
    have slot : i ≠ tti % nofRxHarqProc ∧ old.pendingBuffers i ≠ none := by
      cases crc <;>
      · simp only [MacUe.pushPdu, MacUe.deallocatePdu, MacUe.setPending, Bool.false_eq_true,
          if_false, if_true] at pending
        split at pending
        · exact absurd rfl pending
        · rename_i other
          exact ⟨other, pending⟩
    exact slot.1 (only r old i foundOld slot.2).2
  · rw [if_neg same] at found
    exact same (only r ue i found pending).1

end MacUl

/-! ## The worker between two grants -/

namespace UlWorker

/-- One TTI of the uplink half of `work_imp`. -/
def tick (w : UlWorker) (rx : Nat) (grants : List UlSchedGrant) (decodes : Bool) :
    UlWorkerLog × UlWorker :=
  (w.recordGrant (ttiAdd (rx % 10240) fddHarqDelayUlMs) grants).workUl grants (rx % 10240) decodes

/-- Nothing recorded and nothing being received. -/
structure Idle (w : UlWorker) : Prop where
  hasUgrant : w.hasUgrant = false
  hasUlGrant : w.enbUl.hasUlGrant = false

/-- In front of TTI `now` the worker holds the grant `e` it was given at `rx`. -/
structure Busy (w : UlWorker) (rx now : Nat) (e : UlSchedGrant) : Prop where
  hasUgrant : w.hasUgrant = true
  rnti : w.npuschRnti = e.dci.rnti
  start : w.npuschStart = (rx + 13) % 10240
  data : w.npuschData = e.data
  slots : w.ugrant.nofSlots = 8
  rep : w.ugrant.nofRep = 1
  waiting : now ≤ rx + 13 → w.enbUl.hasUlGrant = false
  receiving : rx + 13 < now → w.enbUl.hasUlGrant = true ∧ w.enbUl.npuschCfg.grant = w.ugrant ∧
    w.enbUl.npuschCfg.numSf = now - (rx + 13)

theorem tick_idle {w : UlWorker} (idle : w.Idle) (rx : Nat) (decodes : Bool) :
    w.tick rx [] decodes = (⟨[], none, none, none, none⟩, w) := by
  simp [tick, recordGrant, workUl, idle.hasUgrant, idle.hasUlGrant]

theorem tick_record {w : UlWorker} (idle : w.Idle) {e : UlSchedGrant} (four : e.FourSubframes)
    (rx : Nat) (decodes : Bool) :
    (w.tick rx [e] decodes).1 = ⟨[e], none, none, none, none⟩ ∧
      (w.tick rx [e] decodes).2.Busy rx (rx + 1) e := by
  obtain ⟨ugrant, converted, slots, rep, start⟩ :=
    four.toGrant (ttiAdd (rx % 10240) fddHarqDelayUlMs)
  have startTti : ugrant.txTti = (rx + 13) % 10240 := by
    rw [start]
    simp only [ttiAdd, fddHarqDelayUlMs]
    omega
  have notYet : (rx % 10240 == (rx + 13) % 10240) = false := by
    rw [beq_eq_false_iff_ne]
    omega
  simp only [tick, recordGrant, converted, workUl, startTti, notYet, Bool.and_false,
    Bool.false_eq_true, if_false, idle.hasUlGrant]
  exact ⟨trivial, rfl, rfl, rfl, rfl, slots, rep, fun _ => idle.hasUlGrant, fun late => by omega⟩

theorem tick_wait {w : UlWorker} {rx now : Nat} {e : UlSchedGrant} (busy : w.Busy rx now e)
    (after : rx < now) (before : now < rx + 13) (decodes : Bool) :
    w.tick now [] decodes = (⟨[], none, none, none, none⟩, w) ∧ w.Busy rx (now + 1) e := by
  have notYet : (now % 10240 == w.npuschStart) = false := by
    rw [beq_eq_false_iff_ne, busy.start]
    omega
  constructor
  · simp [tick, recordGrant, workUl, notYet, busy.waiting (by omega)]
  · exact { busy with
      waiting := fun _ => busy.waiting (by omega)
      receiving := fun late => by omega }

/-- The decoder takes one more subframe of the four. -/
theorem decode_more {q : EnbUl} (has : q.hasUlGrant = true) (slots : q.npuschCfg.grant.nofSlots = 8)
    (rep : q.npuschCfg.grant.nofRep = 1) (more : q.npuschCfg.numSf < 3) (data : Option Nat)
    (decodes : Bool) :
    ∃ q', q.decodeNpusch data decodes = (.expectMoreSf, q') ∧ q'.hasUlGrant = true ∧
      q'.npuschCfg.grant = q.npuschCfg.grant ∧ q'.npuschCfg.numSf = q.npuschCfg.numSf + 1 := by
  have room : ¬ q.npuschCfg.numSf ≥ 4 := by omega
  have notLast : ¬ q.npuschCfg.numSf + 1 = 4 := by omega
  simp [EnbUl.decodeNpusch, has, slots, rep, room, notLast]

theorem decode_last {q : EnbUl} (has : q.hasUlGrant = true) (slots : q.npuschCfg.grant.nofSlots = 8)
    (rep : q.npuschCfg.grant.nofRep = 1) (last : q.npuschCfg.numSf = 3) (data : Option Nat)
    (decodes : Bool) :
    ∃ q', q.decodeNpusch data decodes =
        (if decodes && data.isSome then .success else .error, q') ∧ q'.hasUlGrant = false ∧
      q'.npuschCfg.grant = q.npuschCfg.grant := by
  simp [EnbUl.decodeNpusch, has, slots, rep, last]

theorem tick_start {w : UlWorker} {rx : Nat} {e : UlSchedGrant} (busy : w.Busy rx (rx + 13) e)
    (decodes : Bool) :
    (w.tick (rx + 13) [] decodes).1 =
        ⟨[], some (e.dci.rnti, e.data), some e.data, some .expectMoreSf, none⟩ ∧
      (w.tick (rx + 13) [] decodes).2.Busy rx (rx + 14) e := by
  have now : ((rx + 13) % 10240 == w.npuschStart) = true := by rw [beq_iff_eq, busy.start]
  obtain ⟨q', decoded, has, grant, numSf⟩ :=
    decode_more (q := EnbUl.cfgGrant w.ugrant w.npuschRnti) rfl busy.slots busy.rep
      (by simp [EnbUl.cfgGrant]) w.npuschData decodes
  have configured : (EnbUl.cfgGrant w.ugrant w.npuschRnti).hasUlGrant = true := rfl
  simp only [tick, recordGrant, workUl, busy.hasUgrant, now, Bool.and_self, if_true, configured,
    decoded, report]
  simp only [busy.rnti, busy.data]
  refine ⟨trivial, rfl, rfl, busy.start, rfl, busy.slots, busy.rep, fun early => by omega, ?_⟩
  intro _
  exact ⟨has, grant, by rw [numSf]; simp [EnbUl.cfgGrant]⟩

theorem tick_more {w : UlWorker} {rx now : Nat} {e : UlSchedGrant} (busy : w.Busy rx now e)
    (after : rx + 13 < now) (before : now < rx + 16) (decodes : Bool) :
    (w.tick now [] decodes).1 = ⟨[], none, some e.data, some .expectMoreSf, none⟩ ∧
      (w.tick now [] decodes).2.Busy rx (now + 1) e := by
  have notNow : (now % 10240 == w.npuschStart) = false := by
    rw [beq_eq_false_iff_ne, busy.start]
    omega
  obtain ⟨hasUl, cfgGrant, count⟩ := busy.receiving after
  obtain ⟨q', decoded, has, grant, numSf⟩ :=
    decode_more hasUl (by rw [cfgGrant]; exact busy.slots) (by rw [cfgGrant]; exact busy.rep)
      (by omega) w.npuschData decodes
  simp only [tick, recordGrant, workUl, notNow, Bool.and_false, Bool.false_eq_true, if_false, hasUl,
    if_true, decoded, report]
  simp only [busy.data]
  refine ⟨trivial, busy.hasUgrant, busy.rnti, busy.start, rfl, busy.slots, busy.rep,
    fun early => by omega, ?_⟩
  intro _
  exact ⟨has, grant.trans cfgGrant, by rw [numSf, count]; omega⟩

/-- A block that does not decode is reported as it is: its length is not one of those for which
    the worker has canned data. -/
def Honest (w : UlWorker) : Prop :=
  w.ugrant.tbs / 8 ≠ 11 ∧ w.ugrant.tbs / 8 ≠ 125 ∧ w.msgCounter ≠ 0

instance (w : UlWorker) : Decidable w.Honest := inferInstanceAs (Decidable (_ ∧ _))

theorem report_outcome (w : UlWorker) (decodes : Bool)
    (honest : decodes = false → w.tbLen ≠ 11 ∧ w.tbLen ≠ 125 ∧ w.msgCounter ≠ 0) :
    ∃ nofBytes, w.report (if decodes then .success else .error) =
      (some ⟨w.npuschStart, w.npuschRnti, nofBytes, decodes⟩, { w with hasUgrant := false }) := by
  cases decodes with
  | true => exact ⟨_, rfl⟩
  | false =>
      obtain ⟨notMsg3, notLong, notFirst⟩ := honest rfl
      exact ⟨w.tbLen, by simp [report, notMsg3, notLong, notFirst]⟩

theorem tick_last {w : UlWorker} {rx : Nat} {e : UlSchedGrant} (busy : w.Busy rx (rx + 16) e)
    (buffer : e.data.isSome) {decodes : Bool} (honest : decodes = false → w.Honest) :
    (∃ ret nofBytes, (w.tick (rx + 16) [] decodes).1 =
        ⟨[], none, some e.data, some ret,
          some ⟨(rx + 13) % 10240, e.dci.rnti, nofBytes, decodes⟩⟩) ∧
      (w.tick (rx + 16) [] decodes).2.Idle := by
  have notNow : ((rx + 16) % 10240 == w.npuschStart) = false := by
    rw [beq_eq_false_iff_ne, busy.start]
    omega
  obtain ⟨hasUl, cfgGrant, count⟩ := busy.receiving (by omega)
  obtain ⟨q', decoded, has, grant⟩ :=
    decode_last hasUl (by rw [cfgGrant]; exact busy.slots) (by rw [cfgGrant]; exact busy.rep)
      (by omega) w.npuschData decodes
  have full : w.npuschData.isSome = true := by rw [busy.data]; exact buffer
  rw [full, Bool.and_true] at decoded
  have len : { w with enbUl := q' }.tbLen = w.ugrant.tbs / 8 := by
    simp only [tbLen, grant, cfgGrant]
  obtain ⟨nofBytes, reported⟩ := report_outcome { w with enbUl := q' } decodes
    (fun fails => by rw [len]; exact honest fails)
  simp only [tick, recordGrant, workUl, notNow, Bool.and_false, Bool.false_eq_true, if_false, hasUl,
    if_true, decoded, reported]
  exact ⟨⟨_, nofBytes, by rw [busy.start, busy.rnti, busy.data]⟩, rfl, has⟩

end UlWorker

/-! ## Runs -/

namespace PhyLog

def rx (o : PhyLog) : Nat := o.work.rx

/-- The grants `get_ul_sched` returned in this TTI. -/
def npusch (o : PhyLog) : List UlSchedGrant := o.work.ul.npusch

/-- The condition on one TTI: at most one grant, and only when none is recorded; a block that is
    complete and does not decode is one for which there is no canned data. -/
structure UlClean (o : PhyLog) : Prop where
  single : o.npusch.length ≤ 1
  free : o.npusch ≠ [] → o.pre.ul.hasUgrant = false
  honest : o.pre.ul.hasUgrant = true → o.rx % 10240 = (o.pre.ul.npuschStart + 3) % 10240 →
    o.input.decodes = false → o.pre.ul.Honest

instance (o : PhyLog) : Decidable o.UlClean :=
  decidable_of_iff
    (o.npusch.length ≤ 1 ∧ (o.npusch ≠ [] → o.pre.ul.hasUgrant = false) ∧
      (o.pre.ul.hasUgrant = true → o.rx % 10240 = (o.pre.ul.npuschStart + 3) % 10240 →
        o.input.decodes = false → o.pre.ul.Honest))
    ⟨fun ⟨single, free, honest⟩ => ⟨single, free, honest⟩,
      fun ⟨single, free, honest⟩ => ⟨single, free, honest⟩⟩

end PhyLog

/-- The grant handed over `d` TTIs before entry `k`. -/
def grantAgo (log : List PhyLog) (k d : Nat) : Option UlSchedGrant :=
  if d ≤ k then (log[k - d]?).bind fun o => o.npusch.head? else none

/-- What entry `k` does in uplink is what the grants of the TTIs before it ask for. -/
structure UlServed (log : List PhyLog) (k : Nat) (o : PhyLog) : Prop where
  single : o.npusch.length ≤ 1
  buffers : ∀ e ∈ o.npusch, e.data.isSome
  configured : o.work.ul.configured = (grantAgo log k 13).map fun e => (e.dci.rnti, e.data)
  decoding : ∀ d e, 13 ≤ d → d ≤ 16 → grantAgo log k d = some e → o.work.ul.decoding = some e.data
  crc : o.work.ul.crc.map (fun c => (c.tti, c.rnti, c.crc)) =
    (grantAgo log k 16).map fun e => ((o.rx + 10237) % 10240, e.dci.rnti, o.input.decodes)

theorem grantAgo_append {log : List PhyLog} (later : List PhyLog) {k : Nat} (inside : k ≤ log.length)
    (d : Nat) (back : 0 < d) : grantAgo (log ++ later) k d = grantAgo log k d := by
  unfold grantAgo
  split
  · rw [List.getElem?_append_left (by omega)]
  · rfl

theorem UlServed.append {log later : List PhyLog} {k : Nat} {o : PhyLog} (served : UlServed log k o)
    (inside : k ≤ log.length) : UlServed (log ++ later) k o := by
  have same := fun d back => grantAgo_append later inside d back
  exact { served with
    configured := by rw [same 13 (by omega)]; exact served.configured
    decoding := fun d e from' near ago =>
      served.decoding d e from' near ((same d (by omega)).symm.trans ago)
    crc := by rw [same 16 (by omega)]; exact served.crc }

namespace PhyMac

/-- One TTI as far as the uplink goes. -/
structure UlTti (s s' : PhyMac) (now : Nat) (o : PhyLog) : Prop where
  pre : o.pre = s.worker
  rx : o.rx = now
  npusch : o.npusch =
    ((s.mac.calls o.input.macCalls).getUlSched ((now + 13) % 10240) o.input.npusch).1
  log : o.work.ul = (s.worker.ul.tick now o.npusch o.input.decodes).1
  worker : s'.worker.ul = (s.worker.ul.tick now o.npusch o.input.decodes).2
  mac : s'.mac =
    let got := ((s.mac.calls o.input.macCalls).getUlSched ((now + 13) % 10240) o.input.npusch).2
    match o.work.ul.crc with
    | none => got
    | some c => got.crcInfo c.tti c.rnti c.crc

theorem tti_ul (mode : NbiotMode) (s : PhyMac) (rx : Nat) (i : WorkInput) :
    UlTti s (s.tti mode rx i).1 rx (s.tti mode rx i).2 := by
  have now : ttiAdd (rx % 10240) (fddDelayUlNbMs + fddHarqDelayDlMs) = (rx + 13) % 10240 := by
    simp [ttiAdd, fddDelayUlNbMs, fddHarqDelayDlMs]
  have passed : ∀ (w : UlWorker) (npusch : List UlSchedGrant) (decodes : Bool),
      (w.tick rx npusch decodes).1.npusch = npusch := by
    intro w npusch decodes
    simp only [UlWorker.tick, UlWorker.workUl]
    split <;> split <;> rfl
  have npusch : (s.tti mode rx i).2.npusch =
      ((s.mac.calls i.macCalls).getUlSched ((rx + 13) % 10240) i.npusch).1 := by
    simp only [tti, now, PhyLog.npusch]
    exact passed _ _ _
  refine ⟨rfl, rfl, npusch, ?_, ?_, ?_⟩
  · rw [npusch]
    simp only [tti, now]
    rfl
  · rw [npusch]
    simp only [tti, now]
    rfl
  · simp only [tti, now]
    rfl

/-- Where the uplink stands in front of TTI `now`: the state and the grants of the last sixteen
    TTIs agree on which grant, if any, is on its way. -/
inductive UlPhase (start : Nat) (s : PhyMac) (past : List PhyLog) : Prop where
  | idle (worker : s.worker.ul.Idle) (mac : s.mac.AllFree)
      (recent : ∀ j o, past[j]? = some o → past.length ≤ j + 16 → o.npusch = [])
  | busy (j : Nat) (p : PhyLog) (e : UlSchedGrant) (at' : past[j]? = some p) (grant : p.npusch = [e])
      (fresh : past.length ≤ j + 16) (buffer : e.data.isSome)
      (worker : s.worker.ul.Busy (start + j) (start + past.length) e)
      (mac : s.mac.OnlyPending e.dci.rnti ((start + j + 13) % 10240))
      (recent : ∀ i o, past[i]? = some o → past.length ≤ i + 16 → i ≠ j → o.npusch = [])

structure UlOk (start now : Nat) (s : PhyMac) (past : List PhyLog) : Prop where
  now : now = start + past.length
  phase : UlPhase start s past
  served : ∀ k o, past[k]? = some o → o.rx = start + k ∧ UlServed past k o

/-- Entries that hold no grant are not seen by later ones. -/
theorem grantAgo_quiet {past : List PhyLog} {j d : Nat}
    (recent : ∀ i o, past[i]? = some o → past.length ≤ i + 16 → i ≠ j → o.npusch = [])
    (back : 0 < d) (near : d ≤ 16) (other : j + d ≠ past.length) :
    grantAgo past past.length d = none := by
  unfold grantAgo
  split
  · rename_i inside
    cases there : past[past.length - d]? with
    | none => rfl
    | some o => simp [recent _ o there (by omega) (by omega)]
  · rfl

theorem grantAgo_here {past : List PhyLog} {j d : Nat} {p : PhyLog} {e : UlSchedGrant}
    (at' : past[j]? = some p) (grant : p.npusch = [e]) (same : j + d = past.length) :
    grantAgo past past.length d = some e := by
  have inside : d ≤ past.length := by omega
  have index : past.length - d = j := by omega
  simp [grantAgo, inside, index, at', grant]

/-- The grants seen sixteen TTIs back are quiet in the longer log as well. -/
theorem recent_append {past : List PhyLog} {o : PhyLog} {j : Nat}
    (recent : ∀ i p, past[i]? = some p → past.length ≤ i + 16 → i ≠ j → p.npusch = [])
    (quiet : o.npusch = [] ∨ j = past.length) :
    ∀ i p, (past ++ [o])[i]? = some p → (past ++ [o]).length ≤ i + 16 → i ≠ j → p.npusch = [] := by
  intro i p at' near other
  rw [List.length_append, List.length_singleton] at near
  by_cases last : i = past.length
  · rw [last, List.getElem?_concat_length] at at'
    cases at'
    exact quiet.resolve_right fun same => other (by rw [last, same])
  · have inside : i < past.length := by
      have := (List.getElem?_eq_some_iff.mp at').1
      rw [List.length_append, List.length_singleton] at this
      omega
    rw [List.getElem?_append_left inside] at at'
    exact recent i p at' (by omega) other

/-- A TTI in which the uplink half does nothing serves a log without grants in reach. -/
theorem served_nothing {past : List PhyLog} {o : PhyLog} {j : Nat}
    (recent : ∀ i p, past[i]? = some p → past.length ≤ i + 16 → i ≠ j → p.npusch = [])
    (far : ∀ d, 13 ≤ d → d ≤ 16 → j + d ≠ past.length)
    (single : o.npusch.length ≤ 1) (buffers : ∀ e ∈ o.npusch, e.data.isSome)
    (configured : o.work.ul.configured = none) (crc : o.work.ul.crc = none) :
    UlServed past past.length o := by
  have quiet : ∀ d, 13 ≤ d → d ≤ 16 → grantAgo past past.length d = none :=
    fun d from' near => grantAgo_quiet recent (by omega) near (far d from' near)
  exact {
    single := single
    buffers := buffers
    configured := by rw [configured, quiet 13 (by omega) (by omega)]; rfl
    decoding := fun d e from' near ago => by rw [quiet d from' near] at ago; cases ago
    crc := by rw [crc, quiet 16 (by omega) (by omega)]; rfl }

/-- The MAC after a TTI without grant and report. -/
theorem UlTti.mac_quiet {s s' : PhyMac} {now : Nat} {o : PhyLog} (step : UlTti s s' now o)
    (empty : o.npusch = []) (crc : o.work.ul.crc = none) : s'.mac = s.mac.calls o.input.macCalls := by
  rw [step.mac, crc]
  exact MacUl.getUlSched_nil (step.npusch.symm.trans empty)

/-- A clean TTI that finds nothing on its way. -/
theorem idle_step {start : Nat} {s s' : PhyMac} {past : List PhyLog} {o : PhyLog}
    (step : UlTti s s' (start + past.length) o) (clean : o.UlClean)
    (made : ∀ elem ∈ o.input.npusch, elem.FromScheduler) (worker : s.worker.ul.Idle)
    (mac : s.mac.AllFree)
    (recent : ∀ j p, past[j]? = some p → past.length ≤ j + 16 → p.npusch = []) :
    UlPhase start s' (past ++ [o]) ∧ UlServed past past.length o := by
  have quiet : ∀ i p, past[i]? = some p → past.length ≤ i + 16 → i ≠ past.length → p.npusch = [] :=
    fun i p at' near _ => recent i p at' near
  have far : ∀ d, 13 ≤ d → d ≤ 16 → past.length + d ≠ past.length := by omega
  have free := MacUl.calls_pendingIn mac o.input.macCalls
  have single := clean.single
  have log := step.log
  have next := step.worker
  rcases grants : o.npusch with _ | ⟨e, _ | ⟨second, more⟩⟩
  · -- no new grant: everything stays as it is
    rw [grants, UlWorker.tick_idle worker] at log next
    have served := served_nothing quiet far single (by simp [grants]) (by rw [log]) (by rw [log])
    refine ⟨.idle (by rw [next]; exact worker) ?_ ?_, served⟩
    · rw [step.mac_quiet grants (by rw [log])]
      exact free
    · intro j p at' near
      by_cases last : j = past.length
      · rw [last, List.getElem?_concat_length] at at'
        cases at'
        exact grants
      · exact recent_append quiet (.inl grants) j p at' near last
  · -- a grant is recorded
    have one := step.npusch.symm.trans grants
    have four := MacUl.getUlSched_fourSubframes made e (by rw [one]; exact List.mem_singleton_self e)
    obtain ⟨ticked, busy⟩ :=
      UlWorker.tick_record worker four (start + past.length) o.input.decodes
    obtain ⟨buffer, only⟩ := MacUl.getUlSched_one free one
    rw [grants] at log next
    rw [ticked] at log
    have served := served_nothing quiet far single (by simpa [grants] using buffer) (by rw [log])
      (by rw [log])
    refine ⟨.busy past.length o e List.getElem?_concat_length grants (by simp) buffer ?_ ?_ ?_, served⟩
    · rw [next, List.length_append, List.length_singleton, ← Nat.add_assoc]
      exact busy
    · rw [step.mac, log]
      exact only
    · exact recent_append quiet (.inr rfl)
  · simp [grants] at single

/-! ### The sixteen TTIs after a grant -/

/-- The grant `e` of TTI `start + j` is on its way. -/
structure UlUnderway (start : Nat) (s : PhyMac) (past : List PhyLog) (j : Nat) (e : UlSchedGrant) :
    Prop where
  granted : ∃ p, past[j]? = some p ∧ p.npusch = [e]
  fresh : past.length ≤ j + 16
  buffer : e.data.isSome
  worker : s.worker.ul.Busy (start + j) (start + past.length) e
  mac : s.mac.OnlyPending e.dci.rnti ((start + j + 13) % 10240)
  recent : ∀ i o, past[i]? = some o → past.length ≤ i + 16 → i ≠ j → o.npusch = []

namespace UlUnderway

variable {start j d : Nat} {s s' : PhyMac} {past : List PhyLog} {o : PhyLog} {e e' : UlSchedGrant}

theorem phase (way : UlUnderway start s past j e) : UlPhase start s past := by
  obtain ⟨p, at', grant⟩ := way.granted
  exact .busy j p e at' grant way.fresh way.buffer way.worker way.mac way.recent

theorem inside (way : UlUnderway start s past j e) : j < past.length := by
  obtain ⟨p, at', -⟩ := way.granted
  exact (List.getElem?_eq_some_iff.mp at').1

theorem ago (way : UlUnderway start s past j e) (same : j + d = past.length) :
    grantAgo past past.length d = some e := by
  obtain ⟨p, at', grant⟩ := way.granted
  exact grantAgo_here at' grant same

theorem quiet (way : UlUnderway start s past j e) (back : 0 < d) (near : d ≤ 16)
    (other : j + d ≠ past.length) : grantAgo past past.length d = none :=
  grantAgo_quiet way.recent back near other

/-- No other grant is in reach. -/
theorem only (way : UlUnderway start s past j e) (from' : 13 ≤ d) (near : d ≤ 16)
    (seen : grantAgo past past.length d = some e') : e' = e := by
  by_cases here : j + d = past.length
  · rw [way.ago here] at seen
    exact (Option.some.inj seen).symm
  · rw [way.quiet (by omega) near here] at seen
    cases seen

/-- A clean TTI brings no second grant. -/
theorem noGrant (way : UlUnderway start s past j e) (step : UlTti s s' (start + past.length) o)
    (clean : o.UlClean) : o.npusch = [] := by
  by_contra second
  have free := clean.free second
  rw [step.pre, way.worker.hasUgrant] at free
  cases free

theorem later (way : UlUnderway start s past j e) (grants : o.npusch = []) :
    ∀ i p, (past ++ [o])[i]? = some p → (past ++ [o]).length ≤ i + 16 → i ≠ j → p.npusch = [] :=
  recent_append way.recent (.inl grants)

theorem goesOn (way : UlUnderway start s past j e) (step : UlTti s s' (start + past.length) o)
    (grants : o.npusch = []) (near : past.length < j + 16)
    (busy : s'.worker.ul.Busy (start + j) (start + past.length + 1) e)
    (noCrc : o.work.ul.crc = none) : UlUnderway start s' (past ++ [o]) j e := by
  obtain ⟨p, at', grant⟩ := way.granted
  have stays : (past ++ [o])[j]? = some p := by
    rw [List.getElem?_append_left way.inside]
    exact at'
  refine ⟨⟨p, stays, grant⟩, by simp; omega, way.buffer, ?_, ?_, way.later grants⟩
  · rw [List.length_append, List.length_singleton, ← Nat.add_assoc]
    exact busy
  · rw [step.mac_quiet grants noCrc]
    exact MacUl.calls_pendingIn way.mac o.input.macCalls

/-- The grant waits for its start. -/
theorem waits (way : UlUnderway start s past j e) (step : UlTti s s' (start + past.length) o)
    (clean : o.UlClean) (early : past.length < j + 13) :
    UlPhase start s' (past ++ [o]) ∧ UlServed past past.length o := by
  have inside := way.inside
  have grants := way.noGrant step clean
  have log := step.log
  have next := step.worker
  obtain ⟨ticked, busy⟩ := UlWorker.tick_wait way.worker (by omega) (by omega) o.input.decodes
  rw [grants, ticked] at log next
  have goesOn := way.goesOn step grants (by omega) (by rw [next]; exact busy) (by rw [log])
  refine ⟨goesOn.phase, ?_⟩
  exact served_nothing way.recent (by omega) clean.single (by simp [grants]) (by rw [log]) (by rw [log])

/-- Its first subframe. -/
theorem starts (way : UlUnderway start s past j e) (step : UlTti s s' (start + past.length) o)
    (clean : o.UlClean) (first : past.length = j + 13) :
    UlPhase start s' (past ++ [o]) ∧ UlServed past past.length o := by
  have grants := way.noGrant step clean
  have log := step.log
  have next := step.worker
  have worker := way.worker
  have here : start + past.length = start + j + 13 := by omega
  rw [here] at worker
  rw [here, grants] at log next
  obtain ⟨ticked, busy⟩ := UlWorker.tick_start worker o.input.decodes
  rw [ticked] at log
  have goesOn := way.goesOn step grants (by omega) (by rw [next, here]; exact busy) (by rw [log])
  refine ⟨goesOn.phase, ?_⟩
  exact {
    single := clean.single
    buffers := by simp [grants]
    configured := by rw [log, way.ago first.symm]; rfl
    decoding := fun d e' from' near seen => by rw [log, way.only from' near seen]
    crc := by rw [log, way.quiet (by omega) (by omega) (by omega)]; rfl }

/-- One of the two subframes in the middle. -/
theorem continues (way : UlUnderway start s past j e) (step : UlTti s s' (start + past.length) o)
    (clean : o.UlClean) (after : j + 13 < past.length) (before : past.length < j + 16) :
    UlPhase start s' (past ++ [o]) ∧ UlServed past past.length o := by
  have grants := way.noGrant step clean
  have log := step.log
  have next := step.worker
  obtain ⟨ticked, busy⟩ := UlWorker.tick_more way.worker (by omega) (by omega) o.input.decodes
  rw [grants] at log next
  rw [ticked] at log
  have goesOn := way.goesOn step grants before (by rw [next]; exact busy) (by rw [log])
  refine ⟨goesOn.phase, ?_⟩
  exact {
    single := clean.single
    buffers := by simp [grants]
    configured := by rw [log, way.quiet (by omega) (by omega) (by omega)]; rfl
    decoding := fun d e' from' near seen => by rw [log, way.only from' near seen]
    crc := by rw [log, way.quiet (by omega) (by omega) (by omega)]; rfl }

/-- The last subframe, and the report. -/
theorem ends (way : UlUnderway start s past j e) (step : UlTti s s' (start + past.length) o)
    (clean : o.UlClean) (last : past.length = j + 16) :
    UlPhase start s' (past ++ [o]) ∧ UlServed past past.length o := by
  have grants := way.noGrant step clean
  have log := step.log
  have next := step.worker
  have worker := way.worker
  have here : start + past.length = start + j + 16 := by omega
  have honest : o.input.decodes = false → s.worker.ul.Honest := by
    intro fails
    have cond := clean.honest
    rw [step.pre, step.rx, worker.start] at cond
    exact cond worker.hasUgrant (by omega) fails
  rw [here] at worker
  rw [here, grants] at log next
  obtain ⟨⟨ret, nofBytes, ticked⟩, idle⟩ := UlWorker.tick_last worker way.buffer honest
  rw [ticked] at log
  refine ⟨.idle (by rw [next]; exact idle) ?_ ?_, ?_⟩
  · rw [step.mac, log]
    simp only
    rw [MacUl.getUlSched_nil (step.npusch.symm.trans grants)]
    exact MacUl.crcInfo_allFree (MacUl.calls_pendingIn way.mac o.input.macCalls) _
  · intro i q there near
    have other : i ≠ j := by
      rw [List.length_append, List.length_singleton] at near
      omega
    exact way.later grants i q there near other
  · exact {
      single := clean.single
      buffers := by simp [grants]
      configured := by rw [log, way.quiet (by omega) (by omega) (by omega)]; rfl
      decoding := fun d e' from' near seen => by rw [log, way.only from' near seen]
      crc := by
        have tti : (o.rx + 10237) % 10240 = (start + j + 13) % 10240 := by
          rw [step.rx, here]
          omega
        rw [log, way.ago last.symm, tti]
        rfl }

/-- A clean TTI in the sixteen after a grant. -/
theorem step (way : UlUnderway start s past j e) (step : UlTti s s' (start + past.length) o)
    (clean : o.UlClean) : UlPhase start s' (past ++ [o]) ∧ UlServed past past.length o := by
  have fresh := way.fresh
  rcases (by omega : past.length < j + 13 ∨ past.length = j + 13 ∨
      (j + 13 < past.length ∧ past.length < j + 16) ∨ past.length = j + 16) with
    early | first | ⟨after, before⟩ | last
  · exact way.waits step clean early
  · exact way.starts step clean first
  · exact way.continues step clean after before
  · exact way.ends step clean last

end UlUnderway

theorem tti_ulOk {mode : NbiotMode} {start now : Nat} {s s' : PhyMac} {past : List PhyLog}
    {i : WorkInput} {o : PhyLog} (ok : UlOk start now s past)
    (stepped : some (s.tti mode now i) = some (s', o)) (clean : o.UlClean)
    (made : ∀ elem ∈ o.input.npusch, elem.FromScheduler) :
    UlOk start (now + 1) s' (past ++ [o]) := by
  have step : UlTti s s' (start + past.length) o := by
    have all := tti_ul mode s now i
    rw [Option.some.inj stepped, ok.now] at all
    exact all
  have both : UlPhase start s' (past ++ [o]) ∧ UlServed past past.length o := by
    cases ok.phase with
    | idle worker mac recent => exact idle_step step clean made worker mac recent
    | busy j p e at' grant fresh buffer worker mac recent =>
        exact UlUnderway.step ⟨⟨p, at', grant⟩, fresh, buffer, worker, mac, recent⟩ step clean
  refine ⟨by rw [ok.now]; simp [Nat.add_assoc], both.1, ?_⟩
  intro k q there
  by_cases last : k = past.length
  · rw [last, List.getElem?_concat_length] at there
    cases there
    rw [last]
    exact ⟨step.rx, both.2.append le_rfl⟩
  · have inside : k < past.length := by
      have := (List.getElem?_eq_some_iff.mp there).1
      rw [List.length_append, List.length_singleton] at this
      omega
    rw [List.getElem?_append_left inside] at there
    obtain ⟨time, served⟩ := ok.served k q there
    exact ⟨time, served.append (by omega)⟩

theorem run_served {mode : NbiotMode} {start : Nat} {inputs : List WorkInput} {last : PhyMac}
    {log : List PhyLog} (ran : run mode start inputs = some (last, log))
    (made : ∀ i ∈ inputs, ∀ elem ∈ i.npusch, elem.FromScheduler) (clean : ∀ o ∈ log, o.UlClean)
    {k : Nat} {o : PhyLog} (at' : log[k]? = some o) : o.rx = start + k ∧ UlServed log k o := by
  have begin : UlOk start start {} [] :=
    ⟨rfl, .idle ⟨rfl, rfl⟩ (fun _ _ _ found => by simp [SortedMap.find?, SortedMap.empty] at found)
      (by simp), by simp⟩
  have both : ∀ o ∈ log, o.UlClean ∧ ∀ elem ∈ o.input.npusch, elem.FromScheduler := by
    intro o member
    obtain ⟨a, m, i, b, inside, stepped⟩ := Ticking.run_mem ran member
    cases stepped
    exact ⟨clean _ member, made i inside⟩
  have all := Ticking.run_invariant (I := UlOk start)
    (fun _ _ _ _ _ _ ok stepped both => tti_ulOk ok stepped both.1 both.2) begin ran both
  exact all.served k o at'

end PhyMac

/-! ## No grant is lost -/

/-- What becomes of a grant handed over in entry `j`. -/
structure GrantServed (log : List PhyLog) (j : Nat) (o : PhyLog) (e : UlSchedGrant) : Prop where
  /-- `request_buffer` found the slot empty -/
  buffer : e.data.isSome
  configured : ∀ p, log[j + 13]? = some p → p.work.ul.configured = some (e.dci.rnti, e.data)
  decoding : ∀ d p, d < 4 → log[j + 13 + d]? = some p → p.work.ul.decoding = some e.data
  reported : ∀ p, log[j + 16]? = some p → ∃ c, p.work.ul.crc = some c ∧
    c.tti = (o.rx + 13) % 10240 ∧ c.rnti = e.dci.rnti

/-- Every grant is served, every report is that of the grant sixteen TTIs before, and a report of
    success follows a successful decoding. -/
structure NoGrantLost (log : List PhyLog) : Prop where
  served : ∀ j o, log[j]? = some o → ∀ e ∈ o.npusch, GrantServed log j o e
  once : ∀ (k : Nat) (p : PhyLog) (c : CrcInfo), log[k]? = some p → p.work.ul.crc = some c →
    ∃ j o e, j + 16 = k ∧ log[j]? = some o ∧ o.npusch = [e] ∧ c.rnti = e.dci.rnti
  truthful : ∀ (k : Nat) (p : PhyLog) (c : CrcInfo), log[k]? = some p → p.work.ul.crc = some c →
    c.crc = true → p.input.decodes = true

namespace PhyMac

theorem grantAgo_self {log : List PhyLog} {j d : Nat} {o : PhyLog} {e : UlSchedGrant}
    (at' : log[j]? = some o) (single : o.npusch.length ≤ 1) (member : e ∈ o.npusch) :
    grantAgo log (j + d) d = some e := by
  have index : j + d - d = j := by omega
  rcases grants : o.npusch with _ | ⟨first, _ | ⟨second, more⟩⟩
  · rw [grants] at member
    cases member
  · rw [grants, List.mem_singleton] at member
    simp [grantAgo, index, at', grants, member]
  · simp [grants] at single

/-- In every run whose TTIs are all clean no uplink grant is lost. -/
theorem no_grant_lost_of_clean {mode : NbiotMode} {start : Nat} {inputs : List WorkInput}
    {last : PhyMac} {log : List PhyLog} (ran : run mode start inputs = some (last, log))
    (made : ∀ i ∈ inputs, ∀ elem ∈ i.npusch, elem.FromScheduler) (clean : ∀ o ∈ log, o.UlClean) :
    NoGrantLost log where
  served j o at' e member := by
    obtain ⟨time, here⟩ := run_served ran made clean at'
    have ago := fun d => grantAgo_self (d := d) at' here.single member
    refine ⟨here.buffers e member, ?_, ?_, ?_⟩
    · intro p there
      rw [(run_served ran made clean there).2.configured, ago 13]
      rfl
    · intro d p below there
      rw [Nat.add_assoc] at there
      exact (run_served ran made clean there).2.decoding (13 + d) e (by omega) (by omega) (ago _)
    · intro p there
      obtain ⟨timeLater, later⟩ := run_served ran made clean there
      have crc := later.crc
      rw [ago 16, Option.map_some, Option.map_eq_some_iff] at crc
      obtain ⟨c, reported, same⟩ := crc
      simp only [Prod.mk.injEq] at same
      refine ⟨c, reported, ?_, same.2.1⟩
      rw [same.1, timeLater, time]
      omega
  once k p c there reported := by
    have crc := (run_served ran made clean there).2.crc
    rw [reported, Option.map_some] at crc
    obtain ⟨e, ago, same⟩ := Option.map_eq_some_iff.mp crc.symm
    simp only [Prod.mk.injEq] at same
    unfold grantAgo at ago
    split at ago
    · rename_i inside
      obtain ⟨o, at', head⟩ := Option.bind_eq_some_iff.mp ago
      have single := (run_served ran made clean at').2.single
      have one : o.npusch = [e] := by
        rcases grants : o.npusch with _ | ⟨first, _ | ⟨second, more⟩⟩
        · simp [grants] at head
        · simpa [grants] using head
        · simp [grants] at single
      exact ⟨k - 16, o, e, by omega, at', one, same.2.1.symm⟩
    · cases ago
  truthful k p c there reported good := by
    have crc := (run_served ran made clean there).2.crc
    rw [reported, Option.map_some] at crc
    obtain ⟨e, -, same⟩ := Option.map_eq_some_iff.mp crc.symm
    simp only [Prod.mk.injEq] at same
    rw [same.2.2]
    exact good

/-- Seventeen TTIs, the first of which brings the UEs and grants given. -/
def grantInputs (rntis : List Nat) (npusch : List UlSchedData) : List WorkInput :=
  { macCalls := rntis.map MacCall.ueAdd, npusch := npusch } ::
    List.replicate 16 { decodes := true }

theorem grantInputs_made (rntis : List Nat) {npusch : List UlSchedData}
    (made : ∀ elem ∈ npusch, elem.FromScheduler) :
    ∀ i ∈ grantInputs rntis npusch, ∀ elem ∈ i.npusch, elem.FromScheduler := by
  intro i member elem inside
  rcases List.mem_cons.mp member with rfl | later
  · exact made elem inside
  · rw [List.eq_of_mem_replicate later] at inside
    cases inside

/-- One Msg3, handed over at receive TTI 21 and decoded: nothing is lost. -/
theorem single_msg3_not_lost :
    ∃ last log, run .standalone 21
        (grantInputs [0x46] [(SchedUe.init 0x46).generateFormatN0 false 0]) = some (last, log) ∧
      (∃ o, log[0]? = some o ∧ o.npusch.length = 1) ∧ NoGrantLost log := by
  have checked : ((run .standalone 21
      (grantInputs [0x46] [(SchedUe.init 0x46).generateFormatN0 false 0])).any fun r =>
      (r.2.all fun o => decide o.UlClean) &&
        r.2[0]?.any fun o => decide (o.npusch.length = 1)) = true := by
    decide +kernel
  obtain ⟨⟨last, log⟩, ran, facts⟩ := Option.any_eq_true .. |>.mp checked
  simp only [Bool.and_eq_true, List.all_eq_true, decide_eq_true_eq, Option.any_eq_true] at facts
  have fromSched : ∀ elem ∈ [(SchedUe.init 0x46).generateFormatN0 false 0], elem.FromScheduler :=
    fun elem member => ⟨_, _, _, List.mem_singleton.mp member⟩
  have made := grantInputs_made [0x46] fromSched
  exact ⟨last, log, ran, facts.2, no_grant_lost_of_clean ran made facts.1⟩

/-- A Msg3 for 0x46 and a new transmission for 0x47 in one result: the second grant is never
    configured. -/
theorem second_grant_lost :
    ∃ last log, run .standalone 21
        (grantInputs [0x46, 0x47] [(SchedUe.init 0x46).generateFormatN0 false 0,
          (SchedUe.init 0x47).generateFormatN0 true 9]) = some (last, log) ∧ ¬ NoGrantLost log := by
  have checked : ((run .standalone 21
      (grantInputs [0x46, 0x47] [(SchedUe.init 0x46).generateFormatN0 false 0,
        (SchedUe.init 0x47).generateFormatN0 true 9])).any fun r =>
      (r.2[0]?.any fun o => o.npusch.any fun e => decide (e.dci.rnti = 0x47)) &&
        r.2[13]?.any fun p => decide (p.work.ul.configured.map Prod.fst = some 0x46)) = true := by
    decide +kernel
  obtain ⟨⟨last, log⟩, ran, facts⟩ := Option.any_eq_true .. |>.mp checked
  simp only [Bool.and_eq_true, List.any_eq_true, decide_eq_true_eq, Option.any_eq_true] at facts
  obtain ⟨⟨o, at', e, member, rnti⟩, p, there, configured⟩ := facts
  refine ⟨last, log, ran, ?_⟩
  intro kept
  have own := (kept.served 0 o at' e member).configured p there
  rw [own, Option.map_some, rnti] at configured
  cases configured

end PhyMac

end SonicaEnb
