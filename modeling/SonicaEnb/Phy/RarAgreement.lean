import SonicaEnb.Phy.RarRead

/-! # Both sides have the same Msg3

A response is sent with the bytes MAC has assembled for it as long as the buffers are
kept. The UE that receives it finds the only answer in it, and its grant puts the Msg3
on the subframes the scheduler has reserved, in the shape the worker expects.
-/

namespace SonicaEnb

/-- The grant of every Msg3. -/
def msg3RarGrant : NbiotDciRarGrant := { scSpacing := 1, iSc := 18, iDelay := 0, nRep := 0, iMcs := 0 }

/-! ## What is assembled -/

/-- `alloc_rar` answers one preamble, with this grant. -/
theorem SfGrid.allocRar_grants {g g' : SfGrid} {rar : PendingRar} {n : Nat}
    (allocated : g.allocRar rar = (.success, n, g')) {alloc : RarAlloc} (listed : alloc ∈ g'.sf.rarAllocs) :
    alloc ∈ g.sf.rarAllocs ∨ ∃ info, alloc.rarGrant = [⟨info, msg3RarGrant⟩] := by
  unfold allocRar at allocated
  split at allocated
  · cases allocated
  · rename_i info _ _
    cases allocated
    rcases List.mem_append.mp listed with old | new
    · exact .inl old
    · rw [List.mem_singleton.mp new]
      exact .inr ⟨info, rfl⟩

/-- Every answer that `ra_sched::dl_sched` lists has this grant. -/
theorem raDlSched_grants {pendingRars rest : List PendingRar} {g g' : SfGrid} {ret : AllocOutcome}
    (ran : raDlSched pendingRars g = some (ret, rest, g')) {alloc : RarAlloc}
    (listed : alloc ∈ g'.sf.rarAllocs) :
    alloc ∈ g.sf.rarAllocs ∨ ∃ info, alloc.rarGrant = [⟨info, msg3RarGrant⟩] := by
  unfold raDlSched at ran
  cases pendingRars with
  | nil =>
      cases ran
      exact .inl listed
  | cons rar later =>
      simp only at ran
      -- three guards that list nothing, and then the allocation
      split at ran
      · cases ran
        exact .inl listed
      split at ran
      · cases ran
        exact .inl listed
      split at ran
      · cases ran
        exact .inl listed
      split at ran
      · rename_i n g₁ allocated
        split at ran
        · cases ran
          exact SfGrid.allocRar_grants allocated listed
        · cases ran
          exact SfGrid.allocRar_grants allocated listed
      · cases ran

namespace Sched

variable {s s' : Sched} {rx : Nat} {c : TtiCalls} {o : TtiLog}

/-- The response of a TTI has one answer. -/
theorem tti_response (stepped : s.tti rx c = some (s', o)) (ok : RingOk rx s) :
    (o.pre.rarDue (rx % 10240) = none ∧ o.dl.rar = []) ∨
      ∃ rnti info, o.dl.rar = [⟨8, rarDci rnti, [⟨info, msg3RarGrant⟩]⟩] ∧ o.dl.bc = [] := by
  rcases tti_rarAllocs stepped ok with ⟨notDue, noRar⟩ | ⟨rar, alloc, due, only, size, -, noBc⟩
  · left
    rw [tti_rar stepped, SfGrid.rarSchedResult, noRar]
    exact ⟨notDue, rfl⟩
  · right
    have okPre := tti_pre_ringOk stepped ok
    obtain ⟨lastTti, s₁, ret, g₁, g₂, run, -, allocs⟩ := tti_dlRun stepped
    have unscheduled : ((o.pre.setLastTti lastTti).getSfSched (rx % 10240)).NoDl := by
      rw [setLastTti_getSfSched]
      exact okPre.own_noDl
    have before : ((o.pre.setLastTti lastTti).afterSibs (rx % 10240)).2.sf.rarAllocs = [] := by
      have noRar : ((o.pre.setLastTti lastTti).dlGrid (rx % 10240)).sf.rarAllocs = [] := unscheduled.rarAllocs
      rw [afterSibs, ← dlGrid]
      rcases SfGrid.allocSibs_cases (o.pre.setLastTti lastTti).sib1SfIdx
          ((o.pre.setLastTti lastTti).dlGrid (rx % 10240)) with
        ⟨-, -, sent⟩ | ⟨-, -, -, sent⟩ | ⟨-, sent⟩ <;> rw [sent] <;> exact noRar
    obtain ⟨kept, -⟩ := run.users_keep (run.fresh unscheduled)
    have listed : alloc ∈ g₁.sf.rarAllocs := by
      rw [← kept, ← allocs.rarAllocs, only]
      exact List.mem_singleton_self alloc
    have bcs : o.dl.bc = [] := by rw [tti_bc stepped, SfGrid.bcSchedResult, noBc]; rfl
    rcases raDlSched_grants run.rar listed with old | ⟨info, grants⟩
    · rw [before] at old
      cases old
    · refine ⟨alloc.allocData.rnti, info, ?_, bcs⟩
      rw [tti_rar stepped, SfGrid.rarSchedResult, only, ← size, ← grants]
      rfl

end Sched

/-- What is queued for a response. -/
def rarRecord (mode : NbiotMode) (tx rnti : Nat) : DlGrantRecord :=
  ⟨DlWorker.grantOf mode (rarDci rnti) (tx % 10240) false, rnti, some (.rarPayload 0)⟩

/-- A response carries 56 bits: one subheader and one payload. -/
theorem rarRecord_tbs (mode : NbiotMode) (tx rnti : Nat) : (rarRecord mode tx rnti).grant.tbs = 56 := by
  have size : tbsNbiot (limitDlDci (rarDci rnti)).mcsIdx (limitDlDci (rarDci rnti)).alloc.iSf = 56 := by
    change tbsNbiot 4 0 = 56
    decide
  have noSib1 : (limitDlDci (rarDci rnti)).alloc.hasSib1 = false := rfl
  have some : ¬ (56 = 0) := by decide
  simp only [rarRecord, DlWorker.grantOf, raNbiotDlDciToGrant, noSib1, Bool.false_eq_true, if_false, size, some,
    Option.getD_some]

/-- It starts, and ends, in the subframe that follows its DCI. -/
theorem rarRecord_tti (mode : NbiotMode) (tx rnti : Nat) :
    (rarRecord mode tx rnti).grant.startSfn * 10 + (rarRecord mode tx rnti).grant.startSfidx =
        rarTx tx % 10240 ∧
      (rarRecord mode tx rnti).grant.nofSf * (rarRecord mode tx rnti).grant.nofRep = 1 := by
  have begins : (rarRecord mode tx rnti).grant.BeginsAt (rarTx tx) 1 := DlWorker.rar_beginsAt mode tx rnti
  refine ⟨?_, begins.total⟩
  rw [begins.startSfn, begins.startSfidx]
  omega

/-- Where a response is queued, it is the one that is due in this TTI. -/
theorem DlWorker.workDl_response {mode : NbiotMode} {rx : Nat} {o : TtiLog} {dl : DlSchedPhy}
    (handed : Handed rx o dl) (w : DlWorker) (ulGrants : List UlSchedGrant) {r : DlGrantRecord}
    (pushed : (w.workDl mode (rx + 4) dl ulGrants).1.pushed = some r)
    (isRar : r.data.any TxBuffer.isRar = true) :
    (o.pre.rarDue (rx % 10240)).isSome ∧
      ∃ rnti, dl.npdsch.dci = rarDci rnti ∧ r = rarRecord mode (rx + 4) rnti := by
  have taken : ((w.putUlDci ulGrants).2.takeGrant mode dl (rx + 4)).2.2.1.map Prod.snd = some r := pushed
  cases handed with
  | nothing none =>
      rw [takeGrant_nothing _ none] at taken
      cases taken
  | sib1 _ only =>
      subst only
      rw [takeGrant_sib1 _ Nat.one_pos rfl] at taken
      cases taken
  | sib2 _ _ only =>
      subst only
      rw [takeGrant_sib2 _ Nat.one_pos rfl rfl] at taken
      cases taken
  | rar rar rnti due _ grants dci =>
      rw [takeGrant_dci _ grants (by rw [dci]; rfl) (by rw [dci])] at taken
      cases taken
      refine ⟨by rw [due]; rfl, rnti, by rw [dci], ?_⟩
      rw [recordOf, dci]
      rfl
  | user _ ue _ _ _ _ grants dci npdcch data =>
      rw [takeGrant_dci _ grants (handed_noSib1 dci) npdcch] at taken
      cases taken
      rcases data with none | some
      · rw [recordOf, none] at isRar
        cases isRar
      · rw [recordOf, some] at isRar
        cases isRar

namespace TxEnb

variable {mode : NbiotMode} {rx : Nat} {i : TxInput} {s s' : TxEnb} {o : TxLog}

/-- The response of a TTI, with the bytes that are assembled for it. -/
theorem tti_response (stepped : s.tti mode rx i = some (s', o)) (ok : Sched.RingOk rx s.enb.sched)
    {r : DlGrantRecord} {bytes : List UInt8} (assembled : o.assembled = some ⟨some r, bytes⟩)
    (isRar : r.data.any TxBuffer.isRar = true) :
    ∃ rnti info, o.enb.sched.dl.rar = [⟨8, rarDci rnti, [⟨info, msg3RarGrant⟩]⟩] ∧
      r = rarRecord mode (rx + 4) rnti ∧ bytes = rarBytes [⟨info, msg3RarGrant⟩] 8 := by
  obtain ⟨enb, mem, made, -⟩ := tti_cases stepped
  obtain ⟨sched, -, -, dl, ulGrants, worked⟩ := Enb.tti_dl enb
  have handed := Enb.tti_handed enb ok
  rw [made, Option.bind_eq_some_iff] at assembled
  obtain ⟨queued, pushed, there⟩ := assembled
  obtain ⟨b, data, same⟩ := Option.map_eq_some_iff.mp there
  cases same
  have there : (s.enb.phyMac.worker.dl.workDl mode (rx + 4) o.enb.phy.input.dl ulGrants).1.pushed = some r := by
    rw [worked]
    exact pushed
  obtain ⟨due, rnti, dci, rfl⟩ := DlWorker.workDl_response handed s.enb.phyMac.worker.dl ulGrants there isRar
  cases data
  rcases Sched.tti_response sched ok with ⟨notDue, -⟩ | ⟨rnti', info, listed, noBc⟩
  · rw [notDue] at due
    cases due
  · have handedOver := (Sched.getDlSched_rar (s.enb.phyMac.mac.calls i.macCalls).knows noBc listed).2
    rw [dl, handedOver] at dci
    have rntis : rnti = rnti' := (congrArg (fun d => d.alloc.rnti) dci).symm
    subst rntis
    refine ⟨rnti, info, listed, rfl, ?_⟩
    have written : ((8 : Nat) < rarPayloadLen) := by decide
    rw [mem, Memory.getDlSched, listed]
    simp only [List.zipIdx_singleton, List.foldl_cons, List.foldl_nil, Memory.writeRar, if_pos written]
    exact Function.update_self _ _ _

end TxEnb

/-! ## What the UE makes of it -/

/-- The fields in which the grant of a UE and that of the worker agree. The slots are not among them: the
    UE keeps those of one resource unit. -/
structure RarUlGrant.SameAs (ul : RarUlGrant) (ugrant : RaNbiotUlGrant) : Prop where
  tbs : ul.tbs = ugrant.tbs
  nofRu : ul.nofRu = ugrant.nofRu
  nofRep : ul.nofRep = ugrant.nofRep
  nofSc : ul.nofSc = ugrant.nofSc
  scAlloc : ul.scAlloc = ugrant.scAlloc
  qm : ul.qm = ugrant.qm
  mcsIdx : ul.mcsIdx = ugrant.mcsIdx
  rvIdx : ul.rvIdx = ugrant.rvIdx

/-- The Msg3 of a UE that has its response at `rxTti`, and that of the worker. -/
theorem msg3_grants (rxTti : Nat) (ue : SchedUe) (tti : Nat) :
    ∃ ul ugrant, nbiotDciRarToUlGrant msg3RarGrant rxTti = some ul ∧
      raNbiotUlDciToGrant (ue.generateFormatN0 false 0).dci.raDci tti = some ugrant ∧
      ul.txTti = (rxTti + 13) % 10240 ∧ ul.SameAs ugrant := by
  refine ⟨_, _, rfl, rfl, rfl, ?_⟩
  exact ⟨rfl, rfl, rfl, rfl, rfl, rfl, rfl, rfl⟩

/-- A UE that has read the response in `q` knows the answer that was scheduled in the TTI, and sends its
    Msg3 in the subframes reserved for it, as the worker expects. -/
structure Answered (o : TtiLog) (r : DlGrantRecord) (q : RarPdu) : Prop where
  answer : ∃ info, o.dl.rar = [⟨8, rarDci r.rnti, [⟨info, msg3RarGrant⟩]⟩] ∧
    q.answers = [⟨info.preambleIdx % 64, info.taCmd % 2048, info.tempCrnti % 65536, msg3RarGrant⟩]
  msg3 : ∀ ue tti, ∃ ul ugrant,
    nbiotDciRarToUlGrant msg3RarGrant (r.grant.startSfn * 10 + r.grant.startSfidx) = some ul ∧
      raNbiotUlDciToGrant (SchedUe.generateFormatN0 ue false 0).dci.raDci tti = some ugrant ∧ ul.SameAs ugrant ∧
        ul.txTti = o.msg3Start % 10240 ∧
          (o.queuedMsg3 ≠ [] → ∀ k < 4, o.mid.ulSchedTable ((ul.txTti + k) % 10240) = true)

/-- The subframes from the start of a Msg3 on are reserved when it is queued. -/
theorem Sched.tti_msg3_reserved {s s' : Sched} {rx : Nat} {c : TtiCalls} {o : TtiLog}
    (stepped : s.tti rx c = some (s', o)) (ok : RingOk rx s) (queued : o.queuedMsg3 ≠ []) {k : Nat}
    (inside : k < 4) :
    o.mid.ulSchedTable ((o.msg3Start + k) % 10240) = true := by
  rcases Sched.tti_msg3_table stepped ok with ⟨none, -⟩ | ⟨a, -, -, table⟩
  · exact absurd none queued
  · rw [table]
    exact Wheel.mark_of_mem _ (mem_ulInterval inside)

namespace TxEnb

variable {mode : NbiotMode}

theorem tti_windows {rx : Nat} {i : TxInput} {s s' : TxEnb} {o : TxLog}
    (stepped : s.tti mode rx i = some (s', o)) (windows : Sched.Windows rx s.enb.sched) :
    Sched.Windows (rx + 1) s'.enb.sched :=
  Sched.tti_windows windows (Enb.tti_dl (tti_cases stepped).1).1

/-- One answer is read out of the seven bytes of a response. -/
theorem parsePacket_response (p : RarPdu) (room : 1 < p.maxSubheaders) {info : DlSchedRarInfo} {buf : Buffer}
    (received : buf.Holds 0 ((rarBytes [⟨info, msg3RarGrant⟩] 8).take 7)) :
    (p.parsePacket buf 7).answers =
      [⟨info.preambleIdx % 64, info.taCmd % 2048, info.tempCrnti % 65536, msg3RarGrant⟩] := by
  have header : 0 < (none : Option Nat).toList.length + [(⟨info, msg3RarGrant⟩ : DlSchedRarGrant)].length :=
    Nat.one_pos
  have whole : (none : Option Nat).toList.length +
      7 * [(⟨info, msg3RarGrant⟩ : DlSchedRarGrant)].length ≤ 7 := Nat.le_refl 7
  have written : rarWritePacket none [⟨info, msg3RarGrant⟩] 8 = some (rarBytes [⟨info, msg3RarGrant⟩] 8) :=
    RarPdu.rarWritePacket_rarBytes (by decide) (by simp) (Nat.le_succ 7)
  obtain ⟨padding, response⟩ := RarPdu.rarWritePacket_take written whole
  rw [response, Buffer.holds_append] at received
  exact (p.parsePacket_written header room (by simp) received.1).1

/-- In every run in which the buffers of the queue are kept, a UE that receives a response as it was
    encoded finds in it the answer scheduled in the TTI it was assembled in, and its Msg3 falls on the
    subframes reserved for it. -/
theorem response_understood {start : Nat} {inputs : List TxInput} {last : TxEnb} {log : List TxLog}
    (ran : run mode start inputs = some (last, log)) (kept : ∀ o ∈ log, o.enb.BuffersKept)
    {e : GrantBytes} (sent : e ∈ log.filterMap TxLog.encoded) {r : DlGrantRecord} (grant : e.grant = some r)
    (isRar : r.data.any TxBuffer.isRar = true) (p : RarPdu) (room : 1 < p.maxSubheaders) {buf : Buffer}
    (received : buf.Holds 0 (e.bytes.take (r.grant.tbs / 8))) :
    ∃ o ∈ log, o.assembled = some e ∧ Answered o.enb.sched r (p.parsePacket buf (r.grant.tbs / 8)) := by
  obtain ⟨later, whole⟩ := transmitted_as_assembled ran kept
  have assembled : e ∈ log.filterMap TxLog.assembled := by
    rw [← whole]
    exact List.mem_append_left later sent
  obtain ⟨o, inside, made⟩ := List.mem_filterMap.mp assembled
  obtain ⟨s, rx, i, s', windows, stepped⟩ :=
    Ticking.run_mem_invariant (I := fun n (s : TxEnb) => Sched.Windows n s.enb.sched)
      (fun _ _ _ _ _ before stepped => tti_windows stepped before) (Sched.init_windows start) ran inside
  obtain ⟨grantOfE, bytes⟩ := e
  cases grant
  have response := tti_response stepped windows.ring made isRar
  obtain ⟨rnti, info, listed, record, whole⟩ := response
  have sched := (Enb.tti_dl (tti_cases stepped).1).1
  have tx : o.enb.sched.tx = rx + 4 := Sched.tti_tx sched
  refine ⟨o, inside, made, ?_, ?_⟩
  · refine ⟨info, by rw [listed, record]; rfl, ?_⟩
    rw [record, rarRecord_tbs, whole] at received
    rw [record, rarRecord_tbs]
    exact parsePacket_response p room received
  · intro ue tti
    have place := (rarRecord_tti mode (rx + 4) rnti).1
    obtain ⟨ul, ugrant, understood, expected, txTti, same⟩ := msg3_grants (rarTx (rx + 4) % 10240) ue tti
    have starts : ul.txTti = o.enb.sched.msg3Start % 10240 := by
      rw [txTti, TtiLog.msg3Start, tx, Nat.mod_add_mod]
    refine ⟨ul, ugrant, ?_, expected, same, starts, ?_⟩
    · rw [record, place]
      exact understood
    · intro queued k inside
      rw [starts, Nat.mod_add_mod]
      exact Sched.tti_msg3_reserved sched windows.ring queued inside

/-- A preamble of 0x46, and nothing else for ten TTIs. -/
def singlePreamble : List TxInput :=
  { calls := ⟨rachDetected 0x46 0, []⟩, macCalls := [.ueAdd 0x46] } :: List.replicate 10 {}

/-- Its response is read from the bytes on air, and its Msg3 starts at 34. -/
theorem single_preamble_answered : ∃ last log o r,
    run .standalone 12 singlePreamble = some (last, log) ∧ o ∈ log ∧ o.enb.sched.msg3Start = 34 ∧
      Answered o.enb.sched r
        (RarPdu.parsePacket {} (Region.write (fun _ => 0) 0 [64, 0, 10, 64, 0, 0, 0x46]) 7) := by
  have checked : ((run .standalone 12 singlePreamble).any fun res =>
      (res.2.all fun o => decide o.enb.BuffersKept &&
          (o.assembled.isNone || decide (o.enb.sched.msg3Start = 34))) &&
        (res.2.filterMap TxLog.encoded).any fun e => decide (e.bytes = [64, 0, 10, 64, 0, 0, 0x46, 0]) &&
          e.grant.any fun r => r.data.any TxBuffer.isRar && decide (r.grant.tbs / 8 = 7)) = true := by
    decide +kernel
  obtain ⟨⟨last, log⟩, ran, facts⟩ := Option.any_eq_true .. |>.mp checked
  simp only [Bool.and_eq_true, List.all_eq_true, List.any_eq_true, Bool.or_eq_true, decide_eq_true_eq] at facts
  obtain ⟨each, e, sent, bytes, granted⟩ := facts
  obtain ⟨r, grant, isRar⟩ := Option.any_eq_true .. |>.mp granted
  simp only [Bool.and_eq_true, decide_eq_true_eq] at isRar
  obtain ⟨isRar, size⟩ := isRar
  have received : Buffer.Holds (Region.write (fun _ => 0) 0 (e.bytes.take (r.grant.tbs / 8))) 0
      (e.bytes.take (r.grant.tbs / 8)) := Region.holds_write
  have answered :=
    response_understood ran (fun o inside => (each o inside).1) sent grant isRar {} (by decide) received
  obtain ⟨o, inside, made, answered⟩ := answered
  rw [bytes, size] at answered
  refine ⟨last, log, o, r, ran, inside, ?_, answered⟩
  rcases (each o inside).2 with none | start
  · rw [made] at none
    cases none
  · exact start

end TxEnb

end SonicaEnb
