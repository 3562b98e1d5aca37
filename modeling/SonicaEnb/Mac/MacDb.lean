import SonicaEnb.Mac.UePdu
import SonicaEnb.Lib.Events
import Mathlib.Data.Finset.Basic

/-! # The UE database of the MAC

`mac::ue_db` maps an RNTI to the object that routes its traffic. The object has an
RNTI of its own, which decides whose RLC entity it writes to and reads from.
-/

namespace SonicaEnb

/-- `mac`: its database, the RNTIs in the one of the scheduler, and the next RNTI to give away. -/
structure MacDb where
  ueDb : SortedMap Nat Ue := SortedMap.empty
  schedUes : Finset Nat := ∅
  lastRnti : Nat := 4097

namespace MacDb

/-- `allocate_rnti` -/
def allocateRnti (mac : MacDb) : Nat × MacDb :=
  (mac.lastRnti, { mac with
    lastRnti := if mac.lastRnti + 1 ≥ 60000 then 4097 else mac.lastRnti + 1 })

/-- `rach_detected` without the task it queues. -/
def rachDetected (mac : MacDb) : Nat × MacDb :=
  let (rnti, mac) := mac.allocateRnti
  (rnti, { mac with ueDb := mac.ueDb.insert rnti { rnti } })

/-- `scheduler.ue_cfg`, which adds the RNTI where it is missing. -/
def schedUeCfg (mac : MacDb) (rnti : Nat) : MacDb :=
  { mac with schedUes := insert rnti mac.schedUes }

/-- `ue_cfg`; whether it succeeds. `given`: the configuration is not null. -/
def ueCfg (mac : MacDb) (rnti : Nat) (given : Bool) : Bool × MacDb :=
  match mac.ueDb.find? rnti with
  | none => (false, mac)
  | some _ => (true, if given then mac.schedUeCfg rnti else mac)

def ueRem (mac : MacDb) (rnti : Nat) : MacDb :=
  match mac.ueDb.find? rnti with
  | none => mac
  | some _ => { mac with ueDb := mac.ueDb.erase rnti, schedUes := mac.schedUes.erase rnti }

/-- `ue_set_crnti`: two different RNTIs are an error, after the UE has been configured. -/
def ueSetCrnti (mac : MacDb) (tempCrnti crnti : Nat) (given : Bool) : Bool × MacDb :=
  match mac.ueCfg crnti given with
  | (false, mac) => (false, mac)
  | (true, mac) => (tempCrnti == crnti, mac)

/-- `crc_info` of a block that could be decoded. -/
def pushPdu (mac : MacDb) (rnti : Nat) (pdu : RxPdu) : MacDb :=
  { mac with ueDb := mac.ueDb.modify rnti fun ue => { ue with pduQ := ue.pduQ ++ [pdu] } }

/-- `sched->ue_exists` -/
def known (mac : MacDb) (rnti : Nat) : Bool := decide (rnti ∈ mac.schedUes)

/-- One turn of the loop of `pdu_queue::process_pdus`, which `mac::process_pdus` runs for one UE
    after the other until each queue is empty. PHY may push between two turns. -/
def processPdu (mac : MacDb) (rnti : Nat) (ue : Ue) (pdu : RxPdu) (rest : List RxPdu) : MacDb :=
  { mac with ueDb := mac.ueDb.insert rnti ({ ue with pduQ := rest }.processPdu mac.known pdu).1 }

end MacDb

inductive MacEvent where
  | rachDetected
  /-- the part of `rach_detected` that is queued for the stack -/
  | rachTask (rnti : Nat)
  | crcInfo (rnti : Nat) (pdu : RxPdu)
  | processPdu (rnti : Nat)
  | ueCfg (rnti : Nat) (given : Bool)
  | ueSetCrnti (tempCrnti crnti : Nat) (given : Bool)
  | ueRem (rnti : Nat)
  /-- `generate_pdu` for a data element; how often RLC is asked depends on the space in the PDU and
      on its answers -/
  | generatePdu (rnti : Nat) (lcids : List Nat)

namespace MacDb

def handle (mac : MacDb) : MacEvent → Option MacDb
  | .rachDetected => some mac.rachDetected.2
  | .rachTask rnti => some (mac.schedUeCfg rnti)
  | .crcInfo rnti pdu => some (mac.pushPdu rnti pdu)
  | .processPdu rnti =>
      match mac.ueDb.find? rnti with
      | none => none
      | some ue =>
          match ue.pduQ with
          | [] => none
          | pdu :: rest => some (mac.processPdu rnti ue pdu rest)
  | .ueCfg rnti given => some (mac.ueCfg rnti given).2
  | .ueSetCrnti tempCrnti crnti given => some (mac.ueSetCrnti tempCrnti crnti given).2
  | .ueRem rnti => some (mac.ueRem rnti)
  | .generatePdu _ _ => some mac

/-- The RNTIs under which RLC is called, for SDUs received or requested by the UE under `rnti`. -/
def rlcRntis (mac : MacDb) : MacEvent → Nat → List Nat
  | .processPdu key, rnti =>
      if key = rnti then
        match mac.ueDb.find? rnti with
        | none => []
        | some ue =>
            match ue.pduQ with
            | [] => []
            | pdu :: rest =>
                ({ ue with pduQ := rest }.processPdu mac.known pdu).2.filterMap UlEffect.rlcRnti?
      else []
  | .generatePdu key lcids, rnti =>
      if key = rnti then
        match mac.ueDb.find? rnti with
        | none => []
        | some ue => lcids.map fun lcid => (ue.readPdu lcid).1
      else []
  | _, _ => []

/-- Every UE object stands under its own RNTI. -/
def Identified (mac : MacDb) : Prop :=
  ∀ rnti ue, mac.ueDb.find? rnti = some ue → ue.rnti = rnti

/-- The event, if it processes a PDU, processes one that keeps the name of its UE. -/
def KeepsNames (mac : MacDb) (e : MacEvent) : Prop :=
  ∀ rnti ue pdu rest, e = .processPdu rnti → mac.ueDb.find? rnti = some ue → ue.pduQ = pdu :: rest →
    pdu.KeepsName mac.known rnti

theorem processPdu_cases {mac mac' : MacDb} {rnti : Nat}
    (handled : mac.handle (.processPdu rnti) = some mac') :
    ∃ ue pdu rest, mac.ueDb.find? rnti = some ue ∧ ue.pduQ = pdu :: rest ∧
      mac' = mac.processPdu rnti ue pdu rest := by
  simp only [handle] at handled
  split at handled
  · cases handled
  · rename_i ue found
    split at handled
    · cases handled
    · rename_i pdu rest queued
      cases handled
      exact ⟨ue, pdu, rest, found, queued, rfl⟩

theorem Identified.insert {mac mac' : MacDb} {rnti : Nat} {ue : Ue} (identified : mac.Identified)
    (same : mac'.ueDb = mac.ueDb.insert rnti ue) : mac'.Identified ↔ ue.rnti = rnti := by
  constructor
  · intro after
    exact after rnti ue (by rw [same, SortedMap.find?_insert, if_pos rfl])
  · intro named key other found
    rw [same, SortedMap.find?_insert] at found
    split at found
    · rename_i here
      cases found
      exact named.trans here.symm
    · exact identified key other found

theorem Identified.congr {mac mac' : MacDb} (identified : mac.Identified)
    (same : mac'.ueDb = mac.ueDb) : mac'.Identified := by
  intro rnti ue found
  rw [same] at found
  exact identified rnti ue found

theorem ueCfg_ueDb (mac : MacDb) (rnti : Nat) (given : Bool) :
    (mac.ueCfg rnti given).2.ueDb = mac.ueDb := by
  unfold ueCfg
  cases mac.ueDb.find? rnti <;> cases given <;> rfl

theorem ueSetCrnti_snd (mac : MacDb) (tempCrnti crnti : Nat) (given : Bool) :
    (mac.ueSetCrnti tempCrnti crnti given).2 = (mac.ueCfg crnti given).2 := by
  unfold ueSetCrnti
  rcases mac.ueCfg crnti given with ⟨ok, mac'⟩
  cases ok <;> rfl

theorem Identified.pushPdu {mac : MacDb} (identified : mac.Identified) (rnti : Nat) (pdu : RxPdu) :
    (mac.pushPdu rnti pdu).Identified := by
  intro key ue found
  simp only [MacDb.pushPdu, SortedMap.find?_modify] at found
  split at found
  · obtain ⟨before, here, rfl⟩ := Option.map_eq_some_iff.mp found
    exact identified key before here
  · exact identified key ue found

theorem Identified.ueRem {mac : MacDb} (identified : mac.Identified) (rnti : Nat) :
    (mac.ueRem rnti).Identified := by
  intro key ue found
  unfold MacDb.ueRem at found
  split at found
  · exact identified key ue found
  · rw [SortedMap.find?_erase] at found
    split at found
    · cases found
    · exact identified key ue found

/-- One event keeps every UE under its own RNTI exactly if the PDU it processes does. -/
theorem Identified.handle {mac mac' : MacDb} {e : MacEvent} (identified : mac.Identified)
    (handled : mac.handle e = some mac') : mac'.Identified ↔ mac.KeepsNames e := by
  have other (kept : mac'.Identified) (no : ∀ rnti, e ≠ .processPdu rnti) :
      mac'.Identified ↔ mac.KeepsNames e := by
    refine iff_of_true kept ?_
    intro rnti ue pdu rest here
    exact absurd here (no rnti)
  cases e with
  | processPdu rnti =>
      obtain ⟨ue, pdu, rest, found, queued, rfl⟩ := processPdu_cases handled
      obtain rfl := identified rnti ue found
      rw [identified.insert rfl]
      refine (Ue.processPdu_rnti mac.known { ue with pduQ := rest } pdu).trans ?_
      constructor
      · intro keeps key ue' pdu' rest' here found' queued'
        cases here
        rw [found] at found'
        cases found'
        rw [queued] at queued'
        cases queued'
        exact keeps
      · intro keeps
        exact keeps _ ue pdu rest rfl found queued
  | rachDetected =>
      cases handled
      have fresh : mac.rachDetected.2.ueDb = mac.ueDb.insert mac.lastRnti { rnti := mac.lastRnti } :=
        rfl
      exact other ((identified.insert fresh).mpr rfl) nofun
  | rachTask rnti =>
      cases handled
      exact other (identified.congr rfl) nofun
  | crcInfo rnti pdu =>
      cases handled
      exact other (identified.pushPdu rnti pdu) nofun
  | ueCfg rnti given =>
      cases handled
      exact other (identified.congr (ueCfg_ueDb ..)) nofun
  | ueSetCrnti tempCrnti crnti given =>
      cases handled
      exact other (identified.congr (by rw [ueSetCrnti_snd, ueCfg_ueDb])) nofun
  | ueRem rnti =>
      cases handled
      exact other (identified.ueRem rnti) nofun
  | generatePdu rnti lcids =>
      cases handled
      exact other identified nofun

/-- Where objects have their own RNTI in front of an event and behind it, RLC is called under the
    RNTI of the grant. -/
theorem rlcRntis_own {mac mac' : MacDb} {e : MacEvent} (identified : mac.Identified)
    (handled : mac.handle e = some mac') (after : mac'.Identified) {rnti target : Nat}
    (member : target ∈ mac.rlcRntis e rnti) : target = rnti := by
  cases e with
  | processPdu key =>
      obtain ⟨ue, pdu, rest, found, queued, rfl⟩ := processPdu_cases handled
      simp only [rlcRntis] at member
      split at member
      · rename_i here
        subst here
        simp only [found, queued] at member
        obtain ⟨effect, sent, writes⟩ := List.mem_filterMap.mp member
        cases effect with
        | sched call => cases writes
        | writePdu target lcid sdu =>
            cases writes
            exact (Ue.processPdu_writes sent).trans ((identified.insert rfl).mp after)
      · cases member
  | generatePdu key lcids =>
      simp only [rlcRntis] at member
      split at member
      · split at member
        · cases member
        · rename_i ue found
          obtain ⟨lcid, -, rfl⟩ := List.mem_map.mp member
          exact identified rnti ue found
      · cases member
  | _ => cases member

end MacDb

/-- In every run, all UE objects keep standing under their own RNTI and all SDUs are exchanged with
    the RLC entity of the grant's RNTI, exactly if every processed PDU keeps the name of its UE. -/
theorem mac_identity_iff {events : List MacEvent} {last : MacDb}
    {log : List (Events.Step MacDb MacEvent)}
    (ran : Events.run MacDb.handle {} events = some (last, log)) :
    (∀ o ∈ log, o.post.Identified ∧
      ∀ rnti, ∀ target ∈ o.pre.rlcRntis o.event rnti, target = rnti) ↔
      ∀ o ∈ log, o.pre.KeepsNames o.event := by
  have start : MacDb.Identified {} := nofun
  have handled {o : Events.Step MacDb MacEvent} (member : o ∈ log) :=
    (Events.run_step (I := fun _ => True) (fun _ _ _ _ _ => trivial) trivial ran member).2
  constructor
  · intro holds o member
    have before := Events.run_pre start ran (fun o member => (holds o member).1) o member
    exact (before.handle (handled member)).mp (holds o member).1
  · intro keeps o member
    have kept := (Events.run_keeps (I := MacDb.Identified) (C := fun s e => s.KeepsNames e)
      (fun s e s' before handled ok => (before.handle handled).mpr ok) start ran keeps).2 o member
    refine ⟨kept.2, ?_⟩
    intro rnti target called
    exact MacDb.rlcRntis_own kept.1 (handled member) kept.2 called

/-- A C-RNTI control element with the RNTI 0x1001, the first one given away, and an SDU on LCID 3. -/
def cRntiPdu : RxPdu := ⟨Buffer.ofList [0x3b, 0x03, 0x10, 0x01, 1, 2, 3, 4, 5], 9⟩

/-- A UE that repeats its own RNTI. -/
theorem own_c_rnti :
    ∃ last log,
      Events.run MacDb.handle {}
        [.rachDetected, .rachTask 4097, .crcInfo 4097 cRntiPdu, .processPdu 4097] = some (last, log) ∧
      ∀ o ∈ log, o.post.Identified ∧
        ∀ rnti, ∀ target ∈ o.pre.rlcRntis o.event rnti, target = rnti := by
  have ran : Events.run MacDb.handle {}
      [.rachDetected, .rachTask 4097, .crcInfo 4097 cRntiPdu, .processPdu 4097] = some (_, _) := rfl
  refine ⟨_, _, ran, (mac_identity_iff ran).mpr ?_⟩
  intro o member rnti ue pdu rest here found queued
  simp only [List.mem_cons, List.not_mem_nil, or_false] at member
  rcases member with rfl | rfl | rfl | rfl
  · cases here
  · cases here
  · cases here
  · cases here
    cases found
    cases queued
    decide +kernel

/-- The second UE names the first: its SDU goes to the RLC entity of the first, and so does all its
    traffic from then on. -/
theorem foreign_c_rnti :
    ∃ last log,
      Events.run MacDb.handle {}
        [.rachDetected, .rachTask 4097, .rachDetected, .rachTask 4098, .crcInfo 4098 cRntiPdu,
          .processPdu 4098] = some (last, log) ∧
      (∃ ue, last.ueDb.find? 4098 = some ue ∧ ue.rnti = 4097) ∧
      ∃ o ∈ log, 4097 ∈ o.pre.rlcRntis o.event 4098 := by
  refine ⟨_, _, rfl, ⟨_, rfl, ?_⟩, _, List.mem_of_getElem? (i := 5) rfl, ?_⟩
  · decide +kernel
  · decide +kernel

end SonicaEnb
