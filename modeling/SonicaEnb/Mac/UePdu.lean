import SonicaEnb.Mac.SchPdu
import SonicaEnb.Mac.SchedCarrier

/-! # What a UE object of the MAC does with a received PDU

`ue::process_pdu` first handles the control elements of a PDU and then routes its
SDUs, under the RNTI the object has by then.
-/

namespace SonicaEnb

/-- A buffer of `pdu_queue` with the length it was pushed with. -/
structure RxPdu where
  buf : Buffer
  len : Nat

/-- `ue`, of which routing uses its RNTI, the contention resolution identity and the queue of PDUs
    that were received and not yet processed. -/
structure Ue where
  rnti : Nat
  conresId : Nat := 0
  pduQ : List RxPdu := []

/-- What leaves the object: an SDU for RLC, or a call of the scheduler. -/
inductive UlEffect where
  | writePdu (rnti lcid : Nat) (sdu : List UInt8)
  | sched (call : SchedCall)
  deriving DecidableEq

/-- The RNTI RLC is called with, if it is called. -/
def UlEffect.rlcRnti? : UlEffect → Option Nat
  | .writePdu rnti _ _ => some rnti
  | .sched _ => none

namespace Ue

/-- `process_ce`; `known` is `sched->ue_exists`. The logical channel groups of a long BSR are never
    filled. -/
def processCe (known : Nat → Bool) (buf : Buffer) (ue : Ue) (subh : SchSubh) :
    Ue × List UlEffect × Bool :=
  match subh.lcid with
  | .crnti =>
      let oldRnti := subh.getCRnti buf
      if known oldRnti then ({ ue with rnti := oldRnti }, [], false) else (ue, [], false)
  | .truncBsr | .shortBsr => (ue, [.sched (.ulBsr ue.rnti 3 (subh.getShortBsr buf) true)], true)
  | .longBsr => (ue, [], true)
  | _ => (ue, [], false)

/-- The first loop of `process_pdu`. -/
def processCes (known : Nat → Bool) (buf : Buffer) :
    List SchSubh → Ue → Ue × List UlEffect × Bool
  | [], ue => (ue, [], false)
  | subh :: rest, ue =>
      if subh.lcid.isSdu then processCes known buf rest ue
      else
        let (ue, effects, isBsr) := ue.processCe known buf subh
        let (ue, later, bsrReceived) := processCes known buf rest ue
        (ue, effects ++ later, isBsr || bsrReceived)

/-- The first six bytes of a CCCH message, the first one on top, over the low bytes of the
    identity. -/
def saveConres (conresId : Nat) (sdu : List UInt8) : Nat :=
  if sdu.length < 6 then conresId
  else conresId / 2 ^ 48 * 2 ^ 48 + (sdu.take 6).foldl (fun acc b => acc * 256 + b.toNat) 0

/-- All-zero CCCH messages are not routed. -/
def routePdu (lcid : Nat) (sdu : List UInt8) : Bool := lcid ≠ 0 || sdu.any (· ≠ 0)

/-- What the second loop of `process_pdu` keeps between its turns. -/
structure SduLoop where
  conresId : Nat
  writes : List UlEffect := []
  lcidMostData : Nat := 0
  mostData : Int := -99

def processSdu (rnti : Nat) (buf : Buffer) (st : SduLoop) (subh : SchSubh) : SduLoop :=
  match subh.lcid with
  | .sdu lcid =>
      let sdu := subh.sduBytes buf
      let route := routePdu lcid sdu
      { conresId := if lcid = 0 && route then saveConres st.conresId sdu else st.conresId
        writes := if route then st.writes ++ [.writePdu rnti lcid sdu] else st.writes
        lcidMostData := if (subh.nofBytes : Int) > st.mostData then lcid else st.lcidMostData
        mostData := max subh.nofBytes st.mostData }
  | _ => st

/-- A PDU that starts with a CCCH subheader has a DPR byte behind it, which is taken out. -/
def stripDpr (pdu : RxPdu) : Buffer × Int × UInt8 :=
  if (pdu.buf 0).toNat % 32 = 0 then
    (fun i => if i = 0 then pdu.buf 0 else pdu.buf (i + 1), (pdu.len : Int) - 1, pdu.buf 1)
  else (pdu.buf, pdu.len, 0)

/-- The scheduler calls at the end of `process_pdu`. -/
def reportDemand (rnti lcidMostData : Nat) (dpr : UInt8) (bsrReceived : Bool) : List UlEffect :=
  (if dpr ≠ 0 then
    [.sched (.ulBsr rnti lcidMostData 125 false), .sched (.ulWaitTimer rnti 30 true)]
  else []) ++
  (if bsrReceived = false && lcidMostData > 2 then
    [.sched (.ulBsr rnti lcidMostData 125 false)]
  else [])

def processPdu (known : Nat → Bool) (ue : Ue) (pdu : RxPdu) : Ue × List UlEffect :=
  let (buf, nofBytes, dpr) := stripDpr pdu
  let subhs := parsePacket buf nofBytes
  let (ue, ces, bsrReceived) := processCes known buf subhs ue
  let st := subhs.foldl (processSdu ue.rnti buf) { conresId := ue.conresId }
  ({ ue with conresId := st.conresId },
    ces ++ st.writes ++ reportDemand ue.rnti st.lcidMostData dpr bsrReceived)

/-- `read_pdu`: the RNTI and channel RLC is asked for. -/
def readPdu (ue : Ue) (lcid : Nat) : Nat × Nat := (ue.rnti, lcid)

end Ue

/-! ## The name of a UE object -/

/-- The RNTIs in the C-RNTI control elements of a PDU, in the order of the PDU. -/
def RxPdu.cRntis (pdu : RxPdu) : List Nat :=
  let (buf, nofBytes, _) := Ue.stripDpr pdu
  ((parsePacket buf nofBytes).filter fun subh => subh.lcid = .crnti).map
    fun subh => subh.getCRnti buf

/-- The last C-RNTI control element that names an RNTI known to the scheduler, if there is one,
    names `rnti`. -/
def RxPdu.KeepsName (known : Nat → Bool) (rnti : Nat) (pdu : RxPdu) : Prop :=
  ∀ last ∈ (pdu.cRntis.filter known).getLast?, last = rnti

instance (known : Nat → Bool) (rnti : Nat) (pdu : RxPdu) : Decidable (pdu.KeepsName known rnti) :=
  inferInstanceAs (Decidable (∀ last ∈ (pdu.cRntis.filter known).getLast?, last = rnti))

namespace Ue

theorem processCes_rnti (known : Nat → Bool) (buf : Buffer) (subhs : List SchSubh) (ue : Ue) :
    (processCes known buf subhs ue).1.rnti =
      ((((subhs.filter fun subh => subh.lcid = .crnti).map
        fun subh => subh.getCRnti buf).filter known).getLast?).getD ue.rnti := by
  induction subhs generalizing ue with
  | nil => rfl
  | cons subh rest ih =>
      obtain ⟨lcid, nofBytes, payload⟩ := subh
      cases lcid with
      | crnti =>
          simp only [processCes, UlSchLcid.isSdu, Bool.false_eq_true, if_false, processCe]
          split
          · rename_i present
            simp [ih, present, List.getLast?_cons]
          · rename_i absent
            simp [ih, absent]
      | sdu lcid => simpa [processCes, UlSchLcid.isSdu] using ih ue
      | _ => simpa [processCes, UlSchLcid.isSdu, processCe] using ih ue

/-- A processed PDU leaves the object under its RNTI exactly if it keeps the name. -/
theorem processPdu_rnti (known : Nat → Bool) (ue : Ue) (pdu : RxPdu) :
    (ue.processPdu known pdu).1.rnti = ue.rnti ↔ pdu.KeepsName known ue.rnti := by
  have name : (ue.processPdu known pdu).1.rnti =
      ((pdu.cRntis.filter known).getLast?).getD ue.rnti := processCes_rnti ..
  rw [name, RxPdu.KeepsName]
  cases (pdu.cRntis.filter known).getLast? with
  | none => simp
  | some last => simp

theorem writePdu_not_processCes {known : Nat → Bool} {buf : Buffer} {subhs : List SchSubh} {ue : Ue}
    {rnti lcid : Nat} {sdu : List UInt8} :
    .writePdu rnti lcid sdu ∉ (processCes known buf subhs ue).2.1 := by
  induction subhs generalizing ue with
  | nil => exact List.not_mem_nil
  | cons subh rest ih =>
      simp only [processCes]
      split
      · exact ih
      · intro member
        rcases List.mem_append.mp member with now | later
        · unfold processCe at now
          split at now
          · simp only at now
            split at now <;> cases now
          · simp at now
          · simp at now
          · cases now
          · cases now
        · exact ih later

theorem processSdus_writes {rnti target lcid : Nat} {buf : Buffer} {sdu : List UInt8}
    {subhs : List SchSubh} {st : SduLoop} (before : .writePdu target lcid sdu ∉ st.writes)
    (member : .writePdu target lcid sdu ∈ (subhs.foldl (processSdu rnti buf) st).writes) :
    target = rnti := by
  induction subhs generalizing st with
  | nil => exact absurd member before
  | cons subh rest ih =>
      by_cases now : .writePdu target lcid sdu ∈ (processSdu rnti buf st subh).writes
      · unfold processSdu at now
        split at now
        · simp only at now
          split at now
          · rcases List.mem_append.mp now with earlier | here
            · exact absurd earlier before
            · cases List.mem_singleton.mp here
              rfl
          · exact absurd now before
        · exact absurd now before
      · exact ih now member

theorem writePdu_not_reportDemand {rnti lcidMostData : Nat} {dpr : UInt8} {bsrReceived : Bool}
    {target lcid : Nat} {sdu : List UInt8} :
    .writePdu target lcid sdu ∉ reportDemand rnti lcidMostData dpr bsrReceived := by
  unfold reportDemand
  split <;> split <;> simp

/-- The SDUs of a PDU go out under the RNTI the object has behind the PDU. -/
theorem processPdu_writes {known : Nat → Bool} {ue : Ue} {pdu : RxPdu} {target lcid : Nat}
    {sdu : List UInt8} (member : .writePdu target lcid sdu ∈ (ue.processPdu known pdu).2) :
    target = (ue.processPdu known pdu).1.rnti := by
  rcases List.mem_append.mp member with front | demand
  · rcases List.mem_append.mp front with ce | write
    · exact absurd ce writePdu_not_processCes
    · exact processSdus_writes (by simp) write
  · exact absurd demand writePdu_not_reportDemand

end Ue

end SonicaEnb
