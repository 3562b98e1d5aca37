import SonicaEnb.Phy.SfWorker

/-! # When a Msg3 is sent and when it is received

A RAR whose DCI goes out at TX TTI `x` carries its Msg3 grant on the first valid
subframe from `x + 5` on, and `alloc_ul` reserves the uplink 13 TTIs after that
subframe. The worker counts from the subframe `tti_rx + 9` in which the Msg3 was
queued and ends at `x + 18`. The two agree unless the RAR is pushed past an NSSS.
-/

namespace SonicaEnb

/-- The TTIs in which `ra_sched::dl_sched` may send a RAR DCI, the table apart. -/
def RarDciTti (ttiTxDl : Nat) : Prop := isValidDlSf ttiTxDl = true ∧ ttiTxDl % 16 < 8

/-- The first uplink TTI `alloc_ul` reserves for a Msg3 queued at receive TTI `ttiRx`. -/
def msg3ReservedStart (ttiRx : Nat) : Nat :=
  SfGrid.msg3RxTti (TtiParams.ofRx (ttiRx + 9)).ttiTxDl % 10240

namespace UlWorker

/-- The worker when it has recorded that Msg3, at receive TTI `ttiRx + 9`. -/
def recordMsg3 (w : UlWorker) (ttiRx : Nat) (ue : SchedUe) (data : Option Nat) : UlWorker :=
  w.recordGrant (ttiAdd ((ttiRx + 9) % 10240) fddHarqDelayUlMs)
    [⟨false, (ue.generateFormatN0 false 0).dci, data⟩]

/-- At receive TTI `rx` the worker configures the decoder for the grant it has recorded. -/
def startsDecoding (w : UlWorker) (rx : Nat) : Bool := (w.workUl [] rx false).1.configured.isSome

theorem startsDecoding_eq (w : UlWorker) (rx : Nat) :
    w.startsDecoding rx = (w.hasUgrant && rx == w.npuschStart) := by
  unfold startsDecoding workUl
  cases w.hasUgrant && rx == w.npuschStart with
  | true => rfl
  | false =>
      simp only [Bool.false_eq_true, if_false]
      split <;> rfl

theorem recordMsg3_start (w : UlWorker) (ttiRx : Nat) (ue : SchedUe) (data : Option Nat) :
    (w.recordMsg3 ttiRx ue data).hasUgrant = true ∧
      (w.recordMsg3 ttiRx ue data).npuschStart = (ttiRx + 22) % 10240 := by
  have size : tbsNpusch 0 3 = 88 := by decide
  simp only [recordMsg3, recordGrant, SchedUe.generateFormatN0, size, raNbiotUlDciToGrant,
    ulSubcarriers, ttiAdd, fddHarqDelayUlMs]
  constructor
  · rfl
  · simp [nRepTableNpusch, k0TableFormatN0]
    omega

end UlWorker

/-- The reservation in absolute terms: the skipping loop starts at the RAR DCI plus 5. -/
theorem msg3ReservedStart_eq (ttiRx : Nat) :
    msg3ReservedStart ttiRx = (ttiRx + 22 + validSkip (ttiRx + 9)) % 10240 := by
  have base : ((ttiRx + 9 + 4) % 10240 + 10240 - 9) % 10240 + 5 = (ttiRx + 4) % 10240 + 5 := by omega
  simp only [msg3ReservedStart, SfGrid.msg3RxTti, TtiParams.ofRx, ttiAdd, fddHarqDelayUlMs, base,
    Nat.mod_add_mod, firstValidDlSf_mod]
  have shape : ttiRx + 4 + 5 = ttiRx + 9 := by omega
  rw [shape]
  omega

/-- Seen from a possible RAR DCI, the only invalid subframe five TTIs on is an NSSS. -/
theorem rar_pushed_iff {ttiRx : Nat} (possible : RarDciTti (ttiAdd ttiRx fddHarqDelayUlMs)) :
    validSkip (ttiRx + 9) = 0 ↔ ttiAdd ttiRx fddHarqDelayUlMs % 20 ≠ 4 := by
  obtain ⟨valid, -⟩ := possible
  rw [validSkip_eq_zero, isValidDlSf_iff]
  rw [isValidDlSf_iff] at valid
  simp only [ttiAdd, fddHarqDelayUlMs] at valid ⊢
  omega

/-- The worker starts to decode a Msg3 at the TTI reserved for it, and at no other, exactly when the
    RAR DCI was not sent in subframe 4 of an even frame. -/
theorem msg3_timing_iff (w : UlWorker) (ue : SchedUe) (data : Option Nat) {ttiRx : Nat}
    (possible : RarDciTti (ttiAdd ttiRx fddHarqDelayUlMs)) :
    (∀ rx, (w.recordMsg3 ttiRx ue data).startsDecoding rx = true ↔ rx = msg3ReservedStart ttiRx) ↔
      ttiAdd ttiRx fddHarqDelayUlMs % 20 ≠ 4 := by
  obtain ⟨recorded, start⟩ := w.recordMsg3_start ttiRx ue data
  have skip := validSkip_le (ttiRx + 9)
  rw [← rar_pushed_iff possible, msg3ReservedStart_eq]
  simp only [UlWorker.startsDecoding_eq, recorded, start, Bool.true_and, beq_iff_eq]
  constructor
  · intro agrees
    have same := (agrees ((ttiRx + 22) % 10240)).mp rfl
    omega
  · intro none rx
    rw [none, Nat.add_zero]

/-- RAR DCI at TX TTI 16: its Msg3 is decoded where it is reserved. -/
theorem msg3_timing_at_16 : RarDciTti (ttiAdd 12 fddHarqDelayUlMs) ∧
    ∀ rx, (UlWorker.recordMsg3 {} 12 (SchedUe.init 0x46) (some 0)).startsDecoding rx = true ↔
      rx = msg3ReservedStart 12 := by
  have possible : RarDciTti (ttiAdd 12 fddHarqDelayUlMs) := ⟨by decide, by decide⟩
  exact ⟨possible, (msg3_timing_iff {} (SchedUe.init 0x46) (some 0) possible).mpr (by decide)⟩

/-- RAR DCI at TX TTI 164: the Msg3 is reserved from 184 on, and decoded from 182 on. -/
theorem msg3_decoded_early_at_164 : RarDciTti (ttiAdd 160 fddHarqDelayUlMs) ∧
    msg3ReservedStart 160 = 184 ∧
    (UlWorker.recordMsg3 {} 160 (SchedUe.init 0x46) (some 0)).startsDecoding 182 = true ∧
    (UlWorker.recordMsg3 {} 160 (SchedUe.init 0x46) (some 0)).startsDecoding 184 = false := by
  refine ⟨⟨by decide, by decide⟩, ?_, by decide, by decide⟩
  decide +kernel

end SonicaEnb
