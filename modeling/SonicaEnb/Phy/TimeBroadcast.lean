import SonicaEnb.Mac.Sib1Hfn
import SonicaEnb.Phy.Cell
import SonicaEnb.Phy.Txrx
import Mathlib.Logic.Function.Basic

/-! # The time a UE learns

A UE has the time from two messages. The MIB holds the high bits of the frame number
and the two low bits of the HFN. It is packed in every 64th frame and sent in
subframe 0, in eight blocks of eight frames each. SIB1 holds the other bits of the HFN.
What both say is the time of the subframe sent, which the worker has from `txrx`.
-/

namespace SonicaEnb

/-! ## The MIB -/

def NbiotMode.value : NbiotMode → Nat
  | .inbandSamePci => 0
  | .inbandDifferentPci => 1
  | .guardband => 2
  | .standalone => 3

def NbiotMode.ofValue : Nat → NbiotMode
  | 0 => .inbandSamePci
  | 1 => .inbandDifferentPci
  | 2 => .guardband
  | _ => .standalone

/-- `srslte_mib_nb_t` -/
structure MibNb where
  sfn : Nat := 0
  hfn : Nat := 0
  schedInfoSib1 : Nat
  sysInfoTag : Nat
  acBarring : Bool
  mode : NbiotMode
  deriving Repr, DecidableEq

/-- The MIB that `sonica_enb_dl_nbiot_set_cell` sets. -/
def cellMib (mode : NbiotMode) : MibNb := { schedInfoSib1 := 5, sysInfoTag := 14, acBarring := false, mode }

theorem cellMib_schedInfo (mode : NbiotMode) : (cellMib mode).schedInfoSib1 < 16 := Nat.lt_of_sub_eq_succ rfl

theorem cellMib_tag (mode : NbiotMode) : (cellMib mode).sysInfoTag < 32 := Nat.lt_of_sub_eq_succ rfl

/-- `srslte_npbch_mib_pack`. The frame number and the HFN of the MIB are not used. -/
def npbchMibPack (hfn sfn : Nat) (mib : MibNb) : List Nat :=
  Bits.unpack (sfn >>> 6) 4 ++ Bits.unpack hfn 2 ++ Bits.unpack mib.schedInfoSib1 4 ++
    Bits.unpack mib.sysInfoTag 5 ++ Bits.unpack mib.acBarring.toNat 1 ++ Bits.unpack mib.mode.value 2 ++
      -- the bits behind the mode, and what is left of 34
      Bits.unpack 1 2 ++ List.replicate 14 0

/-- `srslte_npbch_mib_unpack` -/
def npbchMibUnpack (msg : List Nat) : MibNb :=
  let (sfn, msg) := Bits.take msg 4
  let (hfn, msg) := Bits.take msg 2
  let (schedInfoSib1, msg) := Bits.take msg 4
  let (sysInfoTag, msg) := Bits.take msg 5
  let (acBarring, msg) := Bits.take msg 1
  let (mode, _) := Bits.take msg 2
  { sfn := sfn <<< 6 &&& 0x3C0
    hfn := hfn &&& 0x3
    schedInfoSib1 := schedInfoSib1 &&& 0xffff
    sysInfoTag := sysInfoTag &&& 0x1ffff
    acBarring := acBarring &&& 0x1 != 0
    mode := .ofValue (mode &&& 0xB) }

theorem NbiotMode.ofValue_value (mode : NbiotMode) : NbiotMode.ofValue (mode.value % 4 &&& 0xB) = mode := by
  cases mode <;> rfl

/-- The high bits of a frame number, where they stood. -/
theorem highFrame (sfn : Nat) : ((sfn >>> 6) % 16) <<< 6 &&& 0x3C0 = sfn % 1024 / 64 * 64 := by
  have masked : ∀ x < 16, x <<< 6 &&& 0x3C0 = x * 64 := by decide
  rw [masked _ (Nat.mod_lt _ (by decide)), Nat.shiftRight_eq_div_pow]
  omega

/-- A MIB is read back as far as its fields hold it. -/
theorem npbchMibUnpack_pack (hfn sfn : Nat) {mib : MibNb} (schedInfo : mib.schedInfoSib1 < 16)
    (tag : mib.sysInfoTag < 32) :
    npbchMibUnpack (npbchMibPack hfn sfn mib) =
      { mib with sfn := sfn % 1024 / 64 * 64, hfn := hfn % 4 } := by
  have low : hfn % 2 ^ 2 &&& 0x3 = hfn % 4 := by
    rw [show (0x3 : Nat) = 2 ^ 2 - 1 from rfl, Nat.and_two_pow_sub_one_eq_mod, Nat.mod_mod]
    rfl
  have info : mib.schedInfoSib1 % 2 ^ 4 &&& 0xffff = mib.schedInfoSib1 := by
    rw [show (0xffff : Nat) = 2 ^ 16 - 1 from rfl, Nat.and_two_pow_sub_one_eq_mod]
    omega
  have value : mib.sysInfoTag % 2 ^ 5 &&& 0x1ffff = mib.sysInfoTag := by
    rw [show (0x1ffff : Nat) = 2 ^ 17 - 1 from rfl, Nat.and_two_pow_sub_one_eq_mod]
    omega
  have barring : (mib.acBarring.toNat % 2 ^ 1 &&& 0x1 != 0) = mib.acBarring := by
    cases mib.acBarring <;> rfl
  have mode := mib.mode.ofValue_value
  have frame := highFrame sfn
  simp only [npbchMibUnpack, npbchMibPack, List.append_assoc, Bits.take_unpack, low, info, value, barring]
  exact congrArg₂ (fun sfn mode => ({ mib with sfn, hfn := hfn % 4, mode } : MibNb)) frame mode

/-! ## The NPBCH -/

/-- What `srslte_npbch_encode` does with bits for the cell it is set to: `code` is CRC, convolutional code
    and rate matching, cut into blocks; a block is scrambled where it stands, and modulated. -/
structure NpbchCoding (β γ : Type) where
  code : List Nat → Nat → β
  scramble : Nat → β → β
  modulate : β → γ

/-- `srslte_npbch_t`: the blocks, and the symbols of the last one. -/
structure Npbch (β γ : Type) where
  cell : NbiotCell := {}
  rmB : Nat → β
  d : γ

/-- `sonica_enb_dl_nbiot_t`, as far as the NPBCH goes. -/
structure EnbDlBase (β γ : Type) where
  cell : NbiotCell := {}
  bchPayload : List Nat
  npbch : Npbch β γ
  mibNb : MibNb

variable {β γ : Type} (c : NpbchCoding β γ)

/-- Block `b` of a MIB. -/
def NpbchCoding.block (bits : List Nat) (b : Nat) : γ := c.modulate (c.scramble b (c.code bits b))

/-- `srslte_npbch_set_cell` -/
def Npbch.setCell (q : Npbch β γ) (cell : NbiotCell) : Npbch β γ :=
  if nbiotCellIsvalid cell then
    let cell := if cell.nofPorts = 0 then { cell with nofPorts := 2 } else cell
    if q.cell.nIdNcell ≠ cell.nIdNcell ∨ q.cell.base.nofPrb = 0 then { q with cell } else q
  else q

/-- `srslte_npbch_encode`, up to layer mapping, precoding and the phases of a frame, with the symbols that
    it puts into the subframe. -/
def Npbch.encode (q : Npbch β γ) (bchPayload : List Nat) (frameIdx : Nat) : Option γ × Npbch β γ :=
  if q.cell.nofPorts ≠ 0 then
    let blockIdx := frameIdx / 8 % 8
    let rmB := if frameIdx % 64 = 0 then c.code bchPayload else q.rmB
    if frameIdx % 8 = 0 then
      let scrambled := c.scramble blockIdx (rmB blockIdx)
      (some (c.modulate scrambled),
        { q with rmB := Function.update rmB blockIdx scrambled, d := c.modulate scrambled })
    else (some q.d, { q with rmB })
  else (none, q)

namespace EnbDlBase

/-- `sonica_enb_dl_nbiot_init`; the arrays of the encoder are not cleared. -/
def init (rmB : Nat → β) (d : γ) : EnbDlBase β γ :=
  { bchPayload := List.replicate 34 0
    npbch := { rmB, d }
    mibNb := { schedInfoSib1 := 0, sysInfoTag := 0, acBarring := false, mode := .inbandSamePci } }

/-- `sonica_enb_dl_nbiot_set_cell`, with whether it succeeds. Unlike its counterpart of the uplink it takes
    a cell only for the identity: one that has identity 0 is never set. -/
def setCell (q : EnbDlBase β γ) (cell : NbiotCell) : Bool × EnbDlBase β γ :=
  if nbiotCellIsvalid cell then
    if q.cell.nIdNcell ≠ cell.nIdNcell then
      (true, { q with cell, npbch := q.npbch.setCell cell, mibNb := cellMib cell.mode })
    else (true, q)
  else (false, q)

/-- The NPBCH of `sonica_enb_dl_nbiot_put_base`, with the symbols it puts into the subframe. -/
def putBase (q : EnbDlBase β γ) (hfn tti : Nat) : Option γ × EnbDlBase β γ :=
  let sfIdx := tti % 10
  let sfn := tti / 10
  if sfIdx = 0 then
    let bchPayload := if sfn % 64 = 0 then npbchMibPack hfn sfn q.mibNb else q.bchPayload
    let (symbols, npbch) := q.npbch.encode c bchPayload sfn
    (symbols, { q with bchPayload, npbch })
  else (none, q)

theorem setCell_init_zero (rmB : Nat → β) (d : γ) {cell : NbiotCell} (unnamed : cell.nIdNcell = 0) :
    ((init rmB d).setCell cell).2 = init rmB d := by
  have same : ¬ (init rmB d).cell.nIdNcell ≠ cell.nIdNcell := not_not.mpr unnamed.symm
  rw [setCell, if_neg same]
  split <;> rfl

end EnbDlBase

/-- The MIB of the 640 subframes of which `n` is one. -/
def mibAt (mib : MibNb) (n : Nat) : List Nat := npbchMibPack (n / 10240 % 1024) (n % 10240 / 640 * 64) mib

theorem mibAt_same {mib : MibNb} {n m : Nat} (same : n / 640 = m / 640) : mibAt mib n = mibAt mib m := by
  have hyperframe : n / 10240 = m / 10240 := by omega
  have frame : n % 10240 / 640 = m % 10240 / 640 := by omega
  rw [mibAt, mibAt, hyperframe, frame]

/-- The NPBCH after subframe `n`: the block of the subframe is scrambled, the later ones are not yet. -/
structure Npbch.Holds (payload : List Nat) (n : Nat) (q : Npbch β γ) : Prop where
  sent : q.d = c.block payload (n / 80 % 8)
  ahead : ∀ b < 8, n / 80 % 8 < b → q.rmB b = c.code payload b

variable {c} {payload : List Nat} {n : Nat}

/-- A frame that begins a MIB, or the next one of it. -/
theorem Npbch.Holds.encode {q : Npbch β γ} (ports : q.cell.nofPorts ≠ 0) (frame : n % 10 = 0)
    (before : n % 640 = 0 ∨ ∃ m, n = m + 1 ∧ q.Holds c payload m) :
    (q.encode c payload (n % 10240 / 10)).1 = some (c.block payload (n / 80 % 8)) ∧
      (q.encode c payload (n % 10240 / 10)).2.Holds c payload n ∧
        (q.encode c payload (n % 10240 / 10)).2.cell = q.cell := by
  have block : n % 10240 / 10 / 8 % 8 = n / 80 % 8 := by omega
  unfold Npbch.encode
  rw [if_pos ports, block]
  by_cases first : n % 640 = 0
  · have begins : n % 10240 / 10 % 64 = 0 := by omega
    have turns : n % 10240 / 10 % 8 = 0 := by omega
    simp only [if_pos begins, if_pos turns]
    exact ⟨rfl, ⟨rfl, fun b _ later => Function.update_of_ne (Nat.ne_of_gt later) _ _⟩, trivial⟩
  · obtain ⟨m, rfl, sent, ahead⟩ := before.resolve_left first
    have goesOn : ¬ (m + 1) % 10240 / 10 % 64 = 0 := by omega
    by_cases next : (m + 1) % 80 = 0
    · have turns : (m + 1) % 10240 / 10 % 8 = 0 := by omega
      have fresh := ahead ((m + 1) / 80 % 8) (Nat.mod_lt _ (by decide)) (by omega)
      simp only [if_neg goesOn, if_pos turns, fresh]
      refine ⟨rfl, ⟨rfl, fun b inside later => ?_⟩, trivial⟩
      exact (Function.update_of_ne (Nat.ne_of_gt later) _ _).trans (ahead b inside (by omega))
    · have repeats : ¬ (m + 1) % 10240 / 10 % 8 = 0 := by omega
      have same : (m + 1) / 80 = m / 80 := by omega
      simp only [if_neg goesOn, if_neg repeats]
      rw [← same] at sent ahead
      exact ⟨congrArg some sent, ⟨sent, ahead⟩, trivial⟩

/-- An encoder without ports sends nothing. -/
theorem Npbch.encode_unset {q : Npbch β γ} (unset : q.cell.nofPorts = 0) (payload : List Nat)
    (frameIdx : Nat) : q.encode c payload frameIdx = (none, q) := by
  rw [Npbch.encode, if_neg (not_not.mpr unset)]

namespace EnbDlBase

variable {q : EnbDlBase β γ} {mib : MibNb}

/-- What the worker holds after subframe `n`. -/
structure Holds (c : NpbchCoding β γ) (mib : MibNb) (n : Nat) (q : EnbDlBase β γ) : Prop where
  payload : q.bchPayload = mibAt mib n
  npbch : q.npbch.Holds c (mibAt mib n) n

/-- The subframe that begins a MIB, or the one after `n` was sent. -/
structure Ready (c : NpbchCoding β γ) (mib : MibNb) (n : Nat) (q : EnbDlBase β γ) : Prop where
  mibNb : q.mibNb = mib
  ports : q.npbch.cell.nofPorts ≠ 0
  before : n % 640 = 0 ∨ ∃ m, n = m + 1 ∧ q.Holds c mib m

/-- Within a MIB, what the worker holds is that of the subframe to come. -/
theorem Ready.kept (ready : q.Ready c mib n) (goesOn : ¬ n % 640 = 0) :
    q.bchPayload = mibAt mib n ∧ ∃ m, n = m + 1 ∧ q.npbch.Holds c (mibAt mib n) m := by
  obtain ⟨m, rfl, payload, npbch⟩ := ready.before.resolve_left goesOn
  have same : mibAt mib (m + 1) = mibAt mib m := mibAt_same (by omega)
  rw [same]
  exact ⟨payload, m, rfl, npbch⟩

/-- A frame has the MIB that is packed in it, or the one from before. -/
theorem Ready.packed (ready : q.Ready c mib n) (frame : n % 10 = 0) :
    (if n % 10240 / 10 % 64 = 0 then npbchMibPack (n / 10240 % 1024) (n % 10240 / 10) q.mibNb
      else q.bchPayload) = mibAt mib n := by
  by_cases first : n % 640 = 0
  · have begins : n % 10240 / 10 % 64 = 0 := by omega
    have place : n % 10240 / 10 = n % 10240 / 640 * 64 := by omega
    rw [if_pos begins, ready.mibNb, place, mibAt]
  · have goesOn : ¬ n % 10240 / 10 % 64 = 0 := by omega
    rw [if_neg goesOn, (ready.kept first).1]

theorem putBase_unset (unset : q.npbch.cell.nofPorts = 0) (hfn tti : Nat) :
    (q.putBase c hfn tti).1 = none ∧ (q.putBase c hfn tti).2.npbch.cell.nofPorts = 0 := by
  unfold putBase
  by_cases frame : tti % 10 = 0
  · simp only [if_pos frame, Npbch.encode_unset unset]
    exact ⟨trivial, unset⟩
  · simp only [if_neg frame]
    exact ⟨trivial, unset⟩

end EnbDlBase

/-! ## Every turn -/

/-- Where the two messages are kept: in the worker, and in RRC. -/
structure TimeSource (β γ : Type) where
  dl : EnbDlBase β γ
  sib1Content : Buffer

/-- What a turn sends of them. -/
structure TimeOnAir (γ : Type) where
  npbch : Option γ
  sib1 : Option Buffer

namespace TimeSource

/-- One turn of `txrx`: MAC patches SIB1 if it has scheduled it, and the worker sends. -/
def turn (c : NpbchCoding β γ) (s : TimeSource β γ) (time : WorkerTime) (hasSib1 : Bool) :
    TimeOnAir γ × TimeSource β γ :=
  let sib1Content := if hasSib1 then patchHfn time.hfn s.sib1Content else s.sib1Content
  let (npbch, dl) := s.dl.putBase c time.hfn time.ttiTxDl
  (⟨npbch, if hasSib1 then some sib1Content else none⟩, ⟨dl, sib1Content⟩)

def run (c : NpbchCoding β γ) : TimeSource β γ → List (WorkerTime × Bool) → List (TimeOnAir γ)
  | _, [] => []
  | s, (time, hasSib1) :: turns => (s.turn c time hasSib1).1 :: run c (s.turn c time hasSib1).2 turns

variable {s : TimeSource β γ} {mib : MibNb}

/-- The turns of the one worker there is. `sibs` says when MAC schedules SIB1. -/
def turns (waits sibs : List Bool) : List (WorkerTime × Bool) := (Txrx.start.runThread 1 waits).zip sibs

theorem run_length (c : NpbchCoding β γ) (s : TimeSource β γ) (turns : List (WorkerTime × Bool)) :
    (s.run c turns).length = turns.length := by
  induction turns generalizing s with
  | nil => rfl
  | cons t turns ih => rw [run, List.length_cons, List.length_cons, ih]

theorem run_unset {s : TimeSource β γ} (unset : s.dl.npbch.cell.nofPorts = 0)
    (turns : List (WorkerTime × Bool)) : ∀ o ∈ s.run c turns, o.npbch = none := by
  induction turns generalizing s with
  | nil => simp [run]
  | cons t turns ih =>
      obtain ⟨silent, still⟩ := EnbDlBase.putBase_unset (c := c) unset t.1.hfn t.1.ttiTxDl
      intro o sent
      rcases List.mem_cons.mp sent with rfl | later
      · exact silent
      · exact ih still o later

/-- A cell of identity 0 is never set, and has no NPBCH in any subframe. -/
theorem no_npbch_of_zero (c : NpbchCoding β γ) (rmB : Nat → β) (d : γ) {cell : NbiotCell}
    (unnamed : cell.nIdNcell = 0) (sib1Content : Buffer) (turns : List (WorkerTime × Bool)) :
    ∀ o ∈ run c ⟨((EnbDlBase.init rmB d).setCell cell).2, sib1Content⟩ turns, o.npbch = none := by
  rw [EnbDlBase.setCell_init_zero rmB d unnamed]
  exact run_unset rfl turns

end TimeSource

end SonicaEnb
