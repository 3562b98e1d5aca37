import Mathlib.Tactic.IntervalCases
import SonicaEnb.Lib.Bits
import SonicaEnb.Mac.SchPdu

/-! # The HFN in SIB1

`mac::get_dl_sched` writes the eight high bits of the HFN into the one buffer that
RRC keeps for SIB1, each time SIB1 is sent. They stand in bits 12 to 19: the low half
of one byte and the high half of the next. A UE puts the two low bits to them, which
it has from the MIB.
-/

namespace SonicaEnb

/-! ## The two sides -/

def Buffer.write (buf : Buffer) (ptr : Nat) (byte : UInt8) : Buffer := fun i => if i = ptr then byte else buf i

/-- The patch of SIB1 in `mac::get_dl_sched`. -/
def patchHfn (hfn : Nat) (sib1Content : Buffer) : Buffer :=
  let s1 := sib1Content 1 &&& 0xF0
  let s1 := s1 ||| UInt8.ofNat (hfn >>> 6 &&& 0x0F)
  let sib1Content := sib1Content.write 1 s1
  let s2 := sib1Content 2 &&& 0x0F
  let s2 := s2 ||| UInt8.ofNat ((hfn >>> 2 &&& 0x0F) <<< 4)
  sib1Content.write 2 s2

/-- `srslte_bit_unpack_vector` -/
def bitUnpackVector (packed : Buffer) (nofBits : Nat) : List Nat :=
  ((List.range (nofBits / 8)).flatMap fun i => Bits.unpack (packed i).toNat 8) ++
    if nofBits % 8 ≠ 0 then
      Bits.unpack ((packed (nofBits / 8)).toNat >>> (8 - nofBits % 8)) (nofBits % 8)
    else []

/-- `SRSLTE_NPDSCH_MAX_TBS` -/
def npdschMaxTbs : Nat := 680

/-- `srslte_npdsch_sib1_unpack`: the HFN, from the bits known so far. -/
def npdschSib1Unpack (msg : Buffer) (hyperSfn : Nat) : Nat :=
  let tmp := (bitUnpackVector msg npdschMaxTbs).drop 12
  ((Bits.pack tmp 8 &&& 0xFF) <<< 2 ||| hyperSfn &&& 0x3) &&& 0x3FF

/-! ## Bits of a buffer -/

/-- Bit `i` of a buffer, the highest of a byte first. -/
def Buffer.bit (buf : Buffer) (i : Nat) : Bool := (buf (i / 8)).toNat.testBit (7 - i % 8)

theorem Buffer.ext_bit {buf buf' : Buffer} (same : ∀ i, buf.bit i = buf'.bit i) : buf = buf' := by
  funext k
  apply UInt8.toNat_inj.mp
  apply Nat.eq_of_testBit_eq
  intro j
  by_cases inside : j < 8
  · have here := same (k * 8 + (7 - j))
    have byte : (k * 8 + (7 - j)) / 8 = k := by omega
    have place : 7 - (k * 8 + (7 - j)) % 8 = j := by omega
    simpa only [Buffer.bit, byte, place] using here
  · have small (buf : Buffer) : (buf k).toNat.testBit j = false := by
      apply Nat.testBit_lt_two_pow
      have byte := (buf k).toNat_lt
      have power : 2 ^ 8 ≤ 2 ^ j := Nat.pow_le_pow_right (by omega) (by omega)
      omega
    rw [small, small]

theorem bitUnpackVector_getElem? (buf : Buffer) {n i : Nat} (inside : i < 8 * (n / 8)) :
    (bitUnpackVector buf n)[i]? = some (buf.bit i).toNat := by
  suffices bytes : ∀ k, i < 8 * k →
      ((List.range k).flatMap fun i => Bits.unpack (buf i).toNat 8)[i]? = some (buf.bit i).toNat by
    have here := bytes (n / 8) inside
    rw [bitUnpackVector, List.getElem?_append_left (List.getElem?_eq_some_iff.mp here).1]
    exact here
  intro k
  induction k with
  | zero => omega
  | succ k ih =>
      intro inside
      have length : ((List.range k).flatMap fun i => Bits.unpack (buf i).toNat 8).length = 8 * k := by
        simp [List.length_flatMap, Nat.mul_comm]
      rw [List.range_succ, List.flatMap_append]
      by_cases earlier : i < 8 * k
      · rw [List.getElem?_append_left (by omega)]
        exact ih earlier
      · rw [List.getElem?_append_right (by omega), length]
        have byte : i / 8 = k := by omega
        have place : 8 - 1 - (i - 8 * k) = 7 - i % 8 := by omega
        simp only [List.flatMap_cons, List.flatMap_nil, List.append_nil]
        rw [Bits.unpack_getElem? _ (by omega), Buffer.bit, byte, place]

/-! ## The patch -/

theorem testBit_low_mask (j : Nat) : Nat.testBit 0x0F j = decide (j < 4) := Nat.testBit_two_pow_sub_one 4 j

theorem testBit_high_mask {j : Nat} (inside : j < 8) : Nat.testBit 0xF0 j = decide (4 ≤ j) := by
  interval_cases j <;> rfl

/-- A byte with another low half. -/
theorem testBit_setLow (byte : UInt8) (x : Nat) {j : Nat} (inside : j < 8) :
    ((byte &&& (0xF0 : UInt8)) ||| UInt8.ofNat (x &&& 0x0F)).toNat.testBit j =
      if j < 4 then x.testBit j else byte.toNat.testBit j := by
  rw [UInt8.toNat_or, UInt8.toNat_and, UInt8.toNat_ofNat', Nat.testBit_or, Nat.testBit_and,
    Nat.testBit_mod_two_pow, Nat.testBit_and, testBit_low_mask]
  change (byte.toNat.testBit j && Nat.testBit 0xF0 j || _) = _
  rw [testBit_high_mask inside]
  by_cases low : j < 4
  · simp [low, inside, not_le.mpr low]
  · simp [low, not_lt.mp low]

/-- A byte with another high half. -/
theorem testBit_setHigh (byte : UInt8) (x : Nat) {j : Nat} (inside : j < 8) :
    ((byte &&& (0x0F : UInt8)) ||| UInt8.ofNat ((x &&& 0x0F) <<< 4)).toNat.testBit j =
      if j < 4 then byte.toNat.testBit j else x.testBit (j - 4) := by
  rw [UInt8.toNat_or, UInt8.toNat_and, UInt8.toNat_ofNat', Nat.testBit_or, Nat.testBit_and,
    Nat.testBit_mod_two_pow, Nat.testBit_shiftLeft, Nat.testBit_and, testBit_low_mask]
  change (byte.toNat.testBit j && Nat.testBit 0x0F j || _) = _
  rw [testBit_low_mask]
  by_cases low : j < 4
  · simp [low, not_le.mpr low]
  · have half : j - 4 < 4 := by omega
    simp [low, inside, not_lt.mp low, half]

/-- The patch writes bits 12 to 19 and nothing else. -/
theorem patchHfn_bit (hfn : Nat) (buf : Buffer) (i : Nat) :
    (patchHfn hfn buf).bit i = if 12 ≤ i ∧ i < 20 then hfn.testBit (21 - i) else buf.bit i := by
  by_cases first : i / 8 = 1
  · have byte : patchHfn hfn buf 1 = (buf 1 &&& (0xF0 : UInt8)) ||| UInt8.ofNat (hfn >>> 6 &&& 0x0F) := rfl
    rw [Buffer.bit, first, byte, testBit_setLow _ _ (by omega), Nat.testBit_shiftRight, Buffer.bit, first]
    by_cases low : 12 ≤ i
    · rw [if_pos (by omega), if_pos (by omega)]
      congr 1
      omega
    · rw [if_neg (by omega), if_neg (by omega)]
  · by_cases second : i / 8 = 2
    · have byte : patchHfn hfn buf 2 = (buf 2 &&& (0x0F : UInt8)) ||| UInt8.ofNat ((hfn >>> 2 &&& 0x0F) <<< 4) := rfl
      rw [Buffer.bit, second, byte, testBit_setHigh _ _ (by omega), Nat.testBit_shiftRight, Buffer.bit, second]
      by_cases high : i < 20
      · rw [if_neg (by omega), if_pos (by omega)]
        congr 1
        omega
      · rw [if_pos (by omega), if_neg (by omega)]
    · have byte : patchHfn hfn buf (i / 8) = buf (i / 8) := by simp [patchHfn, Buffer.write, first, second]
      rw [Buffer.bit, byte, Buffer.bit, if_neg (by omega)]

/-- Of several patches the last one stands. -/
theorem patchHfn_patchHfn (h₁ h₂ : Nat) (buf : Buffer) :
    patchHfn h₂ (patchHfn h₁ buf) = patchHfn h₂ buf := by
  apply Buffer.ext_bit
  intro i
  simp only [patchHfn_bit]
  split <;> rfl

/-- Patches leave the other bits as they were, however many there were. -/
theorem patches_bit (earlier : List Nat) (buf : Buffer) {i : Nat} (outside : ¬ (12 ≤ i ∧ i < 20)) :
    (earlier.foldl (fun buf hfn => patchHfn hfn buf) buf).bit i = buf.bit i := by
  induction earlier generalizing buf with
  | nil => rfl
  | cons hfn rest ih =>
      rw [List.foldl_cons, ih, patchHfn_bit, if_neg outside]

/-- What the UE reads: the eight bits it finds, above the two it has. -/
theorem npdschSib1Unpack_patched (buf : Buffer) {hfn : Nat} (inside : hfn < 1024) :
    npdschSib1Unpack (patchHfn hfn buf) (hfn % 4) = hfn := by
  have found : ∀ i < 8, ((bitUnpackVector (patchHfn hfn buf) npdschMaxTbs).drop 12).getD i 0 =
      (hfn.testBit (9 - i)).toNat := by
    intro i below
    have bit := bitUnpackVector_getElem? (patchHfn hfn buf) (n := npdschMaxTbs) (i := 12 + i)
      (by unfold npdschMaxTbs; omega)
    rw [patchHfn_bit, if_pos (by omega), Nat.sub_add_eq] at bit
    rw [List.getD_eq_getElem?_getD, List.getElem?_drop, bit]
    rfl
  have byteMask (k : Nat) : Nat.testBit 0xFF k = decide (k < 8) := Nat.testBit_two_pow_sub_one 8 k
  have mibMask (k : Nat) : Nat.testBit 0x3 k = decide (k < 2) := Nat.testBit_two_pow_sub_one 2 k
  have hfnMask (k : Nat) : Nat.testBit 0x3FF k = decide (k < 10) := Nat.testBit_two_pow_sub_one 10 k
  have mib (k : Nat) : (hfn % 4).testBit k = (decide (k < 2) && hfn.testBit k) := Nat.testBit_mod_two_pow hfn 2 k
  apply Nat.eq_of_testBit_eq
  intro j
  simp only [npdschSib1Unpack, Nat.testBit_and, Nat.testBit_or, Nat.testBit_shiftLeft, Bits.testBit_pack found,
    byteMask, mibMask, hfnMask, mib]
  by_cases low : j < 2
  · have below : ¬ 2 ≤ j := by omega
    have bits : j < 10 := by omega
    simp [low, below, bits]
  · by_cases high : j < 10
    · have byte : j - 2 < 8 := by omega
      have place : 9 - (8 - 1 - (j - 2)) = j := by omega
      simp [low, not_lt.mp low, high, byte, place]
    · have nothing : hfn.testBit j = false := by
        apply Nat.testBit_lt_two_pow
        have power : 2 ^ 10 ≤ 2 ^ j := Nat.pow_le_pow_right (by omega) (by omega)
        omega
      simp [high, nothing]

/-- SIB1 with any HFN, patched before or not: a UE with the MIB of that HFN reads it back, the bits
    besides 12 to 19 are those of the buffer as it was made, and earlier patches leave no trace. -/
theorem hfn_round_trip (sib1Content : Buffer) (earlier : List Nat) {hfn : Nat} (inside : hfn < 1024) :
    let patched := earlier.foldl (fun buf h => patchHfn h buf) sib1Content
    npdschSib1Unpack (patchHfn hfn patched) (hfn % 4) = hfn ∧
      (∀ i, ¬ (12 ≤ i ∧ i < 20) → (patchHfn hfn patched).bit i = sib1Content.bit i) ∧
      ∀ before, patchHfn hfn (patchHfn before patched) = patchHfn hfn patched := by
  refine ⟨npdschSib1Unpack_patched _ inside, ?_, fun before => patchHfn_patchHfn before hfn _⟩
  intro i outside
  rw [patchHfn_bit, if_neg outside]
  exact patches_bit earlier sib1Content outside

/-- HFN 1023 after HFN 7 in a buffer of ones. -/
theorem hfn_after_hfn : npdschSib1Unpack (patchHfn 1023 (patchHfn 7 fun _ => 0xFF)) 3 = 1023 :=
  (hfn_round_trip (fun _ => 0xFF) [7] (by omega : 1023 < 1024)).1

end SonicaEnb
