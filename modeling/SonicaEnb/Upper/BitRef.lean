import Mathlib.Algebra.Ring.Nat

/-! # Packing bits (`asn1/asn1_utils.cc`)

A `bit_ref` writes into a buffer from its most significant bits on: `ptr` is the
byte it stands in and `offset` the bits of it that are taken. What packs a message
is a sequence of calls on one `bit_ref`; some of their return values are not looked
at.
-/

namespace SonicaEnb

/-- `SRSASN_CODE` -/
inductive SrsasnCode where
  | success
  | errorEncodeFail
  | errorDecodeFail
  deriving Repr, DecidableEq

/-- `bit_ref`; the buffer has its addresses from `start_ptr` on. -/
structure BitRef where
  mem : Nat → UInt8
  ptr : Nat := 0
  offset : Fin 8 := 0
  maxPtr : Nat

namespace BitRef

/-- `bit_ref(start_ptr_, max_size_)` -/
def start (mem : Nat → UInt8) (maxSize : Nat) : BitRef := { mem, maxPtr := maxSize }

/-- `distance` to the start of the buffer, in bits. -/
def distance (b : BitRef) : Nat := b.offset + 8 * b.ptr

/-- `distance_bytes` -/
def distanceBytes (b : BitRef) : Nat := b.ptr + if b.offset ≠ 0 then 1 else 0

/-- `*ptr = (*ptr & keepmask) + bit` -/
def setBits (b : BitRef) (bit : UInt8) : Nat → UInt8 :=
  fun a => if a = b.ptr then (b.mem a &&& UInt8.ofNat (255 - (2 ^ (8 - b.offset.val) - 1))) + bit else b.mem a

/-- The loop of `pack`. -/
def packLoop (b : BitRef) (val nBits : Nat) : SrsasnCode × BitRef :=
  if nBits = 0 then (.success, b)
  else if b.maxPtr ≤ b.ptr then (.errorEncodeFail, b)
  else
    let val := val % 2 ^ nBits
    if inside : nBits < 8 - b.offset.val then
      let bit := UInt8.ofNat (val <<< (8 - b.offset.val - nBits))
      (.success, { b with mem := b.setBits bit, offset := ⟨b.offset.val + nBits, by omega⟩ })
    else
      let bit := UInt8.ofNat (val >>> (nBits - (8 - b.offset.val)))
      packLoop { b with mem := b.setBits bit, ptr := b.ptr + 1, offset := 0 } val
        (nBits - (8 - b.offset.val))
termination_by nBits

/-- `bit_ref::pack` -/
def pack (b : BitRef) (val nBits : Nat) : SrsasnCode × BitRef :=
  if 32 ≤ nBits then (.errorEncodeFail, b) else b.packLoop val nBits

/-- `bit_ref::align_bytes_zero` -/
def alignBytesZero (b : BitRef) : SrsasnCode × BitRef :=
  if b.offset = 0 then (.success, b)
  else if b.maxPtr ≤ b.ptr then (.errorEncodeFail, b)
  else
    let mask := UInt8.ofNat (256 - 2 ^ (8 - b.offset.val))
    let mem := fun a => if a = b.ptr then b.mem a &&& mask else b.mem a
    (.success, { b with mem, ptr := b.ptr + 1, offset := 0 })

end BitRef

/-- What packing a message does next: a call of `bit_ref::pack`, whose failure ends the packing where
it is `handled`, or a check of the message's own that fails. -/
inductive PackStep where
  | pack (val nBits : Nat) (handled : Bool)
  | fail
  deriving Repr, DecidableEq

namespace BitRef

def packSteps (b : BitRef) : List PackStep → SrsasnCode × BitRef
  | [] => (.success, b)
  | .fail :: _ => (.errorEncodeFail, b)
  | .pack val nBits handled :: later =>
      let (code, b') := b.pack val nBits
      if handled && code ≠ .success then (code, b') else b'.packSteps later

/-- `pack` of a whole message: `msg` are the steps of its content. The last alignment is not
looked at. -/
def packMsg (b : BitRef) (msg : List PackStep) : SrsasnCode × BitRef :=
  let (code, b') := b.packSteps msg
  if code ≠ .success then (code, b') else (.success, b'.alignBytesZero.2)

/-! ## The cursor -/

/-- Bytes that hold so many bits. -/
def bytesOf (bits : Nat) : Nat := (bits + 7) / 8

/-- A partial byte is counted already. -/
theorem distanceBytes_eq (b : BitRef) : b.distanceBytes = bytesOf b.distance := by
  unfold distanceBytes bytesOf distance
  have below := b.offset.isLt
  split
  · rename_i partial_
    have some_ : b.offset.val ≠ 0 := fun none_ => partial_ (Fin.ext none_)
    omega
  · rename_i aligned
    rw [not_not.mp aligned]
    change b.ptr + 0 = (0 + 8 * b.ptr + 7) / 8
    omega

theorem aligned_distanceBytes {b : BitRef} (aligned : b.offset = 0) : b.distanceBytes = b.ptr := by
  rw [distanceBytes, if_neg (not_not.mpr aligned), Nat.add_zero]

theorem partial_distanceBytes {b : BitRef} (inside : b.offset ≠ 0) : b.distanceBytes = b.ptr + 1 := by
  rw [distanceBytes, if_pos inside]

theorem distanceBytes_le (b : BitRef) : b.distanceBytes ≤ b.ptr + 1 := by
  unfold distanceBytes
  split <;> omega

/-- The cursor is in a buffer of `maxPtr` bytes that had the contents `old`, and has written nothing
behind the byte it stands in. -/
structure Clean (old : Nat → UInt8) (maxPtr : Nat) (b : BitRef) : Prop where
  limit : b.maxPtr = maxPtr
  room : b.distance ≤ 8 * maxPtr
  behind : ∀ a, b.distanceBytes ≤ a → b.mem a = old a

variable {old : Nat → UInt8} {maxPtr val nBits : Nat} {b : BitRef}

theorem clean_start (old : Nat → UInt8) (maxPtr : Nat) : Clean old maxPtr (start old maxPtr) :=
  ⟨rfl, Nat.zero_le _, fun _ _ => rfl⟩

theorem setBits_behind (b : BitRef) (bit : UInt8) {a : Nat} (behind : b.ptr < a) :
    b.setBits bit a = b.mem a := if_neg (Nat.ne_of_gt behind)

/-- A buffer that is not full has room for the byte at the cursor. -/
theorem Clean.setBits (clean : Clean old maxPtr b) (bit : UInt8) {b' : BitRef}
    (mem : b'.mem = b.setBits bit) (limit : b'.maxPtr = b.maxPtr) (room : b'.distance ≤ 8 * maxPtr)
    (moved : b'.distanceBytes = b.ptr + 1) : Clean old maxPtr b' := by
  refine ⟨limit.trans clean.limit, room, fun a behind => ?_⟩
  rw [moved] at behind
  rw [mem, setBits_behind b bit behind]
  exact clean.behind a (Nat.le_trans b.distanceBytes_le behind)

theorem packLoop_clean (clean : Clean old maxPtr b) (val nBits : Nat) :
    Clean old maxPtr (b.packLoop val nBits).2 := by
  fun_induction packLoop b val nBits with
  | case1 => exact clean
  | case2 => exact clean
  | case3 b val nBits some_ room val' inside bit =>
      have limit := clean.limit
      refine clean.setBits bit rfl rfl ?_ (partial_distanceBytes fun none_ => ?_)
      · change b.offset.val + nBits + 8 * b.ptr ≤ 8 * maxPtr
        omega
      · have none_' : b.offset.val + nBits = 0 := congrArg Fin.val none_
        omega
  | case4 b val nBits some_ room val' next bit ih =>
      have limit := clean.limit
      apply ih
      refine clean.setBits bit rfl rfl ?_ (aligned_distanceBytes rfl)
      change 0 + 8 * (b.ptr + 1) ≤ 8 * maxPtr
      omega

/-- With room for its bits the loop packs them all. -/
theorem packLoop_fits (b : BitRef) (val nBits : Nat) (fits : b.distance + nBits ≤ 8 * b.maxPtr) :
    (b.packLoop val nBits).1 = .success ∧
      (b.packLoop val nBits).2.distance = b.distance + nBits ∧
      (b.packLoop val nBits).2.maxPtr = b.maxPtr := by
  fun_induction packLoop b val nBits with
  | case1 => exact ⟨rfl, rfl, rfl⟩
  | case2 b val nBits some_ full =>
      unfold distance at fits
      omega
  | case3 b val nBits some_ room val' inside bit =>
      refine ⟨rfl, ?_, rfl⟩
      change b.offset.val + nBits + 8 * b.ptr = b.offset.val + 8 * b.ptr + nBits
      omega
  | case4 b val nBits some_ room val' next bit ih =>
      have below := b.offset.isLt
      have moved : (BitRef.mk (b.setBits bit) (b.ptr + 1) 0 b.maxPtr).distance =
          b.distance + (8 - b.offset.val) := by
        change 0 + 8 * (b.ptr + 1) = b.offset.val + 8 * b.ptr + (8 - b.offset.val)
        omega
      obtain ⟨packed, distance, limit⟩ := ih (by
        rw [moved]
        change b.distance + (8 - b.offset.val) + (nBits - (8 - b.offset.val)) ≤ 8 * b.maxPtr
        omega)
      refine ⟨packed, ?_, limit⟩
      rw [distance, moved]
      omega

theorem pack_clean (clean : Clean old maxPtr b) (val nBits : Nat) :
    Clean old maxPtr (b.pack val nBits).2 := by
  unfold pack
  split
  · exact clean
  · exact packLoop_clean clean val nBits

theorem packSteps_clean (msg : List PackStep) (clean : Clean old maxPtr b) :
    Clean old maxPtr (b.packSteps msg).2 := by
  induction msg generalizing b with
  | nil => exact clean
  | cons step later ih =>
      cases step with
      | fail => exact clean
      | pack val nBits handled =>
          rw [packSteps]
          dsimp only
          split
          · exact pack_clean clean val nBits
          · exact ih (pack_clean clean val nBits)

/-- The last alignment takes the rest of a partial byte. -/
theorem alignBytesZero_clean (clean : Clean old maxPtr b) :
    Clean old maxPtr b.alignBytesZero.2 ∧ b.alignBytesZero.2.offset = 0 ∧
      b.alignBytesZero.2.distanceBytes = b.distanceBytes := by
  have limit := clean.limit
  have room := clean.room
  unfold distance at room
  unfold alignBytesZero
  split
  · rename_i aligned
    exact ⟨clean, aligned, rfl⟩
  · rename_i inside
    have some_ : b.offset.val ≠ 0 := fun none_ => inside (Fin.ext none_)
    rw [if_neg (by omega)]
    refine ⟨⟨limit, ?_, fun a behind => ?_⟩, rfl, (partial_distanceBytes inside).symm⟩
    · change 0 + 8 * (b.ptr + 1) ≤ 8 * maxPtr
      omega
    · change b.ptr + 1 + 0 ≤ a at behind
      refine (if_neg (by omega)).trans (clean.behind a ?_)
      rw [partial_distanceBytes inside]
      exact behind

/-- A message that packs ends at a whole byte: the one its last bit is in. Behind it the buffer is as
it was. -/
theorem packMsg_success {msg : List PackStep}
    (packs : (packMsg (start old maxPtr) msg).1 = .success) :
    (packMsg (start old maxPtr) msg).2.distanceBytes =
        bytesOf (packSteps (start old maxPtr) msg).2.distance ∧
      ∀ a, bytesOf (packSteps (start old maxPtr) msg).2.distance ≤ a →
        (packMsg (start old maxPtr) msg).2.mem a = old a := by
  have clean := packSteps_clean msg (clean_start old maxPtr)
  obtain ⟨aligned, -, bytes⟩ := alignBytesZero_clean clean
  rw [← distanceBytes_eq]
  unfold packMsg at packs ⊢
  dsimp only at packs ⊢
  split at packs
  · rename_i failed
    exact absurd packs failed
  · rename_i packed
    rw [if_neg packed]
    exact ⟨bytes, fun a behind => aligned.behind a (Nat.le_trans (Nat.le_of_eq bytes) behind)⟩

end BitRef

/-! ## Messages that fit -/

namespace PackStep

/-- The step cannot fail but for want of room. -/
def Packable : PackStep → Prop
  | .pack _ nBits _ => nBits < 32
  | .fail => False

instance (step : PackStep) : Decidable step.Packable :=
  match step with
  | .pack _ nBits _ => inferInstanceAs (Decidable (nBits < 32))
  | .fail => inferInstanceAs (Decidable False)

def bits : PackStep → Nat
  | .pack _ nBits _ => nBits
  | .fail => 0

end PackStep

def msgBits (msg : List PackStep) : Nat := (msg.map PackStep.bits).sum

theorem msgBits_cons (step : PackStep) (later : List PackStep) :
    msgBits (step :: later) = step.bits + msgBits later := List.sum_cons

theorem msgBits_append (first second : List PackStep) :
    msgBits (first ++ second) = msgBits first + msgBits second := by
  rw [msgBits, List.map_append, List.sum_append]
  rfl

/-- With room for its bits a message packs them all. -/
theorem BitRef.packSteps_fits {b : BitRef} {msg : List PackStep} (packable : ∀ step ∈ msg, step.Packable)
    (fits : b.distance + msgBits msg ≤ 8 * b.maxPtr) :
    (b.packSteps msg).1 = .success ∧ (b.packSteps msg).2.distance = b.distance + msgBits msg := by
  induction msg generalizing b with
  | nil => exact ⟨rfl, rfl⟩
  | cons step later ih =>
      obtain ⟨here, behind⟩ := List.forall_mem_cons.mp packable
      cases step with
      | fail => exact here.elim
      | pack val nBits handled =>
          change nBits < 32 at here
          have total : msgBits (.pack val nBits handled :: later) = nBits + msgBits later :=
            msgBits_cons _ later
          rw [total, ← Nat.add_assoc] at fits
          obtain ⟨packed, distance, limit⟩ := b.packLoop_fits val nBits (by omega)
          have same : b.pack val nBits = b.packLoop val nBits := if_neg (by omega)
          rw [packSteps, same]
          dsimp only
          rw [packed, if_neg (by simp)]
          rw [← distance, ← limit] at fits
          obtain ⟨success, last⟩ := ih behind fits
          exact ⟨success, by rw [last, distance, total, Nat.add_assoc]⟩

theorem BitRef.packMsg_of_steps {b : BitRef} {msg : List PackStep} (packed : (b.packSteps msg).1 = .success) :
    (b.packMsg msg).1 = .success := by
  unfold packMsg
  dsimp only
  rw [if_neg (not_not.mpr packed)]

end SonicaEnb
