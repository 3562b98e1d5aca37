import Mathlib.Algebra.Ring.Int.Defs
import SonicaEnb.Lib.Blocks

/-! # The random-access detector (`nbiot_phch/nprach.c`)

`sonica_nprach_detect` reads four symbol groups, each a cyclic prefix and five
symbols, out of a stream that comes in pieces. A piece that ends inside a symbol
leaves its last samples in `fft_in`; the next call puts its own behind them, but
only where the two together fill the symbol: a shorter piece is stored over them.
The frequency shift and the Fourier transform are parameters.
-/

namespace SonicaEnb

namespace Nprach

def sampSize : Nat := 512

def symGroupSize : Nat := 5

def subcarriers : Nat := 12

def subcHalf : Nat := subcarriers / 2

/-- Set by `sonica_nprach_init`, which knows one format. -/
def cpLen : Nat := sampSize

def baseSubc : Nat := 36

def subcOffset : Nat := (sampSize - 48) / 2 + baseSubc

end Nprach

open Nprach

/-- `sonica_nprach_t`, without the tables that `sonica_nprach_init` computes once. -/
structure NprachDetector (α β : Type) where
  fftIn : List α
  bufSamp : Nat := 0
  curSymg : Nat := 0
  nxtSym : Nat := 0
  detBuf : List (List β)

/-- What a turn of the loop takes out of the stream: a prefix it swallows, or a symbol with the
row of `det_buf` that its spectrum is stored in. -/
inductive NprachRead (α β : Type) where
  | cp (samples : List α)
  | symbol (block : List α) (symNum : Nat) (row : List β)
  deriving DecidableEq

namespace NprachRead

variable {α β : Type}

def samples : NprachRead α β → List α
  | .cp samples => samples
  | .symbol block _ _ => block

/-- What a read leaves in `det_buf`. -/
def store (detBuf : List (List β)) : NprachRead α β → List (List β)
  | .cp _ => detBuf
  | .symbol _ symNum row => detBuf.set symNum row

end NprachRead

def getSubcarrierSg (startSc sg : Nat) : Nat :=
  match sg % 4 with
  | 0 => startSc
  | 1 => startSc ^^^ 1
  | 2 => (if startSc < subcHalf then startSc + subcHalf else startSc - subcHalf) ^^^ 1
  | _ => if startSc < subcHalf then startSc + subcHalf else startSc - subcHalf

def storeDetectBuf {β : Type} (fftOutput : Nat → β) (sg : Nat) : List β :=
  (List.range subcarriers).map fun startSc => fftOutput (getSubcarrierSg startSc sg)

namespace NprachDetector

variable {α β : Type} (shift : List α → List α) (dft : List α → Nat → β)

/-- `sonica_nprach_init`: `fft_in` is allocated, not cleared. -/
def init [Zero β] (fftIn : List α) : NprachDetector α β :=
  { fftIn, detBuf := List.replicate 20 (List.replicate subcarriers 0) }

def readAmount (q : NprachDetector α β) (bufOffset : Nat) : Nat :=
  if q.nxtSym = 0 then cpLen - bufOffset else sampSize - bufOffset

/-- One turn of the loop: the first `bufOffset` samples are those in `fft_in`. -/
def readBlock (q : NprachDetector α β) (bufOffset : Nat) (signal : List α) :
    NprachDetector α β × NprachRead α β :=
  let block := q.fftIn.take bufOffset ++ signal.take (q.readAmount bufOffset)
  if q.nxtSym = 0 then (q, .cp block)
  else
    let fftOut := dft (shift block)
    let symNum := q.curSymg * symGroupSize + q.nxtSym - 1
    let row := storeDetectBuf (fun sc => fftOut (subcOffset + sc)) q.curSymg
    ({ q with fftIn := shift block, detBuf := q.detBuf.set symNum row }, .symbol block symNum row)

/-- Where the loop ends: the detector, the samples it did not read, what it read on the way and
whether the four groups are complete. -/
structure Looped (α β : Type) where
  q : NprachDetector α β
  rem : List α
  reads : List (NprachRead α β)
  finished : Bool

def Looped.after (out : Looped α β) (read : NprachRead α β) : Looped α β :=
  { out with reads := read :: out.reads }

/-- The `while` loop of `sonica_nprach_detect` over the samples that are left. The sum in its
condition cannot wrap where the whole stream fits in one call. -/
def detectLoop (q : NprachDetector α β) (bufOffset : Nat) (signal : List α) : Looped α β :=
  if sampSize ≤ signal.length + bufOffset then
    let (q', read) := readBlock shift dft q bufOffset signal
    let rem := signal.drop (q.readAmount bufOffset)
    if q.nxtSym = symGroupSize then
      let q'' := { q' with nxtSym := 0, curSymg := q.curSymg + 1 }
      if q.curSymg + 1 = 4 then ⟨q'', rem, [read], true⟩
      else (detectLoop q'' 0 rem).after read
    else (detectLoop { q' with nxtSym := q.nxtSym + 1 } 0 rem).after read
  else ⟨q, signal, [], false⟩
termination_by signal.length + bufOffset
decreasing_by all_goals (simp only [readAmount, cpLen, sampSize, List.length_drop] at *; split <;> omega)

/-- `sonica_nprach_detect` up to the decision on the complete buffer. -/
def detect (q : NprachDetector α β) (signal : List α) :
    NprachDetector α β × List (NprachRead α β) × Bool :=
  let out := detectLoop shift dft q q.bufSamp signal
  if out.finished then ({ out.q with bufSamp := 0 }, out.reads, true)
  else
    let fftIn := if 0 < out.rem.length then out.rem ++ out.q.fftIn.drop out.rem.length else out.q.fftIn
    ({ out.q with fftIn, bufSamp := out.rem.length }, out.reads, false)

/-- The calls for the pieces of a stream, up to the one that completes the groups. -/
def detectCalls (q : NprachDetector α β) :
    List (List α) → NprachDetector α β × List (NprachRead α β)
  | [] => (q, [])
  | signal :: later =>
      let (q', reads, finished) := detect shift dft q signal
      if finished then (q', reads)
      else
        let (last, more) := detectCalls q' later
        (last, reads ++ more)

/-! ## What the blocks of the stream are read as -/

/-- The block at `k` of the stream: six blocks a group, the prefix in front. -/
def readAt (k : Nat) (block : List α) : NprachRead α β :=
  if k % 6 = 0 then .cp block
  else
    .symbol block (k / 6 * symGroupSize + k % 6 - 1)
      (storeDetectBuf (fun sc => dft (shift block) (subcOffset + sc)) (k / 6))

/-- The blocks from the one at `k` on, as far as they belong to the four groups. -/
def readsFrom : Nat → List (List α) → List (NprachRead α β)
  | _, [] => []
  | k, block :: later => if k < 24 then readAt shift dft k block :: readsFrom (k + 1) later else []

theorem readsFrom_done {k : Nat} (done : 24 ≤ k) (blocks : List (List α)) :
    readsFrom shift dft k blocks = [] := by
  cases blocks with
  | nil => rfl
  | cons block later => exact if_neg (not_lt.mpr done)

theorem readsFrom_append (k : Nat) (blocks more : List (List α)) :
    readsFrom shift dft k (blocks ++ more) =
      readsFrom shift dft k blocks ++ readsFrom shift dft (k + blocks.length) more := by
  induction blocks generalizing k with
  | nil => rfl
  | cons block later ih =>
      rw [List.cons_append, readsFrom, readsFrom, List.length_cons]
      split
      · rw [ih, List.cons_append, Nat.add_right_comm k 1, Nat.add_assoc k]
      · rename_i done
        rw [readsFrom_done shift dft (by omega), List.append_nil]

@[simp] theorem samples_readAt (k : Nat) (block : List α) :
    (readAt shift dft k block).samples = block := by
  unfold readAt
  split <;> rfl

theorem readsFrom_samples (k : Nat) (blocks : List (List α)) :
    (readsFrom shift dft k blocks).map NprachRead.samples = blocks.take (24 - k) := by
  induction blocks generalizing k with
  | nil => rw [readsFrom, List.map_nil, List.take_nil]
  | cons block later ih =>
      rw [readsFrom]
      split
      · rename_i more
        rw [List.map_cons, ih, samples_readAt, show 24 - k = (24 - (k + 1)) + 1 by omega, List.take_succ_cons]
      · rename_i done
        rw [show 24 - k = 0 by omega]
        rfl

theorem readsFrom_take (k : Nat) (blocks : List (List α)) :
    readsFrom shift dft k (blocks.take (24 - k)) = readsFrom shift dft k blocks := by
  induction blocks generalizing k with
  | nil => rw [List.take_nil]
  | cons block later ih =>
      by_cases more : k < 24
      · rw [show 24 - k = (24 - (k + 1)) + 1 by omega, List.take_succ_cons, readsFrom, readsFrom, ih]
      · rw [readsFrom_done shift dft (not_lt.mp more), readsFrom_done shift dft (not_lt.mp more)]

theorem readsFrom_getElem? {blocks : List (List α)} {k m : Nat} {block : List α}
    (here : blocks[m]? = some block) (inside : k + m < 24) :
    (readsFrom shift dft k blocks)[m]? = some (readAt shift dft (k + m) block) := by
  induction blocks generalizing k m with
  | nil => cases here
  | cons first later ih =>
      rw [readsFrom, if_pos (by omega)]
      cases m with
      | zero =>
          cases here
          rfl
      | succ m =>
          have next := ih here (k := k + 1) (by omega)
          rw [Nat.add_right_comm] at next
          exact next

/-- The 24 blocks write the 20 rows. -/
theorem reads_settle {blocks : List (List α)} (enough : 24 ≤ blocks.length) {i : Nat} (row : i < 20) :
    ∃ block values, .symbol block i values ∈ readsFrom shift dft 0 blocks := by
  have inside : i / 5 * 6 + i % 5 + 1 < 24 := by omega
  have here := List.getElem?_eq_getElem (inside.trans_le enough)
  have read := readsFrom_getElem? shift dft here (k := 0) (by omega)
  have symbol : (0 + (i / 5 * 6 + i % 5 + 1)) % 6 ≠ 0 := by omega
  have symNum : (0 + (i / 5 * 6 + i % 5 + 1)) / 6 * symGroupSize + (0 + (i / 5 * 6 + i % 5 + 1)) % 6 - 1 = i := by
    unfold symGroupSize
    omega
  rw [readAt, if_neg symbol, symNum] at read
  exact ⟨_, _, List.mem_of_getElem? read⟩

/-- Reads of a stream are the same where its first blocks are. -/
theorem readsFrom_eq_iff {blocks others : List (List α)} :
    readsFrom shift dft 0 blocks = readsFrom shift dft 0 others ↔ blocks.take 24 = others.take 24 := by
  constructor
  · intro same
    rw [← readsFrom_samples shift dft 0 blocks, same, readsFrom_samples]
  · intro same
    rw [← readsFrom_take shift dft 0 blocks, same, readsFrom_take]

/-! ## The loop -/

/-- The detector has the first `k` blocks of the stream behind it. -/
structure At (q : NprachDetector α β) (k : Nat) : Prop where
  symg : q.curSymg = k / 6
  sym : q.nxtSym = k % 6

variable {q : NprachDetector α β} {k bufOffset : Nat} {carry signal : List α}

theorem readAmount_eq (q : NprachDetector α β) (bufOffset : Nat) :
    q.readAmount bufOffset = sampSize - bufOffset := by
  rw [readAmount, cpLen, ite_self]

theorem readBlock_eq (signal : List α) (stands : q.At k) (kept : q.fftIn.take bufOffset = carry)
    (size : carry.length = bufOffset) (fits : bufOffset ≤ sampSize) :
    (readBlock shift dft q bufOffset signal).2 =
        readAt shift dft k ((carry ++ signal).take sampSize) ∧
      (readBlock shift dft q bufOffset signal).1.detBuf =
        (readAt shift dft k ((carry ++ signal).take sampSize)).store q.detBuf ∧
      (readBlock shift dft q bufOffset signal).1.curSymg = k / 6 ∧
      signal.drop (q.readAmount bufOffset) = (carry ++ signal).drop sampSize := by
  have block : (carry ++ signal).take sampSize = carry ++ signal.take (sampSize - bufOffset) := by
    rw [List.take_append, size, List.take_of_length_le (size.trans_le fits)]
  have behind : (carry ++ signal).drop sampSize = signal.drop (sampSize - bufOffset) := by
    rw [List.drop_append, size, List.drop_eq_nil_of_le (size.trans_le fits), List.nil_append]
  rw [block, behind, readBlock, readAmount_eq, kept, readAt, stands.sym, stands.symg]
  split
  · exact ⟨rfl, rfl, stands.symg, rfl⟩
  · exact ⟨rfl, rfl, rfl, rfl⟩

/-- What the loop does with the stream from its block at `k` on. -/
structure Looped.Reads (shift : List α → List α) (dft : List α → Nat → β) (out : Looped α β)
    (detBuf : List (List β)) (k : Nat) (stream : List α) : Prop where
  reads : out.reads = readsFrom shift dft k (Blocks.full sampSize stream)
  stored : out.q.detBuf = out.reads.foldl NprachRead.store detBuf
  finished : out.finished = decide (24 ≤ k + stream.length / sampSize)
  stands : out.finished = false → out.q.At (k + stream.length / sampSize)
  rem : out.finished = false → out.rem = Blocks.rest sampSize stream

theorem sampSize_pos : 0 < sampSize := by decide

section Turn

variable {stream : List α}

/-- The turn in front of the rest of the loop. -/
theorem Looped.Reads.after {out : Looped α β} {detBuf : List (List β)} (more : k < 24)
    (long : sampSize ≤ stream.length)
    (later : out.Reads shift dft ((readAt shift dft k (stream.take sampSize)).store detBuf) (k + 1)
      (stream.drop sampSize)) :
    (out.after (readAt shift dft k (stream.take sampSize))).Reads shift dft detBuf k stream := by
  have count : k + stream.length / sampSize = k + 1 + (stream.drop sampSize).length / sampSize := by
    rw [Blocks.div_of_long sampSize_pos long, Nat.add_right_comm, Nat.add_assoc]
  constructor
  case reads =>
    rw [Blocks.full_of_long sampSize_pos long, readsFrom, if_pos more, ← later.reads]
    rfl
  case stored => exact later.stored
  case finished =>
    rw [count]
    exact later.finished
  case stands =>
    rw [count]
    exact later.stands
  case rem =>
    rw [Blocks.rest_of_long sampSize_pos long]
    exact later.rem

/-- The last symbol of the fourth group. -/
theorem Looped.Reads.last {q' : NprachDetector α β} {rem : List α} {detBuf : List (List β)}
    (last : k + 1 = 24) (long : sampSize ≤ stream.length)
    (stored : q'.detBuf = (readAt shift dft k (stream.take sampSize)).store detBuf) :
    Looped.Reads shift dft ⟨q', rem, [readAt shift dft k (stream.take sampSize)], true⟩ detBuf k
      stream := by
  constructor
  case reads =>
    rw [Blocks.full_of_long sampSize_pos long, readsFrom, if_pos (by omega),
      readsFrom_done shift dft last.ge]
  case stored => exact stored
  case finished =>
    rw [Blocks.div_of_long sampSize_pos long]
    have reached : 24 ≤ k + ((stream.drop sampSize).length / sampSize + 1) :=
      last ▸ Nat.add_le_add_left (Nat.le_add_left 1 _) k
    exact (decide_eq_true reached).symm
  all_goals exact fun open_ => Bool.noConfusion open_

/-- A turn of the loop reads the next block of the stream. -/
theorem detectLoop_turn (stands : q.At k) (more : k < 24)
    (kept : q.fftIn.take bufOffset = carry) (size : carry.length = bufOffset)
    (fits : bufOffset ≤ sampSize) (long : sampSize ≤ (carry ++ signal).length)
    (later : ∀ q' : NprachDetector α β, q'.At (k + 1) → k + 1 < 24 →
      (detectLoop shift dft q' 0 ((carry ++ signal).drop sampSize)).Reads shift dft q'.detBuf (k + 1)
        ((carry ++ signal).drop sampSize)) :
    (detectLoop shift dft q bufOffset signal).Reads shift dft q.detBuf k (carry ++ signal) := by
  obtain ⟨read, stored, symg, behind⟩ := readBlock_eq shift dft signal stands kept size fits
  rw [detectLoop, if_pos (by rw [List.length_append] at long; omega)]
  dsimp only
  rw [stands.sym, stands.symg, read, behind]
  split
  · rename_i lastSym
    rw [symGroupSize] at lastSym
    split
    · exact .last shift dft (by omega) long stored
    · apply Looped.Reads.after shift dft more long
      rw [← stored]
      exact later _ ⟨by dsimp only; omega, by dsimp only; omega⟩ (by omega)
  · rename_i inner
    rw [symGroupSize] at inner
    apply Looped.Reads.after shift dft more long
    rw [← stored]
    refine later _ ⟨?_, ?_⟩ (by omega)
    · dsimp only
      rw [symg]
      omega
    · dsimp only
      omega

end Turn

/-- The loop where nothing is kept in `fft_in`. -/
theorem detectLoop_reads (stands : q.At k) (more : k < 24) :
    (detectLoop shift dft q 0 signal).Reads shift dft q.detBuf k signal := by
  induction signal using Blocks.stream_induction sampSize_pos generalizing q k with
  | short signal short =>
      rw [detectLoop, if_neg (by rwa [Nat.add_zero, not_le])]
      constructor
      case reads => rw [Blocks.full_of_short short, readsFrom]
      case stored => rfl
      case finished =>
        rw [Nat.div_eq_of_lt short]
        exact (decide_eq_false (not_le.mpr more)).symm
      case stands =>
        rw [Nat.div_eq_of_lt short]
        exact fun _ => stands
      case rem => exact fun _ => (Blocks.rest_of_short short).symm
  | long signal long ih =>
      have kept : q.fftIn.take 0 = [] := List.take_zero
      apply detectLoop_turn shift dft stands more kept rfl (Nat.zero_le _) long
      intro q' stands' more'
      exact ih stands' more'

/-! ## The calls -/

/-- The detector between two calls: `carry` are the samples of the next block that it has. -/
structure Keeps (q : NprachDetector α β) (k : Nat) (carry : List α) : Prop where
  stands : q.At k
  more : k < 24
  kept : q.fftIn.take q.bufSamp = carry
  size : carry.length = q.bufSamp
  short : carry.length < sampSize

theorem keeps_init [Zero β] (fftIn : List α) : (init fftIn : NprachDetector α β).Keeps 0 [] :=
  ⟨⟨rfl, rfl⟩, by decide, rfl, rfl, sampSize_pos⟩

/-- The samples that were not read are in front of `fft_in`. -/
theorem take_rem (rem fftIn : List α) :
    (if 0 < rem.length then rem ++ fftIn.drop rem.length else fftIn).take rem.length = rem := by
  split
  · exact List.take_left
  · rename_i empty
    cases List.length_eq_zero_iff.mp (Nat.eq_zero_of_not_pos empty)
    rfl

/-- A piece too short for the next block takes the place of what was kept. -/
theorem detect_short (keeps : q.Keeps k carry) (short : carry.length + signal.length < sampSize) :
    ∃ q', detect shift dft q signal = (q', [], false) ∧ q'.Keeps k signal ∧ q'.detBuf = q.detBuf := by
  have stays : detectLoop shift dft q q.bufSamp signal = ⟨q, signal, [], false⟩ := by
    rw [detectLoop, if_neg (by rw [← keeps.size]; omega)]
  rw [detect, stays]
  exact ⟨_, rfl, ⟨⟨keeps.stands.symg, keeps.stands.sym⟩, keeps.more, take_rem signal q.fftIn, rfl,
    by omega⟩, rfl⟩

/-- A piece that fills the next block is read as if it had come with what was kept. -/
theorem detect_long (keeps : q.Keeps k carry) (long : sampSize ≤ carry.length + signal.length) :
    ∃ q' reads finished, detect shift dft q signal = (q', reads, finished) ∧
      reads = readsFrom shift dft k (Blocks.full sampSize (carry ++ signal)) ∧
      q'.detBuf = reads.foldl NprachRead.store q.detBuf ∧
      finished = decide (24 ≤ k + (carry ++ signal).length / sampSize) ∧
      (finished = false → q'.Keeps (k + (carry ++ signal).length / sampSize)
        (Blocks.rest sampSize (carry ++ signal))) := by
  have looped : (detectLoop shift dft q q.bufSamp signal).Reads shift dft q.detBuf k (carry ++ signal) := by
    apply detectLoop_turn shift dft keeps.stands keeps.more keeps.kept keeps.size
      (keeps.size ▸ keeps.short.le) (by rwa [List.length_append])
    exact fun _ stands more => detectLoop_reads shift dft stands more
  unfold detect
  dsimp only
  split
  · rename_i finished
    refine ⟨_, _, _, rfl, looped.reads, looped.stored, finished ▸ looped.finished, fun open_ => ?_⟩
    cases open_
  · rename_i unfinished
    have open_ := Bool.eq_false_iff.mpr unfinished
    have stands := looped.stands open_
    have rem := looped.rem open_
    have notYet : ¬24 ≤ k + (carry ++ signal).length / sampSize :=
      of_decide_eq_false (looped.finished.symm.trans open_)
    refine ⟨_, _, _, rfl, looped.reads, looped.stored, open_ ▸ looped.finished, fun _ => ?_⟩
    rw [← rem]
    refine ⟨⟨stands.symg, stands.sym⟩, not_le.mp notYet, take_rem _ _, rfl, ?_⟩
    rw [rem, Blocks.rest_length]
    exact Nat.mod_lt _ sampSize_pos

/-- What the calls for the pieces read, and what they leave in `det_buf`. -/
theorem detectCalls_reads (keeps : q.Keeps k carry) (pieces : List (List α)) :
    (detectCalls shift dft q pieces).2 =
        readsFrom shift dft k (Blocks.forgetful sampSize carry pieces) ∧
      (detectCalls shift dft q pieces).1.detBuf =
        (detectCalls shift dft q pieces).2.foldl NprachRead.store q.detBuf := by
  induction pieces generalizing q k carry with
  | nil => exact ⟨rfl, rfl⟩
  | cons signal later ih =>
      rw [detectCalls, Blocks.forgetful]
      by_cases short : carry.length + signal.length < sampSize
      · obtain ⟨q', detected, keeps', same⟩ := detect_short shift dft keeps short
        rw [detected, if_pos short, ← same]
        exact ih keeps'
      · obtain ⟨q', reads, finished, detected, here, stored, done, goesOn⟩ :=
          detect_long shift dft keeps (not_lt.mp short)
        rw [detected, if_neg short, readsFrom_append, ← here, Blocks.full_length]
        cases finished with
        | true =>
            rw [readsFrom_done shift dft (of_decide_eq_true done.symm), List.append_nil]
            exact ⟨rfl, stored⟩
        | false =>
            obtain ⟨more, storedMore⟩ := ih (goesOn rfl)
            rw [← more]
            refine ⟨rfl, storedMore.trans ?_⟩
            rw [stored, ← List.foldl_append]
            rfl

/-! ## The arrays -/

/-- In every symbol group the subcarrier of a start is one of the twelve. -/
theorem getSubcarrierSg_lt {startSc : Nat} (inside : startSc < subcarriers) (sg : Nat) :
    getSubcarrierSg startSc sg < subcarriers := by
  have all : ∀ sc < subcarriers, ∀ g < 4, getSubcarrierSg sc g < subcarriers := by decide
  have same : getSubcarrierSg startSc sg = getSubcarrierSg startSc (sg % 4) := by
    simp only [getSubcarrierSg, Nat.mod_mod]
  rw [same]
  exact all startSc inside _ (Nat.mod_lt _ (by decide))

example : (List.range 4).map (getSubcarrierSg 3) = [3, 2, 8, 9] := by decide

theorem mem_readsFrom {blocks : List (List α)} {read : NprachRead α β}
    (member : read ∈ readsFrom shift dft k blocks) :
    ∃ i < 24, ∃ block, read = readAt shift dft i block := by
  induction blocks generalizing k with
  | nil => cases member
  | cons block later ih =>
      rw [readsFrom] at member
      split at member
      · rename_i more
        rcases List.mem_cons.mp member with rfl | behind
        · exact ⟨k, more, block, rfl⟩
        · exact ih behind
      · cases member

/-- A read of the four groups has its row in `det_buf`, and takes it from inside `fft_out`. -/
theorem readAt_row {i : Nat} (below : i < 24) {samples block : List α} {symNum : Nat} {row : List β}
    (same : .symbol block symNum row = readAt shift dft i samples) :
    symNum < 20 ∧ ∃ index : Nat → Nat, (∀ sc < subcarriers, index sc < sampSize) ∧
      row = (List.range subcarriers).map fun sc => dft (shift block) (index sc) := by
  unfold readAt at same
  split at same
  · cases same
  · rename_i inner
    cases same
    refine ⟨by unfold symGroupSize; omega, fun sc => subcOffset + getSubcarrierSg sc (i / 6), ?_, rfl⟩
    intro sc inside
    have within := getSubcarrierSg_lt inside (i / 6)
    unfold subcarriers at within
    change (512 - 48) / 2 + 36 + getSubcarrierSg sc (i / 6) < 512
    omega

/-- However the stream is cut, every symbol has its row in `det_buf`, and the row is read from
    inside `fft_out`. -/
theorem detectCalls_inBounds [Zero β] (fftIn : List α) (pieces : List (List α)) {block : List α}
    {symNum : Nat} {row : List β}
    (member : .symbol block symNum row ∈ (detectCalls shift dft (init fftIn) pieces).2) :
    symNum < 20 ∧ ∃ index : Nat → Nat, (∀ sc < subcarriers, index sc < sampSize) ∧
      row = (List.range subcarriers).map fun sc => dft (shift block) (index sc) := by
  rw [(detectCalls_reads shift dft (keeps_init fftIn) pieces).1] at member
  obtain ⟨i, below, samples, same⟩ := mem_readsFrom shift dft member
  exact readAt_row shift dft below same

/-! ## One call and many -/

/-- The calls for the pieces take the same out of the stream as one call for all of it, and leave
the same in `det_buf`. -/
def SameAsWhole (q : NprachDetector α β) (pieces : List (List α)) : Prop :=
  (detectCalls shift dft q pieces).2 = (detectCalls shift dft q [pieces.flatten]).2 ∧
    (detectCalls shift dft q pieces).1.detBuf = (detectCalls shift dft q [pieces.flatten]).1.detBuf

theorem sameAsWhole_iff [Zero β] (fftIn : List α) (pieces : List (List α)) :
    SameAsWhole shift dft (init fftIn : NprachDetector α β) pieces ↔
      (Blocks.forgetful sampSize [] pieces).take 24 =
        (Blocks.full sampSize pieces.flatten).take 24 := by
  obtain ⟨reads, stored⟩ := detectCalls_reads shift dft (keeps_init fftIn) pieces
  obtain ⟨readsWhole, storedWhole⟩ :=
    detectCalls_reads shift dft (keeps_init fftIn) [pieces.flatten]
  rw [Blocks.forgetful_whole] at readsWhole
  rw [← readsFrom_eq_iff shift dft, ← reads, ← readsWhole]
  constructor
  · exact fun same => same.1
  · intro same
    exact ⟨same, by rw [stored, storedWhole, same]⟩

/-- The detector reads every stream cut into pieces of these lengths as one call for all of it does
if and only if no piece starts and ends inside a block of the four groups that the stream fills. -/
theorem pieces_same_as_whole_iff [Nontrivial α] [Zero β] (fftIn : List α) (lens : List Nat) :
    (∀ pieces : List (List α), pieces.map List.length = lens →
        SameAsWhole shift dft (init fftIn : NprachDetector α β) pieces) ↔
      ∀ i < lens.length, ¬Blocks.Inside sampSize 24 0 lens i := by
  simp only [sameAsWhole_iff]
  exact Blocks.forgetful_same_iff sampSize_pos 24 lens

/-- A prefix that ends in the second piece, and a third piece with the other symbols. -/
theorem prefix_in_two_pieces :
    SameAsWhole id (fun block sc => block.getD sc 0) (init (List.replicate sampSize 0))
      [List.replicate 300 1, List.replicate 500 (2 : Int), List.replicate 12000 3] :=
  (pieces_same_as_whole_iff id (fun block sc => block.getD sc 0) _ [300, 500, 12000]).mpr (by decide) _
    (by simp only [List.map_cons, List.map_nil, List.length_replicate])

/-- The second of three pieces ends inside the prefix: the first is gone. -/
theorem first_piece_lost :
    ¬SameAsWhole id (fun block sc => block.getD sc 0) (init (List.replicate sampSize 0))
      [List.replicate 100 1, List.replicate 100 (2 : Int), List.replicate 412 3] := by
  rw [sameAsWhole_iff]
  decide +kernel

end NprachDetector

end SonicaEnb
