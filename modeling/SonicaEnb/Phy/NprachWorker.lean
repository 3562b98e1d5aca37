import SonicaEnb.Lib.Interleave
import SonicaEnb.Lib.Pool
import SonicaEnb.Phy.NprachReset
import SonicaEnb.Phy.Txrx
import Mathlib.Logic.Function.Basic

/-! # The NPRACH worker

`txrx` gives every receive subframe to `nprach_worker::new_tti`, which collects the
seven subframes of an occasion in a buffer out of a pool of eight and pushes it to
the thread of the worker. That thread detects the preamble and gives the buffer
back. What a buffer held before stays in it, behind the samples that count.
-/

namespace SonicaEnb

open Nprach

/-- `SRSLTE_SF_LEN_PRB(1)` -/
def sfLenPrb1 : Nat := 1920

def sfBufferSz : Nat := 8 * 1920

/-- The receive samples of a subframe. -/
structure RxSubframe (α : Type) where
  samples : List α
  size : samples.length = sfLenPrb1

/-- `nprach_worker::sf_buffer` -/
structure SfBuffer (α : Type) where
  samples : List α
  nofSamples : Nat := 0
  tti : Nat := 0

namespace SfBuffer

variable {α : Type}

def reset (b : SfBuffer α) : SfBuffer α := { b with nofSamples := 0, tti := 0 }

/-- The `memcpy` of `new_tti` with what follows it: `sfCnt` subframes are already there. -/
def append (b : SfBuffer α) (sfCnt ttiRx : Nat) (sf : RxSubframe α) : SfBuffer α :=
  { samples := b.samples.take (sfCnt * sfLenPrb1) ++ sf.samples ++
      b.samples.drop (sfCnt * sfLenPrb1 + sfLenPrb1)
    nofSamples := b.nofSamples + sfLenPrb1
    tti := if sfCnt = 0 then ttiRx else b.tti }

end SfBuffer

/-- A subcarrier is detected when more than 18 of its 20 symbols are strong; the last one detected is
    the index. -/
def detectIndex {β : Type} [Zero β] (strong : β → Bool) (detBuf : List (List β)) : Option Nat :=
  (((List.range subcarriers).filter fun sc =>
    18 < (detBuf.filter fun row => strong (row.getD sc 0)).length).getLast?).map (· + 36)

/-- `rach_detected(tti, preamble_idx, time_adv)` -/
structure RachDetected where
  tti : Nat
  preambleIdx : Nat
  timeAdv : Nat
  deriving Repr, DecidableEq

/-- What `run_tti` tells the stack; emulated, a preamble is always found in one occasion. -/
def rachReport (emulateNprach : Bool) (tti : Nat) (index : Option Nat) : List RachDetected :=
  if emulateNprach then if tti = 384 then [⟨tti, 41, 5⟩] else []
  else
    match index with
    | some index => [⟨tti, index, 5⟩]
    | none => []

/-- What one `run_tti` worked on and told the stack. -/
structure NprachDetection (α : Type) where
  tti : Nat
  samples : List α
  rach : List RachDetected

/-- Where the thread of the worker is. -/
inductive NprachThread where
  | waitPop
  | runTti (b : Nat)
  | deallocate (b : Nat)
  deriving Repr, DecidableEq

/-- `nprach_worker`, buffers named by numbers. The last three fields are a record of the run: the
    subframes received, the subframes at which an occasion found no buffer, and the detections. -/
structure NprachWorker (α β : Type) where
  detector : NprachDetector α β
  pool : Pool Nat
  content : Nat → SfBuffer α
  pending : List Nat
  current : Option Nat
  sfCnt : Nat
  thread : NprachThread
  air : List (RxSubframe α)
  skipped : List Nat
  detections : List (NprachDetection α)

/-- The receive TTI of turn `n` of `txrx`. -/
def rxTti (n : Nat) : Nat := (n + 10236) % 10240

theorem rxTti_of_turn {t : Txrx} {n : Nat} (after : Txrx.After n t) (nofWorkers : Nat) :
    (t.turn nofWorkers).2.ttiRx = rxTti n := by
  simp only [Txrx.turn, setTime, ttiAdd, after.tti, rxTti]
  omega

namespace NprachWorker

inductive Action (α : Type) where
  | newTti (sf : RxSubframe α)
  | worker

variable {α β : Type}

/-- The stack of the pool, filled from 0 to 7. -/
def buffers : List Nat := (List.range 8).reverse

def start [Zero α] [Zero β] (fftIn : List α) : NprachWorker α β :=
  { detector := NprachDetector.init fftIn
    pool := Pool.full buffers
    content := fun _ => { samples := List.replicate sfBufferSz 0 }
    pending := [], current := none, sfCnt := 0, thread := .waitPop
    air := [], skipped := [], detections := [] }

/-- `new_tti` from the check of `current_buffer` on. -/
def fill (w : NprachWorker α β) (ttiRx : Nat) (sf : RxSubframe α) : Int × NprachWorker α β :=
  match w.current with
  | none => (-1, w)
  | some b =>
      if (w.content b).nofSamples + sfLenPrb1 < sfBufferSz then
        let w := { w with
          content := Function.update w.content b ((w.content b).append w.sfCnt ttiRx sf)
          sfCnt := w.sfCnt + 1 }
        (0, if w.sfCnt = 7 then { w with sfCnt := 0, pending := w.pending ++ [b] } else w)
      else (-1, w)

def newTti (w : NprachWorker α β) (ttiRx : Nat) (sf : RxSubframe α) : Int × NprachWorker α β :=
  if ttiRx % 160 = 64 ∨ w.sfCnt ≠ 0 then
    if w.sfCnt = 0 then
      match w.pool.allocate with
      | none => (0, { w with current := none, skipped := w.skipped ++ [w.air.length] })
      | some (b, pool) => fill { w with pool := pool, current := some b } ttiRx sf
    else w.fill ttiRx sf
  else (0, w)

section Threads

variable [Zero β] (shift : List α → List α) (dft : List α → Nat → β) (strong : β → Bool)
  (emulateNprach : Bool)

/-- `run_tti` and the reset of the buffer. -/
def runTti (w : NprachWorker α β) (b : Nat) : NprachWorker α β :=
  let buf := w.content b
  let samples := buf.samples.take buf.nofSamples
  let (q, _, finished) := NprachDetector.detect shift dft w.detector samples
  let index := if finished then detectIndex strong q.detBuf else none
  let rach := rachReport emulateNprach buf.tti index
  { w with
    detector := q.detectReset
    content := Function.update w.content b buf.reset
    detections := w.detections ++ [⟨buf.tti, samples, rach⟩] }

/-- A call of `new_tti` for the next subframe, or a step of the thread of the worker, which waits
    while nothing is pending. -/
def step (w : NprachWorker α β) : Action α → Option (NprachWorker α β)
  | .newTti sf =>
      let (_, w') := w.newTti (rxTti w.air.length) sf
      some { w' with air := w.air ++ [sf] }
  | .worker =>
      match w.thread with
      | .waitPop =>
          match w.pending with
          | [] => none
          | b :: rest => some { w with pending := rest, thread := .runTti b }
      | .runTti b => some { w.runTti shift dft strong emulateNprach b with thread := .deallocate b }
      | .deallocate b => some { w with pool := (w.pool.deallocate b).2, thread := .waitPop }

abbrev run (w : NprachWorker α β) (actions : List (Action α)) : Option (NprachWorker α β) :=
  Interleaved.run (step shift dft strong emulateNprach) w actions

end Threads

/-! ## Windows -/

/-- The samples of `c` subframes from subframe `i` on. -/
def window (air : List (RxSubframe α)) (i c : Nat) : List α :=
  ((air.drop i).take c).flatMap RxSubframe.samples

/-- An occasion begins at subframe `i`. -/
def IsStart (i : Nat) : Prop := rxTti i % 160 = 64

instance (i : Nat) : Decidable (IsStart i) := inferInstanceAs (Decidable (_ = _))

/-- The buffer holds `c` subframes of the occasion at `i`. -/
structure Holds (air : List (RxSubframe α)) (buf : SfBuffer α) (i c : Nat) : Prop where
  nofSamples : buf.nofSamples = c * sfLenPrb1
  tti : buf.tti = rxTti i
  samples : buf.samples.take (c * sfLenPrb1) = window air i c

variable {air : List (RxSubframe α)} {buf : SfBuffer α} {i c : Nat} {sf : RxSubframe α}

theorem window_length (inside : i + c ≤ air.length) : (window air i c).length = c * sfLenPrb1 := by
  have sizes : ∀ sf ∈ (air.drop i).take c, sf.samples.length = sfLenPrb1 := fun sf _ => sf.size
  rw [window, List.length_flatMap, List.map_congr_left sizes, List.map_const', List.sum_replicate_nat,
    List.length_take, List.length_drop, Nat.min_eq_left (by omega)]

theorem window_append (inside : i + c ≤ air.length) : window (air ++ [sf]) i c = window air i c := by
  rw [window, window, List.drop_append_of_le_length (by omega),
    List.take_append_of_le_length (by rw [List.length_drop]; omega)]

theorem window_succ (now : i + c = air.length) :
    window (air ++ [sf]) i (c + 1) = window air i c ++ sf.samples := by
  rw [window, window, List.drop_append_of_le_length (by omega), List.take_of_length_le, List.take_of_length_le,
    List.flatMap_append]
  · simp
  · rw [List.length_drop]
    omega
  · rw [List.length_append, List.length_drop, List.length_singleton]
    omega

theorem Holds.later (holds : Holds air buf i c) (inside : i + c ≤ air.length) :
    Holds (air ++ [sf]) buf i c :=
  ⟨holds.nofSamples, holds.tti, by rw [window_append inside]; exact holds.samples⟩

theorem append_size (size : buf.samples.length = sfBufferSz) (room : c < 7) (ttiRx : Nat) :
    (buf.append c ttiRx sf).samples.length = sfBufferSz := by
  have := sf.size
  simp only [SfBuffer.append, List.length_append, List.length_take, List.length_drop, size, this, sfLenPrb1,
    sfBufferSz]
  omega

/-- The next subframe goes behind those the buffer holds. -/
theorem Holds.append (holds : Holds air buf i c) (now : i + c = air.length) (later : c ≠ 0) :
    Holds (air ++ [sf]) (buf.append c (rxTti air.length) sf) i (c + 1) := by
  refine ⟨?_, ?_, ?_⟩
  · rw [SfBuffer.append, holds.nofSamples, Nat.succ_mul]
  · rw [SfBuffer.append, if_neg later, holds.tti]
  · have front : (buf.samples.take (c * sfLenPrb1) ++ sf.samples).length = (c + 1) * sfLenPrb1 := by
      rw [List.length_append, holds.samples, window_length now.le, sf.size, Nat.succ_mul]
    rw [SfBuffer.append, List.take_left' front, holds.samples, window_succ now]

/-- The first subframe of an occasion. -/
theorem holds_first (empty : buf.nofSamples = 0) :
    Holds (air ++ [sf]) (buf.append 0 (rxTti air.length) sf) air.length 1 := by
  refine ⟨?_, ?_, ?_⟩
  · rw [SfBuffer.append, empty, Nat.zero_add, Nat.one_mul]
  · rw [SfBuffer.append, if_pos rfl]
  · have front : (buf.samples.take (0 * sfLenPrb1) ++ sf.samples).length = 1 * sfLenPrb1 := by
      rw [List.length_append, Nat.zero_mul, List.take_zero, sf.size, Nat.one_mul]
      rfl
    rw [SfBuffer.append, List.take_left' front, Nat.zero_mul, List.take_zero, List.nil_append]
    have whole : window (air ++ [sf]) air.length 1 = window air air.length 0 ++ sf.samples := window_succ rfl
    rw [whole, window, List.take_zero]
    rfl

/-! ## What every interleaving keeps -/

/-- The buffer that `new_tti` is filling. -/
def filling (w : NprachWorker α β) : List Nat := if w.sfCnt = 0 then [] else w.current.toList

/-- The complete buffers whose detection is to come. -/
def ready (w : NprachWorker α β) : List Nat :=
  match w.thread with
  | .runTti b => b :: w.pending
  | _ => w.pending

/-- The buffer that is about to be given back. -/
def used (w : NprachWorker α β) : List Nat :=
  match w.thread with
  | .deallocate b => [b]
  | _ => []

/-- The occasion that is being received. -/
def receiving (w : NprachWorker α β) : List Nat := if w.sfCnt = 0 then [] else [w.air.length - w.sfCnt]

/-- A detection of the occasion at subframe `i`, on its samples. -/
structure DetectionOf (air : List (RxSubframe α)) (d : NprachDetection α) (i : Nat) : Prop where
  tti : d.tti = rxTti i
  within : i + 7 ≤ air.length
  samples : d.samples = window air i 7

structure Sound (w : NprachWorker α β) (done starts : List Nat) : Prop where
  accounts : Pool.Accounts buffers w.pool (w.filling ++ w.ready ++ w.used)
  size : ∀ b, (w.content b).samples.length = sfBufferSz
  clean : ∀ b, b ∉ w.filling → b ∉ w.ready → (w.content b).nofSamples = 0
  count : w.sfCnt < 7
  filling : w.sfCnt ≠ 0 → w.sfCnt ≤ w.air.length ∧ ∃ b, w.current = some b ∧
    Holds w.air (w.content b) (w.air.length - w.sfCnt) w.sfCnt
  queued : List.Forall₂ (fun b i => i + 7 ≤ w.air.length ∧ Holds w.air (w.content b) i 7) w.ready starts
  detected : List.Forall₂ (DetectionOf w.air) w.detections done
  sorted : (done ++ starts ++ w.receiving).Pairwise (· < ·)
  whole : (done ++ starts ++ w.receiving ++ w.skipped).Perm
    ((List.range w.air.length).filter fun i => decide (IsStart i))

theorem start_sound [Zero α] [Zero β] (fftIn : List α) : (start fftIn : NprachWorker α β).Sound [] [] where
  accounts := Pool.accounts_full buffers
  size := fun _ => List.length_replicate
  clean := fun _ _ _ => rfl
  count := Nat.zero_lt_succ 6
  filling := fun started => absurd rfl started
  queued := .nil
  detected := .nil
  sorted := .nil
  whole := .refl _

variable {w w' : NprachWorker α β} {done starts : List Nat}

theorem Sound.held_nodup (sound : w.Sound done starts) : (w.filling ++ w.ready ++ w.used).Nodup := by
  have all : buffers.Nodup := by decide
  have nodup := sound.accounts.perm.nodup_iff.mpr all
  exact (List.nodup_append.mp nodup).2.1

/-- Nothing is received and no buffer changes hands except between the thread and the pool. -/
theorem Sound.pop (sound : w.Sound done starts) {b : Nat} {rest : List Nat} (thread : w.thread = .waitPop)
    (pending : w.pending = b :: rest) :
    Sound { w with pending := rest, thread := .runTti b } done starts := by
  have ready : NprachWorker.ready { w with pending := rest, thread := .runTti b } = w.ready := by
    simp [NprachWorker.ready, thread, pending]
  have used : NprachWorker.used { w with pending := rest, thread := .runTti b } = w.used := by
    simp [NprachWorker.used, thread]
  have filling : NprachWorker.filling { w with pending := rest, thread := .runTti b } = w.filling := rfl
  constructor
  case accounts => rw [ready, used, filling]; exact sound.accounts
  case clean => rw [ready, filling]; exact sound.clean
  case queued => rw [ready]; exact sound.queued
  all_goals first
    | exact sound.size | exact sound.count | exact sound.filling | exact sound.detected
    | exact sound.sorted | exact sound.whole

theorem Sound.deallocate (sound : w.Sound done starts) {b : Nat} (thread : w.thread = .deallocate b) :
    Sound { w with pool := (w.pool.deallocate b).2, thread := .waitPop } done starts := by
  have ready : NprachWorker.ready { w with pool := (w.pool.deallocate b).2, thread := .waitPop } = w.ready := by
    simp [NprachWorker.ready, thread]
  have used : w.used = [b] := by simp [NprachWorker.used, thread]
  have back : Pool.Accounts buffers w.pool (b :: (w.filling ++ w.ready)) := by
    apply sound.accounts.pass
    rw [used]
    exact List.perm_append_singleton b _
  constructor
  case accounts =>
    rw [ready]
    exact (List.append_nil (w.filling ++ w.ready)).symm ▸ back.deallocate
  case clean => rw [ready]; exact sound.clean
  case queued => rw [ready]; exact sound.queued
  all_goals first
    | exact sound.size | exact sound.count | exact sound.filling | exact sound.detected
    | exact sound.sorted | exact sound.whole

/-- The buffer worked on holds a whole occasion. -/
theorem Sound.working (sound : w.Sound done starts) {b : Nat} (thread : w.thread = .runTti b) :
    ∃ i, Holds w.air (w.content b) i 7 := by
  have queued := sound.queued
  simp only [NprachWorker.ready, thread] at queued
  obtain ⟨i, rest, ⟨-, holds⟩, -, -⟩ := List.forall₂_cons_left_iff.mp queued
  exact ⟨i, holds⟩

/-- What `run_tti` does to the worker, whatever it detects. -/
structure RanTti (w w' : NprachWorker α β) (b : Nat) (d : NprachDetection α) : Prop where
  pool : w'.pool = w.pool
  content : w'.content = Function.update w.content b (w.content b).reset
  pending : w'.pending = w.pending
  current : w'.current = w.current
  sfCnt : w'.sfCnt = w.sfCnt
  thread : w'.thread = .deallocate b
  air : w'.air = w.air
  skipped : w'.skipped = w.skipped
  detections : w'.detections = w.detections ++ [d]
  tti : d.tti = (w.content b).tti
  samples : d.samples = (w.content b).samples.take (w.content b).nofSamples

/-- The first complete buffer is worked on. -/
theorem Sound.ranTti (sound : w.Sound done starts) {b : Nat} (thread : w.thread = .runTti b)
    {d : NprachDetection α} (ran : RanTti w w' b d) :
    ∃ i rest, starts = i :: rest ∧ w'.Sound (done ++ [i]) rest := by
  have ready : w.ready = b :: w.pending := by simp [NprachWorker.ready, thread]
  have ready' : w'.ready = w.pending := by simp [NprachWorker.ready, ran.thread, ran.pending]
  have used : w.used = [] := by simp [NprachWorker.used, thread]
  have used' : w'.used = [b] := by simp [NprachWorker.used, ran.thread]
  have filling : w'.filling = w.filling := by simp [NprachWorker.filling, ran.sfCnt, ran.current]
  have receiving : w'.receiving = w.receiving := by simp [NprachWorker.receiving, ran.sfCnt, ran.air]
  have queued := sound.queued
  rw [ready] at queued
  obtain ⟨i, rest, ⟨within, holds⟩, others, rfl⟩ := List.forall₂_cons_left_iff.mp queued
  have nodup := sound.held_nodup
  rw [ready, used, List.append_nil] at nodup
  obtain ⟨-, tail, apart⟩ := List.nodup_append.mp nodup
  have notPending := (List.nodup_cons.mp tail).1
  have notFilling : b ∉ w.filling := fun inside => apart b inside b List.mem_cons_self rfl
  have reset : w'.content b = (w.content b).reset := by rw [ran.content, Function.update_self]
  have kept : ∀ b', b' ≠ b → w'.content b' = w.content b' := fun b' other => by
    rw [ran.content, Function.update_of_ne other]
  refine ⟨i, rest, rfl, ?_⟩
  constructor
  case accounts =>
    have before := sound.accounts
    rw [ready, used, List.append_nil] at before
    rw [ran.pool, filling, ready', used', List.append_assoc]
    exact before.pass ((List.perm_append_singleton b _).symm.append_left w.filling)
  case size =>
    intro b'
    by_cases same : b' = b
    · rw [same, reset]
      exact sound.size b
    · rw [kept b' same]
      exact sound.size b'
  case clean =>
    rw [filling, ready']
    intro b' free out
    by_cases same : b' = b
    · rw [same, reset]
      rfl
    · rw [kept b' same]
      apply sound.clean b' free
      rw [ready]
      exact fun inside => out ((List.mem_cons.mp inside).resolve_left same)
  case count => exact ran.sfCnt ▸ sound.count
  case filling =>
    rw [ran.sfCnt, ran.air, ran.current]
    intro started
    obtain ⟨enough, b', current, holds'⟩ := sound.filling started
    have other : b' ≠ b := by
      rintro rfl
      apply notFilling
      rw [NprachWorker.filling, if_neg started, current]
      exact List.mem_singleton_self b'
    exact ⟨enough, b', current, by rw [kept b' other]; exact holds'⟩
  case queued =>
    rw [ready', ran.air]
    have inside : ∀ b' ∈ w.pending, b' ≠ b := fun b' inside same => notPending (same ▸ inside)
    refine ((List.forall₂_and_left w.pending rest).mpr ⟨inside, others⟩).imp ?_
    intro b' i' ⟨other, within', holds'⟩
    exact ⟨within', by rw [kept b' other]; exact holds'⟩
  case detected =>
    rw [ran.detections, ran.air]
    refine List.rel_append sound.detected (.cons ⟨ran.tti.trans holds.tti, within, ?_⟩ .nil)
    rw [ran.samples, holds.nofSamples, holds.samples]
  case sorted =>
    rw [receiving, List.append_assoc done]
    exact sound.sorted
  case whole =>
    rw [receiving, ran.skipped, ran.air, List.append_assoc done]
    exact sound.whole

theorem ranTti [Zero β] (shift : List α → List α) (dft : List α → Nat → β) (strong : β → Bool)
    (emulateNprach : Bool) (w : NprachWorker α β) (b : Nat) :
    ∃ d, RanTti w { w.runTti shift dft strong emulateNprach b with thread := .deallocate b } b d :=
  ⟨_, rfl, rfl, rfl, rfl, rfl, rfl, rfl, rfl, rfl, rfl, rfl⟩

/-! ### A subframe -/

theorem mem_windows {n i : Nat} :
    i ∈ (List.range n).filter (fun i => decide (IsStart i)) ↔ i < n ∧ IsStart i := by
  simp

theorem windows_succ (n : Nat) : (List.range (n + 1)).filter (fun i => decide (IsStart i)) =
    (List.range n).filter (fun i => decide (IsStart i)) ++ if IsStart n then [n] else [] := by
  rw [List.range_succ, List.filter_append]
  by_cases here : IsStart n
  · simp only [here, List.filter_cons, List.filter_nil, decide_true, if_true]
  · simp only [here, List.filter_cons, List.filter_nil, decide_false, if_false, Bool.false_eq_true]

theorem Sound.before (sound : w.Sound done starts) {i : Nat} (member : i ∈ done ++ starts ++ w.receiving) :
    i < w.air.length :=
  (mem_windows.mp (sound.whole.mem_iff.mp (List.mem_append_left w.skipped member))).1

theorem queued_later {bs : List Nat} {content : Nat → SfBuffer α}
    (queued : List.Forall₂ (fun b i => i + 7 ≤ air.length ∧ Holds air (content b) i 7) bs starts) :
    List.Forall₂ (fun b i => i + 7 ≤ (air ++ [sf]).length ∧ Holds (air ++ [sf]) (content b) i 7) bs
      starts := by
  refine queued.imp ?_
  intro b i ⟨within, holds⟩
  exact ⟨by rw [List.length_append]; omega, holds.later within⟩

theorem detected_later {ds : List (NprachDetection α)} (detected : List.Forall₂ (DetectionOf air) ds done) :
    List.Forall₂ (DetectionOf (air ++ [sf])) ds done := by
  refine detected.imp ?_
  intro d i detection
  have within := detection.within
  exact ⟨detection.tti, by rw [List.length_append]; omega, by rw [window_append within]; exact detection.samples⟩

/-- The next subframe is outside the occasions. -/
theorem Sound.idle (sound : w.Sound done starts) (sf : RxSubframe α) (idle : w.sfCnt = 0)
    (notStart : ¬IsStart w.air.length) : Sound { w with air := w.air ++ [sf] } done starts := by
  have receiving : NprachWorker.receiving { w with air := w.air ++ [sf] } = w.receiving := by
    simp [NprachWorker.receiving, idle]
  constructor
  case accounts => exact sound.accounts
  case size => exact sound.size
  case clean => exact sound.clean
  case count => exact sound.count
  case filling => exact fun started => absurd idle started
  case queued => exact queued_later sound.queued
  case detected => exact detected_later sound.detected
  case sorted => rw [receiving]; exact sound.sorted
  case whole =>
    rw [receiving, List.length_append, List.length_singleton, windows_succ, if_neg notStart,
      List.append_nil]
    exact sound.whole

/-- An occasion begins and no buffer is left. -/
theorem Sound.skip (sound : w.Sound done starts) (sf : RxSubframe α) (idle : w.sfCnt = 0)
    (isStart : IsStart w.air.length) :
    Sound { w with current := none, skipped := w.skipped ++ [w.air.length], air := w.air ++ [sf] }
      done starts := by
  have empty : w.filling = [] := by simp [NprachWorker.filling, idle]
  have receiving : w.receiving = [] := by simp [NprachWorker.receiving, idle]
  constructor
  case accounts =>
    have before := sound.accounts
    rw [empty] at before
    simp only [NprachWorker.filling, idle, if_pos]
    exact before
  case size => exact sound.size
  case clean =>
    intro b _ out
    exact sound.clean b (by simp [empty]) out
  case count => exact sound.count
  case filling => exact fun started => absurd idle started
  case queued => exact queued_later sound.queued
  case detected => exact detected_later sound.detected
  case sorted =>
    have before := sound.sorted
    rw [receiving] at before
    simpa [NprachWorker.receiving, idle] using before
  case whole =>
    have before := sound.whole
    rw [receiving, List.append_nil] at before
    rw [List.length_append, List.length_singleton, windows_succ, if_pos isStart, ← List.append_assoc]
    simpa [NprachWorker.receiving, idle] using before.append_right [w.air.length]

/-- `new_tti` puts subframe number `c` of the occasion at `i` into buffer `b`. -/
structure Filled (w w' : NprachWorker α β) (b c i : Nat) (sf : RxSubframe α) : Prop where
  accounts : Pool.Accounts buffers w'.pool (b :: (w.ready ++ w.used))
  only : ∀ b' ∈ w.filling, b' = b
  content : w'.content = Function.update w.content b ((w.content b).append c (rxTti w.air.length) sf)
  holds : Holds (w.air ++ [sf]) (w'.content b) i (c + 1)
  isStart : IsStart i
  now : i + c = w.air.length
  room : c < 7
  receiving : w.receiving = if c = 0 then [] else [i]
  thread : w'.thread = w.thread
  air : w'.air = w.air ++ [sf]
  skipped : w'.skipped = w.skipped
  detections : w'.detections = w.detections
  current : w'.current = some b
  sfCnt : w'.sfCnt = if c + 1 = 7 then 0 else c + 1
  pending : w'.pending = if c + 1 = 7 then w.pending ++ [b] else w.pending

namespace Filled

variable {b : Nat} (filled : Filled w w' b c i sf)

include filled

theorem used' : w'.used = w.used := by simp [NprachWorker.used, filled.thread]

theorem ready' : w'.ready = if c + 1 = 7 then w.ready ++ [b] else w.ready := by
  by_cases last : c + 1 = 7 <;> simp only [NprachWorker.ready, filled.thread, filled.pending, last,
    if_true, if_false]
  cases w.thread <;> rfl

theorem filling' : w'.filling = if c + 1 = 7 then [] else [b] := by
  simp only [NprachWorker.filling, filled.sfCnt, filled.current]
  by_cases last : c + 1 = 7 <;> simp [last]

theorem receiving' : w'.receiving = if c + 1 = 7 then [] else [i] := by
  have now := filled.now
  simp only [NprachWorker.receiving, filled.sfCnt, filled.air, List.length_append, List.length_singleton]
  by_cases last : c + 1 = 7
  · simp [last]
  · simp only [last, if_false, Nat.succ_ne_zero]
    congr 1
    omega

theorem notReady : b ∉ w.ready := by
  have all : buffers.Nodup := by decide
  have nodup := filled.accounts.perm.nodup_iff.mpr all
  have held := (List.nodup_append.mp nodup).2.1
  exact fun inside => (List.nodup_cons.mp held).1 (List.mem_append_left w.used inside)

theorem kept {b' : Nat} (other : b' ≠ b) : w'.content b' = w.content b' := by
  rw [filled.content, Function.update_of_ne other]

/-- The occasions after the subframe: that at `i` is the last one. -/
theorem occasions (sound : w.Sound done starts) :
    (done ++ starts ++ [i]).Pairwise (· < ·) ∧
      (done ++ starts ++ [i] ++ w.skipped).Perm
        ((List.range (w.air.length + 1)).filter fun i => decide (IsStart i)) := by
  have sorted := sound.sorted
  have whole := sound.whole
  have now := filled.now
  have room := filled.room
  have isStart := filled.isStart
  rw [filled.receiving] at sorted whole
  rw [windows_succ]
  by_cases first : c = 0
  · rw [if_pos first, List.append_nil] at sorted whole
    have same : w.air.length = i := by omega
    rw [same, if_pos isStart, ← same]
    refine ⟨List.pairwise_append.mpr ⟨sorted, List.pairwise_singleton _ _, ?_⟩, ?_⟩
    · intro early inside late last
      rw [List.mem_singleton.mp last]
      exact sound.before (List.mem_append_left _ inside)
    · rw [List.append_assoc]
      exact (List.perm_append_comm.append_left _).trans
        (by rw [← List.append_assoc]; exact whole.append_right [w.air.length])
  · rw [if_neg first] at sorted whole
    have notStart : ¬IsStart w.air.length := by
      simp only [IsStart, rxTti] at isStart ⊢
      omega
    rw [if_neg notStart, List.append_nil]
    exact ⟨sorted, whole⟩

end Filled

/-- The occasion goes on, or is complete. -/
theorem Sound.filled (sound : w.Sound done starts) {b : Nat} (filled : Filled w w' b c i sf) :
    w'.Sound done (if c + 1 = 7 then starts ++ [i] else starts) := by
  obtain ⟨sorted, whole⟩ := filled.occasions sound
  have others : List.Forall₂ (fun b' i' => i' + 7 ≤ w'.air.length ∧ Holds w'.air (w'.content b') i' 7)
      w.ready starts := by
    have apart : ∀ b' ∈ w.ready, b' ≠ b := fun b' inside same => filled.notReady (same ▸ inside)
    have later : List.Forall₂ (fun b' i' => i' + 7 ≤ (w.air ++ [sf]).length ∧
        Holds (w.air ++ [sf]) (w.content b') i' 7) w.ready starts := queued_later sound.queued
    rw [filled.air]
    refine ((List.forall₂_and_left w.ready starts).mpr ⟨apart, later⟩).imp ?_
    intro b' i' ⟨other, within, holds⟩
    exact ⟨within, by rw [filled.kept other]; exact holds⟩
  have all : done ++ (if c + 1 = 7 then starts ++ [i] else starts) ++ w'.receiving =
      done ++ starts ++ [i] := by
    rw [filled.receiving']
    split <;> simp
  have now := filled.now
  have room := filled.room
  constructor
  case accounts =>
    rw [filled.filling', filled.ready', filled.used']
    have held := filled.accounts
    split
    · refine held.pass ?_
      rw [List.nil_append, List.append_assoc]
      exact List.perm_middle.symm
    · exact held
  case size =>
    intro b'
    by_cases same : b' = b
    · rw [same, filled.content, Function.update_self]
      exact append_size (sound.size b) room _
    · rw [filled.kept same]
      exact sound.size b'
  case clean =>
    rw [filled.filling', filled.ready']
    intro b' notFilling notReady
    have other : b' ≠ b := by
      rintro rfl
      by_cases last : c + 1 = 7 <;> simp [last] at notFilling notReady
    have notReady' : b' ∉ w.ready := fun inside => notReady (by split <;> simp [inside])
    rw [filled.kept other]
    exact sound.clean b' (fun inside => other (filled.only b' inside)) notReady'
  case count =>
    rw [filled.sfCnt]
    split <;> omega
  case filling =>
    rw [filled.sfCnt, filled.air, filled.current]
    intro started
    split at started
    · exact absurd rfl started
    · rename_i goesOn
      rw [if_neg goesOn, List.length_append, List.length_singleton]
      refine ⟨by omega, b, rfl, ?_⟩
      have start : w.air.length + 1 - (c + 1) = i := by omega
      rw [start]
      exact filled.holds
  case queued =>
    rw [filled.ready']
    split
    · rename_i last
      refine List.rel_append others (.cons ⟨?_, ?_⟩ .nil)
      · rw [filled.air, List.length_append, List.length_singleton]
        omega
      · rw [filled.air, ← last]
        exact filled.holds
    · exact others
  case detected =>
    rw [filled.detections, filled.air]
    exact detected_later sound.detected
  case sorted =>
    rw [all]
    exact sorted
  case whole =>
    rw [all, filled.skipped, filled.air, List.length_append, List.length_singleton]
    exact whole

theorem fill_eq {b : Nat} (current : w.current = some b)
    (room : (w.content b).nofSamples + sfLenPrb1 < sfBufferSz) (ttiRx : Nat) (sf : RxSubframe α) :
    w.fill ttiRx sf = (0, { w with
      content := Function.update w.content b ((w.content b).append w.sfCnt ttiRx sf)
      sfCnt := if w.sfCnt + 1 = 7 then 0 else w.sfCnt + 1
      pending := if w.sfCnt + 1 = 7 then w.pending ++ [b] else w.pending }) := by
  simp only [fill, current, room, if_true]
  split <;> rfl

theorem Sound.room (sound : w.Sound done starts) : w.sfCnt * sfLenPrb1 + sfLenPrb1 < sfBufferSz := by
  have := sound.count
  simp only [sfLenPrb1, sfBufferSz]
  omega

/-- The first subframe of an occasion, with a buffer of the pool. -/
theorem Sound.first (sound : w.Sound done starts) (sf : RxSubframe α) (idle : w.sfCnt = 0)
    (isStart : IsStart w.air.length) {b : Nat} {pool : Pool Nat} (got : w.pool.allocate = some (b, pool)) :
    ∃ w1, NprachWorker.fill { w with pool := pool, current := some b } (rxTti w.air.length) sf = (0, w1) ∧
      Filled w { w1 with air := w.air ++ [sf] } b 0 w.air.length sf := by
  have empty : w.filling = [] := by simp [NprachWorker.filling, idle]
  have accounts := sound.accounts.allocate got
  rw [empty, List.nil_append] at accounts
  have notReady : b ∉ w.ready := by
    have all : buffers.Nodup := by decide
    have held := (List.nodup_append.mp (accounts.perm.nodup_iff.mpr all)).2.1
    exact fun inside => (List.nodup_cons.mp held).1 (List.mem_append_left w.used inside)
  have clean : (w.content b).nofSamples = 0 := sound.clean b (by simp [empty]) notReady
  refine ⟨_, fill_eq rfl (by rw [clean]; decide) _ sf, ?_⟩
  constructor
  case accounts => exact accounts
  case only => simp [empty]
  case content => rw [idle]
  case holds =>
    simp only [Function.update_self, idle]
    exact holds_first clean
  case isStart => exact isStart
  case now => rfl
  case room => decide
  case receiving => simp [NprachWorker.receiving, idle]
  case sfCnt => rw [idle]
  case pending => rw [idle]
  all_goals rfl

/-- A later subframe of the occasion. -/
theorem Sound.next (sound : w.Sound done starts) (sf : RxSubframe α) (started : w.sfCnt ≠ 0) :
    ∃ w1 b, w.fill (rxTti w.air.length) sf = (0, w1) ∧
      Filled w { w1 with air := w.air ++ [sf] } b w.sfCnt (w.air.length - w.sfCnt) sf := by
  obtain ⟨enough, b, current, holds⟩ := sound.filling started
  have filling : w.filling = [b] := by simp [NprachWorker.filling, started, current]
  have receiving : w.receiving = [w.air.length - w.sfCnt] := by simp [NprachWorker.receiving, started]
  have accounts := sound.accounts
  rw [filling, List.append_assoc, List.singleton_append] at accounts
  have now : w.air.length - w.sfCnt + w.sfCnt = w.air.length := Nat.sub_add_cancel enough
  have isStart : IsStart (w.air.length - w.sfCnt) := by
    have member : w.air.length - w.sfCnt ∈ done ++ starts ++ w.receiving ++ w.skipped := by simp [receiving]
    exact (mem_windows.mp (sound.whole.mem_iff.mp member)).2
  refine ⟨_, b, fill_eq current (by rw [holds.nofSamples]; exact sound.room) _ sf, ?_⟩
  constructor
  case accounts => exact accounts
  case only => simp [filling]
  case content => rfl
  case holds =>
    simp only [Function.update_self]
    exact holds.append now started
  case isStart => exact isStart
  case now => exact now
  case room => exact sound.count
  case receiving => rw [receiving, if_neg started]
  case current => exact current
  all_goals rfl

theorem Sound.newTti (sound : w.Sound done starts) (sf : RxSubframe α) :
    ∃ starts', Sound { (w.newTti (rxTti w.air.length) sf).2 with air := w.air ++ [sf] } done starts' := by
  unfold NprachWorker.newTti
  split
  · rename_i begins
    split
    · rename_i idle
      have isStart : IsStart w.air.length := begins.resolve_right (fun started => started idle)
      split
      · exact ⟨starts, sound.skip sf idle isStart⟩
      · rename_i b pool got
        obtain ⟨w1, filled, first⟩ := sound.first sf idle isStart got
        rw [filled]
        exact ⟨_, sound.filled first⟩
    · rename_i started
      obtain ⟨w1, b, filled, next⟩ := sound.next sf started
      rw [filled]
      exact ⟨_, sound.filled next⟩
  · rename_i outside
    obtain ⟨notStart, idle⟩ := not_or.mp outside
    exact ⟨starts, sound.idle sf (not_not.mp idle) notStart⟩

end NprachWorker

end SonicaEnb
