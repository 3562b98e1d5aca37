import SonicaEnb.Phy.NprachWorker

/-! # What a preamble is detected in

A window of seven subframes fills the 24 blocks of the four symbol groups, so every
`sonica_nprach_detect` of the worker completes. It leaves nothing in `fft_in`, and it
writes every row of `det_buf`: no detection sees samples of an earlier window.
-/

namespace SonicaEnb

open Nprach

namespace NprachDetector

variable {α β : Type} (shift : List α → List α) (dft : List α → Nat → β)

theorem store_length (detBuf : List (List β)) (read : NprachRead α β) :
    (read.store detBuf).length = detBuf.length := by
  cases read with
  | cp => rfl
  | symbol => exact List.length_set

theorem foldl_store_length (reads : List (NprachRead α β)) (detBuf : List (List β)) :
    (reads.foldl NprachRead.store detBuf).length = detBuf.length := by
  induction reads generalizing detBuf with
  | nil => rfl
  | cons read later ih => exact (ih _).trans (store_length detBuf read)

/-- The row is the same before, or is written by the reads. -/
def Settles (reads : List (NprachRead α β)) (detBuf other : List (List β)) (i : Nat) : Prop :=
  detBuf[i]? = other[i]? ∨ ∃ block row, .symbol block i row ∈ reads

theorem settles_tail {read : NprachRead α β} {later : List (NprachRead α β)} {detBuf other : List (List β)}
    {i : Nat} (size : detBuf.length = other.length) (settles : Settles (read :: later) detBuf other i) :
    Settles later (read.store detBuf) (read.store other) i := by
  cases read with
  | cp samples =>
      rcases settles with same | ⟨block, row, member⟩
      · exact .inl same
      · rcases List.mem_cons.mp member with here | inside
        · cases here
        · exact .inr ⟨block, row, inside⟩
  | symbol block symNum row =>
      by_cases here : symNum = i
      · subst here
        refine .inl ?_
        by_cases inside : symNum < detBuf.length
        · rw [NprachRead.store, NprachRead.store, List.getElem?_set_self inside,
            List.getElem?_set_self (size ▸ inside)]
        · have outside : other.length ≤ symNum := size ▸ not_lt.mp inside
          rw [NprachRead.store, NprachRead.store, List.set_eq_of_length_le (not_lt.mp inside),
            List.set_eq_of_length_le outside, List.getElem?_eq_none (not_lt.mp inside),
            List.getElem?_eq_none outside]
      · rcases settles with same | ⟨block', row', member⟩
        · refine .inl ?_
          simp only [NprachRead.store, List.getElem?_set_ne here]
          exact same
        · rcases List.mem_cons.mp member with now | inside
          · cases now
            exact absurd rfl here
          · exact .inr ⟨block', row', inside⟩

/-- Reads that write every row leave nothing of what was in `det_buf`. -/
theorem foldl_store_eq {reads : List (NprachRead α β)} {detBuf other : List (List β)}
    (size : detBuf.length = other.length) (settles : ∀ i < detBuf.length, Settles reads detBuf other i) :
    reads.foldl NprachRead.store detBuf = reads.foldl NprachRead.store other := by
  induction reads generalizing detBuf other with
  | nil =>
      apply List.ext_getElem?
      intro i
      by_cases inside : i < detBuf.length
      · rcases settles i inside with same | ⟨_, _, none⟩
        · exact same
        · cases none
      · rw [List.foldl_nil, List.foldl_nil, List.getElem?_eq_none (not_lt.mp inside),
          List.getElem?_eq_none (size ▸ not_lt.mp inside)]
  | cons read later ih =>
      apply ih
      · rw [store_length, store_length, size]
      · rw [store_length]
        exact fun i inside => settles_tail size (settles i inside)

/-- One call with the samples of all 24 blocks: the detection completes, and its `det_buf` is that of a
    detector that was just initialised. -/
theorem detect_whole [Zero β] {q : NprachDetector α β} {signal : List α} (keeps : q.Keeps 0 [])
    (rows : q.detBuf.length = 20) (enough : 24 * sampSize ≤ signal.length) (fftIn : List α) :
    ∃ q' fresh reads, detect shift dft q signal = (q', reads, true) ∧
      detect shift dft (init fftIn) signal = (fresh, reads, true) ∧ q'.detBuf = fresh.detBuf ∧
      q'.detBuf.length = 20 ∧ q'.detectReset.Keeps 0 [] := by
  have long : sampSize ≤ ([] : List α).length + signal.length := by
    unfold sampSize at enough ⊢
    omega
  have blocks : 24 ≤ signal.length / sampSize := (Nat.le_div_iff_mul_le sampSize_pos).mpr enough
  obtain ⟨q', reads, finished, detected, read, stored, done, -⟩ := detect_long shift dft keeps long
  obtain ⟨fresh, reads', finished', detected', read', stored', done', -⟩ :=
    detect_long shift dft (keeps_init (β := β) fftIn) long
  rw [List.nil_append, Nat.zero_add, decide_eq_true blocks] at done done'
  subst done done' read read'
  have length : q'.detBuf.length = 20 := by rw [stored, foldl_store_length, rows]
  refine ⟨q', fresh, _, detected, detected', ?_, length, ?_⟩
  · rw [stored, stored']
    refine foldl_store_eq (rows.trans rfl) fun i row => .inr ?_
    exact reads_settle shift dft (by rw [List.nil_append, Blocks.full_length]; exact blocks) (rows ▸ row)
  · have empty : q'.bufSamp = 0 := by
      have complete := bufSamp_of_finished shift dft q signal
      rw [detected] at complete
      exact complete rfl
    exact ⟨⟨rfl, rfl⟩, by decide, by rw [detectReset, empty]; rfl, empty.symm, sampSize_pos⟩

end NprachDetector

namespace NprachWorker

variable {α β : Type} [Zero β] (shift : List α → List α) (dft : List α → Nat → β)
  (strong : β → Bool) (emulateNprach : Bool)

/-- What the stack is told of an occasion, by a detector that knows nothing but its samples. -/
def rachOf (fftIn : List α) (tti : Nat) (samples : List α) : List RachDetected :=
  rachReport emulateNprach tti
    (detectIndex strong (NprachDetector.detect shift dft (NprachDetector.init fftIn) samples).1.detBuf)

/-- The detector is at the beginning, and every detection so far was that of a new detector. -/
structure Fresh (w : NprachWorker α β) : Prop where
  keeps : w.detector.Keeps 0 []
  rows : w.detector.detBuf.length = 20
  told : ∀ d ∈ w.detections, ∀ fftIn, d.rach = rachOf shift dft strong emulateNprach fftIn d.tti d.samples

theorem start_fresh [Zero α] (fftIn : List α) :
    Fresh shift dft strong emulateNprach (start fftIn : NprachWorker α β) where
  keeps := NprachDetector.keeps_init fftIn
  rows := List.length_replicate
  told := fun _ member => absurd member List.not_mem_nil

variable {w w' : NprachWorker α β} {done starts : List Nat}

theorem runTti_of_detect {b : Nat} {q' : NprachDetector α β} {reads : List (NprachRead α β)}
    (detected : NprachDetector.detect shift dft w.detector
      ((w.content b).samples.take (w.content b).nofSamples) = (q', reads, true)) :
    w.runTti shift dft strong emulateNprach b = { w with
      detector := q'.detectReset
      content := Function.update w.content b (w.content b).reset
      detections := w.detections ++ [⟨(w.content b).tti,
        (w.content b).samples.take (w.content b).nofSamples,
        rachReport emulateNprach (w.content b).tti (detectIndex strong q'.detBuf)⟩] } := by
  simp only [runTti, detected, if_true]

theorem Fresh.runTti (fresh : Fresh shift dft strong emulateNprach w) (b : Nat)
    (enough : 24 * sampSize ≤ ((w.content b).samples.take (w.content b).nofSamples).length) :
    Fresh shift dft strong emulateNprach (w.runTti shift dft strong emulateNprach b) := by
  have whole := NprachDetector.detect_whole shift dft fresh.keeps fresh.rows enough
  obtain ⟨q', -, reads, detected, -, -, rows, keeps⟩ := whole []
  rw [runTti_of_detect shift dft strong emulateNprach detected]
  refine ⟨keeps, rows, ?_⟩
  intro d member fftIn
  rcases List.mem_append.mp member with before | now
  · exact fresh.told d before fftIn
  · obtain ⟨_, new, _, detected', detectedNew, same, -, -⟩ := whole fftIn
    rw [detected] at detected'
    cases detected'
    rw [List.mem_singleton.mp now]
    simp only [rachOf, detectedNew, same]

omit [Zero β] in
theorem fill_detector (ttiRx : Nat) (sf : RxSubframe α) :
    (w.fill ttiRx sf).2.detector = w.detector ∧ (w.fill ttiRx sf).2.detections = w.detections := by
  unfold fill
  split
  · exact ⟨rfl, rfl⟩
  · split
    · dsimp only
      split <;> exact ⟨rfl, rfl⟩
    · exact ⟨rfl, rfl⟩

omit [Zero β] in
/-- `new_tti` leaves the detector alone. -/
theorem newTti_detector (ttiRx : Nat) (sf : RxSubframe α) :
    (w.newTti ttiRx sf).2.detector = w.detector ∧ (w.newTti ttiRx sf).2.detections = w.detections := by
  unfold newTti
  split
  · split
    · split
      · exact ⟨rfl, rfl⟩
      · exact fill_detector ttiRx sf
    · exact fill_detector ttiRx sf
  · exact ⟨rfl, rfl⟩

structure Works (w : NprachWorker α β) : Prop where
  sound : ∃ done starts, w.Sound done starts
  fresh : Fresh shift dft strong emulateNprach w

theorem Works.step (w : NprachWorker α β) (action : Action α) (w' : NprachWorker α β)
    (works : Works shift dft strong emulateNprach w)
    (stepped : w.step shift dft strong emulateNprach action = some w') :
    Works shift dft strong emulateNprach w' := by
  obtain ⟨⟨done, starts, sound⟩, fresh⟩ := works
  cases action with
  | newTti sf =>
      simp only [NprachWorker.step, Option.some.injEq] at stepped
      subst stepped
      obtain ⟨starts', sound'⟩ := sound.newTti sf
      have same : (w.newTti (rxTti w.air.length) sf).2.detector = w.detector ∧
          (w.newTti (rxTti w.air.length) sf).2.detections = w.detections := newTti_detector _ sf
      refine ⟨⟨done, starts', sound'⟩, ?_, ?_, ?_⟩
      · dsimp only
        rw [same.1]
        exact fresh.keeps
      · dsimp only
        rw [same.1]
        exact fresh.rows
      · dsimp only
        rw [same.2]
        exact fresh.told
  | worker =>
      simp only [NprachWorker.step] at stepped
      cases thread : w.thread with
      | waitPop =>
          rw [thread] at stepped
          cases pending : w.pending with
          | nil => simp [pending] at stepped
          | cons b rest =>
              simp only [pending] at stepped
              cases stepped
              exact ⟨⟨done, starts, sound.pop thread pending⟩, fresh.keeps, fresh.rows, fresh.told⟩
      | runTti b =>
          rw [thread] at stepped
          cases stepped
          obtain ⟨d, ran⟩ := ranTti shift dft strong emulateNprach w b
          obtain ⟨i, rest, shape, sound'⟩ := sound.ranTti thread ran
          have enough : 24 * sampSize ≤ ((w.content b).samples.take (w.content b).nofSamples).length := by
            obtain ⟨i', holds⟩ := sound.working thread
            rw [holds.nofSamples, List.length_take, sound.size]
            decide
          have fresh' := fresh.runTti shift dft strong emulateNprach b enough
          exact ⟨⟨_, rest, sound'⟩, fresh'.keeps, fresh'.rows, fresh'.told⟩
      | deallocate b =>
          rw [thread] at stepped
          cases stepped
          exact ⟨⟨done, starts, sound.deallocate thread⟩, fresh.keeps, fresh.rows, fresh.told⟩

omit [Zero β] in
theorem fill_skipped (ttiRx : Nat) (sf : RxSubframe α) : (w.fill ttiRx sf).2.skipped = w.skipped := by
  unfold fill
  split
  · rfl
  · split
    · dsimp only
      split <;> rfl
    · rfl

omit [Zero β] in
theorem skips_only_when_empty (ttiRx : Nat) (sf : RxSubframe α)
    (skips : (w.newTti ttiRx sf).2.skipped ≠ w.skipped) : w.sfCnt = 0 ∧ w.pool.available = [] := by
  unfold newTti at skips
  split at skips
  · split at skips
    · rename_i idle
      split at skips
      · rename_i none
        refine ⟨idle, ?_⟩
        unfold Pool.allocate at none
        split at none
        · assumption
        · cases none
      · exact absurd (fill_skipped ttiRx sf) skips
    · exact absurd (fill_skipped ttiRx sf) skips
  · exact absurd rfl skips

variable [Zero α] {actions : List (Action α)} {fftIn : List α}

theorem works_of_run (ran : (start fftIn : NprachWorker α β).run shift dft strong emulateNprach actions =
    some w) : Works shift dft strong emulateNprach w :=
  Interleaved.run_invariant (Works.step shift dft strong emulateNprach)
    ⟨⟨[], [], start_sound fftIn⟩, start_fresh shift dft strong emulateNprach fftIn⟩ ran

/-- However `new_tti` and the thread take turns, the detections are of whole occasions in their order,
    none twice: the samples of the seven subframes from a TTI that is 64 modulo 160 on, and what the
    stack is told of them is what a detector finds there that was just initialised. -/
theorem detects_whole_occasions (ran : (start fftIn : NprachWorker α β).run shift dft strong emulateNprach
    actions = some w) :
    ∃ occasions, occasions.Pairwise (· < ·) ∧ List.Forall₂ (fun d i => rxTti i % 160 = 64 ∧
      i + 7 ≤ w.air.length ∧ d.tti = rxTti i ∧ d.samples = window w.air i 7 ∧
      ∀ memory, d.rach = rachOf shift dft strong emulateNprach memory (rxTti i) (window w.air i 7))
      w.detections occasions := by
  obtain ⟨⟨done, starts, sound⟩, fresh⟩ := works_of_run shift dft strong emulateNprach ran
  have sorted := sound.sorted
  rw [List.append_assoc] at sorted
  refine ⟨done, (List.pairwise_append.mp sorted).1, ?_⟩
  have isStart : ∀ i ∈ done, IsStart i := by
    intro i member
    have inside : i ∈ done ++ starts ++ w.receiving ++ w.skipped := by simp [member]
    exact (mem_windows.mp (sound.whole.mem_iff.mp inside)).2
  have starting := (List.forall₂_and_left done w.detections).mpr ⟨isStart, sound.detected.flip⟩
  have telling := (List.forall₂_and_left w.detections done).mpr ⟨fresh.told, starting.flip⟩
  refine telling.imp ?_
  intro d i ⟨told, isStart, detection⟩
  refine ⟨isStart, detection.within, detection.tti, detection.samples, fun memory => ?_⟩
  rw [told memory, detection.tti, detection.samples]

/-- A receive subframe without a signal. -/
def silence : RxSubframe Int := ⟨List.replicate sfLenPrb1 0, List.length_replicate⟩

/-- The first occasion is received and detected. -/
theorem detects_whole_occasions_first : ∃ w : NprachWorker Int Int,
    (start []).run id NprachDetector.pick (fun x => decide (5 < x)) false
      (List.replicate 75 (.newTti silence) ++ List.replicate 2 .worker) = some w ∧
    ∃ occasions, occasions.Pairwise (· < ·) ∧ List.Forall₂ (fun d i => rxTti i % 160 = 64 ∧
      i + 7 ≤ w.air.length ∧ d.tti = rxTti i ∧ d.samples = window w.air i 7 ∧
      ∀ memory, d.rach = rachOf id NprachDetector.pick (fun x => decide (5 < x)) false memory (rxTti i)
        (window w.air i 7)) w.detections occasions := by
  have some_ : ((start [] : NprachWorker Int Int).run id NprachDetector.pick (fun x => decide (5 < x)) false
      (List.replicate 75 (.newTti silence) ++ List.replicate 2 .worker)).isSome := by decide +kernel
  obtain ⟨w, ran⟩ := Option.isSome_iff_exists.mp some_
  exact ⟨w, ran, detects_whole_occasions id NprachDetector.pick (fun x => decide (5 < x)) false ran⟩

/-- Each occasion received is detected, waits, is being received or was skipped, and none is two of
    these; one is skipped only while all eight buffers hold others. -/
theorem loses_no_occasion (ran : (start fftIn : NprachWorker α β).run shift dft strong emulateNprach
    actions = some w) :
    (∃ done waiting, List.Forall₂ (DetectionOf w.air) w.detections done ∧
      List.Forall₂ (fun b i => Holds w.air (w.content b) i 7) w.ready waiting ∧
      (done ++ waiting ++ w.receiving ++ w.skipped).Perm
        ((List.range w.air.length).filter fun i => decide (IsStart i))) ∧
      ∀ sf w', w.step shift dft strong emulateNprach (.newTti sf) = some w' → w'.skipped ≠ w.skipped →
        w.ready.length + w.used.length = 8 := by
  obtain ⟨⟨done, starts, sound⟩, -⟩ := works_of_run shift dft strong emulateNprach ran
  refine ⟨⟨done, starts, sound.detected, sound.queued.imp fun _ _ holds => holds.2, sound.whole⟩, ?_⟩
  intro sf w' stepped skips
  simp only [NprachWorker.step, Option.some.injEq] at stepped
  subst stepped
  dsimp only at skips
  obtain ⟨idle, empty⟩ := skips_only_when_empty (rxTti w.air.length) sf skips
  have held := sound.accounts.perm.length_eq
  rw [empty, NprachWorker.filling, if_pos idle, List.nil_append, List.nil_append, List.length_append] at held
  exact held

/-- While the thread is held up, the ninth occasion finds no buffer. -/
theorem loses_no_occasion_ninth : ∃ w w' : NprachWorker Int Int,
    (start []).run id NprachDetector.pick (fun x => decide (5 < x)) false
      (List.replicate 1348 (.newTti silence)) = some w ∧
    (∃ done waiting, List.Forall₂ (DetectionOf w.air) w.detections done ∧
      List.Forall₂ (fun b i => Holds w.air (w.content b) i 7) w.ready waiting ∧
      (done ++ waiting ++ w.receiving ++ w.skipped).Perm
        ((List.range w.air.length).filter fun i => decide (IsStart i))) ∧
    w.step id NprachDetector.pick (fun x => decide (5 < x)) false (.newTti silence) = some w' ∧
      w.skipped = [] ∧ w'.skipped = [1348] ∧ w.ready.length + w.used.length = 8 := by
  have ninth : (((start [] : NprachWorker Int Int).run id NprachDetector.pick (fun x => decide (5 < x)) false
      (List.replicate 1348 (.newTti silence))).bind fun w =>
      (w.step id NprachDetector.pick (fun x => decide (5 < x)) false (.newTti silence)).map fun w' =>
        (w.skipped, w'.skipped)) = some ([], [1348]) := by decide +kernel
  obtain ⟨w, ran, rest⟩ := Option.bind_eq_some_iff.mp ninth
  obtain ⟨w', stepped, same⟩ := Option.map_eq_some_iff.mp rest
  obtain ⟨before, after⟩ := Prod.mk.inj same
  obtain ⟨accounts, skips⟩ := loses_no_occasion id NprachDetector.pick (fun x => decide (5 < x)) false ran
  refine ⟨w, w', ran, accounts, stepped, before, after, skips silence w' stepped ?_⟩
  rw [before, after]
  decide

end NprachWorker

end SonicaEnb
