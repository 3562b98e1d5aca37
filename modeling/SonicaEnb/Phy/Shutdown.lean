import SonicaEnb.Phy.TtiSemaphore

/-! # Progress of the PHY threads

Every step but a push lowers a rank, so no order of the steps can keep the PHY from
sending, and once it is told to stop it does.
-/

namespace SonicaEnb

namespace PhyThreads

variable {n : Nat} {s s' : PhyThreads n}

/-- The steps a worker can still take until it waits, and later to its end; being told to start is
    worth nine more. -/
def workerRank (told : WorkerStatus) (pc : WorkerPc) : Nat :=
  (if told = .startWork then 9 else 0) +
    match pc with
    | .waitToStart => 3
    | .loopTest => if told = .stop then 1 else 4
    | .stopTest => if told = .stop then 2 else 11
    | .workImp => 10
    | .semaphoreWait => 9
    | .radioTx => 8
    | .ttiClock => 7
    | .release => 6
    | .finished => 5
    | .ended => 0

/-- The steps of `txrx` until it pushes a worker; what follows the push pays for that worker too. -/
def txrxRank (s : PhyThreads n) : Nat :=
  match s.txrx with
  | .startWorker _ => 14
  | .loopTest => if s.txrxRunning then 4 else 1
  | .waitWorker => 3
  | .setTime _ => 2
  | .push _ => 1
  | .ended => 0

def rank (s : PhyThreads n) : Nat :=
  ∑ id, workerRank (s.status id) (s.worker id) + s.txrxRank + s.stopper.left

theorem rank_start : (start n).rank = 4 * n + 10 := by
  simp [rank, start, workerRank, txrxRank, StopPc.left]
  omega

/-- A step of a worker. -/
theorem rank_worker (id : Fin n) (others : ∀ j, j ≠ id → s'.status j = s.status j ∧ s'.worker j = s.worker j)
    (lower : workerRank (s'.status id) (s'.worker id) < workerRank (s.status id) (s.worker id))
    (txrx : s'.txrxRank = s.txrxRank) (stopper : s'.stopper = s.stopper) : s'.rank < s.rank := by
  have sum := Interleaved.sum_lt (f := fun j => workerRank (s.status j) (s.worker j))
    (g := fun j => workerRank (s'.status j) (s'.worker j)) lower (fun j other => by
      rw [(others j other).1, (others j other).2])
  simp only [rank, txrx, stopper]
  omega

theorem goes_others {id : Fin n} {pc : WorkerPc} (j : Fin n) (other : j ≠ id) :
    (s.goes id pc).status j = s.status j ∧ (s.goes id pc).worker j = s.worker j :=
  ⟨rfl, (Function.update_of_ne other pc s.worker :)⟩

theorem rank_goes {id : Fin n} {pc : WorkerPc}
    (lower : workerRank (s.status id) pc < workerRank (s.status id) (s.worker id)) :
    (s.goes id pc).rank < s.rank :=
  rank_worker _ goes_others (by simpa [goes] using lower) rfl rfl

theorem workerRank_stop (told : WorkerStatus) (pc : WorkerPc) :
    workerRank .stop pc ≤ workerRank told pc := by
  cases told <;> cases pc <;> decide

/-- A step of `txrx` that changes the status of a worker to a new one. -/
theorem rank_txrx (extra : Nat) (id : Fin n) (same : s'.worker = s.worker)
    (others : ∀ j, j ≠ id → s'.status j = s.status j)
    (worker : workerRank (s'.status id) (s.worker id) ≤ workerRank (s.status id) (s.worker id) + extra)
    (stopper : s'.stopper = s.stopper) (lower : s'.txrxRank + extra < s.txrxRank) : s'.rank < s.rank := by
  have sum := Interleaved.sum_le_add (f := fun j => workerRank (s.status j) (s.worker j))
    (g := fun j => workerRank (s'.status j) (s'.worker j)) (i := id)
    (by rw [same]; exact worker) (fun j other => by rw [same, others j other])
  simp only [rank, stopper]
  omega

/-- A step that moves no worker. -/
theorem rank_threads (status : s'.status = s.status) (worker : s'.worker = s.worker)
    (lower : s'.txrxRank + s'.stopper.left < s.txrxRank + s.stopper.left) : s'.rank < s.rank := by
  simp only [rank, status, worker]
  omega

/-- Every step but a push lowers the rank. -/
theorem rank_moves (queued : s.Queued) (stopping : s.Stopping) (moves : Moves s s') :
    (s'.rank < s.rank ∧ s'.turns = s.turns) ∨
      (s'.rank = s.rank + 13 ∧ s'.turns.length = s.turns.length + 1 ∧ ∃ id, s.txrx = .push id) := by
  cases moves with
  | txrxLoop here =>
      refine .inl ⟨rank_threads rfl rfl ?_, rfl⟩
      cases on : s.txrxRunning <;> simp [txrxRank, here, on]
  | @workerFound id here on idle =>
      refine .inl ⟨rank_txrx 0 _ rfl (fun j other => Function.update_of_ne other _ _) ?_ rfl ?_, rfl⟩
      · simp [idle, workerRank]
      · simp [txrxRank, here]
  | poolClosed here closed =>
      have joined := stopping.closed closed
      rw [here] at joined
      cases joined
  | timeSet here => exact .inl ⟨rank_threads rfl rfl (by simp [txrxRank, here]), rfl⟩
  | @pushed id here =>
      refine .inr ⟨?_, by simp, id, here⟩
      simp only [rank, txrxRank, here]
      omega
  | @workerStarted id here =>
      obtain ⟨told, -, -⟩ := (queued.fits id).handled (by simp [handled, here])
      refine .inl ⟨rank_txrx 9 id rfl ?_ ?_ rfl ?_, rfl⟩
      · intro j other
        simp [told, Function.update_of_ne other]
      · simp only [told, workerRank]
        simp
        omega
      · cases s.txrxRunning <;> simp [txrxRank, here]
  | @workerLoop id here =>
      refine .inl ⟨rank_goes ?_, rfl⟩
      by_cases told : s.status id = .stop <;> simp [workerRank, here, told]
  | @workStarted id here told =>
      refine .inl ⟨rank_worker id ?_ ?_ rfl rfl, rfl⟩
      · intro j other
        exact ⟨Function.update_of_ne other _ _, (goes_others j other).2⟩
      · simp [workerRank, here, told]
  | workStopped here told => exact .inl ⟨rank_goes (by simp [workerRank, here, told]), rfl⟩
  | @stopTested id here =>
      refine .inl ⟨rank_goes ?_, rfl⟩
      by_cases told : s.status id = .stop <;> simp [workerRank, here, told]
  | worked here => exact .inl ⟨rank_goes (by simp [workerRank, here]), rfl⟩
  | semaphorePassed here turn => exact .inl ⟨rank_goes (by simp [workerRank, here]), rfl⟩
  | @sent id here =>
      have lower : (s.goes id .ttiClock).rank < s.rank := rank_goes (by simp [workerRank, here])
      exact .inl ⟨lower, rfl⟩
  | @clocked id here =>
      have lower : (s.goes id .release).rank < s.rank := rank_goes (by simp [workerRank, here])
      exact .inl ⟨lower, rfl⟩
  | @released id here =>
      have lower : (s.goes id .finished).rank < s.rank := rank_goes (by simp [workerRank, here])
      exact .inl ⟨lower, rfl⟩
  | @finished id here =>
      refine .inl ⟨rank_worker id ?_ ?_ rfl rfl, rfl⟩
      · intro j other
        refine ⟨?_, (goes_others j other).2⟩
        simp only [PhyThreads.finished]
        split
        · rfl
        · exact Function.update_of_ne other _ _
      · by_cases told : s.status id = .stop <;>
          simp [workerRank, here, told, PhyThreads.finished, PhyThreads.goes]
  | stopCalled here | txrxWasStopped here | txrxJoined here | allReleased here | workersJoined here =>
      exact .inl ⟨rank_threads rfl rfl (by simp [txrxRank, here, StopPc.left]), rfl⟩
  | txrxStopped here on =>
      refine .inl ⟨rank_threads rfl rfl ?_, rfl⟩
      have lower : txrxRank { s with txrxRunning := false, stopper := .joinTxrx } ≤ s.txrxRank := by
        cases other : s.txrx <;> simp [txrxRank, other, on]
      simp only [here, StopPc.left] at lower ⊢
      omega
  | poolStopped here =>
      refine .inl ⟨?_, rfl⟩
      have lower : ∑ id, workerRank .stop (s.worker id) ≤ ∑ id, workerRank (s.status id) (s.worker id) :=
        Finset.sum_le_sum fun id _ => workerRank_stop (s.status id) (s.worker id)
      have same : txrxRank { s with poolRunning := false, status := fun _ => .stop, stopper := .joinWorkers }
          = s.txrxRank := rfl
      simp only [rank, here, StopPc.left, same]
      omega

/-! ### Nobody waits for ever -/

/-- A worker that cannot go on waits to be started, waits for its turn, or has ended. -/
theorem blocked_worker {id : Fin n} (blocked : s.stepWorker id = none) :
    (s.worker id = .waitToStart ∧ s.status id ≠ .startWork ∧ s.status id ≠ .stop) ∨
      (s.worker id = .semaphoreWait ∧ s.semaphore ≠ [] ∧ s.semaphore.head? ≠ some id) ∨
      s.worker id = .ended := by
  unfold stepWorker at blocked
  cases here : s.worker id with
  | waitToStart =>
      rw [here] at blocked
      simp only [waitToStart] at blocked
      cases told : s.status id <;> simp [told] at blocked ⊢
  | semaphoreWait =>
      rw [here] at blocked
      simp only [semaphoreWait] at blocked
      split at blocked
      · cases blocked
      · rename_i notYet
        exact .inr (.inl ⟨rfl, fun empty => notYet (.inl empty), fun front => notYet (.inr front)⟩)
  | ended => exact .inr (.inr rfl)
  | loopTest | stopTest | workImp | radioTx | ttiClock | release | finished =>
      rw [here] at blocked
      cases blocked

theorem blocked_txrx (blocked : s.stepTxrx = none) :
    s.txrx = .ended ∨ (s.txrx = .waitWorker ∧ s.poolRunning = true ∧ ∀ id, s.status id ≠ .idle) := by
  unfold stepTxrx at blocked
  cases here : s.txrx with
  | ended => exact .inl rfl
  | waitWorker =>
      rw [here] at blocked
      simp only [waitWorker] at blocked
      split at blocked
      · rename_i running
        split at blocked
        · rename_i none
          refine .inr ⟨rfl, running, fun id idle => ?_⟩
          have := List.find?_eq_none.mp none id (List.mem_finRange id)
          simp [idle] at this
        · cases blocked
      · cases blocked
  | loopTest | setTime | push | startWorker =>
      rw [here] at blocked
      cases blocked

theorem not_handled (blocked : s.stepTxrx = none) (id : Fin n) : s.handled ≠ some id := by
  rcases blocked_txrx blocked with here | ⟨here, -⟩ <;> simp [handled, here]

/-- The worker at the front of the queue can always go on. -/
theorem Queued.front_steps (queued : s.Queued) (txrx : s.stepTxrx = none)
    (workers : ∀ id, s.stepWorker id = none) : s.semaphore = [] := by
  cases shape : s.semaphore with
  | nil => rfl
  | cons front rest =>
      have head : s.semaphore.head? = some front := by rw [shape]; rfl
      have inside : front ∈ s.semaphore := by simp [shape]
      rcases blocked_worker (workers front) with ⟨here, notStarted, notStopped⟩ | ⟨-, -, notFront⟩ | here
      · cases queued.fits front with
        | idle _ _ _ out | done _ _ _ out | stopped _ _ _ out => exact absurd inside out
        | readied _ _ busy => exact absurd busy (not_handled txrx front)
        | started told => exact absurd told notStarted
        | prepares _ prepares => rcases prepares with other | other | other <;> simp [here] at other
        | sends _ sends => rcases sends with other | other | other <;> simp [here] at other
      · exact absurd head notFront
      · cases queued.fits front with
        | idle _ _ _ out | done _ _ _ out | stopped _ _ _ out => exact absurd inside out
        | readied _ _ busy => exact absurd busy (not_handled txrx front)
        | started _ rests => rcases rests with other | other <;> simp [here] at other
        | prepares _ prepares => rcases prepares with other | other | other <;> simp [here] at other
        | sends _ sends => rcases sends with other | other | other <;> simp [here] at other

/-- When neither `txrx` nor a worker can go on, `txrx` has ended and every worker waits to be started or
    has been stopped. -/
theorem Sound.all_blocked (sound : s.Sound) (pos : 0 < n) (txrx : s.stepTxrx = none)
    (workers : ∀ id, s.stepWorker id = none) :
    s.semaphore = [] ∧ s.txrx = .ended ∧ ∀ id, s.status id = .idle ∨ s.worker id = .ended := by
  have empty := sound.queued.front_steps txrx workers
  have settled : ∀ id, s.status id = .idle ∨ (s.status id = .stop ∧ s.worker id = .ended) := by
    intro id
    have out : id ∉ s.semaphore := by simp [empty]
    cases sound.queued.fits id with
    | idle told => exact .inl told
    | readied _ _ busy => exact absurd busy (not_handled txrx id)
    | started _ _ _ inside | prepares _ _ _ inside => exact absurd inside out
    | sends _ _ _ front => simp [empty] at front
    | done _ done =>
        rcases blocked_worker (workers id) with ⟨here, -⟩ | ⟨here, -⟩ | here <;> simp [here] at done
    | stopped told =>
        rcases blocked_worker (workers id) with ⟨-, -, notStopped⟩ | ⟨-, other, -⟩ | here
        · exact absurd told notStopped
        · exact absurd empty other
        · exact .inr ⟨told, here⟩
  refine ⟨empty, ?_, fun id => (settled id).imp_right And.right⟩
  rcases blocked_txrx txrx with ended | ⟨-, running, noneIdle⟩
  · exact ended
  · rcases settled ⟨0, pos⟩ with idle | ⟨told, -⟩
    · exact absurd idle (noneIdle ⟨0, pos⟩)
    · rw [(sound.stopping.status _).mp told] at running
      cases running

/-- When no thread at all can go on, `phy::stop` has joined `txrx` and the workers. -/
theorem Sound.joined (sound : s.Sound) (pos : 0 < n) (blocked : ∀ thread, s.step thread = none) :
    s.stopper = .nprachStop := by
  obtain ⟨empty, ended, settled⟩ := sound.all_blocked pos (blocked .txrx) fun id => blocked (.worker id)
  have stop : s.stepStop = none := blocked .stop
  unfold stepStop at stop
  cases here : s.stopper with
  | nprachStop => rfl
  | joinWorkers =>
      have closed : s.poolRunning = false := by
        cases on : s.poolRunning with
        | false => rfl
        | true => have := sound.stopping.pool.mp on; simp [here, StopPc.left] at this
      have ended : ∀ id, s.worker id = .ended := by
        intro id
        rcases settled id with idle | ended
        · have told := (sound.stopping.status id).mpr closed
          rw [idle] at told
          cases told
        · exact ended
      simp [here, ended] at stop
  | txrxStop => cases on : s.txrxRunning <;> simp [here, on] at stop
  | notCalled | joinTxrx | waitAll | poolStop => simp [here, ended, empty] at stop

theorem Queued.all_sent (queued : s.Queued) (empty : s.semaphore = []) : s.air = aired s.turns := by
  obtain ⟨sent, turns, air⟩ := queued.record
  simp only [sending, empty, List.map_nil, List.append_nil] at turns air
  rw [turns, air]

theorem Sound.pays (s : PhyThreads n) (thread : Thread n) (s' : PhyThreads n) (sound : s.Sound)
    (stepped : s.step thread = some s') :
    s'.rank + 1 + 14 * s.turns.length ≤ s.rank + 14 * s'.turns.length := by
  rcases rank_moves sound.queued sound.stopping (moves_of_step stepped) with
    ⟨lower, same⟩ | ⟨higher, turn, -⟩
  · rw [same]
    omega
  · omega

theorem Sound.run_bounded {schedule : List (Thread n)} (sound : s.Sound)
    (ran : s.run schedule = some s') :
    schedule.length + s'.rank + 14 * s.turns.length ≤ s.rank + 14 * s'.turns.length :=
  Interleaved.run_bounded (fun s => s.turns.length) Sound.step Sound.pays sound ran

/-- As long as nobody stops the PHY, some thread can go on, and whatever the order of the steps, after
    `N` of them at least `(N - 18 n - 10) / 14` subframes were sent. -/
theorem keeps_transmitting {schedule : List (Thread n)} (pos : 0 < n)
    (ran : (start n).run schedule = some s) :
    (s.stopper = .notCalled → ∃ thread s', thread ≠ .stop ∧ s.step thread = some s') ∧
      ∃ sent, (s.air = aired sent ∨ s.air ++ [.ttiClock] = aired sent) ∧
        schedule.length ≤ 18 * n + 10 + 14 * sent.length := by
  have sound := start_sound.run ran
  constructor
  · intro notCalled
    by_contra blocked
    have none : ∀ thread, thread ≠ .stop → s.step thread = none := by
      intro thread other
      cases stepped : s.step thread with
      | none => rfl
      | some s' => exact absurd ⟨thread, s', other, stepped⟩ blocked
    have ended := (sound.all_blocked pos (none .txrx (by simp)) fun id => none (.worker id) (by simp)).2.1
    have early := sound.stopping.running.mpr (by simp [notCalled, StopPc.left])
    rw [sound.stopping.left ended] at early
    cases early
  · obtain ⟨sent, later, turns, few, air⟩ := sound.queued.sent
    refine ⟨sent, air, ?_⟩
    have bounded := start_sound.run_bounded ran
    rw [rank_start, turns, List.length_append] at bounded
    omega

/-- After 56 steps at least two subframes were sent; here it is four. -/
theorem keeps_transmitting_four : ∃ s, (start 1).run
      (List.replicate 4 (List.replicate 5 .txrx ++ List.replicate 9 (.worker 0))).flatten = some s ∧
    s.air.length = 8 ∧ (s.stopper = .notCalled → ∃ thread s', thread ≠ .stop ∧ s.step thread = some s') ∧
      ∃ sent, (s.air = aired sent ∨ s.air ++ [.ttiClock] = aired sent) ∧ 2 ≤ sent.length := by
  have given : ((start 1).run
      (List.replicate 4 (List.replicate 5 .txrx ++ List.replicate 9 (.worker 0))).flatten).map
        (fun s => s.air.length) = some 8 := by decide +kernel
  obtain ⟨s, ran, length⟩ := Option.map_eq_some_iff.mp given
  obtain ⟨goesOn, sent, air, enough⟩ := keeps_transmitting (by decide) ran
  have steps : (List.replicate 4 (List.replicate 5 (Thread.txrx : Thread 1) ++
      List.replicate 9 (.worker 0))).flatten.length = 56 := by decide
  rw [steps] at enough
  exact ⟨s, ran, length, goesOn, sent, air, by omega⟩

/-! ### The last turn -/

/-- The turn that `txrx` is still in once it was told to stop. -/
def lastTurn (s : PhyThreads n) : Nat :=
  match s.txrx with
  | .waitWorker | .setTime _ | .push _ => 1
  | _ => 0

structure Ending (s : PhyThreads n) : Prop where
  sound : s.Sound
  told : s.txrxRunning = false

theorem Ending.step (s : PhyThreads n) (thread : Thread n) (s' : PhyThreads n) (ending : s.Ending)
    (stepped : s.step thread = some s') :
    s'.Ending ∧ s'.turns.length + s'.lastTurn ≤ s.turns.length + s.lastTurn := by
  have told := ending.told
  refine ⟨⟨ending.sound.step s thread s' stepped, ?_⟩, ?_⟩
  · cases moves_of_step stepped with
    | poolClosed | txrxStopped => rfl
    | txrxLoop | workerFound | timeSet | pushed | workerStarted | workerLoop | workStarted | workStopped
      | stopTested | worked | semaphorePassed | sent | clocked | released | finished | stopCalled
      | txrxWasStopped | txrxJoined | allReleased | poolStopped | workersJoined => exact told
  · cases moves_of_step stepped with
    | txrxLoop here => simp [lastTurn, told]
    | pushed here => simp [lastTurn, here]
    | workerFound here | poolClosed here | timeSet here | workerStarted here => simp [lastTurn, here]
    | workerLoop | workStarted | workStopped | stopTested | worked | semaphorePassed | sent | clocked
      | released | finished | stopCalled | txrxStopped | txrxWasStopped | txrxJoined | allReleased
      | poolStopped | workersJoined => exact le_refl _

theorem workerRank_le (told : WorkerStatus) (pc : WorkerPc) : workerRank told pc ≤ 20 := by
  cases told <;> cases pc <;> decide

theorem rank_le (s : PhyThreads n) : s.rank ≤ 20 * n + 20 := by
  have workers : ∑ id, workerRank (s.status id) (s.worker id) ≤ 20 * n := by
    calc ∑ id, workerRank (s.status id) (s.worker id) ≤ ∑ _id : Fin n, 20 :=
          Finset.sum_le_sum fun id _ => workerRank_le (s.status id) (s.worker id)
      _ = 20 * n := by simp [Nat.mul_comm]
  have txrx : s.txrxRank ≤ 14 := by
    unfold txrxRank
    cases s.txrx <;> simp
    split <;> simp
  have stopper : s.stopper.left ≤ 6 := by cases s.stopper <;> simp [StopPc.left]
  simp only [rank]
  omega

end PhyThreads

end SonicaEnb
