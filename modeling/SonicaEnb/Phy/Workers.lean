import SonicaEnb.Lib.Interleave
import SonicaEnb.Phy.Txrx
import Mathlib.Data.List.FinRange
import Mathlib.Logic.Function.Basic

/-! # The threads of the PHY

`txrx` hands every TTI to a worker that is free, and workers run next to each other.
What they send has to be in the order of the TTIs: `txrx` puts each worker into a
queue, the `tti_semaphore`, and a worker sends when it is at the front. The threads
are modelled one locked section or one call at a time, in any order.
-/

namespace SonicaEnb

/-- `thread_pool::worker_status` -/
inductive WorkerStatus where
  | stop | idle | startWork | workerReady | working
  deriving Repr, DecidableEq

/-- What the thread of a worker does next: `worker::run_thread`, with `work_imp` up to `worker_end`, and
    `phy_common::worker_end`. -/
inductive WorkerPc where
  | loopTest | waitToStart | stopTest | workImp | semaphoreWait | radioTx | ttiClock | release
  | finished | ended
  deriving Repr, DecidableEq

def WorkerPc.Rests (pc : WorkerPc) : Prop := pc = .loopTest ∨ pc = .waitToStart

/-- Where a worker can be when the pool is stopped. -/
def WorkerPc.Idles (pc : WorkerPc) : Prop := pc.Rests ∨ pc = .stopTest ∨ pc = .finished ∨ pc = .ended

def WorkerPc.Prepares (pc : WorkerPc) : Prop := pc = .stopTest ∨ pc = .workImp ∨ pc = .semaphoreWait

def WorkerPc.Sends (pc : WorkerPc) : Prop := pc = .radioTx ∨ pc = .ttiClock ∨ pc = .release

/-- What `txrx::run_thread` does next. -/
inductive TxrxPc (n : Nat) where
  | loopTest | waitWorker
  | setTime (id : Fin n) | push (id : Fin n) | startWorker (id : Fin n)
  | ended
  deriving Repr, DecidableEq

/-- What `phy::stop` does next: `txrx::stop` with its join, `phy_common::stop`, `thread_pool::stop` with
    its joins. What is left then is `nprach_worker::stop`, which joins a thread that no other one waits for. -/
inductive StopPc where
  | notCalled | txrxStop | joinTxrx | waitAll | poolStop | joinWorkers | nprachStop
  deriving Repr, DecidableEq

/-- How many steps `phy::stop` has left to the call of `nprach_worker::stop`, its own call included. -/
def StopPc.left : StopPc → Nat
  | .notCalled => 6
  | .txrxStop => 5
  | .joinTxrx => 4
  | .waitAll => 3
  | .poolStop => 2
  | .joinWorkers => 1
  | .nprachStop => 0

/-- What leaves the PHY at the end of a worker: a transmission, or the clock of the stack. -/
inductive AirEvent where
  | tx (time : WorkerTime)
  | ttiClock
  deriving Repr, DecidableEq

/-- The threads of the PHY with `n` workers. The last two fields are a record of the run: the times of
    the workers in the order they were pushed, and what left the PHY. -/
structure PhyThreads (n : Nat) where
  counters : Txrx
  txrx : TxrxPc n
  txrxRunning : Bool
  semaphore : List (Fin n)
  poolRunning : Bool
  status : Fin n → WorkerStatus
  worker : Fin n → WorkerPc
  time : Fin n → WorkerTime
  stopper : StopPc
  turns : List WorkerTime
  air : List AirEvent

namespace PhyThreads

variable {n : Nat}

/-- After `phy::init`. -/
def start (n : Nat) : PhyThreads n :=
  { counters := Txrx.start, txrx := .loopTest, txrxRunning := true, semaphore := [], poolRunning := true
    status := fun _ => .idle, worker := fun _ => .loopTest, time := fun _ => ⟨0, 0, 0, 0, 0, 0, 0, 0⟩
    stopper := .notCalled, turns := [], air := [] }

def findFinishedWorker (s : PhyThreads n) : Option (Fin n) :=
  (List.finRange n).find? fun id => decide (s.status id = .idle)

/-- `wait_worker` answers nothing only when the pool is being closed, and waits while no worker is
    idle. -/
def waitWorker (s : PhyThreads n) : Option (PhyThreads n) :=
  if s.poolRunning then
    match s.findFinishedWorker with
    | none => none
    | some id =>
        some { s with status := Function.update s.status id .workerReady, txrx := .setTime id }
  else some { s with txrxRunning := false, txrx := .loopTest }

def stepTxrx (s : PhyThreads n) : Option (PhyThreads n) :=
  match s.txrx with
  | .loopTest => some { s with txrx := if s.txrxRunning then .waitWorker else .ended }
  | .waitWorker => s.waitWorker
  | .setTime id =>
      let (counters, time) := s.counters.turn n
      some { s with
        counters := counters
        time := Function.update s.time id time
        txrx := .push id }
  | .push id =>
      some { s with
        semaphore := s.semaphore ++ [id]
        turns := s.turns ++ [s.time id]
        txrx := .startWorker id }
  | .startWorker id =>
      some { s with
        status := if s.status id = .stop then s.status else Function.update s.status id .startWork
        txrx := .loopTest }
  | .ended => none

/-- The worker goes on to `pc`. -/
def goes (s : PhyThreads n) (id : Fin n) (pc : WorkerPc) : PhyThreads n :=
  { s with worker := Function.update s.worker id pc }

def waitToStart (s : PhyThreads n) (id : Fin n) : Option (PhyThreads n) :=
  match s.status id with
  | .startWork => some { s.goes id .stopTest with status := Function.update s.status id .working }
  | .stop => some (s.goes id .stopTest)
  | _ => none

/-- `tti_semaphore::wait` returns for the front of the queue, or when the queue is empty. -/
def semaphoreWait (s : PhyThreads n) (id : Fin n) : Option (PhyThreads n) :=
  if s.semaphore = [] ∨ s.semaphore.head? = some id then some (s.goes id .radioTx) else none

def finished (s : PhyThreads n) (id : Fin n) : PhyThreads n :=
  { s.goes id .loopTest with
    status := if s.status id = .stop then s.status else Function.update s.status id .idle }

def stepWorker (s : PhyThreads n) (id : Fin n) : Option (PhyThreads n) :=
  match s.worker id with
  | .loopTest => some (s.goes id (if s.status id = .stop then .ended else .waitToStart))
  | .waitToStart => s.waitToStart id
  | .stopTest => some (s.goes id (if s.status id = .stop then .loopTest else .workImp))
  | .workImp => some (s.goes id .semaphoreWait)
  | .semaphoreWait => s.semaphoreWait id
  | .radioTx => some { s.goes id .ttiClock with air := s.air ++ [.tx (s.time id)] }
  | .ttiClock => some { s.goes id .release with air := s.air ++ [.ttiClock] }
  | .release => some { s.goes id .finished with semaphore := s.semaphore.tail }
  | .finished => some (s.finished id)
  | .ended => none

def stepStop (s : PhyThreads n) : Option (PhyThreads n) :=
  match s.stopper with
  | .notCalled => some { s with stopper := .txrxStop }
  | .txrxStop =>
      if s.txrxRunning then some { s with txrxRunning := false, stopper := .joinTxrx }
      else some { s with stopper := .waitAll }
  | .joinTxrx => if s.txrx = .ended then some { s with stopper := .waitAll } else none
  | .waitAll => if s.semaphore = [] then some { s with stopper := .poolStop } else none
  | .poolStop =>
      some { s with poolRunning := false, status := fun _ => .stop, stopper := .joinWorkers }
  | .joinWorkers =>
      if ∀ id, s.worker id = .ended then some { s with stopper := .nprachStop } else none
  | .nprachStop => none

/-- Whose turn it is. -/
inductive Thread (n : Nat) where
  | txrx
  | worker (id : Fin n)
  | stop
  deriving Repr, DecidableEq

def step (s : PhyThreads n) : Thread n → Option (PhyThreads n)
  | .txrx => s.stepTxrx
  | .worker id => s.stepWorker id
  | .stop => s.stepStop

abbrev run (s : PhyThreads n) (schedule : List (Thread n)) : Option (PhyThreads n) :=
  Interleaved.run step s schedule

/-! ## What a step does -/

/-- The steps, one for each place a thread can stand at. -/
inductive Moves (s : PhyThreads n) : PhyThreads n → Prop where
  | txrxLoop (here : s.txrx = .loopTest) :
      Moves s { s with txrx := if s.txrxRunning then .waitWorker else .ended }
  | workerFound {id : Fin n} (here : s.txrx = .waitWorker) (running : s.poolRunning = true)
      (idle : s.status id = .idle) :
      Moves s { s with status := Function.update s.status id .workerReady, txrx := .setTime id }
  | poolClosed (here : s.txrx = .waitWorker) (closed : s.poolRunning = false) :
      Moves s { s with txrxRunning := false, txrx := .loopTest }
  | timeSet {id : Fin n} (here : s.txrx = .setTime id) :
      Moves s { s with
        counters := (s.counters.turn n).1
        time := Function.update s.time id (s.counters.turn n).2
        txrx := .push id }
  | pushed {id : Fin n} (here : s.txrx = .push id) :
      Moves s { s with
        semaphore := s.semaphore ++ [id]
        turns := s.turns ++ [s.time id]
        txrx := .startWorker id }
  | workerStarted {id : Fin n} (here : s.txrx = .startWorker id) :
      Moves s { s with
        status := if s.status id = .stop then s.status else Function.update s.status id .startWork
        txrx := .loopTest }
  | workerLoop {id : Fin n} (here : s.worker id = .loopTest) :
      Moves s (s.goes id (if s.status id = .stop then .ended else .waitToStart))
  | workStarted {id : Fin n} (here : s.worker id = .waitToStart) (told : s.status id = .startWork) :
      Moves s { s.goes id .stopTest with status := Function.update s.status id .working }
  | workStopped {id : Fin n} (here : s.worker id = .waitToStart) (told : s.status id = .stop) :
      Moves s (s.goes id .stopTest)
  | stopTested {id : Fin n} (here : s.worker id = .stopTest) :
      Moves s (s.goes id (if s.status id = .stop then .loopTest else .workImp))
  | worked {id : Fin n} (here : s.worker id = .workImp) : Moves s (s.goes id .semaphoreWait)
  | semaphorePassed {id : Fin n} (here : s.worker id = .semaphoreWait)
      (turn : s.semaphore = [] ∨ s.semaphore.head? = some id) : Moves s (s.goes id .radioTx)
  | sent {id : Fin n} (here : s.worker id = .radioTx) :
      Moves s { s.goes id .ttiClock with air := s.air ++ [.tx (s.time id)] }
  | clocked {id : Fin n} (here : s.worker id = .ttiClock) :
      Moves s { s.goes id .release with air := s.air ++ [.ttiClock] }
  | released {id : Fin n} (here : s.worker id = .release) :
      Moves s { s.goes id .finished with semaphore := s.semaphore.tail }
  | finished {id : Fin n} (here : s.worker id = .finished) : Moves s (s.finished id)
  | stopCalled (here : s.stopper = .notCalled) : Moves s { s with stopper := .txrxStop }
  | txrxStopped (here : s.stopper = .txrxStop) (running : s.txrxRunning = true) :
      Moves s { s with txrxRunning := false, stopper := .joinTxrx }
  | txrxWasStopped (here : s.stopper = .txrxStop) (stopped : s.txrxRunning = false) :
      Moves s { s with stopper := .waitAll }
  | txrxJoined (here : s.stopper = .joinTxrx) (ended : s.txrx = .ended) :
      Moves s { s with stopper := .waitAll }
  | allReleased (here : s.stopper = .waitAll) (empty : s.semaphore = []) :
      Moves s { s with stopper := .poolStop }
  | poolStopped (here : s.stopper = .poolStop) :
      Moves s { s with poolRunning := false, status := fun _ => .stop, stopper := .joinWorkers }
  | workersJoined (here : s.stopper = .joinWorkers) (ended : ∀ id, s.worker id = .ended) :
      Moves s { s with stopper := .nprachStop }

variable {s s' : PhyThreads n}

theorem findFinishedWorker_idle {id : Fin n} (found : s.findFinishedWorker = some id) :
    s.status id = .idle := by
  simpa using List.find?_some found

theorem moves_of_stepTxrx (stepped : s.stepTxrx = some s') : Moves s s' := by
  unfold stepTxrx at stepped
  cases here : s.txrx with
  | loopTest => rw [here] at stepped; cases stepped; exact .txrxLoop here
  | waitWorker =>
      rw [here] at stepped
      simp only [waitWorker] at stepped
      split at stepped
      · rename_i running
        split at stepped
        · cases stepped
        · rename_i id found
          cases stepped
          exact .workerFound here running (findFinishedWorker_idle found)
      · rename_i closed
        cases stepped
        exact .poolClosed here (by simpa using closed)
  | setTime id => rw [here] at stepped; cases stepped; exact .timeSet here
  | push id => rw [here] at stepped; cases stepped; exact .pushed here
  | startWorker id => rw [here] at stepped; cases stepped; exact .workerStarted here
  | ended => rw [here] at stepped; cases stepped

theorem moves_of_stepWorker {id : Fin n} (stepped : s.stepWorker id = some s') : Moves s s' := by
  unfold stepWorker at stepped
  cases here : s.worker id with
  | loopTest => rw [here] at stepped; cases stepped; exact .workerLoop here
  | waitToStart =>
      rw [here] at stepped
      simp only [waitToStart] at stepped
      split at stepped
      · rename_i told; cases stepped; exact .workStarted here told
      · rename_i told; cases stepped; exact .workStopped here told
      · cases stepped
  | stopTest => rw [here] at stepped; cases stepped; exact .stopTested here
  | workImp => rw [here] at stepped; cases stepped; exact .worked here
  | semaphoreWait =>
      rw [here] at stepped
      simp only [semaphoreWait] at stepped
      split at stepped
      · rename_i turn; cases stepped; exact .semaphorePassed here turn
      · cases stepped
  | radioTx => rw [here] at stepped; cases stepped; exact .sent here
  | ttiClock => rw [here] at stepped; cases stepped; exact .clocked here
  | release => rw [here] at stepped; cases stepped; exact .released here
  | finished => rw [here] at stepped; cases stepped; exact .finished here
  | ended => rw [here] at stepped; cases stepped

theorem moves_of_stepStop (stepped : s.stepStop = some s') : Moves s s' := by
  unfold stepStop at stepped
  cases here : s.stopper with
  | notCalled => rw [here] at stepped; cases stepped; exact .stopCalled here
  | txrxStop =>
      rw [here] at stepped
      simp only at stepped
      split at stepped
      · rename_i running; cases stepped; exact .txrxStopped here running
      · rename_i stopped; cases stepped; exact .txrxWasStopped here (by simpa using stopped)
  | joinTxrx =>
      rw [here] at stepped
      simp only at stepped
      split at stepped
      · rename_i ended; cases stepped; exact .txrxJoined here ended
      · cases stepped
  | waitAll =>
      rw [here] at stepped
      simp only at stepped
      split at stepped
      · rename_i empty; cases stepped; exact .allReleased here empty
      · cases stepped
  | poolStop => rw [here] at stepped; cases stepped; exact .poolStopped here
  | joinWorkers =>
      rw [here] at stepped
      simp only at stepped
      split at stepped
      · rename_i ended; cases stepped; exact .workersJoined here ended
      · cases stepped
  | nprachStop => rw [here] at stepped; cases stepped

theorem moves_of_step {thread : Thread n} (stepped : s.step thread = some s') : Moves s s' := by
  cases thread with
  | txrx => exact moves_of_stepTxrx stepped
  | worker id => exact moves_of_stepWorker stepped
  | stop => exact moves_of_stepStop stepped

/-! ## Shutting down -/

/-- What each phase of `phy::stop` can rely on. -/
structure Stopping (s : PhyThreads n) : Prop where
  running : s.txrxRunning = true ↔ 5 ≤ s.stopper.left
  pool : s.poolRunning = true ↔ 2 ≤ s.stopper.left
  status : ∀ id, s.status id = .stop ↔ s.poolRunning = false
  left : s.txrx = .ended → s.txrxRunning = false
  joined : s.stopper.left ≤ 3 → s.txrx = .ended
  empty : s.stopper.left ≤ 2 → s.semaphore = []
  threads : s.stopper.left = 0 → ∀ id, s.worker id = .ended

theorem start_stopping : (start n).Stopping := by
  constructor <;> simp [start, StopPc.left]

/-- A step that leaves `phy::stop` alone. -/
theorem Stopping.of_same (stopping : s.Stopping) (stopper : s'.stopper = s.stopper)
    (running : s'.txrxRunning = s.txrxRunning) (pool : s'.poolRunning = s.poolRunning)
    (status : ∀ id, s'.status id = .stop ↔ s.status id = .stop)
    (txrx : s.txrx = .ended → s'.txrx = .ended) (left : s'.txrx = .ended → s.txrxRunning = false)
    (empty : s.txrx = .ended → s.semaphore = [] → s'.semaphore = [])
    (worker : ∀ id, s.worker id = .ended → s'.worker id = .ended) : s'.Stopping where
  running := by rw [running, stopper]; exact stopping.running
  pool := by rw [pool, stopper]; exact stopping.pool
  status := fun id => by rw [status id, pool]; exact stopping.status id
  left := fun ended => by rw [running]; exact left ended
  joined := by rw [stopper]; exact fun phase => txrx (stopping.joined phase)
  empty := by
    rw [stopper]
    exact fun phase => empty (stopping.joined (by omega)) (stopping.empty phase)
  threads := by rw [stopper]; exact fun phase id => worker id (stopping.threads phase id)

theorem goes_ended {id j : Fin n} {pc : WorkerPc} (going : s.worker id ≠ .ended)
    (ended : s.worker j = .ended) : (s.goes id pc).worker j = .ended := by
  have other : j ≠ id := fun same => going (same ▸ ended)
  exact (Function.update_of_ne other pc s.worker).trans ended

theorem update_stop_iff {id : Fin n} {told : WorkerStatus} (was : s.status id ≠ .stop)
    (not : told ≠ .stop) (j : Fin n) :
    Function.update s.status id told j = .stop ↔ s.status j = .stop := by
  by_cases same : j = id
  · subst same
    simp [was, not]
  · rw [Function.update_of_ne same]

theorem Stopping.goes (stopping : s.Stopping) {id : Fin n} {pc : WorkerPc}
    (going : s.worker id ≠ .ended) : (s.goes id pc).Stopping :=
  stopping.of_same rfl rfl rfl (fun _ => Iff.rfl) (fun h => h) stopping.left (fun _ h => h)
    (fun _ => goes_ended going)

/-- While the pool is being closed, `txrx` is no longer running. -/
theorem Stopping.closed (stopping : s.Stopping) (closed : s.poolRunning = false) : s.txrx = .ended := by
  have late : ¬2 ≤ s.stopper.left := fun early => by
    rw [stopping.pool.mpr early] at closed
    cases closed
  exact stopping.joined (by omega)

theorem Stopping.moves (stopping : s.Stopping) (moves : Moves s s') : s'.Stopping := by
  cases moves with
  | txrxLoop here =>
      refine stopping.of_same rfl rfl rfl (fun _ => Iff.rfl) ?_ ?_ (fun _ h => h) (fun _ h => h)
      · simp [here]
      · cases on : s.txrxRunning with
        | false => simp
        | true => simp
  | workerFound here on idle =>
      refine stopping.of_same rfl rfl rfl (update_stop_iff (by simp [idle]) (by simp)) ?_ ?_ (fun _ h => h)
        (fun _ h => h)
      · simp [here]
      · simp
  | poolClosed here closed =>
      have joined := stopping.closed closed
      rw [here] at joined
      cases joined
  | timeSet here =>
      refine stopping.of_same rfl rfl rfl (fun _ => Iff.rfl) ?_ ?_ (fun _ h => h) (fun _ h => h)
      · simp [here]
      · simp
  | pushed here =>
      refine stopping.of_same rfl rfl rfl (fun _ => Iff.rfl) ?_ ?_ ?_ (fun _ h => h)
      · simp [here]
      · simp
      · simp [here]
  | @workerStarted id here =>
      refine stopping.of_same rfl rfl rfl ?_ ?_ ?_ (fun _ h => h) (fun _ h => h)
      · intro j
        simp only
        split
        · exact Iff.rfl
        · rename_i was
          exact update_stop_iff was (by simp) j
      · simp [here]
      · simp
  | workerLoop here => exact stopping.goes (by simp [here])
  | workStarted here told =>
      exact stopping.of_same rfl rfl rfl (update_stop_iff (by simp [told]) (by simp)) (fun h => h) stopping.left
        (fun _ h => h) (fun _ => goes_ended (by simp [here]))
  | workStopped here told => exact stopping.goes (by simp [here])
  | stopTested here => exact stopping.goes (by simp [here])
  | worked here => exact stopping.goes (by simp [here])
  | semaphorePassed here turn => exact stopping.goes (by simp [here])
  | sent here =>
      exact stopping.of_same rfl rfl rfl (fun _ => Iff.rfl) (fun h => h) stopping.left (fun _ h => h)
        (fun _ => goes_ended (by simp [here]))
  | clocked here =>
      exact stopping.of_same rfl rfl rfl (fun _ => Iff.rfl) (fun h => h) stopping.left (fun _ h => h)
        (fun _ => goes_ended (by simp [here]))
  | released here =>
      exact stopping.of_same rfl rfl rfl (fun _ => Iff.rfl) (fun h => h) stopping.left
        (fun _ empty => by simp [empty]) (fun _ => goes_ended (by simp [here]))
  | @finished id here =>
      refine stopping.of_same rfl rfl rfl ?_ (fun h => h) stopping.left (fun _ h => h)
        (fun _ => goes_ended (by simp [here]))
      intro j
      simp only [PhyThreads.finished]
      split
      · exact Iff.rfl
      · rename_i was
        exact update_stop_iff was (by simp) j
  | stopCalled here | txrxStopped here | txrxWasStopped here | txrxJoined here | allReleased here
    | poolStopped here | workersJoined here =>
      obtain ⟨running, pool, status, left, joined, empty, threads⟩ := stopping
      rw [here] at running pool joined empty threads
      constructor <;> simp_all [StopPc.left]

/-! ## The times of the turns -/

/-- The time of the worker that sends subframe `k`, counted from 0. -/
def OfTurn (k : Nat) (time : WorkerTime) : Prop :=
  time.ttiTxDl = k % 10240 ∧ time.hfn = k / 10240 % 1024

/-- The turns so far, and the one whose time is set while its worker is not pushed yet. -/
structure Counting (s : PhyThreads n) : Prop where
  turns : ∀ k time, s.turns[k]? = some time → OfTurn k time
  pushing : ∀ id, s.txrx = .push id →
    OfTurn s.turns.length (s.time id) ∧ Txrx.After (s.turns.length + 1) s.counters
  counters : (∀ id, s.txrx ≠ .push id) → Txrx.After s.turns.length s.counters

theorem start_counting : (start n).Counting where
  turns := by simp [start]
  pushing := by simp [start]
  counters := fun _ => Txrx.start_after

/-- Only `set_time` and the push count. -/
theorem Counting.of_same (counting : s.Counting) (turns : s'.turns = s.turns)
    (counters : s'.counters = s.counters) (before : ∀ id, s.txrx ≠ .push id)
    (after : ∀ id, s'.txrx ≠ .push id) : s'.Counting where
  turns := by rw [turns]; exact counting.turns
  pushing := fun id here => absurd here (after id)
  counters := fun _ => by rw [turns, counters]; exact counting.counters before

theorem Counting.of_other (counting : s.Counting) (turns : s'.turns = s.turns)
    (counters : s'.counters = s.counters) (txrx : s'.txrx = s.txrx) (time : s'.time = s.time) :
    s'.Counting where
  turns := by rw [turns]; exact counting.turns
  pushing := by rw [txrx, turns, time, counters]; exact counting.pushing
  counters := by rw [txrx, turns, counters]; exact counting.counters

theorem Counting.moves (counting : s.Counting) (moves : Moves s s') : s'.Counting := by
  cases moves with
  | txrxLoop here =>
      refine counting.of_same rfl rfl (by simp [here]) ?_
      intro id
      simp only
      split <;> simp
  | workerFound here => exact counting.of_same rfl rfl (by simp [here]) (by simp)
  | poolClosed here => exact counting.of_same rfl rfl (by simp [here]) (by simp)
  | @timeSet id here =>
      have after := counting.counters (by simp [here])
      refine ⟨counting.turns, ?_, ?_⟩
      · intro j pushing
        cases pushing
        simp only [Function.update_self]
        exact ⟨after.time n, after.turn n⟩
      · intro other
        exact absurd rfl (other id)
  | @pushed id here =>
      obtain ⟨ofTurn, after⟩ := counting.pushing id here
      refine ⟨?_, by simp, ?_⟩
      · intro k time found
        rcases Nat.lt_trichotomy k s.turns.length with old | new | beyond
        · rw [List.getElem?_append_left old] at found
          exact counting.turns k time found
        · subst new
          rw [List.getElem?_concat_length] at found
          cases found
          exact ofTurn
        · rw [List.getElem?_eq_none (by rw [List.length_append]; exact beyond)] at found
          cases found
      · intro _
        simpa using after
  | workerStarted here => exact counting.of_same rfl rfl (by simp [here]) (by simp)
  | workerLoop | workStarted | workStopped | stopTested | worked | semaphorePassed | sent | clocked
    | released | finished | stopCalled | txrxStopped | txrxWasStopped | txrxJoined | allReleased
    | poolStopped | workersJoined => exact counting.of_other rfl rfl rfl rfl

end PhyThreads

end SonicaEnb
