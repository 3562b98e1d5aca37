import SonicaEnb.Phy.NprachOccasion
import SonicaEnb.Phy.Shutdown

/-! # The end of the PHY

The last call of `phy::stop` is `nprach_worker::stop`. It clears the flag of the thread
of that worker, frees the detector, wakes the thread with a null pointer and joins it.
The thread tests the flag when it has a buffer, in front of the detection, and nothing
keeps the detector from being freed while a detection is under way.
-/

namespace SonicaEnb

/-- Where `nprach_worker::run_thread` is. At `popTest` it has a buffer, or the null pointer. -/
inductive NprachPc where
  | entry | loopTest | waitPop
  | popTest (null : Bool)
  | runTti | deallocate | ended
  deriving Repr, DecidableEq

/-- What `nprach_worker::stop` does next. -/
inductive NprachStopPc where
  | setFlag | free | push | join | returned
  deriving Repr, DecidableEq

/-- Where the thread is among the steps of `NprachWorker`. -/
def NprachPc.At (running : Bool) (thread : NprachThread) : NprachPc → Prop
  | .entry | .waitPop | .popTest true => thread = .waitPop
  | .loopTest => running = true → thread = .waitPop
  | .popTest false | .runTti => ∃ b, thread = .runTti b
  | .deallocate => ∃ b, thread = .deallocate b
  | .ended => True

theorem NprachPc.At.cleared {running : Bool} {thread : NprachThread} {pc : NprachPc}
    (place : pc.At running thread) : pc.At false thread := by
  cases pc with
  | loopTest => exact nofun
  | popTest null => cases null <;> exact place
  | entry | waitPop | runTti | deallocate | ended => exact place

/-- The steps the thread can still take until it waits for a buffer. -/
def NprachPc.rank : NprachPc → Nat
  | .entry => 2
  | .loopTest => 1
  | .waitPop => 0
  | .popTest null => if null then 2 else 4
  | .runTti => 3
  | .deallocate => 2
  | .ended => 0

/-- How many steps `nprach_worker::stop` has left, with those of the thread that its null pointer causes. -/
def NprachStopPc.left : NprachStopPc → Nat
  | .setFlag => 7
  | .free => 6
  | .push => 5
  | .join => 1
  | .returned => 0

/-- All threads of the PHY: those of `PhyThreads`, with a call of `new_tti` at the end of each turn of
    `txrx`, and the one of `nprach_worker`. The null pointer stands behind all buffers in the queue: when it
    is pushed, `txrx` has ended. -/
structure WholePhy (n : Nat) (α β : Type) where
  threads : PhyThreads n
  newTtiNext : Bool
  nprach : NprachWorker α β
  nprachPc : NprachPc
  nprachRunning : Bool
  freed : Bool
  null : Bool
  nprachStop : NprachStopPc

/-- The worker was given its turn, and `txrx` starts it. -/
def PhyThreads.startsWorker {n : Nat} (s : PhyThreads n) : Bool :=
  match s.txrx with
  | .startWorker _ => true
  | _ => false

/-! ## The parts -/

namespace PhyThreads

variable {n : Nat} {s t : PhyThreads n}

theorem stepTxrx_started (stepped : s.stepTxrx = some t) (starts : s.startsWorker = true) :
    t.txrx = .loopTest := by
  unfold startsWorker at starts
  split at starts
  · rename_i id here
    simp only [stepTxrx, here] at stepped
    cases stepped
    rfl
  · cases starts

theorem stepTxrx_starts (stepped : s.stepTxrx = some t) (starts : t.startsWorker = true) :
    ∃ id, s.txrx = .push id := by
  unfold stepTxrx at stepped
  cases here : s.txrx with
  | push id => exact ⟨id, rfl⟩
  | loopTest =>
      rw [here] at stepped
      cases stepped
      cases on : s.txrxRunning <;> simp [startsWorker, on] at starts
  | waitWorker =>
      simp only [here, waitWorker] at stepped
      split at stepped
      · split at stepped <;> cases stepped
        cases starts
      · cases stepped
        cases starts
  | setTime id | startWorker id => rw [here] at stepped; cases stepped; cases starts
  | ended => rw [here] at stepped; cases stepped

theorem stepWorker_txrx {id : Fin n} (stepped : s.stepWorker id = some t) : t.txrx = s.txrx := by
  unfold stepWorker at stepped
  cases here : s.worker id with
  | waitToStart =>
      simp only [here, waitToStart] at stepped
      split at stepped <;> cases stepped <;> rfl
  | semaphoreWait =>
      simp only [here, semaphoreWait] at stepped
      split at stepped <;> cases stepped
      rfl
  | ended => rw [here] at stepped; cases stepped
  | loopTest | stopTest | workImp | radioTx | ttiClock | release | finished =>
      rw [here] at stepped
      cases stepped
      rfl

theorem stepStop_txrx (stepped : s.stepStop = some t) : t.txrx = s.txrx := by
  unfold stepStop at stepped
  cases here : s.stopper with
  | notCalled | poolStop => rw [here] at stepped; cases stepped; rfl
  | txrxStop | joinTxrx | waitAll | joinWorkers =>
      simp only [here] at stepped
      split at stepped <;> cases stepped <;> rfl
  | nprachStop => rw [here] at stepped; cases stepped

end PhyThreads

namespace NprachWorker

variable {α β : Type} {w w' : NprachWorker α β}

theorem fill_queue (ttiRx : Nat) (sf : RxSubframe α) :
    (w.fill ttiRx sf).2.thread = w.thread ∧ (w.fill ttiRx sf).2.pending.length ≤ w.pending.length + 1 := by
  unfold fill
  split
  · exact ⟨rfl, Nat.le_succ _⟩
  · split
    · dsimp only
      split
      · exact ⟨rfl, (List.length_append ..).le⟩
      · exact ⟨rfl, Nat.le_succ _⟩
    · exact ⟨rfl, Nat.le_succ _⟩

/-- `new_tti` pushes one buffer at most and leaves the thread where it is. -/
theorem newTti_queue (ttiRx : Nat) (sf : RxSubframe α) :
    (w.newTti ttiRx sf).2.thread = w.thread ∧ (w.newTti ttiRx sf).2.pending.length ≤ w.pending.length + 1 := by
  unfold newTti
  split
  · split
    · split
      · exact ⟨rfl, Nat.le_succ _⟩
      · exact fill_queue ttiRx sf
    · exact fill_queue ttiRx sf
  · exact ⟨rfl, Nat.le_succ _⟩

theorem Sound.pending_le {done starts : List Nat} (sound : w.Sound done starts) : w.pending.length ≤ 8 := by
  have held := sound.accounts.perm.length_eq
  have ready : w.pending.length ≤ w.ready.length := by
    unfold NprachWorker.ready
    split
    · exact Nat.le_succ _
    · exact Nat.le_refl _
  have all : buffers.length = 8 := rfl
  simp only [List.length_append] at held
  omega

variable [Zero β] {shift : List α → List α} {dft : List α → Nat → β} {strong : β → Bool}
  {emulateNprach : Bool}

/-- The three steps of the thread. -/
theorem step_worker (stepped : w.step shift dft strong emulateNprach .worker = some w') :
    (w.thread = .waitPop ∧ (∃ b, w'.thread = .runTti b) ∧ w'.pending.length + 1 = w.pending.length) ∨
      ((∃ b, w.thread = .runTti b) ∧ (∃ b, w'.thread = .deallocate b) ∧ w'.pending = w.pending) ∨
      ((∃ b, w.thread = .deallocate b) ∧ w'.thread = .waitPop ∧ w'.pending = w.pending) := by
  simp only [NprachWorker.step] at stepped
  cases thread : w.thread with
  | waitPop =>
      simp only [thread] at stepped
      split at stepped
      · cases stepped
      · rename_i b rest pending
        cases stepped
        exact .inl ⟨rfl, ⟨b, rfl⟩, by rw [pending]; rfl⟩
  | runTti b =>
      simp only [thread] at stepped
      cases stepped
      exact .inr (.inl ⟨⟨b, rfl⟩, ⟨b, rfl⟩, rfl⟩)
  | deallocate b =>
      simp only [thread] at stepped
      cases stepped
      exact .inr (.inr ⟨⟨b, rfl⟩, rfl, rfl⟩)

theorem worker_steps (ready : w.thread = .waitPop → w.pending ≠ []) :
    ∃ w', w.step shift dft strong emulateNprach .worker = some w' := by
  simp only [NprachWorker.step]
  cases thread : w.thread with
  | waitPop =>
      dsimp only
      split
      · rename_i empty
        exact absurd empty (ready thread)
      · exact ⟨_, rfl⟩
  | runTti b | deallocate b => exact ⟨_, rfl⟩

end NprachWorker

namespace WholePhy

inductive Thread (n : Nat) where
  | phy (thread : PhyThreads.Thread n)
  | nprach
  deriving Repr, DecidableEq

variable {n : Nat} {α β : Type}

def start [Zero α] [Zero β] (n : Nat) (fftIn : List α) : WholePhy n α β :=
  { threads := PhyThreads.start n, newTtiNext := false, nprach := NprachWorker.start fftIn
    nprachPc := .entry, nprachRunning := false, freed := false, null := false, nprachStop := .setFlag }

section Threads

variable [Zero β] (shift : List α → List α) (dft : List α → Nat → β) (strong : β → Bool)
  (emulateNprach : Bool) (rx : Nat → RxSubframe α)

/-- `rx` is what the radio receives, subframe by subframe. -/
def stepTxrx (s : WholePhy n α β) : Option (WholePhy n α β) :=
  if s.newTtiNext then
    (s.nprach.step shift dft strong emulateNprach (.newTti (rx s.nprach.air.length))).map fun w =>
      { s with nprach := w, newTtiNext := false }
  else s.threads.stepTxrx.map fun t => { s with threads := t, newTtiNext := s.threads.startsWorker }

/-- A step of the worker itself, after which its thread is at `pc`. -/
def work (s : WholePhy n α β) (pc : NprachPc) : Option (WholePhy n α β) :=
  (s.nprach.step shift dft strong emulateNprach .worker).map fun w => { s with nprach := w, nprachPc := pc }

def stepNprach (s : WholePhy n α β) : Option (WholePhy n α β) :=
  match s.nprachPc with
  | .entry => some { s with nprachRunning := true, nprachPc := .loopTest }
  | .loopTest => some { s with nprachPc := if s.nprachRunning then .waitPop else .ended }
  | .waitPop =>
      if s.nprach.pending = [] then
        if s.null then some { s with null := false, nprachPc := .popTest true } else none
      else s.work shift dft strong emulateNprach (.popTest false)
  | .popTest null =>
      some (if s.nprachRunning && !null then { s with nprachPc := .runTti }
        else { s with nprachRunning := false, nprachPc := .loopTest })
  -- What a detection does with a detector that was freed is undefined.
  | .runTti => if s.freed then none else s.work shift dft strong emulateNprach .deallocate
  | .deallocate => s.work shift dft strong emulateNprach .loopTest
  | .ended => none

/-- `phy::stop`, with `nprach_worker::stop` at its end. -/
def stepStop (s : WholePhy n α β) : Option (WholePhy n α β) :=
  if s.threads.stopper = .nprachStop then
    match s.nprachStop with
    | .setFlag => some { s with nprachRunning := false, nprachStop := .free }
    | .free => some { s with freed := true, nprachStop := .push }
    | .push => some { s with null := true, nprachStop := .join }
    | .join => if s.nprachPc = .ended then some { s with nprachStop := .returned } else none
    | .returned => none
  else s.threads.stepStop.map fun t => { s with threads := t }

def step (s : WholePhy n α β) : Thread n → Option (WholePhy n α β)
  | .phy .txrx => s.stepTxrx shift dft strong emulateNprach rx
  | .phy (.worker id) => (s.threads.stepWorker id).map fun t => { s with threads := t }
  | .phy .stop => s.stepStop
  | .nprach => s.stepNprach shift dft strong emulateNprach

abbrev run (s : WholePhy n α β) (schedule : List (Thread n)) : Option (WholePhy n α β) :=
  Interleaved.run (step shift dft strong emulateNprach rx) s schedule

end Threads

/-! ## What a step does -/

section Moves

variable [Zero β] (shift : List α → List α) (dft : List α → Nat → β) (strong : β → Bool)
  (emulateNprach : Bool) (rx : Nat → RxSubframe α)

/-- The steps, one for each place a thread can stand at. -/
inductive Moves (s : WholePhy n α β) : WholePhy n α β → Prop where
  | newTti {w : NprachWorker α β} (here : s.newTtiNext = true)
      (worked : s.nprach.step shift dft strong emulateNprach (.newTti (rx s.nprach.air.length)) = some w) :
      Moves s { s with nprach := w, newTtiNext := false }
  | txrx {t : PhyThreads n} (here : s.newTtiNext = false) (stepped : s.threads.stepTxrx = some t) :
      Moves s { s with threads := t, newTtiNext := s.threads.startsWorker }
  | worker {id : Fin n} {t : PhyThreads n} (stepped : s.threads.stepWorker id = some t) :
      Moves s { s with threads := t }
  | stop {t : PhyThreads n} (stepped : s.threads.stepStop = some t) : Moves s { s with threads := t }
  | entered (here : s.nprachPc = .entry) : Moves s { s with nprachRunning := true, nprachPc := .loopTest }
  | looped (here : s.nprachPc = .loopTest) :
      Moves s { s with nprachPc := if s.nprachRunning then .waitPop else .ended }
  | nullPopped (here : s.nprachPc = .waitPop) (null : s.null = true) :
      Moves s { s with null := false, nprachPc := .popTest true }
  | popped {w : NprachWorker α β} (here : s.nprachPc = .waitPop)
      (worked : s.nprach.step shift dft strong emulateNprach .worker = some w) :
      Moves s { s with nprach := w, nprachPc := .popTest false }
  | goesOn (here : s.nprachPc = .popTest false) (running : s.nprachRunning = true) :
      Moves s { s with nprachPc := .runTti }
  | leaves {null : Bool} (here : s.nprachPc = .popTest null) :
      Moves s { s with nprachRunning := false, nprachPc := .loopTest }
  | detected {w : NprachWorker α β} (here : s.nprachPc = .runTti)
      (worked : s.nprach.step shift dft strong emulateNprach .worker = some w) :
      Moves s { s with nprach := w, nprachPc := .deallocate }
  | gaveBack {w : NprachWorker α β} (here : s.nprachPc = .deallocate)
      (worked : s.nprach.step shift dft strong emulateNprach .worker = some w) :
      Moves s { s with nprach := w, nprachPc := .loopTest }
  | flagCleared (here : s.nprachStop = .setFlag) : Moves s { s with nprachRunning := false, nprachStop := .free }
  | detectorFreed (here : s.nprachStop = .free) : Moves s { s with freed := true, nprachStop := .push }
  | nullPushed (here : s.nprachStop = .push) : Moves s { s with null := true, nprachStop := .join }
  | nprachJoined (here : s.nprachStop = .join) (ended : s.nprachPc = .ended) :
      Moves s { s with nprachStop := .returned }

variable {s s' : WholePhy n α β}

theorem moves_of_stepTxrx (stepped : s.stepTxrx shift dft strong emulateNprach rx = some s') :
    Moves shift dft strong emulateNprach rx s s' := by
  unfold stepTxrx at stepped
  split at stepped
  · rename_i here
    obtain ⟨w, worked, rfl⟩ := Option.map_eq_some_iff.mp stepped
    exact .newTti here worked
  · rename_i here
    obtain ⟨t, went, rfl⟩ := Option.map_eq_some_iff.mp stepped
    exact .txrx (by simpa using here) went

theorem moves_of_stepNprach (stepped : s.stepNprach shift dft strong emulateNprach = some s') :
    Moves shift dft strong emulateNprach rx s s' := by
  unfold stepNprach at stepped
  cases here : s.nprachPc with
  | entry => rw [here] at stepped; cases stepped; exact .entered here
  | loopTest => rw [here] at stepped; cases stepped; exact .looped here
  | waitPop =>
      simp only [here] at stepped
      split at stepped
      · split at stepped
        · rename_i null
          cases stepped
          exact .nullPopped here null
        · cases stepped
      · obtain ⟨w, worked, rfl⟩ := Option.map_eq_some_iff.mp stepped
        exact .popped here worked
  | popTest null =>
      simp only [here, Option.some.injEq] at stepped
      subst stepped
      split
      · rename_i both
        simp only [Bool.and_eq_true, Bool.not_eq_true'] at both
        obtain ⟨running, rfl⟩ := both
        exact .goesOn here running
      · exact .leaves here
  | runTti =>
      simp only [here] at stepped
      split at stepped
      · cases stepped
      · obtain ⟨w, worked, rfl⟩ := Option.map_eq_some_iff.mp stepped
        exact .detected here worked
  | deallocate =>
      rw [here] at stepped
      obtain ⟨w, worked, rfl⟩ := Option.map_eq_some_iff.mp stepped
      exact .gaveBack here worked
  | ended => rw [here] at stepped; cases stepped

theorem moves_of_stepStop (stepped : s.stepStop = some s') : Moves shift dft strong emulateNprach rx s s' := by
  unfold stepStop at stepped
  split at stepped
  · cases here : s.nprachStop with
    | setFlag => rw [here] at stepped; cases stepped; exact .flagCleared here
    | free => rw [here] at stepped; cases stepped; exact .detectorFreed here
    | push => rw [here] at stepped; cases stepped; exact .nullPushed here
    | join =>
        simp only [here] at stepped
        split at stepped
        · rename_i ended; cases stepped; exact .nprachJoined here ended
        · cases stepped
    | returned => rw [here] at stepped; cases stepped
  · obtain ⟨t, went, rfl⟩ := Option.map_eq_some_iff.mp stepped
    exact .stop went

theorem moves_of_step {thread : Thread n} (stepped : s.step shift dft strong emulateNprach rx thread = some s') :
    Moves shift dft strong emulateNprach rx s s' := by
  cases thread with
  | nprach => exact moves_of_stepNprach shift dft strong emulateNprach rx stepped
  | phy thread =>
      cases thread with
      | txrx => exact moves_of_stepTxrx shift dft strong emulateNprach rx stepped
      | worker id =>
          obtain ⟨t, went, rfl⟩ := Option.map_eq_some_iff.mp stepped
          exact .worker went
      | stop => exact moves_of_stepStop shift dft strong emulateNprach rx stepped

end Moves

/-! ## What every order of the steps keeps -/

section Sound

variable [Zero β] (shift : List α → List α) (dft : List α → Nat → β) (strong : β → Bool)
  (emulateNprach : Bool) (rx : Nat → RxSubframe α)

structure Sound (s : WholePhy n α β) : Prop where
  threads : s.threads.Sound
  nprach : NprachWorker.Works shift dft strong emulateNprach s.nprach
  next : s.newTtiNext = true → s.threads.txrx = .loopTest
  place : s.nprachPc.At s.nprachRunning s.nprach.thread
  woken : s.nprachStop = .join ∨ s.nprachStop = .returned →
    s.null = true ∨ s.nprachPc = .popTest true ∨ (s.nprachPc = .loopTest ∧ s.nprachRunning = false) ∨
      s.nprachPc = .ended

variable {s s' : WholePhy n α β}

theorem start_sound [Zero α] (fftIn : List α) :
    (start n fftIn : WholePhy n α β).Sound shift dft strong emulateNprach := by
  have nothing : (NprachWorker.start fftIn : NprachWorker α β).run shift dft strong emulateNprach [] =
      some (.start fftIn) := rfl
  exact {
    threads := PhyThreads.start_sound
    nprach := NprachWorker.works_of_run shift dft strong emulateNprach nothing
    next := nofun
    place := rfl
    woken := by simp [start] }

variable {shift dft strong emulateNprach rx}

/-- Before the thread has taken the null pointer, it is in the queue. -/
theorem Sound.unwoken (sound : s.Sound shift dft strong emulateNprach)
    (late : s.nprachStop = .join ∨ s.nprachStop = .returned) (notPopped : s.nprachPc ≠ .popTest true)
    (notLooping : s.nprachPc ≠ .loopTest) (notEnded : s.nprachPc ≠ .ended) : s.null = true := by
  rcases sound.woken late with null | popped | ⟨looping, -⟩ | ended
  · exact null
  · exact absurd popped notPopped
  · exact absurd looping notLooping
  · exact absurd ended notEnded

theorem Sound.moves (sound : s.Sound shift dft strong emulateNprach)
    (moves : Moves shift dft strong emulateNprach rx s s') : s'.Sound shift dft strong emulateNprach := by
  have works {action : NprachWorker.Action α} {w : NprachWorker α β}
      (worked : s.nprach.step shift dft strong emulateNprach action = some w) :
      NprachWorker.Works shift dft strong emulateNprach w :=
    NprachWorker.Works.step shift dft strong emulateNprach s.nprach action w sound.nprach worked
  have place := sound.place
  cases moves with
  | newTti here worked =>
      have later := works worked
      simp only [NprachWorker.step, Option.some.injEq] at worked
      subst worked
      refine { sound with nprach := later, next := fun next => ?_, place := ?_ }
      · cases next
      · dsimp only
        rw [(NprachWorker.newTti_queue _ _).1]
        exact place
  | txrx here stepped =>
      exact { sound with
        threads := sound.threads.step _ .txrx _ stepped
        next := PhyThreads.stepTxrx_started stepped }
  | @worker id t stepped =>
      exact { sound with
        threads := sound.threads.step _ (.worker id) _ stepped
        next := fun next => (PhyThreads.stepWorker_txrx stepped).trans (sound.next next) }
  | stop stepped =>
      exact { sound with
        threads := sound.threads.step _ .stop _ stepped
        next := fun next => (PhyThreads.stepStop_txrx stepped).trans (sound.next next) }
  | entered here =>
      rw [here] at place
      exact { sound with
        place := fun _ => place
        woken := fun late => .inl (sound.unwoken late (by simp [here]) (by simp [here]) (by simp [here])) }
  | looped here =>
      rw [here] at place
      refine { sound with place := ?_, woken := fun late => ?_ }
      · cases running : s.nprachRunning with
        | true => exact place running
        | false => trivial
      · rcases sound.woken late with null | other | ⟨-, stopped⟩ | other
        · exact .inl null
        · rw [here] at other
          cases other
        · exact .inr (.inr (.inr (by simp [stopped])))
        · rw [here] at other
          cases other
  | nullPopped here null =>
      rw [here] at place
      exact { sound with place := place, woken := fun _ => .inr (.inl rfl) }
  | popped here worked =>
      rw [here] at place
      refine { sound with nprach := works worked, place := ?_, woken := fun late => ?_ }
      · rcases NprachWorker.step_worker worked with ⟨-, runs, -⟩ | ⟨⟨b, other⟩, -⟩ | ⟨⟨b, other⟩, -⟩
        · exact runs
        all_goals
          rw [place] at other
          cases other
      · exact .inl (sound.unwoken late (by simp [here]) (by simp [here]) (by simp [here]))
  | goesOn here running =>
      rw [here] at place
      exact { sound with
        place := place
        woken := fun late => .inl (sound.unwoken late (by simp [here]) (by simp [here]) (by simp [here])) }
  | leaves here =>
      refine { sound with place := fun running => ?_, woken := fun _ => .inr (.inr (.inl ⟨rfl, rfl⟩)) }
      cases running
  | detected here worked =>
      rw [here] at place
      obtain ⟨b, runs⟩ := place
      refine { sound with nprach := works worked, place := ?_, woken := fun late => ?_ }
      · rcases NprachWorker.step_worker worked with ⟨other, -⟩ | ⟨-, used, -⟩ | ⟨⟨b, other⟩, -⟩
        · rw [runs] at other
          cases other
        · exact used
        · rw [runs] at other
          cases other
      · exact .inl (sound.unwoken late (by simp [here]) (by simp [here]) (by simp [here]))
  | gaveBack here worked =>
      rw [here] at place
      obtain ⟨b, used⟩ := place
      refine { sound with nprach := works worked, place := ?_, woken := fun late => ?_ }
      · rcases NprachWorker.step_worker worked with ⟨other, -⟩ | ⟨⟨b, other⟩, -⟩ | ⟨-, waits, -⟩
        · rw [used] at other
          cases other
        · rw [used] at other
          cases other
        · exact fun _ => waits
      · exact .inl (sound.unwoken late (by simp [here]) (by simp [here]) (by simp [here]))
  | flagCleared here =>
      exact { sound with place := place.cleared, woken := by simp }
  | detectorFreed here => exact { sound with woken := by simp }
  | nullPushed here => exact { sound with woken := fun _ => .inl rfl }
  | nprachJoined here ended => exact { sound with woken := fun _ => .inr (.inr (.inr ended)) }

theorem Sound.step (s : WholePhy n α β) (thread : Thread n) (s' : WholePhy n α β)
    (sound : s.Sound shift dft strong emulateNprach)
    (stepped : s.step shift dft strong emulateNprach rx thread = some s') :
    s'.Sound shift dft strong emulateNprach :=
  sound.moves (moves_of_step shift dft strong emulateNprach rx stepped)

/-! ## Progress -/

omit [Zero β] in
/-- The call of `new_tti` that is still to come in this turn, with the steps that its buffer causes. -/
def turnRank (s : WholePhy n α β) : Nat := if s.newTtiNext || s.threads.startsWorker then 6 else 0

omit [Zero β] in
def nprachRank (s : WholePhy n α β) : Nat :=
  s.nprachPc.rank + 5 * s.nprach.pending.length + (if s.null then 3 else 0) + s.nprachStop.left

omit [Zero β] in
def rank (s : WholePhy n α β) : Nat := s.threads.rank + s.turnRank + s.nprachRank

omit [Zero β] in
/-- A step that leaves the other threads alone. -/
theorem pays_of_lower (threads : s'.threads = s.threads) (next : s'.newTtiNext = s.newTtiNext)
    (lower : s'.nprachRank < s.nprachRank) :
    s'.rank + 1 + 20 * s.threads.turns.length ≤ s.rank + 20 * s'.threads.turns.length := by
  simp only [rank, turnRank, threads, next]
  omega

omit [Zero β] in
theorem turnRank_le (s : WholePhy n α β) : s.turnRank ≤ 6 := by
  unfold turnRank
  split <;> decide

omit [Zero β] in
/-- A step of `PhyThreads`. -/
theorem pays_of_threads (sound : s.threads.Sound) (moves : PhyThreads.Moves s.threads s'.threads)
    (own : s'.nprachRank = s.nprachRank)
    (turn : s'.threads.turns = s.threads.turns → s'.turnRank ≤ s.turnRank) :
    s'.rank + 1 + 20 * s.threads.turns.length ≤ s.rank + 20 * s'.threads.turns.length := by
  have six := s'.turnRank_le
  rcases PhyThreads.rank_moves sound.queued sound.stopping moves with ⟨lower, turns⟩ | ⟨higher, turns, -⟩
  · have less := turn turns
    simp only [rank, turns]
    omega
  · simp only [rank, turns]
    omega

/-- A step that does not push a worker lowers the rank; a turn may raise it by less than 20. -/
theorem Sound.pays (s : WholePhy n α β) (thread : Thread n) (s' : WholePhy n α β)
    (sound : s.Sound shift dft strong emulateNprach)
    (stepped : s.step shift dft strong emulateNprach rx thread = some s') :
    s'.rank + 1 + 20 * s.threads.turns.length ≤ s.rank + 20 * s'.threads.turns.length := by
  have place := sound.place
  cases moves_of_step shift dft strong emulateNprach rx stepped with
  | newTti here worked =>
      simp only [NprachWorker.step, Option.some.injEq] at worked
      subst worked
      have pushed := (NprachWorker.newTti_queue (w := s.nprach) (rxTti s.nprach.air.length)
        (rx s.nprach.air.length)).2
      have idle : s.threads.startsWorker = false := by
        rw [PhyThreads.startsWorker, sound.next here]
      simp only [rank, turnRank, nprachRank, here, idle, Bool.or_false, if_true, Bool.false_eq_true, if_false]
      omega
  | @txrx t here went =>
      refine pays_of_threads sound.threads (PhyThreads.moves_of_stepTxrx went) rfl fun turns => ?_
      unfold turnRank
      dsimp only
      rw [here, Bool.false_or]
      cases starts : t.startsWorker with
      | false => simp
      | true =>
          obtain ⟨id, push⟩ := PhyThreads.stepTxrx_starts went starts
          rw [PhyThreads.stepTxrx, push] at went
          cases went
          simp at turns
  | @worker id t went =>
      refine pays_of_threads sound.threads (PhyThreads.moves_of_stepWorker went) rfl fun _ => ?_
      rw [turnRank, turnRank, PhyThreads.startsWorker, PhyThreads.startsWorker, PhyThreads.stepWorker_txrx went]
  | @stop t went =>
      refine pays_of_threads sound.threads (PhyThreads.moves_of_stepStop went) rfl fun _ => ?_
      rw [turnRank, turnRank, PhyThreads.startsWorker, PhyThreads.startsWorker, PhyThreads.stepStop_txrx went]
  | looped here =>
      refine pays_of_lower rfl rfl ?_
      cases running : s.nprachRunning <;> simp [nprachRank, NprachPc.rank, here]
  | nullPopped here null =>
      refine pays_of_lower rfl rfl ?_
      simp only [nprachRank, NprachPc.rank, here, null, if_true, Bool.false_eq_true, if_false]
      omega
  | popped here worked =>
      refine pays_of_lower rfl rfl ?_
      rw [here] at place
      rcases NprachWorker.step_worker worked with ⟨-, -, fewer⟩ | ⟨⟨b, other⟩, -⟩ | ⟨⟨b, other⟩, -⟩
      · simp only [nprachRank, NprachPc.rank, here, Bool.false_eq_true, if_false]
        omega
      all_goals
        rw [place] at other
        cases other
  | @leaves null here =>
      refine pays_of_lower rfl rfl ?_
      cases null <;> simp [nprachRank, NprachPc.rank, here]
  | detected here worked | gaveBack here worked =>
      refine pays_of_lower rfl rfl ?_
      rw [here] at place
      obtain ⟨b, runs⟩ := place
      rcases NprachWorker.step_worker worked with ⟨other, -⟩ | ⟨-, -, pending⟩ | ⟨-, -, pending⟩
      · rw [runs] at other
        cases other
      all_goals simp [nprachRank, NprachPc.rank, here, pending]
  | nullPushed here =>
      refine pays_of_lower rfl rfl ?_
      cases null : s.null <;> simp [nprachRank, NprachStopPc.left, here, null]
  | entered here | goesOn here running | flagCleared here | detectorFreed here | nprachJoined here ended =>
      exact pays_of_lower rfl rfl (by simp [nprachRank, NprachPc.rank, NprachStopPc.left, here])

/-! ## `phy::stop` returns -/

theorem rank_le (sound : s.Sound shift dft strong emulateNprach) : s.rank ≤ 20 * n + 80 := by
  obtain ⟨done, starts, accounts⟩ := sound.nprach.sound
  have threads := s.threads.rank_le
  have turn := s.turnRank_le
  have pending := accounts.pending_le
  have thread : s.nprachPc.rank ≤ 4 := by
    cases s.nprachPc with
    | popTest null => cases null <;> decide
    | _ => decide
  have null : (if s.null then 3 else 0) ≤ 3 := by split <;> decide
  have left : s.nprachStop.left ≤ 7 := by cases s.nprachStop <;> decide
  simp only [rank, nprachRank]
  omega

theorem blocked_threads (blocked : ∀ thread, s.step shift dft strong emulateNprach rx thread = none) :
    ∀ thread, s.threads.step thread = none := by
  intro thread
  have here := blocked (.phy thread)
  cases thread with
  | worker id => exact Option.map_eq_none_iff.mp here
  | txrx =>
      simp only [step, stepTxrx] at here
      split at here
      · simp [NprachWorker.step] at here
      · exact Option.map_eq_none_iff.mp here
  | stop =>
      simp only [step, stepStop] at here
      split at here
      · rename_i joined
        simp [PhyThreads.step, PhyThreads.stepStop, joined]
      · exact Option.map_eq_none_iff.mp here

/-- A detection is to be made, or is being made, with a detector that was freed. -/
def DetectsFreed (s : WholePhy n α β) : Prop := s.nprachPc = .runTti ∧ s.freed = true

/-- When no thread can go on, `nprach_worker::stop` has joined the thread of the worker. -/
theorem Sound.blocked (sound : s.Sound shift dft strong emulateNprach) (joined : s.threads.stopper = .nprachStop)
    (stop : s.stepStop = none) (nprach : s.stepNprach shift dft strong emulateNprach = none) :
    (s.nprachStop = .returned ∧ s.nprachPc = .ended) ∨ s.DetectsFreed := by
  have place := sound.place
  have late : s.nprachStop = .join ∨ s.nprachStop = .returned := by
    simp only [stepStop, joined, if_true] at stop
    cases phase : s.nprachStop <;> simp [phase] at stop ⊢
  have working {pc : NprachPc} (ready : s.nprach.thread = .waitPop → s.nprach.pending ≠ []) :
      s.work shift dft strong emulateNprach pc ≠ none := by
    obtain ⟨w, worked⟩ : ∃ w, s.nprach.step shift dft strong emulateNprach .worker = some w :=
      NprachWorker.worker_steps ready
    simp [work, worked]
  unfold stepNprach at nprach
  cases here : s.nprachPc with
  | entry | loopTest | popTest null => simp [here] at nprach
  | waitPop =>
      have null := sound.unwoken late (by simp [here]) (by simp [here]) (by simp [here])
      simp only [here, null, if_true] at nprach
      split at nprach
      · cases nprach
      · rename_i some'
        exact absurd nprach (working fun _ => some')
  | runTti =>
      rw [here] at place
      obtain ⟨b, runs⟩ := place
      simp only [here] at nprach
      split at nprach
      · rename_i freed
        exact .inr ⟨here, freed⟩
      · exact absurd nprach (working fun waits => by rw [runs] at waits; cases waits)
  | deallocate =>
      rw [here] at place
      obtain ⟨b, used⟩ := place
      simp only [here] at nprach
      exact absurd nprach (working fun waits => by rw [used] at waits; cases waits)
  | ended =>
      refine .inl ⟨late.resolve_left fun join => ?_, rfl⟩
      simp [stepStop, joined, join, here] at stop

/-- The thread has begun, and is not in front of a detection, when its flag is cleared. -/
structure Leaving (s : WholePhy n α β) : Prop where
  told : s.nprachRunning = false
  begun : s.nprachPc ≠ .entry
  apart : s.nprachPc ≠ .runTti

theorem Leaving.step (s : WholePhy n α β) (thread : Thread n) (s' : WholePhy n α β) (leaving : s.Leaving)
    (stepped : s.step shift dft strong emulateNprach rx thread = some s') : s'.Leaving := by
  obtain ⟨told, begun, apart⟩ := leaving
  cases moves_of_step shift dft strong emulateNprach rx stepped with
  | entered here => exact absurd here begun
  | goesOn here running =>
      rw [told] at running
      cases running
  | looped here => exact ⟨told, by simp [told], by simp [told]⟩
  | leaves here | flagCleared here => exact ⟨rfl, by simp_all, by simp_all⟩
  | nullPopped | popped | detected | gaveBack => exact ⟨told, nofun, nofun⟩
  | newTti | txrx | worker | stop | detectorFreed | nullPushed | nprachJoined => exact ⟨told, begun, apart⟩

theorem Ending.step (s : WholePhy n α β) (thread : Thread n) (s' : WholePhy n α β) (ending : s.threads.Ending)
    (stepped : s.step shift dft strong emulateNprach rx thread = some s') :
    s'.threads.Ending ∧ s'.threads.turns.length + s'.threads.lastTurn ≤
      s.threads.turns.length + s.threads.lastTurn := by
  cases moves_of_step shift dft strong emulateNprach rx stepped with
  | txrx here went => exact ending.step _ .txrx _ went
  | @worker id t went => exact ending.step _ (.worker id) _ went
  | stop went => exact ending.step _ .stop _ went
  | newTti | entered | looped | nullPopped | popped | goesOn | leaves | detected | gaveBack | flagCleared
    | detectorFreed | nullPushed | nprachJoined => exact ⟨ending, Nat.le_refl _⟩

variable [Zero α] {fftIn : List α} {schedule more : List (Thread n)}

/-- Once `phy::stop` has told `txrx` to stop, the threads take at most `20 n + 100` more steps in any order.
    When none can go on, `txrx` and the workers have ended, every turn that was given to a worker was sent,
    and `phy::stop` has returned, with the thread of `nprach_worker` ended; or this thread is in front of a
    detection or in one, and its detector was freed. The latter does not happen when it had begun and was not
    there when its flag was cleared. -/
theorem stop_returns (pos : 0 < n)
    (ran : (start n fftIn).run shift dft strong emulateNprach rx schedule = some s)
    (told : s.threads.txrxRunning = false) (ranOn : s.run shift dft strong emulateNprach rx more = some s') :
    more.length ≤ 20 * n + 100 ∧
      ((∀ thread, s'.step shift dft strong emulateNprach rx thread = none) →
        s'.threads.txrx = .ended ∧ (∀ id, s'.threads.worker id = .ended) ∧
          s'.threads.air = PhyThreads.aired s'.threads.turns ∧
          ((s'.nprachStop = .returned ∧ s'.nprachPc = .ended) ∨ s'.DetectsFreed)) ∧
      (s.Leaving → ¬ s'.DetectsFreed) := by
  have sound : s.Sound shift dft strong emulateNprach :=
    Interleaved.run_invariant Sound.step (start_sound shift dft strong emulateNprach fftIn) ran
  have sound' : s'.Sound shift dft strong emulateNprach := Interleaved.run_invariant Sound.step sound ranOn
  refine ⟨?_, fun blocked => ?_, fun leaving freed => ?_⟩
  · have bounded := Interleaved.run_bounded (fun s : WholePhy n α β => s.threads.turns.length) Sound.step
      Sound.pays sound ranOn
    have fewTurns : s'.threads.turns.length + s'.threads.lastTurn ≤
        s.threads.turns.length + s.threads.lastTurn :=
      Interleaved.run_relates (I := fun s : WholePhy n α β => s.threads.Ending)
        (R := fun a b => b.threads.turns.length + b.threads.lastTurn ≤
          a.threads.turns.length + a.threads.lastTurn)
        (fun _ => le_refl _) (fun _ _ _ first later => le_trans later first)
        (fun a thread b ending stepped => (Ending.step a thread b ending stepped).1)
        (fun a thread b ending stepped => (Ending.step a thread b ending stepped).2)
        ⟨sound.threads, told⟩ ranOn
    have one : s.threads.lastTurn ≤ 1 := by
      unfold PhyThreads.lastTurn
      cases s.threads.txrx <;> simp
    have start := rank_le sound
    omega
  · have threads := blocked_threads blocked
    have joined := sound'.threads.joined pos threads
    obtain ⟨empty, ended, -⟩ := sound'.threads.all_blocked pos (threads .txrx) fun id => threads (.worker id)
    refine ⟨ended, ?_, sound'.threads.queued.all_sent empty,
      sound'.blocked joined (blocked (.phy .stop)) (blocked .nprach)⟩
    exact sound'.threads.stopping.threads (by simp [joined, StopPc.left])
  · have still : s'.Leaving := Interleaved.run_invariant Leaving.step leaving ranOn
    exact still.apart freed.1

end Sound

/-- `txrx` is told to stop while the worker it started last has not begun. -/
def busyStop : List (Thread 1) :=
  List.replicate 2 .nprach ++ List.replicate 5 (.phy .txrx) ++ List.replicate 2 (.phy .stop) ++
    List.replicate 2 (.phy .txrx) ++ List.replicate 10 (.phy (.worker 0)) ++ List.replicate 3 (.phy .stop) ++
    List.replicate 3 (.phy (.worker 0)) ++ List.replicate 2 (.phy .stop)

/-- The flag of the thread is cleared while it waits for a buffer, and the null pointer wakes it. -/
def wokenByNull : List (Thread 1) :=
  List.replicate 2 (.phy .stop) ++ List.replicate 3 .nprach ++ [.phy .stop]

theorem stop_returns_busy : ∃ s s' : WholePhy 1 Int Int,
    (start 1 []).run id NprachDetector.pick (fun x => decide (5 < x)) false (fun _ => NprachWorker.silence)
      busyStop = some s ∧
    s.run id NprachDetector.pick (fun x => decide (5 < x)) false (fun _ => NprachWorker.silence)
      wokenByNull = some s' ∧
    s'.threads.air = PhyThreads.aired s'.threads.turns ∧ s'.threads.air.length = 2 ∧
    s'.nprachStop = .returned ∧ s'.nprachPc = .ended := by
  have both : (((start 1 [] : WholePhy 1 Int Int).run id NprachDetector.pick (fun x => decide (5 < x)) false
      (fun _ => NprachWorker.silence) busyStop).bind fun s =>
        (s.run id NprachDetector.pick (fun x => decide (5 < x)) false (fun _ => NprachWorker.silence)
          wokenByNull).map fun s' =>
            ((s.threads.txrxRunning, s.nprachRunning, s.nprachPc), s'.threads.air.length,
              (s'.stepTxrx id NprachDetector.pick (fun x => decide (5 < x)) false
                (fun _ => NprachWorker.silence)).isNone,
              (s'.threads.stepWorker 0).isNone, s'.stepStop.isNone,
              (s'.stepNprach id NprachDetector.pick (fun x => decide (5 < x)) false).isNone)) =
        some ((false, false, .waitPop), 2, true, true, true, true) := by decide +kernel
  obtain ⟨s, ran, rest⟩ := Option.bind_eq_some_iff.mp both
  obtain ⟨s', ranOn, same⟩ := Option.map_eq_some_iff.mp rest
  simp only [Prod.mk.injEq, Option.isNone_iff_eq_none] at same
  obtain ⟨⟨told, flag, waits⟩, length, txrx, worker, stop, nprach⟩ := same
  obtain ⟨-, ends, safe⟩ := stop_returns (by decide) ran told ranOn
  have blocked : ∀ thread, s'.step id NprachDetector.pick (fun x => decide (5 < x)) false
      (fun _ => NprachWorker.silence) thread = none := by
    intro thread
    cases thread with
    | nprach => exact nprach
    | phy thread =>
        cases thread with
        | txrx => exact txrx
        | worker id =>
            rw [Subsingleton.elim id 0]
            exact Option.map_eq_none_iff.mpr worker
        | stop => exact stop
  obtain ⟨-, -, sent, returned⟩ := ends blocked
  exact ⟨s, s', ran, ranOn, sent, length, returned.resolve_right (safe ⟨flag, by simp [waits], by simp [waits]⟩)⟩

end WholePhy

end SonicaEnb
