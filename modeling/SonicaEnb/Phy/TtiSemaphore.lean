import SonicaEnb.Phy.Workers

/-! # The queue of the workers

A worker is in the queue of `txrx` from its push to its release, and sends while it is
at the front. So what leaves the PHY follows the pushes, in their order.
-/

namespace SonicaEnb

namespace PhyThreads

variable {n : Nat} {s s' : PhyThreads n}

/-- The worker `txrx` is busy with. -/
def handled (s : PhyThreads n) : Option (Fin n) :=
  match s.txrx with
  | .setTime id | .push id | .startWorker id => some id
  | _ => none

/-- What a worker is about: its status, where its thread is, whether `txrx` is busy with it, and
    whether it is in the queue. -/
inductive Fits (s : PhyThreads n) (id : Fin n) : Prop where
  | idle (told : s.status id = .idle) (rests : (s.worker id).Rests) (free : s.handled ≠ some id)
      (out : id ∉ s.semaphore)
  | readied (told : s.status id = .workerReady) (rests : (s.worker id).Rests)
      (busy : s.handled = some id) (queued : id ∈ s.semaphore ↔ s.txrx = .startWorker id)
  | started (told : s.status id = .startWork) (rests : (s.worker id).Rests)
      (free : s.handled ≠ some id) (queued : id ∈ s.semaphore)
  | prepares (told : s.status id = .working) (prepares : (s.worker id).Prepares)
      (free : s.handled ≠ some id) (queued : id ∈ s.semaphore)
  | sends (told : s.status id = .working) (sends : (s.worker id).Sends)
      (free : s.handled ≠ some id) (front : s.semaphore.head? = some id)
  | done (told : s.status id = .working) (done : s.worker id = .finished)
      (free : s.handled ≠ some id) (out : id ∉ s.semaphore)
  | stopped (told : s.status id = .stop) (idles : (s.worker id).Idles) (free : s.handled ≠ some id)
      (out : id ∉ s.semaphore)

/-- What turns send when they are complete. -/
def aired (times : List WorkerTime) : List AirEvent := times.flatMap fun time => [.tx time, .ttiClock]

/-- What a worker has sent when it stands at `pc`. -/
def sentAt (pc : WorkerPc) (time : WorkerTime) : List AirEvent :=
  match pc with
  | .ttiClock => [.tx time]
  | .release => [.tx time, .ttiClock]
  | _ => []

/-- What the worker at the front of the queue has sent. -/
def sending (s : PhyThreads n) : List AirEvent :=
  match s.semaphore with
  | [] => []
  | id :: _ => sentAt (s.worker id) (s.time id)

structure Queued (s : PhyThreads n) : Prop where
  fits : ∀ id, s.Fits id
  nodup : s.semaphore.Nodup
  record : ∃ sent, s.turns = sent ++ s.semaphore.map s.time ∧ s.air = aired sent ++ s.sending

theorem start_queued : (start n).Queued where
  fits := fun id => .idle rfl (.inl rfl) (by simp [handled, start]) List.not_mem_nil
  nodup := List.nodup_nil
  record := ⟨[], rfl, rfl⟩

/-- The other workers do not notice. -/
theorem Fits.of_same {id : Fin n} (fits : s.Fits id) (status : s'.status id = s.status id)
    (worker : s'.worker id = s.worker id) (handled : s'.handled = some id ↔ s.handled = some id)
    (starting : s'.txrx = .startWorker id ↔ s.txrx = .startWorker id)
    (member : id ∈ s'.semaphore ↔ id ∈ s.semaphore)
    (front : s.semaphore.head? = some id → s'.semaphore.head? = some id) : s'.Fits id := by
  cases fits with
  | idle told rests free out =>
      exact .idle (status.trans told) (worker ▸ rests) (mt handled.mp free) (mt member.mp out)
  | readied told rests busy queued =>
      exact .readied (status.trans told) (worker ▸ rests) (handled.mpr busy)
        (member.trans (queued.trans starting.symm))
  | started told rests free queued =>
      exact .started (status.trans told) (worker ▸ rests) (mt handled.mp free) (member.mpr queued)
  | prepares told prepares free queued =>
      exact .prepares (status.trans told) (worker ▸ prepares) (mt handled.mp free) (member.mpr queued)
  | sends told sends free here =>
      exact .sends (status.trans told) (worker ▸ sends) (mt handled.mp free) (front here)
  | done told done free out =>
      exact .done (status.trans told) (worker.trans done) (mt handled.mp free) (mt member.mp out)
  | stopped told idles free out =>
      exact .stopped (status.trans told) (worker ▸ idles) (mt handled.mp free) (mt member.mp out)

theorem Fits.goes_other {id j : Fin n} {pc : WorkerPc} (fits : s.Fits j) (other : j ≠ id) :
    (s.goes id pc).Fits j :=
  fits.of_same rfl (Function.update_of_ne other pc s.worker :) Iff.rfl Iff.rfl Iff.rfl (fun h => h)

theorem sending_goes {id : Fin n} {pc : WorkerPc}
    (silent : ∀ time, sentAt pc time = sentAt (s.worker id) time) :
    (s.goes id pc).sending = s.sending := by
  simp only [sending, goes]
  cases s.semaphore with
  | nil => rfl
  | cons front rest =>
      by_cases same : front = id
      · subst same
        simp only [Function.update_self]
        exact silent (s.time front)
      · simp only [Function.update_of_ne same]

/-- A worker that goes on without sending anything. -/
theorem Queued.goes (queued : s.Queued) {id : Fin n} {pc : WorkerPc}
    (silent : ∀ time, sentAt pc time = sentAt (s.worker id) time) (own : (s.goes id pc).Fits id) :
    (s.goes id pc).Queued where
  fits := by
    intro j
    by_cases same : j = id
    · subst same
      exact own
    · exact (queued.fits j).goes_other same
  nodup := queued.nodup
  record := by
    rw [sending_goes silent]
    exact queued.record

@[simp] theorem goes_worker (s : PhyThreads n) (id : Fin n) (pc : WorkerPc) :
    (s.goes id pc).worker id = pc := Function.update_self ..

theorem Fits.notStopped {id : Fin n} (fits : s.Fits id) (busy : ¬(s.worker id).Idles) :
    s.status id ≠ .stop := by
  intro told
  cases fits with
  | stopped _ idles => exact busy idles
  | idle told' | readied told' | started told' | prepares told' | sends told' | done told' =>
      rw [told'] at told
      cases told

theorem Fits.prepared {id : Fin n} (fits : s.Fits id) (prepares : (s.worker id).Prepares)
    (told : s.status id ≠ .stop) :
    s.status id = .working ∧ s.handled ≠ some id ∧ id ∈ s.semaphore := by
  cases fits with
  | prepares told _ free queued => exact ⟨told, free, queued⟩
  | stopped told' => exact absurd told' told
  | idle _ rests | readied _ rests | started _ rests =>
      rcases rests with here | here <;> simp [here, WorkerPc.Prepares] at prepares
  | sends _ sends => rcases sends with here | here | here <;> simp [here, WorkerPc.Prepares] at prepares
  | done _ here => simp [here, WorkerPc.Prepares] at prepares

theorem Fits.sent {id : Fin n} (fits : s.Fits id) (sends : (s.worker id).Sends) :
    s.status id = .working ∧ s.handled ≠ some id ∧ s.semaphore.head? = some id := by
  cases fits with
  | sends told _ free front => exact ⟨told, free, front⟩
  | idle _ rests | readied _ rests | started _ rests =>
      rcases rests with here | here <;> simp [here, WorkerPc.Sends] at sends
  | prepares _ prepares =>
      rcases prepares with here | here | here <;> simp [here, WorkerPc.Sends] at sends
  | done _ here => simp [here, WorkerPc.Sends] at sends
  | stopped _ idles =>
      rcases idles with (here | here) | here | here | here <;> simp [here, WorkerPc.Sends] at sends

theorem Fits.handled {id : Fin n} (fits : s.Fits id) (busy : s.handled = some id) :
    s.status id = .workerReady ∧ (s.worker id).Rests ∧ (id ∈ s.semaphore ↔ s.txrx = .startWorker id) := by
  cases fits with
  | readied told rests _ queued => exact ⟨told, rests, queued⟩
  | idle _ _ free | started _ _ free | prepares _ _ free | sends _ _ free | done _ _ free
    | stopped _ _ free => exact absurd busy free

theorem sentAt_silent {pc : WorkerPc} (silent : ¬pc.Sends) (time : WorkerTime) : sentAt pc time = [] := by
  cases pc <;> simp_all [sentAt, WorkerPc.Sends]

theorem rests_silent {pc : WorkerPc} (rests : pc.Rests) : ¬pc.Sends := by
  rcases rests with here | here <;> simp [here, WorkerPc.Sends]

/-- A worker that goes on within the same part of its turn. -/
theorem Fits.goes {id : Fin n} {pc : WorkerPc} (fits : s.Fits id)
    (rests : (s.worker id).Rests → s.status id ≠ .stop → pc.Rests)
    (prepares : (s.worker id).Prepares → s.status id ≠ .stop → pc.Prepares)
    (sends : (s.worker id).Sends → pc.Sends) (notDone : s.worker id ≠ .finished)
    (idles : s.status id = .stop → pc.Idles) : (s.goes id pc).Fits id := by
  cases fits with
  | idle told here free out =>
      exact .idle told (by simpa using rests here (by simp [told])) free out
  | readied told here busy queued =>
      exact .readied told (by simpa using rests here (by simp [told])) busy queued
  | started told here free queued =>
      exact .started told (by simpa using rests here (by simp [told])) free queued
  | prepares told here free queued =>
      exact .prepares told (by simpa using prepares here (by simp [told])) free queued
  | sends told here free front => exact .sends told (by simpa using sends here) free front
  | done told here free out => exact absurd here notDone
  | stopped told here free out => exact .stopped told (by simpa using idles told) free out

/-- The worker at the front goes on sending. -/
theorem Queued.sends (queued : s.Queued) {id : Fin n} {pc : WorkerPc} {event : AirEvent}
    (before : (s.worker id).Sends) (after : pc.Sends)
    (sends : sentAt pc (s.time id) = sentAt (s.worker id) (s.time id) ++ [event]) :
    Queued { s.goes id pc with air := s.air ++ [event] } := by
  obtain ⟨told, free, front⟩ := (queued.fits id).sent before
  refine ⟨fun j => ?_, queued.nodup, ?_⟩
  · by_cases same : j = id
    · subst same
      exact .sends told (by simpa using after) free front
    · exact ((queued.fits j).goes_other same).of_same rfl rfl Iff.rfl Iff.rfl Iff.rfl (fun h => h)
  · obtain ⟨sent, turns, air⟩ := queued.record
    obtain ⟨rest, shape⟩ := List.head?_eq_some_iff.mp front
    refine ⟨sent, turns, ?_⟩
    simp only [sending, PhyThreads.goes, shape, Function.update_self, sends] at air ⊢
    rw [air, List.append_assoc]

/-- The times of workers outside the queue do not matter. -/
theorem Queued.record_of_time (queued : s.Queued) {time : Fin n → WorkerTime}
    (same : ∀ id ∈ s.semaphore, time id = s.time id) :
    ∃ sent, s.turns = sent ++ s.semaphore.map time ∧
      s.air = aired sent ++ PhyThreads.sending { s with time := time } := by
  obtain ⟨sent, turns, air⟩ := queued.record
  refine ⟨sent, by rw [turns, List.map_congr_left same], air.trans ?_⟩
  simp only [sending]
  cases shape : s.semaphore with
  | nil => rfl
  | cons front rest =>
      rw [shape] at same
      simp [same front]

theorem Queued.moves (queued : s.Queued) (stopping : s.Stopping) (moves : Moves s s') : s'.Queued := by
  cases moves with
  | txrxLoop here =>
      refine ⟨fun j => (queued.fits j).of_same rfl rfl ?_ ?_ Iff.rfl (fun h => h), queued.nodup,
        queued.record⟩
      · simp only [PhyThreads.handled, here]
        cases s.txrxRunning <;> rfl
      · rw [here]
        cases s.txrxRunning <;> simp
  | @workerFound id here on idle =>
      refine ⟨fun j => ?_, queued.nodup, queued.record⟩
      by_cases same : j = id
      · subst same
        cases queued.fits j with
        | idle _ rests _ out => exact .readied (Function.update_self ..) rests rfl (by simpa using out)
        | readied told | started told | prepares told | sends told | done told | stopped told =>
            rw [idle] at told
            cases told
      · refine (queued.fits j).of_same (Function.update_of_ne same _ _) rfl ?_ ?_ Iff.rfl (fun h => h)
        · simp [PhyThreads.handled, here, Ne.symm same]
        · simp [here]
  | poolClosed here closed =>
      have joined := stopping.closed closed
      rw [here] at joined
      cases joined
  | @timeSet id here =>
      obtain ⟨-, -, starting⟩ := (queued.fits id).handled (by simp [PhyThreads.handled, here])
      have out : id ∉ s.semaphore := by simp [starting, here]
      refine ⟨fun j => (queued.fits j).of_same rfl rfl ?_ ?_ Iff.rfl (fun h => h), queued.nodup, ?_⟩
      · simp [PhyThreads.handled, here]
      · simp [here]
      · apply queued.record_of_time
        intro j inside
        have other : j ≠ id := fun same => out (same ▸ inside)
        exact Function.update_of_ne other _ _
  | @pushed id here =>
      obtain ⟨told, rests, starting⟩ := (queued.fits id).handled (by simp [PhyThreads.handled, here])
      have out : id ∉ s.semaphore := by simp [starting, here]
      refine ⟨fun j => ?_, List.nodup_append.mpr ⟨queued.nodup, List.nodup_singleton id, ?_⟩, ?_⟩
      · by_cases same : j = id
        · subst same
          exact .readied told rests rfl (by simp)
        · refine (queued.fits j).of_same rfl rfl ?_ ?_ (by simp [same]) ?_
          · simp [PhyThreads.handled, here]
          · simp [here, Ne.symm same]
          · intro front
            rw [List.head?_append, front]
            rfl
      · intro j inside k last
        rw [List.mem_singleton.mp last]
        exact fun same => out (same ▸ inside)
      · obtain ⟨sent, turns, air⟩ := queued.record
        refine ⟨sent, by simp [turns], air.trans ?_⟩
        simp only [sending]
        cases s.semaphore with
        | nil => simp [sentAt_silent (rests_silent rests)]
        | cons front rest => rfl
  | @workerStarted id here =>
      obtain ⟨told, rests, starting⟩ := (queued.fits id).handled (by simp [PhyThreads.handled, here])
      refine ⟨fun j => ?_, queued.nodup, queued.record⟩
      by_cases same : j = id
      · subst same
        exact .started (by simp [told]) rests (by simp [PhyThreads.handled]) (starting.mpr here)
      · refine (queued.fits j).of_same ?_ rfl ?_ ?_ Iff.rfl (fun h => h)
        · simp [told, Function.update_of_ne same]
        · simp [PhyThreads.handled, here, Ne.symm same]
        · simp [here, Ne.symm same]
  | @workerLoop id here =>
      apply queued.goes
      · intro time
        rw [here]
        split <;> rfl
      · apply (queued.fits id).goes <;>
          simp +contextual [here, WorkerPc.Rests, WorkerPc.Prepares, WorkerPc.Sends, WorkerPc.Idles]
  | @workStarted id here told =>
      refine ⟨fun j => ?_, queued.nodup, ?_⟩
      · by_cases same : j = id
        · subst same
          cases queued.fits j with
          | started _ _ free inside =>
              exact .prepares (Function.update_self ..) (by simp [WorkerPc.Prepares]) free inside
          | idle told' | readied told' | prepares told' | sends told' | done told' | stopped told' =>
              rw [told] at told'
              cases told'
        · exact ((queued.fits j).goes_other same).of_same (Function.update_of_ne same _ _) rfl Iff.rfl
            Iff.rfl Iff.rfl (fun h => h)
      · have silent : (s.goes id .stopTest).sending = s.sending :=
          sending_goes (by simp [here, sentAt])
        obtain ⟨sent, turns, air⟩ := queued.record
        exact ⟨sent, turns, air.trans (congrArg _ silent.symm)⟩
  | @workStopped id here told =>
      apply queued.goes
      · simp [here, sentAt]
      · apply (queued.fits id).goes <;>
          simp [here, told, WorkerPc.Prepares, WorkerPc.Sends, WorkerPc.Idles]
  | @stopTested id here =>
      apply queued.goes
      · intro time
        rw [here]
        split <;> rfl
      · apply (queued.fits id).goes <;>
          simp +contextual [here, WorkerPc.Rests, WorkerPc.Prepares, WorkerPc.Sends, WorkerPc.Idles]
  | @worked id here =>
      have told := (queued.fits id).notStopped (by simp [here, WorkerPc.Idles, WorkerPc.Rests])
      apply queued.goes
      · simp [here, sentAt]
      · apply (queued.fits id).goes <;>
          simp [here, told, WorkerPc.Rests, WorkerPc.Prepares, WorkerPc.Sends]
  | @semaphorePassed id here turn =>
      have told := (queued.fits id).notStopped (by simp [here, WorkerPc.Idles, WorkerPc.Rests])
      obtain ⟨working, free, inside⟩ :=
        (queued.fits id).prepared (by simp [here, WorkerPc.Prepares]) told
      have front : s.semaphore.head? = some id := by
        rcases turn with empty | front
        · rw [empty] at inside
          cases inside
        · exact front
      apply queued.goes
      · simp [here, sentAt]
      · exact .sends working (by simp [WorkerPc.Sends]) free front
  | @sent id here =>
      refine queued.sends (by simp [here, WorkerPc.Sends]) (by simp [WorkerPc.Sends]) ?_
      simp [here, sentAt]
  | @clocked id here =>
      refine queued.sends (by simp [here, WorkerPc.Sends]) (by simp [WorkerPc.Sends]) ?_
      simp [here, sentAt]
  | @released id here =>
      obtain ⟨told, free, front⟩ := (queued.fits id).sent (by simp [here, WorkerPc.Sends])
      obtain ⟨rest, shape⟩ := List.head?_eq_some_iff.mp front
      have nodup := queued.nodup
      rw [shape] at nodup
      obtain ⟨out, nodup⟩ := List.nodup_cons.mp nodup
      have onlyFront : ∀ j ∈ rest, ¬(s.worker j).Sends := by
        intro j inside sends
        have other := ((queued.fits j).sent sends).2.2
        rw [front] at other
        cases other
        exact out inside
      refine ⟨fun j => ?_, by simpa [shape] using nodup, ?_⟩
      · by_cases same : j = id
        · subst same
          exact .done told (by simp) free (by simpa [shape] using out)
        · refine ((queued.fits j).goes_other same).of_same rfl rfl Iff.rfl Iff.rfl ?_ ?_
          · simp [shape, PhyThreads.goes, same]
          · intro other
            rw [PhyThreads.goes, front] at other
            cases other
            exact absurd rfl same
      · obtain ⟨sent, turns, air⟩ := queued.record
        have before : s.sending = [.tx (s.time id), .ttiClock] := by
          simp only [sending, shape, here, sentAt]
        have after : sending { s.goes id .finished with semaphore := s.semaphore.tail } = [] := by
          simp only [sending, shape, List.tail_cons, PhyThreads.goes]
          cases rest with
          | nil => rfl
          | cons next later =>
              have other : next ≠ id := fun same => out (same ▸ List.mem_cons_self)
              simp only [Function.update_of_ne other]
              exact sentAt_silent (onlyFront next List.mem_cons_self) _
        refine ⟨sent ++ [s.time id], by simp [turns, shape, PhyThreads.goes], ?_⟩
        rw [after]
        simpa [before, aired, PhyThreads.goes] using air
  | @finished id here =>
      have silent : (s.goes id .loopTest).sending = s.sending :=
        sending_goes (by simp [here, sentAt])
      obtain ⟨sent, turns, air⟩ := queued.record
      refine ⟨fun j => ?_, queued.nodup, ⟨sent, turns, air.trans (congrArg _ silent.symm)⟩⟩
      by_cases same : j = id
      · subst same
        cases queued.fits j with
        | done told _ free out =>
            exact .idle (by simp [PhyThreads.finished, told])
              (by simp [PhyThreads.finished, PhyThreads.goes, WorkerPc.Rests]) free out
        | stopped told _ free out =>
            exact .stopped (by simp [PhyThreads.finished, told, PhyThreads.goes])
              (by simp [PhyThreads.finished, PhyThreads.goes, WorkerPc.Idles, WorkerPc.Rests]) free out
        | idle _ rests | readied _ rests | started _ rests =>
            rcases rests with other | other <;> simp [here] at other
        | prepares _ prepares => rcases prepares with other | other | other <;> simp [here] at other
        | sends _ sends => rcases sends with other | other | other <;> simp [here] at other
      · refine ((queued.fits j).goes_other same).of_same ?_ rfl Iff.rfl Iff.rfl Iff.rfl (fun h => h)
        simp only [PhyThreads.finished, PhyThreads.goes]
        split
        · rfl
        · exact Function.update_of_ne same _ _
  | stopCalled here | txrxStopped here | txrxWasStopped here | txrxJoined here | allReleased here
    | workersJoined here =>
      exact ⟨fun id => (queued.fits id).of_same rfl rfl Iff.rfl Iff.rfl Iff.rfl (fun h => h),
        queued.nodup, queued.record⟩
  | poolStopped here =>
      have empty := stopping.empty (by simp [here, StopPc.left])
      have ended := stopping.joined (by simp [here, StopPc.left])
      refine ⟨fun j => ?_, queued.nodup, queued.record⟩
      have free : s.handled ≠ some j := by simp [PhyThreads.handled, ended]
      have out : j ∉ s.semaphore := by simp [empty]
      cases queued.fits j with
      | idle _ rests => exact .stopped rfl (.inl rests) free out
      | readied _ _ busy => exact absurd busy free
      | started _ _ _ inside | prepares _ _ _ inside => exact absurd inside out
      | sends _ _ _ front => simp [empty] at front
      | done _ done => exact .stopped rfl (.inr (.inr (.inl done))) free out
      | stopped _ idles => exact .stopped rfl idles free out

/-! ## What every schedule keeps -/

structure Sound (s : PhyThreads n) : Prop where
  stopping : s.Stopping
  counting : s.Counting
  queued : s.Queued

theorem start_sound : (start n).Sound := ⟨start_stopping, start_counting, start_queued⟩

theorem Sound.step (s : PhyThreads n) (thread : Thread n) (s' : PhyThreads n) (sound : s.Sound)
    (stepped : s.step thread = some s') : s'.Sound := by
  have moves := moves_of_step stepped
  exact ⟨sound.stopping.moves moves, sound.counting.moves moves,
    sound.queued.moves sound.stopping moves⟩

theorem Sound.run {schedule : List (Thread n)} (sound : s.Sound) (ran : s.run schedule = some s') :
    s'.Sound := Interleaved.run_invariant Sound.step sound ran

/-- At most one clock is still to come, that of the worker that has just transmitted. -/
theorem Queued.sent (queued : s.Queued) : ∃ sent later, s.turns = sent ++ later ∧
    later.length ≤ n ∧ (s.air = aired sent ∨ s.air ++ [.ttiClock] = aired sent) := by
  obtain ⟨sent, turns, air⟩ := queued.record
  have few : s.semaphore.length ≤ n := by
    have := queued.nodup.length_le_card
    rwa [Fintype.card_fin] at this
  cases shape : s.semaphore with
  | nil =>
      refine ⟨sent, [], by simp [turns, shape], Nat.zero_le n, .inl ?_⟩
      simpa [sending, shape] using air
  | cons front rest =>
      rw [shape] at turns few
      have whole : s.turns = (sent ++ [s.time front]) ++ rest.map s.time := by simp [turns]
      have fewer : (rest.map s.time).length ≤ n := by
        rw [List.length_cons] at few
        rw [List.length_map]
        omega
      rw [List.map_cons] at turns
      by_cases sends : (s.worker front).Sends
      · rcases sends with here | here | here
        · exact ⟨sent, _, turns, by simpa using few, .inl (by simp [air, sending, shape, here, sentAt])⟩
        · exact ⟨_, _, whole, fewer, .inr (by simp [air, sending, shape, here, sentAt, aired])⟩
        · exact ⟨_, _, whole, fewer, .inl (by simp [air, sending, shape, here, sentAt, aired])⟩
      · refine ⟨sent, _, turns, by simpa using few, .inl ?_⟩
        simp [air, sending, shape, sentAt_silent sends]

theorem Queued.exclusive (queued : s.Queued) {i j : Fin n} (one : (s.worker i).Sends)
    (other : (s.worker j).Sends) : i = j := by
  have first := ((queued.fits i).sent one).2.2
  have second := ((queued.fits j).sent other).2.2
  exact Option.some.inj (first.symm.trans second)

/-- However the threads are scheduled, what the PHY sends is a front part of the turns in their order,
    each turn once and subframe `k` in transmission `k`, with one clock of the stack after each; at most
    one worker is sending and at most `n` turns are not sent yet. -/
theorem transmits_in_order {schedule : List (Thread n)} (ran : (start n).run schedule = some s) :
    (∃ sent later, s.turns = sent ++ later ∧ later.length ≤ n ∧
      (s.air = aired sent ∨ s.air ++ [.ttiClock] = aired sent) ∧
      ∀ k time, sent[k]? = some time → OfTurn k time) ∧
    ∀ i j, (s.worker i).Sends → (s.worker j).Sends → i = j := by
  have sound := start_sound.run ran
  obtain ⟨sent, later, turns, few, air⟩ := sound.queued.sent
  refine ⟨⟨sent, later, turns, few, air, ?_⟩, fun i j => sound.queued.exclusive⟩
  intro k time found
  apply sound.counting.turns
  rw [turns]
  exact (List.getElem?_append_left (List.getElem?_eq_some_iff.mp found).1).trans found

/-- The second worker is ready first and waits until the first one has sent. -/
theorem transmits_in_order_overtaken : ∃ s, (start 2).run (List.replicate 10 .txrx ++
      List.replicate 4 (.worker 1) ++ List.replicate 8 (.worker 0) ++ List.replicate 2 (.worker 1)) =
        some s ∧ s.air.length = 3 ∧
    (∃ sent later, s.turns = sent ++ later ∧ later.length ≤ 2 ∧
      (s.air = aired sent ∨ s.air ++ [.ttiClock] = aired sent) ∧
      ∀ k time, sent[k]? = some time → OfTurn k time) ∧
    ∀ i j, (s.worker i).Sends → (s.worker j).Sends → i = j := by
  have sent : ((start 2).run (List.replicate 10 .txrx ++ List.replicate 4 (.worker 1) ++
      List.replicate 8 (.worker 0) ++ List.replicate 2 (.worker 1))).map (fun s => s.air.length) =
        some 3 := by decide +kernel
  obtain ⟨s, ran, length⟩ := Option.map_eq_some_iff.mp sent
  exact ⟨s, ran, length, transmits_in_order ran⟩

end PhyThreads

end SonicaEnb
