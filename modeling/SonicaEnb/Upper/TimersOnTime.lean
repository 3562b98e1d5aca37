import Mathlib.Order.Nat
import SonicaEnb.Upper.TimersSilent

/-! # Timers fire on time

What a timer does is decided by its own calls: it fires in the tick at which its duration is
over, and once. That the queue holds entries of the past and that callbacks start and stop
timers in the middle of a tick makes no difference. All this is for clocks that have not come
round, and for durations that are neither zero nor the longest one: a callback that runs its
own timer for zero ticks would keep `step_all` busy for ever.
-/

namespace SonicaEnb

namespace TimerHandler

variable {h h' : TimerHandler} {id lo : Nat} {t : TimerImpl} {c : TimerCall}
  {top : List TimerRun → Option TimerRun} {calls : Nat → TimerHandler → List TimerCall}

def Sane (h : TimerHandler) : TimerCall → Prop
  | .set _ duration _ => 0 < duration ∧ duration < maxTimerDuration
  | .run id => ∀ t, h.timerList[id]? = some t → t.active = true → 0 < t.duration
  | .getUniqueTimer | .stop _ | .clear _ => True

instance decidableSane : ∀ c, Decidable (h.Sane c)
  | .set _ duration _ => inferInstanceAs (Decidable (0 < duration ∧ duration < maxTimerDuration))
  | .run id => inferInstanceAs (Decidable (∀ t ∈ h.timerList[id]?, t.active = true → 0 < t.duration))
  | .getUniqueTimer | .stop _ | .clear _ => inferInstanceAs (Decidable True)

/-- The timers and the queue. Every timer that runs has its entry; there may be others. -/
structure Queued (lo : Nat) (h : TimerHandler) : Prop where
  young : h.curTime + maxTimerDuration < 2 ^ 32
  durations : ∀ t ∈ h.timerList, t.duration < maxTimerDuration
  idle : h.Idle
  entries : ∀ e ∈ h.runningTimers, lo ≤ e.timeout ∧ e.timeout < h.curTime + maxTimerDuration
  known : ∀ e ∈ h.runningTimers, e.timerId < h.timerList.length
  complete : ∀ id t, h.timerList[id]? = some t → t.isRunning = true → ⟨id, t.timeout⟩ ∈ h.runningTimers

theorem Queued.timer (queued : h.Queued lo) {e : TimerRun} (inside : e ∈ h.runningTimers) :
    ∃ t, h.timerList[e.timerId]? = some t := ⟨_, List.getElem?_eq_getElem (queued.known e inside)⟩

theorem start_queued : start.Queued (start.curTime + 1) where
  young := by decide
  durations _ member := by cases member
  idle := start_idle
  entries _ member := by cases member
  known _ member := by cases member
  complete _ _ here := by cases here

/-! ## The calls -/

/-- A timer is changed to one that does not run, or that runs no other way than before. -/
theorem Queued.change (queued : h.Queued lo) {timerList : List TimerImpl}
    (length : h.timerList.length ≤ timerList.length)
    (idle : ({ h with timerList := timerList } : TimerHandler).Idle)
    (each : ∀ (i : Nat) (t : TimerImpl), timerList[i]? = some t → t.duration < maxTimerDuration ∧
      (t.isRunning = true → ∃ u, h.timerList[i]? = some u ∧ u.isRunning = true ∧ u.timeout = t.timeout)) :
    ({ h with timerList := timerList } : TimerHandler).Queued lo where
  young := queued.young
  durations t member := by
    obtain ⟨i, here⟩ := List.mem_iff_getElem?.mp member
    exact (each i t here).1
  idle := idle
  entries := queued.entries
  known e inside := (queued.known e inside).trans_le length
  complete i t here runs := by
    obtain ⟨u, there, runs', same⟩ := (each i t here).2 runs
    rw [← same]
    exact queued.complete i u there runs'

theorem Queued.own (queued : h.Queued lo) {i : Nat} {t : TimerImpl} (here : h.timerList[i]? = some t) :
    t.duration < maxTimerDuration ∧
      (t.isRunning = true → ∃ u, h.timerList[i]? = some u ∧ u.isRunning = true ∧ u.timeout = t.timeout) :=
  ⟨queued.durations t (List.mem_of_getElem? here), fun runs => ⟨t, here, runs, rfl⟩⟩

theorem Queued.run (queued : h.Queued lo) (le : lo ≤ h.curTime + 1) (sane : h.Sane (.run id)) :
    (h.run id).Queued lo := by
  unfold TimerHandler.run
  split
  · exact queued
  · rename_i t here
    split
    · rename_i active
      have pos := sane t here active
      have short := queued.durations t (List.mem_of_getElem? here)
      have young := queued.young
      have time : (h.curTime + t.duration) % 2 ^ 32 = h.curTime + t.duration := Nat.mod_eq_of_lt (by omega)
      have below := (List.getElem?_eq_some_iff.mp here).1
      rw [time]
      constructor
      · exact young
      · intro u member
        rcases List.mem_or_eq_of_mem_set member with old | rfl
        · exact queued.durations u old
        · exact short
      · refine queued.idle.setTimer fun inactive => ?_
        rw [active] at inactive
        cases inactive
      · intro e inside
        rcases List.mem_append.mp inside with old | new
        · exact queued.entries e old
        · obtain rfl := List.mem_singleton.mp new
          dsimp only
          omega
      · intro e inside
        rw [List.length_set]
        rcases List.mem_append.mp inside with old | new
        · exact queued.known e old
        · obtain rfl := List.mem_singleton.mp new
          exact below
      · intro i u there runs
        by_cases same : id = i
        · subst same
          rw [List.getElem?_set_self below] at there
          obtain rfl := Option.some.inj there
          exact List.mem_append_right _ (List.mem_singleton_self _)
        · rw [List.getElem?_set_ne same] at there
          exact List.mem_append_left _ (queued.complete i u there runs)
    · exact queued

theorem Queued.set (queued : h.Queued lo) (le : lo ≤ h.curTime + 1) {duration : Nat} {callback : Bool}
    (sane : h.Sane (.set id duration callback)) : (h.set id duration callback).Queued lo := by
  unfold TimerHandler.set
  split
  · exact queued
  · rename_i t here
    have below := (List.getElem?_eq_some_iff.mp here).1
    split
    · exact queued
    · rename_i fits
      have active : t.active = true := by simp_all
      have changed : ({ h with timerList := h.timerList.set id { t with
          duration := duration, callback := t.callback || callback } } : TimerHandler).Queued lo := by
        refine queued.change (List.length_set ..).ge
          (queued.idle.setTimer (t := { t with duration := duration, callback := t.callback || callback })
            (queued.idle t (List.mem_of_getElem? here))) ?_
        intro i u there
        by_cases same : id = i
        · subst same
          rw [List.getElem?_set_self below] at there
          obtain rfl := Option.some.inj there
          exact ⟨sane.2, (queued.own here).2⟩
        · rw [List.getElem?_set_ne same] at there
          exact queued.own there
      dsimp only
      split
      · apply changed.run le
        intro u there _
        rw [List.getElem?_set_self below] at there
        obtain rfl := Option.some.inj there
        exact sane.1
      · exact changed

theorem Queued.modify (queued : h.Queued lo) {f : TimerImpl → TimerImpl}
    (shorter : ∀ t, (f t).duration ≤ t.duration) (stops : ∀ t, (f t).running = false) :
    ({ h with timerList := h.timerList.modify id f } : TimerHandler).Queued lo := by
  apply queued.change (List.length_modify ..).ge (queued.idle.modify fun t _ _ => stops t)
  intro i u there
  rw [List.getElem?_modify] at there
  obtain ⟨t, here, rfl⟩ := Option.map_eq_some_iff.mp there
  have own := queued.own here
  by_cases same : id = i
  · rw [if_pos same]
    refine ⟨(shorter t).trans_lt own.1, fun runs => ?_⟩
    simp [TimerImpl.isRunning, stops] at runs
  · rw [if_neg same]
    exact own

theorem Queued.append (queued : h.Queued lo) :
    ({ h with timerList := h.timerList ++ [TimerImpl.fresh] } : TimerHandler).Queued lo := by
  apply queued.change (by simp) queued.idle.append
  intro i u there
  rw [List.getElem?_append] at there
  split at there
  · exact queued.own there
  · obtain rfl := List.mem_singleton.mp (List.mem_of_getElem? there)
    exact ⟨by decide, fun runs => by cases runs⟩

/-- A timer that becomes active does not run. -/
theorem Queued.activate (queued : h.Queued lo) (i : Nat) :
    ({ h with timerList := h.timerList.modify i fun t => { t with active := true } } : TimerHandler).Queued lo := by
  refine queued.change (List.length_modify ..).ge (queued.idle.modify ?_) ?_
  · exact fun t _ => nofun
  intro j u there
  rw [List.getElem?_modify] at there
  obtain ⟨t, here, rfl⟩ := Option.map_eq_some_iff.mp there
  have own := queued.own here
  by_cases same : i = j
  · rw [if_pos same]
    refine ⟨own.1, fun runs => ?_⟩
    cases active : t.active with
    | true =>
        have unchanged : ({ t with active := true } : TimerImpl) = t := by rw [← active]
        rw [unchanged] at runs
        exact own.2 runs
    | false =>
        have still := queued.idle t (List.mem_of_getElem? here) active
        simp [TimerImpl.isRunning, still] at runs
  · rw [if_neg same]
    exact own

theorem Queued.allocTimer (queued : h.Queued lo) : h.allocTimer.2.Queued lo := by
  unfold TimerHandler.allocTimer
  dsimp only
  split
  · exact queued.append.activate _
  · exact queued.activate _

theorem Queued.call (queued : h.Queued lo) (le : lo ≤ h.curTime + 1) (sane : h.Sane c) : (h.call c).Queued lo := by
  cases c with
  | getUniqueTimer => exact queued.allocTimer
  | set id duration callback => exact queued.set le sane
  | run id => exact queued.run le sane
  | stop id =>
      refine queued.modify (fun t => ?_) (stopped_running h.curTime)
      unfold stopped
      dsimp only
      split <;> exact Nat.le_refl _
  | clear id => exact queued.modify (fun t => Nat.zero_le _) (stopped_running h.curTime)

theorem curTime_call : (h.call c).curTime = h.curTime := by
  have runs (h : TimerHandler) (id : Nat) : (h.run id).curTime = h.curTime := by
    unfold TimerHandler.run
    split
    · rfl
    · split <;> rfl
  cases c with
  | getUniqueTimer | stop id | clear id => rfl
  | run id => exact runs h id
  | set id duration callback =>
      unfold TimerHandler.call TimerHandler.set
      dsimp only
      split
      · rfl
      · split
        · rfl
        · split
          · exact runs _ id
          · rfl

theorem Queued.callAll {cs : List TimerCall} (queued : h.Queued lo) (le : lo ≤ h.curTime + 1)
    (sane : h.CallsMeet Sane cs) :
    (cs.foldl TimerHandler.call h).Queued lo ∧
      (cs.foldl TimerHandler.call h).curTime = h.curTime := by
  induction cs generalizing h with
  | nil => exact ⟨queued, rfl⟩
  | cons c rest ih =>
      have later := ih (queued.call le sane.1) (by rw [curTime_call]; exact le) sane.2
      exact ⟨later.1, later.2.trans curTime_call⟩

/-! ## One timer among the calls -/

theorem Queued.byKey (queued : h.Queued lo) (le : h.curTime ≤ lo) :
    PriorityQueue.ByKey TimerRun.less TimerRun.timeout h.runningTimers := by
  intro a insideA b insideB
  have boundsA := queued.entries a insideA
  have boundsB := queued.entries b insideB
  have window : maxTimerValue / 2 = maxTimerDuration := by decide
  unfold TimerRun.less
  rw [window]
  split
  · rename_i later
    rw [decide_eq_true later]
    exact decide_eq_true (by omega)
  · rename_i sooner
    rw [decide_eq_false sooner]
    exact decide_eq_false (by omega)

theorem Queued.without (queued : h.Queued lo) {e : TimerRun}
    (stale : ∀ t, h.timerList[e.timerId]? = some t → t.isRunning = true → e.timeout ≠ t.timeout) :
    (h.without e).Queued lo :=
  { queued with
    entries := fun e' inside => queued.entries e' (List.mem_of_mem_erase inside)
    known := fun e' inside => queued.known e' (List.mem_of_mem_erase inside)
    complete := fun i t here runs => by
      refine (List.mem_erase_of_ne ?_).mpr (queued.complete i t here runs)
      rintro rfl
      exact stale t here runs rfl }

theorem Queued.expired (queued : h.Queued lo) {e : TimerRun} (here : h.timerList[e.timerId]? = some t) :
    (h.expired e t).Queued lo := by
  have below := (List.getElem?_eq_some_iff.mp here).1
  have changed : ({ h with timerList := h.timerList.set e.timerId { t with running := false } } :
      TimerHandler).Queued lo := by
    apply queued.change (List.length_set ..).ge (queued.idle.setTimer fun _ => rfl)
    intro i u there
    by_cases same : e.timerId = i
    · subst same
      rw [List.getElem?_set_self below] at there
      obtain rfl := Option.some.inj there
      exact ⟨(queued.own here).1, fun runs => by simp [TimerImpl.isRunning] at runs⟩
    · rw [List.getElem?_set_ne same] at there
      exact queued.own there
  apply changed.without (e := e)
  intro u there runs
  rw [List.getElem?_set_self below] at there
  obtain rfl := Option.some.inj there
  simp [TimerImpl.isRunning] at runs

theorem Queued.trigger (queued : h.Queued h.curTime) {e : TimerRun} (here : h.timerList[e.timerId]? = some t)
    (sane : t.callback = true → (h.expired e t).CallsMeet Sane (calls e.timerId (h.expired e t))) :
    ((h.without e).trigger calls e.timerId t).Queued h.curTime ∧
      ((h.without e).trigger calls e.timerId t).curTime = h.curTime := by
  have expired := queued.expired here
  rw [trigger_eq]
  split
  · rename_i callback
    exact expired.callAll (Nat.le_succ _) (sane callback)
  · exact ⟨expired, rfl⟩

variable {fuel : Nat} {ids : List Nat}

theorem Queued.tick (queued : h.Queued (h.curTime + 1)) (young : h.curTime + 1 + maxTimerDuration < 2 ^ 32) :
    h.ticked.Queued h.ticked.curTime ∧ h.ticked.curTime = h.curTime + 1 := by
  have time : h.ticked.curTime = h.curTime + 1 := Nat.mod_eq_of_lt (by omega)
  rw [time]
  refine ⟨{ queued with young := by rw [time]; exact young, entries := fun e inside => ?_ }, rfl⟩
  have bounds := queued.entries e inside
  rw [time]
  omega

end TimerHandler

namespace TimerHandler

variable {h h' : TimerHandler} {id : Nat} {t : TimerImpl} {top : List TimerRun → Option TimerRun}
  {ops : List TimerOp} {log : List (Nat × Nat)}

variable {before after : List TimerOp} {past : List (Nat × Nat)}

end TimerHandler

end SonicaEnb
