import SonicaEnb.Upper.Timers

/-! # A timer that was stopped is silent

What is promised of a run depends on the calls that are made in it, by the users of the timers
and by the callbacks in the middle of a tick. A condition on the calls looks at each of them in
the state in which it is made, and at no other state. A timer that does not run stays silent
until it is run, and this needs neither a clock that has not come round nor a queue that is in
order.
-/

namespace SonicaEnb.TimerHandler

variable {P Q : TimerHandler → TimerCall → Prop} {h h' : TimerHandler} {id : Nat} {t : TimerImpl} {c : TimerCall}
  {top : List TimerRun → Option TimerRun} {calls : Nat → TimerHandler → List TimerCall}

/-! ## The calls of a run -/

def CallsMeet (P : TimerHandler → TimerCall → Prop) : TimerHandler → List TimerCall → Prop
  | _, [] => True
  | h, c :: rest => P h c ∧ (h.call c).CallsMeet P rest

/-- The handler without an entry of its queue. -/
def without (h : TimerHandler) (e : TimerRun) : TimerHandler :=
  { h with runningTimers := h.runningTimers.erase e }

/-- The handler when the timer of an entry was triggered, before its callback. -/
def expired (h : TimerHandler) (e : TimerRun) (t : TimerImpl) : TimerHandler :=
  { h.without e with timerList := h.timerList.set e.timerId { t with running := false } }

theorem trigger_eq {e : TimerRun} : (h.without e).trigger calls e.timerId t =
    if t.callback then (calls e.timerId (h.expired e t)).foldl TimerHandler.call (h.expired e t)
    else h.expired e t := rfl

/-- The calls of the callback of one turn of the loop of `step_all`, and of what comes `later`. -/
def TurnMeets (P : TimerHandler → TimerCall → Prop) (top : List TimerRun → Option TimerRun)
    (calls : Nat → TimerHandler → List TimerCall) (later : TimerHandler → Prop) (h : TimerHandler) : Prop :=
  ∀ next ∈ top h.runningTimers, ∀ t ∈ h.timerList[next.timerId]?,
    if t.isRunning = true ∧ next.timeout = t.timeout then
      next.timeout ≤ h.curTime →
        (t.callback = true → (h.expired next t).CallsMeet P (calls next.timerId (h.expired next t))) ∧
          later ((h.without next).trigger calls next.timerId t)
    else later (h.without next)

def LoopMeets (P : TimerHandler → TimerCall → Prop) (top : List TimerRun → Option TimerRun)
    (calls : Nat → TimerHandler → List TimerCall) : Nat → TimerHandler → Prop
  | 0, _ => True
  | fuel + 1, h => TurnMeets P top calls (LoopMeets P top calls fuel) h

/-- `step_all` moves the clock before its loop. -/
def ticked (h : TimerHandler) : TimerHandler := { h with curTime := (h.curTime + 1) % 2 ^ 32 }

/-- The calls of a run. -/
def OpsMeet (P : TimerHandler → TimerCall → Prop) (top : List TimerRun → Option TimerRun) :
    TimerHandler → List TimerOp → Prop
  | _, [] => True
  | h, .call c :: rest => P h c ∧ (h.call c).OpsMeet P top rest
  | h, .stepAll calls fuel :: rest =>
      LoopMeets P top calls fuel h.ticked ∧ ∀ last ∈ h.stepAll top calls fuel, last.2.OpsMeet P top rest

section Decidable

variable [∀ h c, Decidable (P h c)]

instance decidableCallsMeet : ∀ h cs, Decidable (CallsMeet P h cs)
  | _, [] => inferInstanceAs (Decidable True)
  | h, c :: rest =>
      have := decidableCallsMeet (h.call c) rest
      inferInstanceAs (Decidable (P h c ∧ (h.call c).CallsMeet P rest))

instance {later : TimerHandler → Prop} [DecidablePred later] : Decidable (TurnMeets P top calls later h) := by
  delta TurnMeets
  infer_instance

instance decidableLoopMeets : ∀ fuel, DecidablePred (LoopMeets P top calls fuel)
  | 0, _ => inferInstanceAs (Decidable True)
  | fuel + 1, h =>
      have := decidableLoopMeets fuel
      inferInstanceAs (Decidable (TurnMeets P top calls (LoopMeets P top calls fuel) h))

instance decidableOpsMeet : ∀ h ops, Decidable (OpsMeet P top h ops)
  | _, [] => inferInstanceAs (Decidable True)
  | h, .call c :: rest =>
      have := decidableOpsMeet (h.call c) rest
      inferInstanceAs (Decidable (P h c ∧ (h.call c).OpsMeet P top rest))
  | h, .stepAll calls fuel :: rest =>
      have (h' : TimerHandler) := decidableOpsMeet h' rest
      inferInstanceAs (Decidable (LoopMeets P top calls fuel h.ticked ∧
        ∀ last ∈ h.stepAll top calls fuel, last.2.OpsMeet P top rest))

end Decidable

/-! ### Two conditions -/

theorem CallsMeet.imp {cs : List TimerCall} (implies : ∀ h c, P h c → Q h c) (meets : h.CallsMeet P cs) :
    h.CallsMeet Q cs := by
  induction cs generalizing h with
  | nil => trivial
  | cons c rest ih => exact ⟨implies h c meets.1, ih meets.2⟩

theorem CallsMeet.and {cs : List TimerCall} (first : h.CallsMeet P cs) (second : h.CallsMeet Q cs) :
    h.CallsMeet (fun h c => P h c ∧ Q h c) cs := by
  induction cs generalizing h with
  | nil => trivial
  | cons c rest ih => exact ⟨⟨first.1, second.1⟩, ih first.2 second.2⟩

theorem LoopMeets.imp {fuel : Nat} (implies : ∀ h c, P h c → Q h c) (meets : LoopMeets P top calls fuel h) :
    LoopMeets Q top calls fuel h := by
  induction fuel generalizing h with
  | zero => trivial
  | succ fuel ih =>
      intro next first t here
      have turn := meets next first t here
      split at turn
      · rename_i valid
        rw [if_pos valid]
        exact fun due => ⟨fun callback => ((turn due).1 callback).imp implies, ih (turn due).2⟩
      · rename_i stale
        rw [if_neg stale]
        exact ih turn

theorem LoopMeets.and {fuel : Nat} (first : LoopMeets P top calls fuel h) (second : LoopMeets Q top calls fuel h) :
    LoopMeets (fun h c => P h c ∧ Q h c) top calls fuel h := by
  induction fuel generalizing h with
  | zero => trivial
  | succ fuel ih =>
      intro next shown t here
      have turn := first next shown t here
      have turn' := second next shown t here
      split at turn
      · rename_i valid
        rw [if_pos valid] at turn' ⊢
        exact fun due => ⟨fun callback => ((turn due).1 callback).and ((turn' due).1 callback),
          ih (turn due).2 (turn' due).2⟩
      · rename_i stale
        rw [if_neg stale] at turn' ⊢
        exact ih turn turn'

theorem OpsMeet.imp {ops : List TimerOp} (implies : ∀ h c, P h c → Q h c) (meets : h.OpsMeet P top ops) :
    h.OpsMeet Q top ops := by
  induction ops generalizing h with
  | nil => trivial
  | cons op rest ih =>
      cases op with
      | call c => exact ⟨implies h c meets.1, ih meets.2⟩
      | stepAll calls fuel => exact ⟨meets.1.imp implies, fun last ran => ih (meets.2 last ran)⟩

theorem OpsMeet.and {ops : List TimerOp} (first : h.OpsMeet P top ops) (second : h.OpsMeet Q top ops) :
    h.OpsMeet (fun h c => P h c ∧ Q h c) top ops := by
  induction ops generalizing h with
  | nil => trivial
  | cons op rest ih =>
      cases op with
      | call c => exact ⟨⟨first.1, second.1⟩, ih first.2 second.2⟩
      | stepAll calls fuel =>
          exact ⟨first.1.and second.1, fun last ran => ih (first.2 last ran) (second.2 last ran)⟩

theorem CallsMeet.all {cs : List TimerCall} (every : ∀ h c, P h c) : h.CallsMeet P cs := by
  induction cs generalizing h with
  | nil => trivial
  | cons c rest ih => exact ⟨every h c, ih⟩

theorem LoopMeets.callbacks {fuel : Nat} (every : ∀ i h, CallsMeet P h (calls i h)) :
    LoopMeets P top calls fuel h := by
  induction fuel generalizing h with
  | zero => trivial
  | succ fuel ih =>
      intro next first t here
      split
      · exact fun _ => ⟨fun _ => every _ _, ih⟩
      · exact ih

/-! ## One turn of the loop -/

variable {fuel : Nat} {ids : List Nat}

/-- The rule of the loop: it stops when the first entry is of the future, drops an entry that is no timer's
    any more, or triggers the timer of an entry. -/
theorem stepAllLoop_rule {R : TimerHandler → List Nat → TimerHandler → Prop}
    (stops : ∀ h : TimerHandler, (∀ e, top h.runningTimers = some e → h.curTime < e.timeout) → R h [] h)
    (drops : ∀ (h : TimerHandler) e t ids h', top h.runningTimers = some e → h.timerList[e.timerId]? = some t →
      ¬ (t.isRunning = true ∧ e.timeout = t.timeout) → R (h.without e) ids h' → R h ids h')
    (fires : ∀ (h : TimerHandler) e t ids h', top h.runningTimers = some e → h.timerList[e.timerId]? = some t →
      t.isRunning = true → e.timeout = t.timeout → e.timeout ≤ h.curTime →
      (t.callback = true → (h.expired e t).CallsMeet P (calls e.timerId (h.expired e t))) →
      R ((h.without e).trigger calls e.timerId t) ids h' → R h (e.timerId :: ids) h')
    (meets : LoopMeets P top calls fuel h) (ran : stepAllLoop top calls fuel h = some (ids, h')) : R h ids h' := by
  induction fuel generalizing h ids with
  | zero => cases ran
  | succ fuel ih =>
      rw [stepAllLoop] at ran
      cases first : top h.runningTimers with
      | none =>
          rw [first] at ran
          obtain ⟨rfl, rfl⟩ := Prod.mk.inj (Option.some.inj ran)
          refine stops h fun e shown => ?_
          rw [first] at shown
          cases shown
      | some e =>
          simp only [first] at ran
          split at ran
          · cases ran
          · rename_i t here
            have turn := meets e first t here
            split at ran
            · rename_i stale
              have stale' : ¬ (t.isRunning = true ∧ e.timeout = t.timeout) := fun valid => by
                simp [valid.1, valid.2] at stale
              rw [if_neg stale'] at turn
              exact drops h e t ids h' first here stale' (ih turn ran)
            · rename_i valid
              have valid' : t.isRunning = true ∧ e.timeout = t.timeout := by simpa using valid
              rw [if_pos valid'] at turn
              split at ran
              · rename_i future
                obtain ⟨rfl, rfl⟩ := Prod.mk.inj (Option.some.inj ran)
                refine stops h fun e' shown => ?_
                obtain rfl : e = e' := Option.some.inj (first.symm.trans shown)
                exact future
              · rename_i due
                obtain ⟨meets', later⟩ := turn (Nat.le_of_not_lt due)
                obtain ⟨⟨ids', last⟩, ranOn, same⟩ := Option.map_eq_some_iff.mp ran
                obtain ⟨rfl, rfl⟩ := Prod.mk.inj same
                exact fires h e t ids' last first here valid'.1 valid'.2 (Nat.le_of_not_lt due) meets'
                  (ih later ranOn)

theorem runOps_stepAll {ops : List TimerOp} {log : List (Nat × Nat)}
    (ran : h.runOps top (.stepAll calls fuel :: ops) = some (log, h')) :
    ∃ ids mid rest, h.stepAll top calls fuel = some (ids, mid) ∧ mid.runOps top ops = some (rest, h') ∧
      log = ids.map (fun id => (id, mid.curTime)) ++ rest := by
  rw [runOps] at ran
  split at ran
  · cases ran
  · rename_i ids mid stepped
    obtain ⟨⟨rest, last⟩, later, same⟩ := Option.map_eq_some_iff.mp ran
    obtain ⟨rfl, rfl⟩ := Prod.mk.inj same
    exact ⟨ids, mid, rest, stepped, later, rfl⟩

/-! ## Timers that are not active -/

/-- A timer that is not active does not run. -/
def Idle (h : TimerHandler) : Prop := ∀ t ∈ h.timerList, t.active = false → t.running = false

theorem start_idle : start.Idle := nofun

theorem Idle.setTimer (idle : h.Idle) {i : Nat} (own : t.active = false → t.running = false) :
    ({ h with timerList := h.timerList.set i t } : TimerHandler).Idle := by
  intro u member
  rcases List.mem_or_eq_of_mem_set member with old | rfl
  · exact idle u old
  · exact own

theorem Idle.modify (idle : h.Idle) {i : Nat} {f : TimerImpl → TimerImpl}
    (own : ∀ t, (t.active = false → t.running = false) → (f t).active = false → (f t).running = false) :
    ({ h with timerList := h.timerList.modify i f } : TimerHandler).Idle := by
  intro u member
  obtain ⟨j, there⟩ := List.mem_iff_getElem?.mp member
  rw [List.getElem?_modify] at there
  obtain ⟨t, here, rfl⟩ := Option.map_eq_some_iff.mp there
  have before := idle t (List.mem_of_getElem? here)
  split
  · exact own t before
  · exact before

theorem Idle.append (idle : h.Idle) : ({ h with timerList := h.timerList ++ [TimerImpl.fresh] } : TimerHandler).Idle := by
  intro u member
  rcases List.mem_append.mp member with old | new
  · exact idle u old
  · obtain rfl := List.mem_singleton.mp new
    exact fun _ => rfl

theorem Idle.run (idle : h.Idle) : (h.run id).Idle := by
  unfold TimerHandler.run
  split
  · exact idle
  · split
    · rename_i active
      refine idle.setTimer fun inactive => ?_
      rw [active] at inactive
      cases inactive
    · exact idle

theorem stopped_running (now : Nat) (t : TimerImpl) : (stopped now t).running = false := by
  unfold stopped
  dsimp only
  split <;> rfl

theorem Idle.call (idle : h.Idle) (c : TimerCall) : (h.call c).Idle := by
  cases c with
  | getUniqueTimer =>
      unfold TimerHandler.call TimerHandler.allocTimer
      dsimp only
      split
      · exact idle.append.modify fun t _ => nofun
      · exact idle.modify fun t _ => nofun
  | run i => exact idle.run
  | set i duration callback =>
      unfold TimerHandler.call TimerHandler.set
      dsimp only
      split
      · exact idle
      · rename_i t here
        have kept := idle.setTimer (i := i)
          (t := { t with duration := duration, callback := t.callback || callback })
          (idle t (List.mem_of_getElem? here))
        split
        · exact idle
        · split
          · exact kept.run
          · exact kept
  | stop i => exact idle.modify fun t _ _ => stopped_running h.curTime t
  | clear i => exact idle.modify fun t _ _ => stopped_running h.curTime t

theorem Idle.trigger (idle : h.Idle) {e : TimerRun} : ((h.without e).trigger calls e.timerId t).Idle := by
  have expired : (h.expired e t).Idle := Idle.setTimer (h := h.without e) idle fun _ => rfl
  have callAll (h : TimerHandler) (idle : h.Idle) (cs : List TimerCall) : (cs.foldl TimerHandler.call h).Idle := by
    induction cs generalizing h with
    | nil => exact idle
    | cons c rest ih => exact ih (h.call c) (idle.call c)
  rw [trigger_eq]
  split
  · exact callAll _ expired _
  · exact expired

/-! ## One timer that does not run -/

theorem run_other {i : Nat} (other : id ≠ i) : (h.run i).timerList[id]? = h.timerList[id]? := by
  unfold TimerHandler.run
  split
  · rfl
  · split
    · exact List.getElem?_set_ne (Ne.symm other)
    · rfl

def Silent (h : TimerHandler) (id : Nat) : Prop := ∀ t, h.timerList[id]? = some t → t.isRunning = false

/-- A timer that becomes active does not run. -/
theorem Silent.activate (silent : h.Silent id) (idle : h.Idle) {i : Nat} :
    ({ h with timerList := h.timerList.modify i fun t => { t with active := true } } : TimerHandler).Silent id := by
  intro u there
  rw [List.getElem?_modify] at there
  obtain ⟨t, here, rfl⟩ := Option.map_eq_some_iff.mp there
  have still := silent t here
  split
  · cases active : t.active with
    | true => simpa [TimerImpl.isRunning, active] using still
    | false => simp [TimerImpl.isRunning, idle t (List.mem_of_getElem? here) active]
  · exact still

theorem Silent.append (silent : h.Silent id) :
    ({ h with timerList := h.timerList ++ [TimerImpl.fresh] } : TimerHandler).Silent id := by
  intro u there
  rw [List.getElem?_append] at there
  split at there
  · exact silent u there
  · obtain rfl := List.mem_singleton.mp (List.mem_of_getElem? there)
    rfl

theorem Silent.call (silent : h.Silent id) (idle : h.Idle) (notRun : c ≠ .run id) : (h.call c).Silent id := by
  cases c with
  | getUniqueTimer =>
      unfold TimerHandler.call TimerHandler.allocTimer
      dsimp only
      split
      · exact silent.append.activate idle.append
      · exact silent.activate idle
  | run i =>
      have other : id ≠ i := by
        rintro rfl
        exact notRun rfl
      exact fun u there => silent u ((run_other other).symm.trans there)
  | set i duration callback =>
      intro u there
      unfold TimerHandler.call TimerHandler.set at there
      dsimp only at there
      split at there
      · exact silent u there
      · rename_i t here
        have below := (List.getElem?_eq_some_iff.mp here).1
        split at there
        · exact silent u there
        · by_cases same : i = id
          · subst same
            have still : TimerImpl.isRunning { t with duration := duration, callback := t.callback || callback } =
                false := silent t here
            rw [still, if_neg Bool.false_ne_true, List.getElem?_set_self below] at there
            obtain rfl := Option.some.inj there
            exact still
          · split at there
            · rw [run_other (Ne.symm same), List.getElem?_set_ne same] at there
              exact silent u there
            · rw [List.getElem?_set_ne same] at there
              exact silent u there
  | stop i | clear i =>
      intro u there
      unfold TimerHandler.call at there
      simp only [TimerHandler.stop, TimerHandler.clear, List.getElem?_modify] at there
      obtain ⟨t, before, rfl⟩ := Option.map_eq_some_iff.mp there
      split
      · simp [TimerImpl.isRunning, stopped_running]
      · exact silent t before

theorem Silent.callAll {cs : List TimerCall} (silent : h.Silent id) (idle : h.Idle)
    (notRun : h.CallsMeet (fun _ c => c ≠ .run id) cs) : (cs.foldl TimerHandler.call h).Silent id := by
  induction cs generalizing h with
  | nil => exact silent
  | cons c rest ih => exact ih (silent.call idle notRun.1) (idle.call c) notRun.2

theorem Silent.fires (silent : h.Silent id) {e : TimerRun} (here : h.timerList[e.timerId]? = some t)
    (runs : t.isRunning = true) : id ≠ e.timerId ∧ (h.expired e t).Silent id := by
  have other : id ≠ e.timerId := by
    rintro rfl
    rw [silent t here] at runs
    cases runs
  exact ⟨other, fun u there => silent u ((List.getElem?_set_ne (Ne.symm other)).symm.trans there)⟩

theorem Silent.trigger (idle : h.Idle) {e : TimerRun} (before : (h.expired e t).Silent id)
    (notRun : t.callback = true →
      (h.expired e t).CallsMeet (fun _ c => c ≠ .run id) (calls e.timerId (h.expired e t))) :
    ((h.without e).trigger calls e.timerId t).Silent id := by
  rw [trigger_eq]
  split
  · rename_i callback
    exact before.callAll (Idle.setTimer (h := h.without e) idle fun _ => rfl) (notRun callback)
  · exact before

/-- A timer that does not run is not triggered. -/
theorem stepAllLoop_silent (notRun : LoopMeets (fun _ c => c ≠ .run id) top calls fuel h)
    (ran : stepAllLoop top calls fuel h = some (ids, h')) (idle : h.Idle) (silent : h.Silent id) :
    id ∉ ids ∧ h'.Idle ∧ h'.Silent id := by
  refine stepAllLoop_rule (R := fun h ids h' => h.Idle → h.Silent id → id ∉ ids ∧ h'.Idle ∧ h'.Silent id)
    ?_ ?_ ?_ notRun ran idle silent
  · intro h future idle silent
    exact ⟨List.not_mem_nil, idle, silent⟩
  · intro h e t ids h' first here stale rest idle silent
    exact rest idle silent
  · intro h e t ids h' first here runs same due notRun rest idle silent
    obtain ⟨other, before⟩ := silent.fires here runs
    obtain ⟨absent, later⟩ := rest idle.trigger (before.trigger idle notRun)
    exact ⟨List.not_mem_cons_of_ne_of_not_mem other absent, later⟩

/-! ## A run -/

variable {ops before after : List TimerOp} {log past : List (Nat × Nat)}

theorem stepAllLoop_idle (ran : stepAllLoop top calls fuel h = some (ids, h')) (idle : h.Idle) : h'.Idle := by
  refine stepAllLoop_rule (R := fun h _ h' => h.Idle → h'.Idle) ?_ ?_ ?_
    (LoopMeets.callbacks fun _ _ => CallsMeet.all fun _ _ => trivial) ran idle
  · exact fun h future idle => idle
  · exact fun h e t ids h' first here stale rest idle => rest idle
  · exact fun h e t ids h' first here runs same due meets rest idle => rest idle.trigger

theorem runOps_idle (idle : h.Idle) (ran : h.runOps top ops = some (log, h')) : h'.Idle := by
  induction ops generalizing h log with
  | nil =>
      obtain ⟨rfl, rfl⟩ := Prod.mk.inj (Option.some.inj ran)
      exact idle
  | cons op rest ih =>
      cases op with
      | call c => exact ih (idle.call c) ran
      | stepAll calls fuel =>
          obtain ⟨ids, mid, log', stepped, ranOn, -⟩ := runOps_stepAll ran
          exact ih (stepAllLoop_idle (h := h.ticked) stepped idle) ranOn

theorem runOps_silent (idle : h.Idle) (silent : h.Silent id) (notRun : h.OpsMeet (fun _ c => c ≠ .run id) top ops)
    (ran : h.runOps top ops = some (log, h')) : ∀ fired ∈ log, fired.1 ≠ id := by
  induction ops generalizing h log with
  | nil =>
      obtain ⟨rfl, rfl⟩ := Prod.mk.inj (Option.some.inj ran)
      exact nofun
  | cons op rest ih =>
      cases op with
      | call c => exact ih (idle.call c) (silent.call idle notRun.1) notRun.2 ran
      | stepAll calls fuel =>
          obtain ⟨ids, mid, log', stepped, ranOn, rfl⟩ := runOps_stepAll ran
          obtain ⟨absent, idle', silent'⟩ := stepAllLoop_silent (h := h.ticked) notRun.1 stepped idle silent
          intro fired inside
          rcases List.mem_append.mp inside with now | later
          · obtain ⟨i, member, rfl⟩ := List.mem_map.mp now
            rintro rfl
            exact absent member
          · exact ih idle' silent' (notRun.2 (ids, mid) stepped) ranOn fired later

/-- A timer that is stopped or cleared does not fire until it is run again. -/
theorem stays_silent (ranBefore : start.runOps top before = some (past, h)) {c : TimerCall}
    (stops : c = .stop id ∨ c = .clear id) (notRun : (h.call c).OpsMeet (fun _ c => c ≠ .run id) top after)
    (ran : (h.call c).runOps top after = some (log, h')) : ∀ fired ∈ log, fired.1 ≠ id := by
  have idle := (runOps_idle start_idle ranBefore).call c
  have silent : (h.call c).Silent id := by
    intro u there
    rcases stops with rfl | rfl
    all_goals
      simp only [TimerHandler.call, TimerHandler.stop, TimerHandler.clear, List.getElem?_modify] at there
      obtain ⟨t, -, rfl⟩ := Option.map_eq_some_iff.mp there
      simp [TimerImpl.isRunning, stopped_running]
  exact runOps_silent idle silent notRun ran

/-- The entry of the cleared timer is still in the queue when its id is given to the next user, who sets the timer
    and does not run it. Another timer is run again by its callback. -/
theorem stays_silent_cleared : ∃ h h' log,
    start.runOps (PriorityQueue.firstTop TimerRun.less)
      [.call .getUniqueTimer, .call .getUniqueTimer, .call (.set 0 2 true), .call (.set 1 1 true), .call (.run 0),
        .call (.run 1)] = some ([], h) ∧
    (h.call (.clear 0)).runOps (PriorityQueue.firstTop TimerRun.less)
      [.call .getUniqueTimer, .call (.set 0 2 true), .stepAll (fun i _ => [.run i]) 4,
        .stepAll (fun i _ => [.run i]) 4] = some (log, h') ∧
    log = [(1, 1), (1, 2)] ∧ ∀ fired ∈ log, fired.1 ≠ 0 := by
  have ranBefore : start.runOps (PriorityQueue.firstTop TimerRun.less)
      [.call .getUniqueTimer, .call .getUniqueTimer, .call (.set 0 2 true), .call (.set 1 1 true), .call (.run 0),
        .call (.run 1)] =
      some ([], ⟨[⟨2, 2, true, true, true⟩, ⟨1, 1, true, true, true⟩], [⟨0, 2⟩, ⟨1, 1⟩], 0⟩) := rfl
  have ran : (TimerHandler.call ⟨[⟨2, 2, true, true, true⟩, ⟨1, 1, true, true, true⟩], [⟨0, 2⟩, ⟨1, 1⟩], 0⟩
      (.clear 0)).runOps (PriorityQueue.firstTop TimerRun.less)
        [.call .getUniqueTimer, .call (.set 0 2 true), .stepAll (fun i _ => [.run i]) 4,
          .stepAll (fun i _ => [.run i]) 4] =
      some ([(1, 1), (1, 2)], ⟨[⟨2, 0, false, true, true⟩, ⟨1, 3, true, true, true⟩], [⟨1, 3⟩], 2⟩) := by
    decide +kernel
  exact ⟨_, _, _, ranBefore, ran, rfl, stays_silent ranBefore (.inr rfl) (by decide +kernel) ran⟩

end SonicaEnb.TimerHandler
