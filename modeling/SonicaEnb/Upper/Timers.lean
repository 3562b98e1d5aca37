import Mathlib.Algebra.Ring.Nat
import Mathlib.Data.List.Basic
import SonicaEnb.Lib.PriorityQueue

/-! # The timers of the stack

`srslte::timer_handler`: timers that the thread of the stack moves on by one tick in every
`tti_clock_impl`. The timers that run are also entries of a priority queue. A timer that is
stopped or run again leaves its entry where it is; it is sorted out when it gets to the top.
Times are `uint32_t`.
-/

namespace SonicaEnb

def maxTimerDuration : Nat := (2 ^ 32 - 1) / 4
def maxTimerValue : Nat := (2 ^ 32 - 1) / 2

/-- `timer_handler::timer_impl`, with `callback` set or not. -/
structure TimerImpl where
  duration : Nat
  timeout : Nat
  running : Bool
  active : Bool
  callback : Bool
  deriving Repr, DecidableEq

def TimerImpl.fresh : TimerImpl :=
  { duration := 0, timeout := 0, running := false, active := false, callback := false }

def TimerImpl.isRunning (t : TimerImpl) : Bool := t.active && t.running && decide (0 < t.timeout)

def TimerImpl.isExpired (t : TimerImpl) (curTime : Nat) : Bool :=
  t.active && !t.running && decide (0 < t.timeout) && decide (t.timeout ≤ curTime)

/-- `timer_handler::timer_run` -/
structure TimerRun where
  timerId : Nat
  timeout : Nat
  deriving Repr, DecidableEq

/-- `timer_run::operator<` -/
def TimerRun.less (a b : TimerRun) : Bool :=
  if b.timeout < a.timeout then decide (a.timeout - b.timeout < maxTimerValue / 2)
  else decide (maxTimerValue / 2 < b.timeout - a.timeout)

/-- `running_timers` is a bag of entries; what it shows is the `top` of `step_all`. -/
structure TimerHandler where
  timerList : List TimerImpl
  runningTimers : List TimerRun
  curTime : Nat
  deriving Repr, DecidableEq

/-- The calls of the users of a timer. `set` without a callback keeps the one that is set; `clear` is also
    what happens to a timer that its user drops. -/
inductive TimerCall where
  | getUniqueTimer
  | set (id duration : Nat) (callback : Bool)
  | run (id : Nat)
  | stop (id : Nat)
  | clear (id : Nat)
  deriving Repr, DecidableEq

namespace TimerHandler

def start : TimerHandler := { timerList := [], runningTimers := [], curTime := 0 }

/-- `alloc_timer`, which answers the first timer that is not active. -/
def allocTimer (h : TimerHandler) : Nat × TimerHandler :=
  let i := h.timerList.findIdx fun t => !t.active
  let timerList := if i = h.timerList.length then h.timerList ++ [TimerImpl.fresh] else h.timerList
  (i, { h with timerList := timerList.modify i fun t => { t with active := true } })

/-- `timer_impl::run` -/
def run (h : TimerHandler) (id : Nat) : TimerHandler :=
  match h.timerList[id]? with
  | none => h
  | some t =>
      if t.active then
        let timeout := (h.curTime + t.duration) % 2 ^ 32
        { h with
          timerList := h.timerList.set id { t with timeout := timeout, running := true }
          runningTimers := h.runningTimers ++ [⟨id, timeout⟩] }
      else h

/-- `timer_impl::set`, both of them. -/
def set (h : TimerHandler) (id duration : Nat) (callback : Bool) : TimerHandler :=
  match h.timerList[id]? with
  | none => h
  | some t =>
      if maxTimerDuration < duration || !t.active then h
      else
        let t := { t with duration := duration, callback := t.callback || callback }
        let h := { h with timerList := h.timerList.set id t }
        if t.isRunning then h.run id else h

/-- `timer_impl::stop` -/
def stopped (curTime : Nat) (t : TimerImpl) : TimerImpl :=
  let t := { t with running := false }
  if t.isExpired curTime then t else { t with timeout := 0 }

def stop (h : TimerHandler) (id : Nat) : TimerHandler :=
  { h with timerList := h.timerList.modify id (stopped h.curTime) }

def clear (h : TimerHandler) (id : Nat) : TimerHandler :=
  { h with timerList := h.timerList.modify id fun t =>
      { stopped h.curTime t with duration := 0, active := false, callback := false } }

def call (h : TimerHandler) : TimerCall → TimerHandler
  | .getUniqueTimer => h.allocTimer.2
  | .set id duration callback => h.set id duration callback
  | .run id => h.run id
  | .stop id => h.stop id
  | .clear id => h.clear id

/-- `timer_impl::trigger` of a timer that runs: its callback sees the timers and makes some calls. -/
def trigger (calls : Nat → TimerHandler → List TimerCall) (h : TimerHandler) (id : Nat) (t : TimerImpl) :
    TimerHandler :=
  let h := { h with timerList := h.timerList.set id { t with running := false } }
  if t.callback then (calls id h).foldl call h else h

/-- The loop of `step_all`, for `fuel` turns at most, with the timers that it triggers in order. -/
def stepAllLoop (top : List TimerRun → Option TimerRun) (calls : Nat → TimerHandler → List TimerCall) :
    Nat → TimerHandler → Option (List Nat × TimerHandler)
  | 0, _ => none
  | fuel + 1, h =>
      match top h.runningTimers with
      | none => some ([], h)
      | some next =>
          match h.timerList[next.timerId]? with
          | none => none
          | some t =>
              let rest := { h with runningTimers := h.runningTimers.erase next }
              if !t.isRunning || next.timeout != t.timeout then stepAllLoop top calls fuel rest
              else if h.curTime < next.timeout then some ([], h)
              else (stepAllLoop top calls fuel (trigger calls rest next.timerId t)).map fun (ids, last) =>
                (next.timerId :: ids, last)

/-- `step_all`. The callbacks differ from one tick to the next. -/
def stepAll (top : List TimerRun → Option TimerRun) (calls : Nat → TimerHandler → List TimerCall) (fuel : Nat)
    (h : TimerHandler) : Option (List Nat × TimerHandler) :=
  stepAllLoop top calls fuel { h with curTime := (h.curTime + 1) % 2 ^ 32 }

end TimerHandler

/-- What happens to the timers. -/
inductive TimerOp where
  | call (c : TimerCall)
  | stepAll (calls : Nat → TimerHandler → List TimerCall) (fuel : Nat)

/-- A run, with the timers that were triggered and the times of this. -/
def TimerHandler.runOps (top : List TimerRun → Option TimerRun) :
    TimerHandler → List TimerOp → Option (List (Nat × Nat) × TimerHandler)
  | h, [] => some ([], h)
  | h, .call c :: rest => (h.call c).runOps top rest
  | h, .stepAll calls fuel :: rest =>
      match h.stepAll top calls fuel with
      | none => none
      | some (ids, h') =>
          (h'.runOps top rest).map fun (log, last) => (ids.map (fun id => (id, h'.curTime)) ++ log, last)

end SonicaEnb
