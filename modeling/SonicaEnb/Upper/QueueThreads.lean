import SonicaEnb.Lib.Interleave
import SonicaEnb.Upper.Multiqueue

/-! # Threads at the queues

Any number of threads push tasks and one thread, that of the stack, takes them. A step is
one locked section or one notification of a thread, and the steps come in any order. A
thread that waits may also be woken for no reason. The queues were added before the
threads run, and `reset`, which is for the destructor, is left out: `running` stays set.
-/

namespace SonicaEnb

/-- A thread that pushes: `notifying` is behind the locked section, before `cv_empty.notify_one`; `woken`
    is back from `cv_full.wait` without the lock yet. -/
inductive PusherPc (α : Type) where
  | idle | waiting (qIdx : Nat) (value : α) | woken (qIdx : Nat) (value : α) | notifying
  deriving Repr, DecidableEq

/-- The thread that takes the tasks: `idle` is outside of `wait_pop`. -/
inductive PopperPc where
  | idle | waiting | woken | notifying
  deriving Repr, DecidableEq

/-- The last two fields are a record of the run: the tasks in the order in which the queues took them and
    in the order in which they were taken out. -/
structure QueueThreads (n : Nat) (α : Type) where
  handler : MultiqueueHandler α
  pusher : Fin n → PusherPc α
  popper : PopperPc
  accepted : List (Nat × α)
  popped : List (Nat × α)

/-- What a thread that is inside a call can do next. `notifyFull` names the thread that is woken. -/
inductive QueueTurn (n : Nat) where
  | resume (id : Fin n)
  | notifyEmpty (id : Fin n)
  | pop
  | notifyFull (id : Option (Fin n))
  deriving Repr, DecidableEq

inductive QueueAction (n : Nat) (α : Type) where
  | turn (turn : QueueTurn n)
  | push (id : Fin n) (qIdx : Nat) (value : α)
  | tryPush (id : Fin n) (qIdx : Nat) (value : α)
  | eraseQueue (qIdx : Nat)
  | wake (id : Fin n)
  | wakePopper
  deriving Repr, DecidableEq

namespace QueueThreads

variable {n : Nat} {α : Type}

/-- After `k` calls of `add_queue`. -/
def start [Inhabited α] (n capacity k : Nat) : QueueThreads n α :=
  { handler := MultiqueueHandler.withQueues capacity k, pusher := fun _ => .idle, popper := .idle
    accepted := [], popped := [] }

def goes (s : QueueThreads n α) (id : Fin n) (pc : PusherPc α) : QueueThreads n α :=
  { s with pusher := Function.update s.pusher id pc }

def enterWait (s : QueueThreads n α) : QueueThreads n α :=
  { s with handler := { s.handler with nofThreadsWaiting := s.handler.nofThreadsWaiting + 1 } }

def leaveWait (s : QueueThreads n α) : QueueThreads n α :=
  { s with handler := { s.handler with nofThreadsWaiting := s.handler.nofThreadsWaiting - 1 } }

/-- `push` with the lock, from the condition of its loop on. The `cv_exit` that it notifies is for
    `reset`. -/
def pushTurn (s : QueueThreads n α) (id : Fin n) (qIdx : Nat) (value : α) : QueueThreads n α :=
  if s.handler.isQueueActive qIdx && s.handler.isFull qIdx then s.enterWait.goes id (.waiting qIdx value)
  else if !s.handler.isQueueActive qIdx then s.goes id .idle
  else
    { s.goes id .notifying with
      handler := s.handler.pushTo qIdx value
      accepted := s.accepted ++ [(qIdx, value)] }

def tryPush (s : QueueThreads n α) (id : Fin n) (qIdx : Nat) (value : α) : QueueThreads n α :=
  match s.handler.tryPush qIdx value with
  | (false, _) => s
  | (true, handler) =>
      { s.goes id .notifying with handler := handler, accepted := s.accepted ++ [(qIdx, value)] }

/-- `wait_pop` with the lock. -/
def popTurn (s : QueueThreads n α) : QueueThreads n α :=
  match s.handler.roundRobinPop with
  | (none, handler) => { ({ s with handler := handler } : QueueThreads n α).enterWait with popper := .waiting }
  | (some value, handler) =>
      { s with
        handler := handler
        popped := s.popped ++ [(handler.spinIdx, value)]
        popper := if 0 < handler.nofThreadsWaiting then .notifying else .idle }

def waitsAt (s : QueueThreads n α) (qIdx : Nat) (id : Fin n) : Bool :=
  match s.pusher id with
  | .waiting q _ => q == qIdx
  | _ => false

/-- A thread that waits is woken; the others do not notice. -/
def wakePusher (s : QueueThreads n α) (id : Fin n) : QueueThreads n α :=
  match s.pusher id with
  | .waiting q v => s.goes id (.woken q v)
  | _ => s

def wakePopper (s : QueueThreads n α) : QueueThreads n α :=
  if s.popper = .waiting then { s with popper := .woken } else s

def stepTurn (s : QueueThreads n α) : QueueTurn n → Option (QueueThreads n α)
  | .resume id =>
      match s.pusher id with
      | .woken q v => some (s.leaveWait.pushTurn id q v)
      | _ => none
  | .notifyEmpty id =>
      match s.pusher id with
      | .notifying => some (s.goes id .idle).wakePopper
      | _ => none
  | .pop =>
      match s.popper with
      | .idle => some s.popTurn
      | .woken => some s.leaveWait.popTurn
      | _ => none
  | .notifyFull none =>
      if s.popper = .notifying ∧ ∀ id, s.waitsAt s.handler.spinIdx id = false then
        some { s with popper := .idle }
      else none
  | .notifyFull (some id) =>
      if s.popper = .notifying ∧ s.waitsAt s.handler.spinIdx id = true then
        some { s.wakePusher id with popper := .idle }
      else none

def step (s : QueueThreads n α) : QueueAction n α → Option (QueueThreads n α)
  | .turn turn => s.stepTurn turn
  | .push id q v =>
      match s.pusher id with
      | .idle => if q < s.handler.queues.length then some (s.pushTurn id q v) else none
      | _ => none
  | .tryPush id q v =>
      match s.pusher id with
      | .idle => if q < s.handler.queues.length then some (s.tryPush id q v) else none
      | _ => none
  | .eraseQueue q =>
      if q < s.handler.queues.length then some { s with handler := s.handler.eraseQueue q } else none
  | .wake id => some (s.wakePusher id)
  | .wakePopper => some s.wakePopper

def run (s : QueueThreads n α) (actions : List (QueueAction n α)) : Option (QueueThreads n α) :=
  Interleaved.run step s actions

/-- What the threads do on their own: no call begins, and no thread wakes up for no reason. -/
def runTurns (s : QueueThreads n α) (turns : List (QueueTurn n)) : Option (QueueThreads n α) :=
  Interleaved.run stepTurn s turns

end QueueThreads

end SonicaEnb
