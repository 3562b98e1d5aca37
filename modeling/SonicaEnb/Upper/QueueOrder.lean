import SonicaEnb.Upper.QueueThreads

/-! # The order of the tasks

Whatever the order of the steps, each queue is a queue: what was taken out of it and what
it still holds is what it accepted, in that order. And no queue is forgotten: a task is
taken out after a bounded number of tasks of all queues.
-/

namespace SonicaEnb

namespace QueueThreads

variable {n : Nat} {α : Type} {s s' t : QueueThreads n α}

/-- The tasks of one queue in a record. -/
def onQueue (log : List (Nat × α)) (q : Nat) : List α :=
  log.filterMap fun task => if task.1 = q then some task.2 else none

theorem onQueue_self (log : List (Nat × α)) (q : Nat) (v : α) :
    onQueue (log ++ [(q, v)]) q = onQueue log q ++ [v] := by
  simp [onQueue]

theorem onQueue_other {log : List (Nat × α)} {q j : Nat} {v : α} (other : j ≠ q) :
    onQueue (log ++ [(q, v)]) j = onQueue log j := by
  simp [onQueue, Ne.symm other]

/-! ## What a step does to the queues -/

/-- The handler, but for the number of threads that wait. -/
def waitingWith (m : MultiqueueHandler α) (k : Nat) : MultiqueueHandler α := { m with nofThreadsWaiting := k }

inductive Moves (s s' : QueueThreads n α) : Prop where
  | quiet (k : Nat) (handler : s'.handler = waitingWith s.handler k) (accepted : s'.accepted = s.accepted)
      (popped : s'.popped = s.popped)
  | accepts (k q : Nat) (v : α) (active : s.handler.isQueueActive q = true) (room : s.handler.isFull q = false)
      (handler : s'.handler = (waitingWith s.handler k).pushTo q v)
      (accepted : s'.accepted = s.accepted ++ [(q, v)]) (popped : s'.popped = s.popped)
  | takes (k q : Nat) (v : α)
      (turn : (Circular.turns s.handler.queues.length s.handler.spinIdx).find? s.handler.ready = some q)
      (first : (s.handler.contents q).head? = some v)
      (handler : s'.handler = (waitingWith s.handler k).popped q) (accepted : s'.accepted = s.accepted)
      (popped : s'.popped = s.popped ++ [(q, v)])
  | erases (q : Nat) (active : s.handler.isQueueActive q = true)
      (handler : s'.handler = s.handler.eraseQueue q) (accepted : s'.accepted = s.accepted)
      (popped : s'.popped = s.popped)

theorem Moves.same (handler : s'.handler = s.handler) (accepted : s'.accepted = s.accepted)
    (popped : s'.popped = s.popped) : Moves s s' :=
  .quiet s.handler.nofThreadsWaiting handler accepted popped

theorem wakePusher_moves (id : Fin n) : Moves s (s.wakePusher id) := by
  unfold wakePusher
  split <;> exact .same rfl rfl rfl

theorem wakePopper_moves : Moves s s.wakePopper := by
  unfold wakePopper
  split <;> exact .same rfl rfl rfl

theorem pushTurn_moves (k : Nat) (same : s.handler = waitingWith t.handler k)
    (accepted : s.accepted = t.accepted)
    (popped : s.popped = t.popped) (id : Fin n) (q : Nat) (v : α) : Moves t (s.pushTurn id q v) := by
  unfold pushTurn
  split
  · exact .quiet (k + 1) (by simp [goes, enterWait, same, waitingWith]) accepted popped
  · rename_i free
    split
    · exact .quiet k same accepted popped
    · rename_i active
      rw [same] at free active
      have active' : t.handler.isQueueActive q = true := by
        rw [Bool.not_eq_true', Bool.not_eq_false] at active
        exact active
      have room : t.handler.isFull q = false := by
        rw [Bool.and_eq_true, not_and] at free
        exact Bool.eq_false_iff.mpr (free active')
      exact .accepts k q v active' room (by rw [same]) (by rw [accepted]) popped

theorem tryPush_moves (id : Fin n) (q : Nat) (v : α) : Moves s (s.tryPush id q v) := by
  unfold tryPush MultiqueueHandler.tryPush
  split
  · exact .same rfl rfl rfl
  · rename_i handler taken
    split at taken
    · cases taken
    · rename_i free
      obtain rfl : s.handler.pushTo q v = handler := (Prod.ext_iff.mp taken).2
      rw [Bool.or_eq_true, not_or] at free
      exact .accepts s.handler.nofThreadsWaiting q v (by simpa using free.1) (by simpa using free.2) rfl rfl rfl

theorem popTurn_moves (k : Nat) (same : s.handler = waitingWith t.handler k)
    (accepted : s.accepted = t.accepted)
    (popped : s.popped = t.popped) (served : t.handler.spinIdx < t.handler.queues.length) :
    Moves t s.popTurn := by
  have pop := MultiqueueHandler.roundRobinPop_eq (m := s.handler) (by rw [same]; exact served)
  unfold popTurn
  rw [pop]
  cases found : (Circular.turns s.handler.queues.length s.handler.spinIdx).find? s.handler.ready with
  | none => exact .quiet (k + 1) (by simp [enterWait, same, waitingWith]) accepted popped
  | some q =>
      obtain ⟨-, able, -⟩ := Circular.turns_found (by rw [same]; exact served) found
      obtain ⟨v, rest, holds⟩ := MultiqueueHandler.head_of_ready able
      simp only [holds, List.head?_cons]
      rw [same] at found holds
      exact .takes k q v found (by rw [show t.handler.contents q = v :: rest from holds]; rfl)
        (by rw [same]) accepted (by rw [popped]; rfl)

theorem stepTurn_moves {turn : QueueTurn n} (served : s.handler.spinIdx < s.handler.queues.length)
    (stepped : s.stepTurn turn = some s') : Moves s s' := by
  cases turn with
  | resume id =>
      simp only [stepTurn] at stepped
      split at stepped
      · cases stepped
        exact pushTurn_moves (s := s.leaveWait) _ rfl rfl rfl id _ _
      · cases stepped
  | notifyEmpty id =>
      simp only [stepTurn] at stepped
      split at stepped
      · cases stepped
        unfold wakePopper
        split <;> exact .same rfl rfl rfl
      · cases stepped
  | pop =>
      simp only [stepTurn] at stepped
      split at stepped
      · cases stepped
        exact popTurn_moves s.handler.nofThreadsWaiting rfl rfl rfl served
      · cases stepped
        exact popTurn_moves (t := s) _ rfl rfl rfl served
      · cases stepped
  | notifyFull id =>
      cases id with
      | none =>
          simp only [stepTurn] at stepped
          split at stepped
          · cases stepped
            exact .same rfl rfl rfl
          · cases stepped
      | some id =>
          simp only [stepTurn] at stepped
          split at stepped
          · cases stepped
            unfold wakePusher
            split <;> exact .same rfl rfl rfl
          · cases stepped

theorem moves_of_step {action : QueueAction n α} (served : s.handler.spinIdx < s.handler.queues.length)
    (stepped : s.step action = some s') : Moves s s' := by
  cases action with
  | turn turn => exact stepTurn_moves served stepped
  | push id q v =>
      simp only [step] at stepped
      split at stepped
      · split at stepped
        · cases stepped
          exact pushTurn_moves s.handler.nofThreadsWaiting rfl rfl rfl id q v
        · cases stepped
      · cases stepped
  | tryPush id q v =>
      simp only [step] at stepped
      split at stepped
      · split at stepped
        · cases stepped
          exact tryPush_moves id q v
        · cases stepped
      · cases stepped
  | eraseQueue q =>
      simp only [step] at stepped
      split at stepped
      · cases stepped
        by_cases active : s.handler.isQueueActive q = true
        · exact .erases q active rfl rfl rfl
        · have same : s.handler.eraseQueue q = s.handler := if_neg active
          exact .same same rfl rfl
      · cases stepped
  | wake id =>
      cases stepped
      exact wakePusher_moves id
  | wakePopper =>
      cases stepped
      exact wakePopper_moves

theorem Moves.length (moves : Moves s s') : s'.handler.queues.length = s.handler.queues.length := by
  cases moves with
  | quiet k handler => rw [handler]; rfl
  | accepts k q v _ _ handler => simp [handler, MultiqueueHandler.pushTo, waitingWith]
  | takes k q v _ _ handler => simp [handler, MultiqueueHandler.popped, waitingWith]
  | erases q _ handler => simp [handler]

theorem Moves.capacity (moves : Moves s s') : s'.handler.capacity = s.handler.capacity := by
  cases moves with
  | quiet k handler | accepts k q v _ _ handler | takes k q v _ _ handler => rw [handler]; rfl
  | erases q _ handler =>
      rw [handler]
      unfold MultiqueueHandler.eraseQueue
      split <;> rfl

/-- A queue that was erased stays erased. -/
theorem Moves.active (moves : Moves s s') {j : Nat} (active : s'.handler.isQueueActive j = true) :
    s.handler.isQueueActive j = true := by
  cases moves with
  | quiet k handler => rw [handler] at active; exact active
  | accepts k q v _ _ handler =>
      rw [handler, MultiqueueHandler.isQueueActive_pushTo] at active
      exact active
  | takes k q v _ _ handler =>
      rw [handler, MultiqueueHandler.isQueueActive_popped] at active
      exact active
  | erases q erased handler =>
      rw [handler, (MultiqueueHandler.eraseQueue_active erased).2] at active
      by_cases here : j = q
      · rw [here]
        exact erased
      · rwa [Function.update_of_ne here] at active

theorem Moves.accepted (moves : Moves s s') : s.accepted <+: s'.accepted := by
  cases moves with
  | quiet k _ accepted | takes k q v _ _ _ accepted | erases q _ _ accepted => rw [accepted]
  | accepts k q v _ _ _ accepted => rw [accepted]; exact List.prefix_append _ _

/-! ## What every interleaving keeps -/

/-- The queues and the record. A queue that was erased is closed: it may have had tasks that nobody
    takes. -/
structure Fifo (capacity : Nat) (s : QueueThreads n α) : Prop where
  served : s.handler.spinIdx < s.handler.queues.length
  sized : s.handler.capacity = capacity
  bounded : s.handler.Bounded
  open' : ∀ q, s.handler.isQueueActive q = true →
    onQueue s.accepted q = onQueue s.popped q ++ s.handler.contents q
  closed : ∀ q, s.handler.isQueueActive q = false →
    s.handler.contents q = [] ∧ onQueue s.popped q <+: onQueue s.accepted q

variable {capacity : Nat}

theorem start_fifo [Inhabited α] {k : Nat} (pos : 0 < k) :
    (start n capacity k : QueueThreads n α).Fifo capacity where
  served := by simp [start, MultiqueueHandler.withQueues_eq, pos]
  sized := by simp [start, MultiqueueHandler.withQueues_eq]
  bounded := MultiqueueHandler.bounded_withQueues
  open' q _ := by simp [start, onQueue, MultiqueueHandler.contents_withQueues]
  closed q _ := by simp [start, onQueue, MultiqueueHandler.contents_withQueues]

/-- A step that changes one queue. -/
theorem Fifo.atQueue (fifo : s.Fifo capacity) (moves : Moves s s') {q : Nat} {l : List α}
    (active : s.handler.isQueueActive q = true)
    (served : s'.handler.spinIdx < s'.handler.queues.length) (bounded : s'.handler.Bounded)
    (same : s'.handler.isQueueActive = s.handler.isQueueActive)
    (holds : s'.handler.contents = Function.update s.handler.contents q l)
    (others : ∀ j, j ≠ q → onQueue s'.accepted j = onQueue s.accepted j ∧
      onQueue s'.popped j = onQueue s.popped j)
    (own : onQueue s'.accepted q = onQueue s'.popped q ++ l) : s'.Fifo capacity where
  served := served
  sized := moves.capacity.trans fifo.sized
  bounded := bounded
  open' j activeJ := by
    by_cases here : j = q
    · subst here
      rw [own, holds, Function.update_self]
    · rw [same] at activeJ
      rw [(others j here).1, (others j here).2, holds, Function.update_of_ne here, fifo.open' j activeJ]
  closed j inactive := by
    rw [same] at inactive
    have other : j ≠ q := by
      rintro rfl
      rw [active] at inactive
      cases inactive
    rw [(others j other).1, (others j other).2, holds, Function.update_of_ne other]
    exact fifo.closed j inactive

theorem Fifo.erased (fifo : s.Fifo capacity) (moves : Moves s s') {q : Nat}
    (active : s.handler.isQueueActive q = true) (handler : s'.handler = s.handler.eraseQueue q)
    (accepted : s'.accepted = s.accepted) (popped : s'.popped = s.popped) : s'.Fifo capacity := by
  obtain ⟨holds, remain⟩ := MultiqueueHandler.eraseQueue_active active
  rw [← handler] at holds remain
  constructor
  · rw [moves.length, handler]
    unfold MultiqueueHandler.eraseQueue
    split <;> exact fifo.served
  · exact moves.capacity.trans fifo.sized
  · rw [handler]
    exact MultiqueueHandler.bounded_eraseQueue fifo.bounded
  · intro j activeJ
    have other : j ≠ q := by
      rintro rfl
      rw [remain, Function.update_self] at activeJ
      cases activeJ
    rw [accepted, popped, holds, Function.update_of_ne other]
    exact fifo.open' j (moves.active activeJ)
  · intro j inactive
    rw [accepted, popped, holds]
    by_cases here : j = q
    · subst here
      refine ⟨Function.update_self _ _ _, ?_⟩
      rw [fifo.open' j active]
      exact List.prefix_append _ _
    · rw [remain, Function.update_of_ne here] at inactive
      rw [Function.update_of_ne here]
      exact fifo.closed j inactive

theorem Fifo.moves (fifo : s.Fifo capacity) (moves : Moves s s') : s'.Fifo capacity := by
  have step := moves
  cases moves with
  | quiet k handler accepted popped =>
      constructor <;> simp only [handler, accepted, popped]
      · exact fifo.served
      · exact fifo.sized
      · exact fifo.bounded
      · exact fifo.open'
      · exact fifo.closed
  | accepts k q v active room handler accepted popped =>
      have below := MultiqueueHandler.below_of_active active
      apply fifo.atQueue step active (l := s.handler.contents q ++ [v])
      · rw [step.length, handler]
        exact fifo.served
      · rw [handler]
        exact MultiqueueHandler.bounded_pushTo (m := waitingWith s.handler k) fifo.bounded v
      · rw [handler, MultiqueueHandler.isQueueActive_pushTo]
        rfl
      · rw [handler]
        exact MultiqueueHandler.contents_pushTo (m := waitingWith s.handler k) v below room
      · intro j other
        rw [accepted, popped]
        exact ⟨onQueue_other other, rfl⟩
      · rw [accepted, popped, onQueue_self, fifo.open' q active, List.append_assoc]
  | takes k q v turn first handler accepted popped =>
      obtain ⟨below, able, -⟩ := Circular.turns_found fifo.served turn
      have active := ((Bool.and_eq_true _ _).mp able).1
      have front : s.handler.contents q = v :: (s.handler.contents q).tail := List.eq_cons_of_mem_head? first
      apply fifo.atQueue step active (l := (s.handler.contents q).tail)
      · rw [step.length, handler]
        exact below
      · rw [handler]
        exact MultiqueueHandler.bounded_popped (m := waitingWith s.handler k) fifo.bounded
      · rw [handler, MultiqueueHandler.isQueueActive_popped]
        rfl
      · rw [handler]
        exact MultiqueueHandler.contents_popped (m := waitingWith s.handler k) able
      · intro j other
        rw [accepted, popped]
        exact ⟨rfl, onQueue_other other⟩
      · rw [accepted, popped, onQueue_self, fifo.open' q active, List.append_assoc, List.singleton_append,
          ← front]
  | erases q active handler accepted popped => exact fifo.erased step active handler accepted popped

theorem Fifo.step (fifo : s.Fifo capacity) {action : QueueAction n α} (stepped : s.step action = some s') :
    s'.Fifo capacity :=
  fifo.moves (moves_of_step fifo.served stepped)

theorem Fifo.run (fifo : s.Fifo capacity) {actions : List (QueueAction n α)} (ran : s.run actions = some t) :
    t.Fifo capacity :=
  Interleaved.run_invariant (fun _ _ _ fifo stepped => Fifo.step fifo stepped) fifo ran

theorem Fifo.popped_initial (fifo : s.Fifo capacity) (q : Nat) :
    onQueue s.popped q <+: onQueue s.accepted q := by
  by_cases active : s.handler.isQueueActive q = true
  · rw [fifo.open' q active]
    exact List.prefix_append _ _
  · exact (fifo.closed q (Bool.eq_false_iff.mpr active)).2

/-- In every interleaving, the tasks taken out of a queue are the first ones that it accepted, in the order
    in which it accepted them; unless it was erased it still holds all the others, in this order too; and
    it never holds more than its capacity. -/
theorem tasks_in_order [Inhabited α] {k : Nat} {actions : List (QueueAction n α)} (pos : 0 < k)
    (ran : (start n capacity k).run actions = some s) (q : Nat) :
    onQueue s.popped q <+: onQueue s.accepted q ∧
      (s.handler.isQueueActive q = true →
        onQueue s.accepted q = onQueue s.popped q ++ s.handler.contents q) ∧
      (s.handler.contents q).length ≤ capacity := by
  have fifo : s.Fifo capacity := (start_fifo pos).run ran
  refine ⟨fifo.popped_initial q, fifo.open' q, ?_⟩
  have short := MultiqueueHandler.length_contents_le (q := q) fifo.bounded
  rwa [fifo.sized] at short

theorem tasks_in_order_two : ∃ s : QueueThreads 2 Nat,
    (start 2 1 2).run [.push 0 0 7, .push 1 0 8, .turn .pop, .turn (.notifyFull (some 1)), .turn (.resume 1)] =
      some s ∧ onQueue s.accepted 0 = onQueue s.popped 0 ++ s.handler.contents 0 := by
  obtain ⟨s, ran⟩ := Option.isSome_iff_exists.mp (show ((start 2 1 2 : QueueThreads 2 Nat).run [.push 0 0 7,
    .push 1 0 8, .turn .pop, .turn (.notifyFull (some 1)), .turn (.resume 1)]).isSome = true by decide +kernel)
  refine ⟨s, ran, (tasks_in_order (by decide) ran 0).2.1 ?_⟩
  have active : ((start 2 1 2 : QueueThreads 2 Nat).run [.push 0 0 7, .push 1 0 8, .turn .pop,
    .turn (.notifyFull (some 1)), .turn (.resume 1)]).map (·.handler.isQueueActive 0) = some true := by
    decide +kernel
  rw [ran] at active
  exact Option.some.inj active

/-! ## How long a task waits -/

theorem Moves.popped (moves : Moves s s') : s.popped <+: s'.popped := by
  cases moves with
  | quiet k _ _ popped | accepts k q v _ _ _ _ popped | erases q _ _ _ popped => rw [popped]
  | takes k q v _ _ _ _ popped => rw [popped]; exact List.prefix_append _ _

/-- What a later state has kept. -/
structure Later (s t : QueueThreads n α) : Prop where
  accepted : s.accepted <+: t.accepted
  popped : s.popped <+: t.popped
  active : ∀ q, t.handler.isQueueActive q = true → s.handler.isQueueActive q = true
  length : t.handler.queues.length = s.handler.queues.length

theorem Fifo.later (fifo : s.Fifo capacity) {actions : List (QueueAction n α)} (ran : s.run actions = some t) :
    Later s t := by
  have refl (s : QueueThreads n α) : Later s s := ⟨List.prefix_rfl, List.prefix_rfl, fun _ => id, rfl⟩
  refine Interleaved.run_relates refl ?_ (fun _ _ _ fifo stepped => Fifo.step fifo stepped) ?_ fifo ran
  · intro s s' t first second
    exact ⟨first.accepted.trans second.accepted, first.popped.trans second.popped,
      fun q active => first.active q (second.active q active), second.length.trans first.length⟩
  · intro s action s' fifo stepped
    have moves := moves_of_step fifo.served stepped
    exact ⟨moves.accepted, moves.popped, fun _ => moves.active, moves.length⟩

theorem onQueue_initial {log more : List (Nat × α)} (prefix' : log <+: more) (q : Nat) :
    onQueue log q <+: onQueue more q := prefix'.filterMap _

/-- How many queues have their turn before `q`. -/
def aheadOf (s : QueueThreads n α) (q : Nat) : Nat :=
  Circular.ahead s.handler.queues.length s.handler.spinIdx q

/-- A task that is taken from another queue brings `q` nearer to its turn. -/
theorem Moves.nearer (moves : Moves s s') (fifo : s.Fifo capacity) {q : Nat} (able : s.handler.ready q = true) :
    s'.popped.length + s'.aheadOf q + s.handler.queues.length * (onQueue s.popped q).length ≤
      s.popped.length + s.aheadOf q + s.handler.queues.length * (onQueue s'.popped q).length := by
  have below := MultiqueueHandler.below_of_ready able
  have length := moves.length
  unfold aheadOf
  rw [length]
  cases moves with
  | quiet k handler _ popped | accepts k _ _ _ _ handler _ popped =>
      rw [handler, popped]
      rfl
  | erases j _ handler _ popped =>
      rw [handler, popped]
      unfold MultiqueueHandler.eraseQueue
      split <;> rfl
  | takes k i v turn _ handler _ popped =>
      have spin : s'.handler.spinIdx = i := by rw [handler]; rfl
      rw [spin, popped, List.length_append, List.length_singleton]
      by_cases own : q = i
      · subst own
        rw [onQueue_self, List.length_append, List.length_singleton, Circular.ahead_self below, Nat.mul_succ]
        omega
      · have closer := Circular.ahead_of_found fifo.served turn below able own
        rw [onQueue_other own]
        omega

theorem Fifo.nearer (fifo : s.Fifo capacity) {more : List (QueueAction n α)} (ran : s.run more = some t)
    {q : Nat}
    (active : t.handler.isQueueActive q = true)
    (waits : (onQueue t.popped q).length < (onQueue s.accepted q).length) :
    t.popped.length + t.aheadOf q + s.handler.queues.length * (onQueue s.popped q).length ≤
      s.popped.length + s.aheadOf q + s.handler.queues.length * (onQueue t.popped q).length := by
  induction more generalizing s with
  | nil => cases ran; exact Nat.le_refl _
  | cons action more ih =>
      have later := fifo.later ran
      obtain ⟨s', stepped, ranOn⟩ := Interleaved.run_cons ran
      have moves := moves_of_step fifo.served stepped
      have grown := (onQueue_initial moves.accepted q).length_le
      have rest := ih (fifo.moves moves) ranOn (by omega)
      have able : s.handler.ready q = true := by
        have activeS := later.active q active
        have taken := (onQueue_initial later.popped q).length_le
        have held := congrArg List.length (fifo.open' q activeS)
        rw [List.length_append] at held
        have some' : s.handler.contents q ≠ [] := by
          intro none'
          rw [none', List.length_nil] at held
          omega
        simp [MultiqueueHandler.ready, activeS, some']
      have first := moves.nearer fifo able
      rw [moves.length] at rest
      omega

/-- A task with `i` others before it in its queue is taken at the latest as the `(i + 1) k`-th task from
    then on, where `k` is the number of queues, however full the other queues are; unless its queue is
    erased. -/
theorem taken_in_time [Inhabited α] {k q i : Nat} {actions more : List (QueueAction n α)} (pos : 0 < k)
    (ran : (start n capacity k).run actions = some s) (ranOn : s.run more = some t)
    (held : i < (s.handler.contents q).length) (active : t.handler.isQueueActive q = true)
    (long : s.popped.length + (i + 1) * k ≤ t.popped.length) :
    onQueue s.popped q ++ (s.handler.contents q).take (i + 1) <+: onQueue t.popped q := by
  have fresh : (start n capacity k : QueueThreads n α).Fifo capacity := start_fifo pos
  have fifo := fresh.run ran
  have later := fifo.later ranOn
  have queues : s.handler.queues.length = k :=
    (fresh.later ran).length.trans MultiqueueHandler.length_withQueues
  have whole := fifo.open' q (later.active q active)
  have enough : (onQueue s.popped q).length + (i + 1) ≤ (onQueue t.popped q).length := by
    by_contra few
    have waits : (onQueue t.popped q).length < (onQueue s.accepted q).length := by
      rw [whole, List.length_append]
      omega
    have nearer := fifo.nearer ranOn active waits
    have before : s.aheadOf q < s.handler.queues.length := Circular.ahead_lt (by omega)
    have turns := Nat.mul_le_mul_left k
      (show (onQueue t.popped q).length ≤ (onQueue s.popped q).length + i by omega)
    rw [queues] at nearer before
    rw [Nat.mul_add] at turns
    rw [Nat.succ_mul, Nat.mul_comm i k] at long
    omega
  have front : onQueue s.popped q ++ (s.handler.contents q).take (i + 1) <+: onQueue t.accepted q := by
    refine .trans ?_ (onQueue_initial later.accepted q)
    rw [whole, List.prefix_append_right_inj]
    exact List.take_prefix _ _
  refine List.prefix_of_prefix_length_le front ((fifo.run ranOn).popped_initial q) ?_
  rw [List.length_append, List.length_take, Nat.min_eq_left held]
  exact enough

/-- The task waits behind a queue that is never empty. -/
theorem taken_in_time_second : ∃ s t : QueueThreads 1 Nat,
    (start 1 4 2).run [.push 0 0 7, .turn (.notifyEmpty 0), .push 0 0 8, .turn (.notifyEmpty 0), .push 0 1 9] =
      some s ∧
    s.run [.turn .pop, .turn (.notifyEmpty 0), .push 0 0 6, .turn .pop] = some t ∧
    onQueue s.popped 1 ++ (s.handler.contents 1).take 1 <+: onQueue t.popped 1 := by
  obtain ⟨s, ran⟩ := Option.isSome_iff_exists.mp (show ((start 1 4 2 : QueueThreads 1 Nat).run [.push 0 0 7,
    .turn (.notifyEmpty 0), .push 0 0 8, .turn (.notifyEmpty 0), .push 0 1 9]).isSome = true by decide +kernel)
  have all : ((start 1 4 2 : QueueThreads 1 Nat).run [.push 0 0 7, .turn (.notifyEmpty 0), .push 0 0 8,
      .turn (.notifyEmpty 0), .push 0 1 9]).map (fun s => ((s.handler.contents 1).length, s.popped.length,
      (s.run [.turn .pop, .turn (.notifyEmpty 0), .push 0 0 6, .turn .pop]).map fun t =>
        (t.handler.isQueueActive 1, t.popped.length))) = some (1, 0, some (true, 2)) := by
    decide +kernel
  rw [ran] at all
  simp only [Option.map_some, Option.some.injEq, Prod.mk.injEq] at all
  obtain ⟨held, none', later⟩ := all
  obtain ⟨t, ranOn, after⟩ := Option.map_eq_some_iff.mp later
  obtain ⟨active, two⟩ := Prod.mk.inj after
  exact ⟨s, t, ran, ranOn, taken_in_time (by decide) ran ranOn (by omega) active (by omega)⟩

end QueueThreads

end SonicaEnb
