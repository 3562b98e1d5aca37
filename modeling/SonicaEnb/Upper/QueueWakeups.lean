import SonicaEnb.Upper.QueueOrder

/-! # No wakeup is lost

A thread that finds its queue full waits, and so does the thread of the stack when it finds
no task. Each is woken by one notification, which the other side sends behind its locked
section. Nobody sleeps through one: once no call begins any more, the threads come to rest
after a bounded number of steps, and then every task was taken, and every call of `push`
has returned, unless its queue was erased while it was waiting there.
-/

namespace SonicaEnb

/-- Whether `nof_threads_waiting` counts the thread. -/
def PusherPc.inWait {α : Type} : PusherPc α → Nat
  | .waiting _ _ | .woken _ _ => 1
  | .idle | .notifying => 0

@[simp] theorem PusherPc.inWait_waiting {α : Type} (q : Nat) (v : α) :
    (PusherPc.waiting q v).inWait = 1 := rfl
@[simp] theorem PusherPc.inWait_woken {α : Type} (q : Nat) (v : α) : (PusherPc.woken q v).inWait = 1 := rfl

def PusherPc.wokenAt {α : Type} (q : Nat) : PusherPc α → Nat
  | .woken j _ => if j = q then 1 else 0
  | .idle | .waiting _ _ | .notifying => 0

def PopperPc.inWait : PopperPc → Nat
  | .waiting | .woken => 1
  | .idle | .notifying => 0

namespace QueueThreads

variable {n capacity : Nat} {α : Type} {s s' t : QueueThreads n α}

/-- How many threads are on their way back to a queue. -/
def wokenAt (s : QueueThreads n α) (q : Nat) : Nat := ∑ id, (s.pusher id).wokenAt q

/-- How many notifications are on their way to a queue. -/
def notifiesAt (s : QueueThreads n α) (q : Nat) : Nat :=
  if s.popper = .notifying ∧ s.handler.spinIdx = q then 1 else 0

/-- No thread is left behind: where one waits for room, every free place has a thread or a notification
    that is on its way to it; and where the thread of the stack waits, there is no task or a
    notification is on its way. -/
structure Attended (capacity : Nat) (s : QueueThreads n α) : Prop where
  counted : s.handler.nofThreadsWaiting = ∑ id, (s.pusher id).inWait + s.popper.inWait
  full : ∀ id q v, s.pusher id = .waiting q v → s.handler.isQueueActive q = true →
    capacity ≤ (s.handler.contents q).length + s.wokenAt q + s.notifiesAt q
  empty : s.popper = .waiting → (∀ q, s.handler.isQueueActive q = true → s.handler.contents q = []) ∨
    ∃ id, s.pusher id = .notifying

theorem start_attended [Inhabited α] {k : Nat} :
    (start n capacity k : QueueThreads n α).Attended capacity where
  counted := by simp [start, MultiqueueHandler.withQueues_eq, PusherPc.inWait, PopperPc.inWait]
  full id q v waits := by cases waits
  empty waits := by cases waits

/-! ## A thread that pushes -/

section

variable {id : Fin n} {pc : PusherPc α}

theorem inWait_goes (s : QueueThreads n α) (id : Fin n) (pc : PusherPc α) :
    ∑ j, ((s.goes id pc).pusher j).inWait + (s.pusher id).inWait =
      ∑ j, (s.pusher j).inWait + pc.inWait := Interleaved.sum_update _ _ _ _

theorem wokenAt_goes (q : Nat) : (s.goes id pc).wokenAt q + (s.pusher id).wokenAt q =
    s.wokenAt q + pc.wokenAt q := Interleaved.sum_update _ _ _ _

theorem goes_self : (s.goes id pc).pusher id = pc := Function.update_self _ _ _

theorem goes_other {j : Fin n} (other : j ≠ id) : (s.goes id pc).pusher j = s.pusher j :=
  Function.update_of_ne other _ _

end

/-- A thread that has the lock in `push`: its own wait is not counted any more, and the threads at its
    queue may count on it once. -/
structure Pushing (capacity : Nat) (s : QueueThreads n α) (id : Fin n) (q : Nat) : Prop where
  counted : s.handler.nofThreadsWaiting + (s.pusher id).inWait =
    ∑ j, (s.pusher j).inWait + s.popper.inWait
  full : ∀ j i v, s.pusher j = .waiting i v → s.handler.isQueueActive i = true →
    capacity ≤ (s.handler.contents i).length + s.wokenAt i + s.notifiesAt i
  empty : s.popper = .waiting → (∀ i, s.handler.isQueueActive i = true → s.handler.contents i = []) ∨
    ∃ j, j ≠ id ∧ s.pusher j = .notifying
  own : (s.pusher id).wokenAt q ≤ 1
  other : ∀ i, i ≠ q → (s.pusher id).wokenAt i = 0

theorem Attended.pushing (attended : s.Attended capacity) {id : Fin n} (idle : s.pusher id = .idle) (q : Nat) :
    s.Pushing capacity id q where
  counted := by simpa [idle, PusherPc.inWait] using attended.counted
  full := attended.full
  empty waits := by
    refine (attended.empty waits).imp_right ?_
    rintro ⟨j, notifies⟩
    refine ⟨j, ?_, notifies⟩
    rintro rfl
    rw [idle] at notifies
    cases notifies
  own := by simp [idle, PusherPc.wokenAt]
  other i _ := by simp [idle, PusherPc.wokenAt]

theorem Attended.resuming (attended : s.Attended capacity) {id : Fin n} {q : Nat} {v : α}
    (woken : s.pusher id = .woken q v) : s.leaveWait.Pushing capacity id q where
  counted := by
    have counted := attended.counted
    have own := Interleaved.le_sum (h := fun j => (s.pusher j).inWait) id
    have one : (s.pusher id).inWait = 1 := by rw [woken, PusherPc.inWait]
    simp only [leaveWait]
    omega
  full := attended.full
  empty waits := by
    refine (attended.empty waits).imp_right ?_
    rintro ⟨j, notifies⟩
    refine ⟨j, ?_, notifies⟩
    rintro rfl
    rw [woken] at notifies
    cases notifies
  own := by simp [leaveWait, woken, PusherPc.wokenAt]
  other i apart := by simp [leaveWait, woken, PusherPc.wokenAt, Ne.symm apart]

/-- The thread leaves the locked section: it goes on to `pc`, the handler is now `h`. -/
theorem Pushing.leaves {id : Fin n} {q : Nat} (pushing : s.Pushing capacity id q) {h : MultiqueueHandler α}
    {pc : PusherPc α} {log : List (Nat × α)}
    (counted : h.nofThreadsWaiting = s.handler.nofThreadsWaiting + pc.inWait)
    (active : h.isQueueActive = s.handler.isQueueActive) (spin : h.spinIdx = s.handler.spinIdx)
    (others : ∀ i, i ≠ q → h.contents i = s.handler.contents i)
    (here : s.handler.isQueueActive q = true →
      (s.handler.contents q).length + 1 ≤ (h.contents q).length ∨ capacity ≤ (h.contents q).length)
    (waits : ∀ i v, pc = .waiting i v → capacity ≤ (h.contents i).length)
    (awake : ∀ i, pc.wokenAt i = 0)
    (tells : pc = .notifying ∨ h.contents = s.handler.contents) :
    ({ s.goes id pc with handler := h, accepted := log } : QueueThreads n α).Attended capacity where
  counted := by
    have before := pushing.counted
    have after := inWait_goes s id pc
    change h.nofThreadsWaiting = ∑ j, ((s.goes id pc).pusher j).inWait + s.popper.inWait
    omega
  full j i v pusher activeI := by
    have activeI' : s.handler.isQueueActive i = true := (congrFun active i).symm.trans activeI
    have woken : (s.goes id pc).wokenAt i + (s.pusher id).wokenAt i = s.wokenAt i + pc.wokenAt i :=
        wokenAt_goes i
    have notified : ({ s.goes id pc with handler := h, accepted := log } : QueueThreads n α).notifiesAt i =
        s.notifiesAt i := by simp [notifiesAt, goes, spin]
    rw [awake i] at woken
    rw [notified]
    change capacity ≤ (h.contents i).length + (s.goes id pc).wokenAt i + s.notifiesAt i
    by_cases self : j = id
    · subst self
      have enough := waits i v (goes_self.symm.trans pusher)
      omega
    · have still := pushing.full j i v ((goes_other self).symm.trans pusher) activeI'
      by_cases place : i = q
      · subst place
        have own := pushing.own
        have room := here activeI'
        omega
      · rw [others i place]
        have none' := pushing.other i place
        omega
  empty popper := by
    rcases tells with notifies | same
    · exact .inr ⟨id, goes_self.trans notifies⟩
    · refine (pushing.empty popper).imp ?_ ?_
      · intro empty i activeI
        have activeI' : s.handler.isQueueActive i = true := (congrFun active i).symm.trans activeI
        exact (congrFun same i).trans (empty i activeI')
      · rintro ⟨j, other, notifies⟩
        exact ⟨j, (goes_other other).trans notifies⟩

theorem Pushing.pushTurn {id : Fin n} {q : Nat} (pushing : s.Pushing capacity id q) (fifo : s.Fifo capacity)
    (v : α) :
    (s.pushTurn id q v).Attended capacity := by
  unfold QueueThreads.pushTurn
  split
  · rename_i blocked
    obtain ⟨active, isFull⟩ := (Bool.and_eq_true _ _).mp blocked
    have filled := (MultiqueueHandler.isFull_iff fifo.bounded
      (MultiqueueHandler.below_of_active active)).mp isFull
    rw [fifo.sized] at filled
    refine pushing.leaves (h := s.enterWait.handler) rfl rfl rfl (fun _ _ => rfl) (fun _ => .inr filled.ge) ?_
      (fun _ => rfl) (.inr rfl)
    intro i w same
    cases same
    exact filled.ge
  · rename_i free
    split
    · rename_i inactive
      refine pushing.leaves (h := s.handler) rfl rfl rfl (fun _ _ => rfl) ?_ nofun (fun _ => rfl) (.inr rfl)
      intro active
      rw [active] at inactive
      cases inactive
    · rename_i active
      have active' : s.handler.isQueueActive q = true := by simpa using active
      have room : s.handler.isFull q = false := by simpa [active'] using free
      have holds := MultiqueueHandler.contents_pushTo v (MultiqueueHandler.below_of_active active') room
      refine pushing.leaves (h := s.handler.pushTo q v) rfl (MultiqueueHandler.isQueueActive_pushTo v) rfl
        ?_ ?_ nofun
        (fun _ => rfl) (.inl rfl)
      · intro i other
        rw [holds, Function.update_of_ne other]
      · intro _
        rw [holds, Function.update_self, List.length_append]
        exact .inl (Nat.le_refl _)

/-- Where `try_push` accepts the task, it does what `push` does. -/
theorem tryPush_eq (id : Fin n) (q : Nat) (v : α) :
    s.tryPush id q v = s ∨ s.tryPush id q v = s.pushTurn id q v := by
  unfold QueueThreads.tryPush MultiqueueHandler.tryPush QueueThreads.pushTurn
  cases s.handler.isQueueActive q <;> cases s.handler.isFull q <;> simp

/-! ## The thread of the stack -/

/-- With the lock in `wait_pop`: its own wait is not counted any more. -/
theorem Attended.popTurn (fifo : s.Fifo capacity)
    (counted : s.handler.nofThreadsWaiting = ∑ id, (s.pusher id).inWait)
    (full : ∀ id q v, s.pusher id = .waiting q v → s.handler.isQueueActive q = true →
      capacity ≤ (s.handler.contents q).length + s.wokenAt q) : s.popTurn.Attended capacity := by
  have pop := MultiqueueHandler.roundRobinPop_eq fifo.served
  unfold QueueThreads.popTurn
  rw [pop]
  cases found : (Circular.turns s.handler.queues.length s.handler.spinIdx).find? s.handler.ready with
  | none =>
      refine ⟨by simp [enterWait, counted, PopperPc.inWait], ?_, fun _ => .inl ?_⟩
      · intro id q v waits active
        exact (full id q v waits active).trans (Nat.le_add_right _ _)
      · intro q active
        have below := MultiqueueHandler.below_of_active active
        have none' := Circular.turns_none fifo.served below found
        have active' : s.handler.isQueueActive q = true := active
        have held : s.handler.contents q = [] := by simpa [MultiqueueHandler.ready, active'] using none'
        exact held
  | some i =>
      obtain ⟨-, able, -⟩ := Circular.turns_found fifo.served found
      obtain ⟨v, rest, holds⟩ := MultiqueueHandler.head_of_ready able
      have left := MultiqueueHandler.contents_popped able
      simp only [holds, List.head?_cons]
      refine ⟨?_, ?_, ?_⟩
      · change s.handler.nofThreadsWaiting = _ + PopperPc.inWait (if _ then _ else _)
        split <;> exact counted
      · intro id q w waits active
        have active' : s.handler.isQueueActive q = true :=
          (congrFun MultiqueueHandler.isQueueActive_popped q).symm.trans active
        have before := full id q w waits active'
        change capacity ≤ ((s.handler.popped i).contents q).length + s.wokenAt q + notifiesAt _ q
        by_cases here : q = i
        · -- the place that got free has the notification, since `id` is counted
          subst here
          have one := Interleaved.le_sum (h := fun j => (s.pusher j).inWait) id
          rw [waits, PusherPc.inWait_waiting] at one
          have some' : 0 < s.handler.nofThreadsWaiting := by
            rw [counted]
            exact one
          have notified : (s.handler.popped q).spinIdx = q ∧ 0 < (s.handler.popped q).nofThreadsWaiting :=
              ⟨rfl, some'⟩
          rw [left, Function.update_self, holds, List.tail_cons]
          rw [holds, List.length_cons] at before
          simp only [notifiesAt, notified.1, notified.2, if_true, and_self]
          omega
        · rw [left, Function.update_of_ne here]
          omega
      · intro waits
        change (if _ then PopperPc.notifying else PopperPc.idle) = .waiting at waits
        split at waits <;> cases waits

/-! ## What every interleaving keeps -/

theorem notifiesAt_of_ne (other : s.popper ≠ .notifying) (q : Nat) : s.notifiesAt q = 0 :=
  if_neg fun notifies => other notifies.1

theorem Attended.wakePopper (attended : s.Attended capacity) : s.wakePopper.Attended capacity := by
  unfold QueueThreads.wakePopper
  split
  · rename_i waits
    refine ⟨?_, ?_, nofun⟩
    · rw [attended.counted, waits]
      rfl
    · intro id q v pusher active
      have before := attended.full id q v pusher active
      rw [notifiesAt_of_ne (by rw [waits]; decide)] at before
      exact before.trans (Nat.le_add_right _ _)
  · exact attended

/-- A thread that goes back to its queue: with the notification of the thread of the stack, or for no
    reason. -/
theorem Attended.wakes (attended : s.Attended capacity) {id : Fin n} {q : Nat} {v : α}
    (waits : s.pusher id = .waiting q v) {pc : PopperPc} (counted : pc.inWait = s.popper.inWait)
    (popper : pc = s.popper ∨ s.handler.spinIdx = q ∧ pc = .idle) :
    ({ s.goes id (.woken q v) with popper := pc } : QueueThreads n α).Attended capacity where
  counted := by
    have before := attended.counted
    have after := inWait_goes s id (.woken q v)
    rw [waits, PusherPc.inWait_waiting, PusherPc.inWait_woken] at after
    change s.handler.nofThreadsWaiting = ∑ j, ((s.goes id (.woken q v)).pusher j).inWait + pc.inWait
    omega
  full j i w pusher active := by
    have other : j ≠ id := by
      rintro rfl
      cases goes_self.symm.trans pusher
    have before := attended.full j i w ((goes_other other).symm.trans pusher) active
    have woken : (s.goes id (.woken q v)).wokenAt i + (s.pusher id).wokenAt i =
        s.wokenAt i + (PusherPc.woken q v).wokenAt i := wokenAt_goes i
    rw [waits] at woken
    change capacity ≤ (s.handler.contents i).length + (s.goes id (.woken q v)).wokenAt i + notifiesAt _ i
    simp only [PusherPc.wokenAt] at woken
    rcases popper with rfl | ⟨spin, rfl⟩
    · have same : ({ s.goes id (.woken q v) with popper := s.popper } : QueueThreads n α).notifiesAt i =
          s.notifiesAt i := rfl
      rw [same]
      omega
    · by_cases here : q = i
      · rw [if_pos here] at woken
        have most : s.notifiesAt i ≤ 1 := by
          unfold notifiesAt
          split <;> decide
        omega
      · have none' : s.notifiesAt i = 0 := if_neg fun notifies => here (spin.symm.trans notifies.2)
        omega
  empty popper' := by
    rcases popper with rfl | ⟨-, rfl⟩
    · refine (attended.empty popper').imp_right ?_
      rintro ⟨j, notifies⟩
      have other : j ≠ id := by
        rintro rfl
        rw [waits] at notifies
        cases notifies
      exact ⟨j, (goes_other other).trans notifies⟩
    · cases popper'

theorem Attended.notified (attended : s.Attended capacity) (notifies : s.popper = .notifying)
    (none' : ∀ id, s.waitsAt s.handler.spinIdx id = false) :
    ({ s with popper := .idle } : QueueThreads n α).Attended capacity where
  counted := by
    rw [attended.counted, notifies]
    rfl
  full id q v pusher active := by
    have before := attended.full id q v pusher active
    have elsewhere : s.handler.spinIdx ≠ q := by
      rintro rfl
      have waits := none' id
      have pusher' : s.pusher id = .waiting s.handler.spinIdx v := pusher
      simp [waitsAt, pusher'] at waits
    have none'' : s.notifiesAt q = 0 := if_neg fun both => elsewhere both.2
    rw [none''] at before
    exact before
  empty := nofun

theorem Attended.told (attended : s.Attended capacity) {id : Fin n} (notifies : s.pusher id = .notifying) :
    (s.goes id .idle).wakePopper.Attended capacity := by
  have count := inWait_goes s id .idle
  have woken (q : Nat) : (s.goes id .idle).wokenAt q + (s.pusher id).wokenAt q = s.wokenAt q + 0 :=
      wokenAt_goes q
  rw [notifies] at count
  simp only [notifies] at woken
  have full (j : Fin n) (q : Nat) (v : α) (pusher : (s.goes id .idle).pusher j = .waiting q v)
      (active : s.handler.isQueueActive q = true) :
      capacity ≤ (s.handler.contents q).length + (s.goes id .idle).wokenAt q + s.notifiesAt q := by
    have other : j ≠ id := by
      rintro rfl
      cases goes_self.symm.trans pusher
    have before := attended.full j q v ((goes_other other).symm.trans pusher) active
    have same := woken q
    simp only [PusherPc.wokenAt, Nat.add_zero] at same
    rw [same]
    exact before
  unfold QueueThreads.wakePopper
  split
  · rename_i waits
    have waits' : s.popper = .waiting := waits
    refine ⟨?_, ?_, nofun⟩
    · have counted := attended.counted
      rw [waits'] at counted
      exact counted.trans (congrArg (· + 1) count.symm)
    · intro j q v pusher active
      have before := full j q v pusher active
      rw [notifiesAt_of_ne (by rw [waits']; decide)] at before
      exact before.trans (Nat.le_add_right _ _)
  · rename_i awake
    refine ⟨?_, full, fun waits => absurd waits awake⟩
    exact attended.counted.trans (congrArg (· + s.popper.inWait) count.symm)

theorem Attended.erased (attended : s.Attended capacity) (q : Nat) :
    ({ s with handler := s.handler.eraseQueue q } : QueueThreads n α).Attended capacity := by
  by_cases active : s.handler.isQueueActive q = true
  · obtain ⟨holds, remain⟩ := MultiqueueHandler.eraseQueue_active active
    have same : (s.handler.eraseQueue q).nofThreadsWaiting = s.handler.nofThreadsWaiting ∧
        (s.handler.eraseQueue q).spinIdx = s.handler.spinIdx := by
      unfold MultiqueueHandler.eraseQueue
      split <;> exact ⟨rfl, rfl⟩
    have still {i : Nat} (activeI : (s.handler.eraseQueue q).isQueueActive i = true) :
        s.handler.isQueueActive i = true ∧ (s.handler.eraseQueue q).contents i = s.handler.contents i := by
      have other : i ≠ q := by
        rintro rfl
        rw [remain, Function.update_self] at activeI
        cases activeI
      rw [remain, Function.update_of_ne other] at activeI
      rw [holds, Function.update_of_ne other]
      exact ⟨activeI, rfl⟩
    constructor
    · exact same.1.trans attended.counted
    · intro id i v waits activeI
      obtain ⟨before, unchanged⟩ := still activeI
      have notified : ({ s with handler := s.handler.eraseQueue q } : QueueThreads n α).notifiesAt i =
          s.notifiesAt i := by simp [notifiesAt, same.2]
      have enough := attended.full id i v waits before
      rw [← unchanged, ← notified] at enough
      exact enough
    · intro waits
      refine (attended.empty waits).imp_left ?_
      intro none' i activeI
      obtain ⟨before, unchanged⟩ := still activeI
      exact unchanged.trans (none' i before)
  · have same : s.handler.eraseQueue q = s.handler := if_neg active
    rw [same]
    exact attended

theorem Attended.stepTurn (attended : s.Attended capacity) (fifo : s.Fifo capacity) {turn : QueueTurn n}
    (stepped : s.stepTurn turn = some s') : s'.Attended capacity := by
  cases turn with
  | resume id =>
      simp only [QueueThreads.stepTurn] at stepped
      split at stepped
      · rename_i q v woken
        cases stepped
        have fifo' : s.leaveWait.Fifo capacity :=
          ⟨fifo.served, fifo.sized, fifo.bounded, fifo.open', fifo.closed⟩
        exact (attended.resuming woken).pushTurn fifo' v
      · cases stepped
  | notifyEmpty id =>
      simp only [QueueThreads.stepTurn] at stepped
      split at stepped
      · rename_i notifies
        cases stepped
        exact attended.told notifies
      · cases stepped
  | pop =>
      simp only [QueueThreads.stepTurn] at stepped
      have full (away : s.popper ≠ .notifying) (id : Fin n) (q : Nat) (v : α)
        (waits : s.pusher id = .waiting q v)
          (active : s.handler.isQueueActive q = true) :
          capacity ≤ (s.handler.contents q).length + s.wokenAt q := by
        have before := attended.full id q v waits active
        rwa [notifiesAt_of_ne away, Nat.add_zero] at before
      have counted := attended.counted
      split at stepped
      · rename_i idle
        cases stepped
        rw [idle] at counted
        exact Attended.popTurn fifo counted (full (by rw [idle]; decide))
      · rename_i woken
        cases stepped
        rw [woken] at counted
        have fifo' : s.leaveWait.Fifo capacity :=
          ⟨fifo.served, fifo.sized, fifo.bounded, fifo.open', fifo.closed⟩
        exact Attended.popTurn fifo' (Nat.sub_eq_of_eq_add counted) (full (by rw [woken]; decide))
      · cases stepped
  | notifyFull told =>
      cases told with
      | none =>
          simp only [QueueThreads.stepTurn] at stepped
          split at stepped
          · rename_i guard
            cases stepped
            exact attended.notified guard.1 guard.2
          · cases stepped
      | some id =>
          simp only [QueueThreads.stepTurn] at stepped
          split at stepped
          · rename_i guard
            cases stepped
            unfold wakePusher
            cases pusher : s.pusher id with
            | waiting q v =>
                have spin : s.handler.spinIdx = q := by
                  have waits := guard.2
                  simp only [waitsAt, pusher, beq_iff_eq] at waits
                  exact waits.symm
                exact attended.wakes pusher (by rw [guard.1]; rfl) (.inr ⟨spin, rfl⟩)
            | idle | woken q v | notifying => simp [waitsAt, pusher] at guard
          · cases stepped

theorem Attended.step (attended : s.Attended capacity) (fifo : s.Fifo capacity) {action : QueueAction n α}
    (stepped : s.step action = some s') : s'.Attended capacity := by
  cases action with
  | turn turn => exact attended.stepTurn fifo stepped
  | push id q v =>
      simp only [QueueThreads.step] at stepped
      split at stepped
      · rename_i idle
        split at stepped
        · cases stepped
          exact (attended.pushing idle q).pushTurn fifo v
        · cases stepped
      · cases stepped
  | tryPush id q v =>
      simp only [QueueThreads.step] at stepped
      split at stepped
      · rename_i idle
        split at stepped
        · cases stepped
          rcases tryPush_eq (s := s) id q v with same | same
          · rw [same]
            exact attended
          · rw [same]
            exact (attended.pushing idle q).pushTurn fifo v
        · cases stepped
      · cases stepped
  | eraseQueue q =>
      simp only [QueueThreads.step] at stepped
      split at stepped
      · cases stepped
        exact attended.erased q
      · cases stepped
  | wake id =>
      cases stepped
      unfold wakePusher
      split
      · rename_i waits
        exact attended.wakes waits rfl (.inl rfl)
      · exact attended
  | wakePopper =>
      cases stepped
      exact attended.wakePopper

/-! ## Coming to rest -/

end QueueThreads

/-- How many tasks wait in the queues. -/
def MultiqueueHandler.held {α : Type} (m : MultiqueueHandler α) : Nat :=
  ∑ q ∈ Finset.range m.queues.length, (m.contents q).length

theorem MultiqueueHandler.held_update {α : Type} {m m' : MultiqueueHandler α} {q : Nat} {l : List α}
    (below : q < m.queues.length) (length : m'.queues.length = m.queues.length)
    (holds : m'.contents = Function.update m.contents q l) :
    m'.held + (m.contents q).length = m.held + l.length := by
  unfold held
  rw [length, holds]
  exact Interleaved.sum_update_of_mem List.length _ (Finset.mem_range.mpr below) l

def PusherPc.rank {α : Type} : PusherPc α → Nat
  | .idle => 0
  | .waiting _ _ => 5
  | .woken _ _ => 6
  | .notifying => 2

@[simp] theorem PusherPc.rank_idle {α : Type} : (PusherPc.idle : PusherPc α).rank = 0 := rfl
@[simp] theorem PusherPc.rank_waiting {α : Type} (q : Nat) (v : α) : (PusherPc.waiting q v).rank = 5 := rfl
@[simp] theorem PusherPc.rank_woken {α : Type} (q : Nat) (v : α) : (PusherPc.woken q v).rank = 6 := rfl
@[simp] theorem PusherPc.rank_notifying {α : Type} : (PusherPc.notifying : PusherPc α).rank = 2 := rfl

def PopperPc.rank : PopperPc → Nat
  | .idle | .woken => 1
  | .waiting => 0
  | .notifying => 3

namespace QueueThreads

variable {n capacity : Nat} {α : Type} {s s' t : QueueThreads n α}

def rank (s : QueueThreads n α) : Nat := ∑ id, (s.pusher id).rank + 3 * s.handler.held + s.popper.rank

theorem rank_le : s.rank ≤ 6 * n + 3 * s.handler.held + 3 := by
  have pushers : ∑ id, (s.pusher id).rank ≤ ∑ _id : Fin n, 6 :=
    Finset.sum_le_sum fun id _ => by cases s.pusher id <;> simp
  rw [Finset.sum_const_nat fun _ _ => rfl, Finset.card_univ, Fintype.card_fin] at pushers
  have popper : s.popper.rank ≤ 3 := by cases s.popper <;> decide
  unfold rank
  omega

theorem rank_goes (s : QueueThreads n α) (id : Fin n) (pc : PusherPc α) :
    ∑ j, ((s.goes id pc).pusher j).rank + (s.pusher id).rank =
      ∑ j, (s.pusher j).rank + pc.rank := Interleaved.sum_update _ _ _ _

theorem rank_pushTurn {id : Fin n} {q : Nat} {v : α} (woken : (s.pusher id).rank = 6) :
    (s.pushTurn id q v).rank < s.rank := by
  have moved (pc : PusherPc α) : ∑ j, ((s.goes id pc).pusher j).rank + 6 =
      ∑ j, (s.pusher j).rank + pc.rank := by
    rw [← woken]
    exact rank_goes s id pc
  unfold QueueThreads.pushTurn
  split
  · have after := moved (.waiting q v)
    rw [PusherPc.rank_waiting] at after
    change ∑ j, ((s.goes id (.waiting q v)).pusher j).rank + 3 * s.handler.held + s.popper.rank < s.rank
    unfold rank
    omega
  · rename_i free
    split
    · have after := moved .idle
      change ∑ j, ((s.goes id .idle).pusher j).rank + 3 * s.handler.held + s.popper.rank < s.rank
      unfold rank
      rw [PusherPc.rank_idle] at after
      omega
    · rename_i active
      have active' : s.handler.isQueueActive q = true := by simpa using active
      have room : s.handler.isFull q = false := by simpa [active'] using free
      have below := MultiqueueHandler.below_of_active active'
      have after := moved .notifying
      have more := MultiqueueHandler.held_update below (by simp [MultiqueueHandler.pushTo])
        (MultiqueueHandler.contents_pushTo v below room)
      rw [List.length_append, List.length_singleton] at more
      rw [PusherPc.rank_notifying] at after
      change ∑ j, ((s.goes id .notifying).pusher j).rank + 3 * (s.handler.pushTo q v).held + s.popper.rank <
        s.rank
      unfold rank
      omega

theorem rank_popTurn (fifo : s.Fifo capacity) (awake : s.popper.rank = 1) : s.popTurn.rank < s.rank := by
  have pop := MultiqueueHandler.roundRobinPop_eq fifo.served
  unfold QueueThreads.popTurn
  rw [pop]
  cases found : (Circular.turns s.handler.queues.length s.handler.spinIdx).find? s.handler.ready with
  | none =>
      change ∑ j, (s.pusher j).rank + 3 * s.handler.held + 0 < s.rank
      unfold rank
      omega
  | some i =>
      obtain ⟨-, able, -⟩ := Circular.turns_found fifo.served found
      obtain ⟨v, rest, holds⟩ := MultiqueueHandler.head_of_ready able
      simp only [holds, List.head?_cons]
      have fewer := MultiqueueHandler.held_update (MultiqueueHandler.below_of_ready able)
        (by simp [MultiqueueHandler.popped]) (MultiqueueHandler.contents_popped able)
      rw [holds, List.length_cons, List.tail_cons] at fewer
      have most : PopperPc.rank (if 0 < (s.handler.popped i).nofThreadsWaiting then .notifying else .idle) ≤
          3 := by
        split <;> decide
      change ∑ j, (s.pusher j).rank + 3 * (s.handler.popped i).held + PopperPc.rank (if _ then _ else _) <
        s.rank
      unfold rank
      omega

theorem rank_turn (fifo : s.Fifo capacity) {turn : QueueTurn n} (stepped : s.stepTurn turn = some s') :
    s'.rank < s.rank := by
  cases turn with
  | resume id =>
      simp only [QueueThreads.stepTurn] at stepped
      split at stepped
      · rename_i woken
        cases stepped
        exact rank_pushTurn (s := s.leaveWait) (show (s.pusher id).rank = 6 by rw [woken]; rfl)
      · cases stepped
  | notifyEmpty id =>
      simp only [QueueThreads.stepTurn] at stepped
      split at stepped
      · rename_i notifies
        cases stepped
        have after := rank_goes s id .idle
        rw [notifies] at after
        rw [PusherPc.rank_notifying, PusherPc.rank_idle] at after
        unfold QueueThreads.wakePopper
        split
        · rename_i waits
          have waits' : s.popper.rank = 0 := by rw [show s.popper = .waiting from waits]; rfl
          change ∑ j, ((s.goes id .idle).pusher j).rank + 3 * s.handler.held + 1 < s.rank
          unfold rank
          omega
        · change ∑ j, ((s.goes id .idle).pusher j).rank + 3 * s.handler.held + s.popper.rank < s.rank
          unfold rank
          omega
      · cases stepped
  | pop =>
      simp only [QueueThreads.stepTurn] at stepped
      split at stepped
      · rename_i idle
        cases stepped
        exact rank_popTurn fifo (by rw [idle]; rfl)
      · rename_i woken
        cases stepped
        have fifo' : s.leaveWait.Fifo capacity :=
          ⟨fifo.served, fifo.sized, fifo.bounded, fifo.open', fifo.closed⟩
        exact rank_popTurn fifo' (show s.popper.rank = 1 by rw [woken]; rfl)
      · cases stepped
  | notifyFull told =>
      cases told with
      | none =>
          simp only [QueueThreads.stepTurn] at stepped
          split at stepped
          · rename_i guard
            cases stepped
            have before : s.popper.rank = 3 := by rw [guard.1]; rfl
            change ∑ j, (s.pusher j).rank + 3 * s.handler.held + 1 < s.rank
            unfold rank
            omega
          · cases stepped
      | some id =>
          simp only [QueueThreads.stepTurn] at stepped
          split at stepped
          · rename_i guard
            cases stepped
            have before : s.popper.rank = 3 := by rw [guard.1]; rfl
            unfold wakePusher
            cases pusher : s.pusher id with
            | waiting q v =>
                have after := rank_goes s id (.woken q v)
                rw [pusher] at after
                rw [PusherPc.rank_waiting, PusherPc.rank_woken] at after
                change ∑ j, ((s.goes id (.woken q v)).pusher j).rank + 3 * s.handler.held + 1 < s.rank
                unfold rank
                omega
            | idle | woken q v | notifying => simp [waitsAt, pusher] at guard
          · cases stepped

/-! ## Runs -/

theorem attended_run [Inhabited α] {k : Nat} {actions : List (QueueAction n α)} (pos : 0 < k)
    (ran : (start n capacity k).run actions = some s) : s.Fifo capacity ∧ s.Attended capacity :=
  Interleaved.run_invariant (I := fun s => s.Fifo capacity ∧ s.Attended capacity)
    (fun _ _ _ sound stepped => ⟨sound.1.step stepped, sound.2.step sound.1 stepped⟩)
    ⟨start_fifo pos, start_attended⟩ ran

theorem Fifo.turn (fifo : s.Fifo capacity) {turn : QueueTurn n} (stepped : s.stepTurn turn = some s') :
    s'.Fifo capacity :=
  fifo.moves (stepTurn_moves fifo.served stepped)

theorem attended_runTurns {turns : List (QueueTurn n)} (fifo : s.Fifo capacity) (attended : s.Attended capacity)
    (ran : s.runTurns turns = some t) : t.Fifo capacity ∧ t.Attended capacity :=
  Interleaved.run_invariant (I := fun s => s.Fifo capacity ∧ s.Attended capacity)
    (fun _ _ _ sound stepped => ⟨sound.1.turn stepped, sound.2.stepTurn sound.1 stepped⟩)
    ⟨fifo, attended⟩ ran

theorem runTurns_bounded {turns : List (QueueTurn n)} (fifo : s.Fifo capacity)
    (ran : s.runTurns turns = some t) :
    turns.length ≤ s.rank := by
  have bounded := Interleaved.run_bounded (I := Fifo capacity) (fun _ => 0)
    (fun _ _ _ fifo stepped => Fifo.turn fifo stepped)
    (fun s turn s' fifo stepped => (show s'.rank + 1 + 0 * 0 ≤ s.rank + 0 * 0 from rank_turn fifo stepped))
      fifo ran
  omega

/-- Where no thread can go on, the thread of the stack waits, and so do the threads whose queue was
    erased. -/
theorem Attended.rests (attended : s.Attended capacity) (room : 0 < capacity)
    (stuck : ∀ turn, s.stepTurn turn = none) :
    s.popper = .waiting ∧ (∀ q, s.handler.isQueueActive q = true → s.handler.contents q = []) ∧
      ∀ id, s.pusher id = .idle ∨
        ∃ q v, s.pusher id = .waiting q v ∧ s.handler.isQueueActive q = false := by
  have silent (id : Fin n) : s.pusher id ≠ .notifying := by
    intro notifies
    have told := stuck (.notifyEmpty id)
    simp [QueueThreads.stepTurn, notifies] at told
  have back (id : Fin n) (q : Nat) (v : α) : s.pusher id ≠ .woken q v := by
    intro woken
    have resumed := stuck (.resume id)
    simp [QueueThreads.stepTurn, woken] at resumed
  have popper : s.popper = .waiting := by
    cases here : s.popper with
    | waiting => rfl
    | idle | woken =>
        have taken := stuck .pop
        simp [QueueThreads.stepTurn, here] at taken
    | notifying =>
        by_cases none' : ∀ id, s.waitsAt s.handler.spinIdx id = false
        · have told := stuck (.notifyFull none)
          simp [QueueThreads.stepTurn, here, none'] at told
        · obtain ⟨id, waits⟩ := not_forall.mp none'
          rw [Bool.not_eq_false] at waits
          have told := stuck (.notifyFull (some id))
          simp [QueueThreads.stepTurn, here, waits] at told
  have empty : ∀ q, s.handler.isQueueActive q = true → s.handler.contents q = [] :=
    (attended.empty popper).resolve_right (not_exists.mpr silent)
  refine ⟨popper, empty, fun id => ?_⟩
  cases pusher : s.pusher id with
  | idle => exact .inl rfl
  | notifying => exact absurd pusher (silent id)
  | woken q v => exact absurd pusher (back id q v)
  | waiting q v =>
      refine .inr ⟨q, v, rfl, ?_⟩
      by_contra active
      have active' : s.handler.isQueueActive q = true := by simpa using active
      have full := attended.full id q v pusher active'
      have none' : s.wokenAt q = 0 := by
        refine Finset.sum_eq_zero fun j _ => ?_
        cases other : s.pusher j with
        | woken i w => exact absurd other (back j i w)
        | idle | waiting i w | notifying => rfl
      rw [empty q active', none', notifiesAt_of_ne (by rw [popper]; decide)] at full
      exact absurd full (by simpa using room.ne')

/-- From any moment on, as long as no call begins and no thread wakes up for no reason, the threads make at
    most `6 n + 3 held + 3` steps. When none of them can go on, every task of a queue that was not erased
    was taken, and a thread that is still inside `push` waits at a queue that was erased. -/
theorem comes_to_rest [Inhabited α] {k : Nat} {actions : List (QueueAction n α)} {turns : List (QueueTurn n)}
    (pos : 0 < k) (room : 0 < capacity) (ran : (start n capacity k).run actions = some s)
    (ranOn : s.runTurns turns = some t) :
    turns.length ≤ 6 * n + 3 * s.handler.held + 3 ∧
      ((∀ turn, t.stepTurn turn = none) →
        t.popper = .waiting ∧
        (∀ q, t.handler.isQueueActive q = true → onQueue t.popped q = onQueue t.accepted q) ∧
        ∀ id, t.pusher id = .idle ∨
          ∃ q v, t.pusher id = .waiting q v ∧ t.handler.isQueueActive q = false) := by
  obtain ⟨fifo, attended⟩ := attended_run pos ran
  obtain ⟨fifo', attended'⟩ := attended_runTurns fifo attended ranOn
  refine ⟨(runTurns_bounded fifo ranOn).trans rank_le, fun stuck => ?_⟩
  obtain ⟨popper, empty, pushers⟩ := attended'.rests room stuck
  refine ⟨popper, fun q active => ?_, pushers⟩
  rw [fifo'.open' q active, empty q active, List.append_nil]

/-- The second thread finds its queue full. -/
theorem comes_to_rest_two : ∃ s t : QueueThreads 2 Nat,
    (start 2 1 1).run [.push 0 0 7, .push 1 0 8] = some s ∧
    s.runTurns [.notifyEmpty 0, .pop, .notifyFull (some 1), .resume 1, .pop, .notifyEmpty 1, .pop] = some t ∧
    t.popper = .waiting ∧ ∀ q, t.handler.isQueueActive q = true →
      onQueue t.popped q = onQueue t.accepted q := by
  obtain ⟨s, ran⟩ := Option.isSome_iff_exists.mp (show ((start 2 1 1 : QueueThreads 2 Nat).run [.push 0 0 7,
    .push 1 0 8]).isSome = true by decide +kernel)
  have whole : (((start 2 1 1 : QueueThreads 2 Nat).run [.push 0 0 7, .push 1 0 8]).bind fun s => s.runTurns
      [.notifyEmpty 0, .pop, .notifyFull (some 1), .resume 1, .pop, .notifyEmpty 1, .pop]).isSome = true := by
    decide +kernel
  have last (turn : QueueTurn 2) : ((((start 2 1 1 : QueueThreads 2 Nat).run [.push 0 0 7, .push 1 0 8]).bind
      fun s => s.runTurns [.notifyEmpty 0, .pop, .notifyFull (some 1), .resume 1, .pop, .notifyEmpty 1,
        .pop]).bind fun t => t.stepTurn turn).isNone = true := by
    cases turn with
    | pop => decide +kernel
    | resume id | notifyEmpty id => revert id; decide +kernel
    | notifyFull told =>
        cases told with
        | none => decide +kernel
        | some id => revert id; decide +kernel
  rw [ran, Option.bind_some] at whole
  obtain ⟨t, ranOn⟩ := Option.isSome_iff_exists.mp whole
  have rests := (comes_to_rest (by decide) (by decide) ran ranOn).2 fun turn => by
    have none' := last turn
    rw [ran, Option.bind_some, ranOn, Option.bind_some] at none'
    exact Option.isNone_iff_eq_none.mp none'
  exact ⟨s, t, ran, ranOn, rests.1, rests.2.1⟩

end QueueThreads

end SonicaEnb
