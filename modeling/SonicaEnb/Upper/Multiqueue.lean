import SonicaEnb.Lib.Circular
import Mathlib.Logic.Function.Basic

/-! # The queues of the stack thread

Other threads hand tasks to the thread of the stack through `srslte::multiqueue_handler`:
bounded queues, ring buffers behind one lock, from which the thread of the stack takes one
task after the other, each time from the next queue that has one.
-/

namespace SonicaEnb

/-- `multiqueue_handler::circular_buffer`, which has a slot more than it may hold. What was moved out of
    a slot stays there; it is not read again before it is written. -/
structure CircularBuffer (α : Type) where
  buffer : List α
  active : Bool
  widx : Nat
  ridx : Nat
  widxInside : widx < buffer.length
  ridxInside : ridx < buffer.length

namespace CircularBuffer

variable {α : Type} {b : CircularBuffer α}

def create [Inhabited α] (cap : Nat) : CircularBuffer α :=
  { buffer := List.replicate (cap + 1) default, active := true, widx := 0, ridx := 0
    widxInside := by simp, ridxInside := by simp }

def empty (b : CircularBuffer α) : Bool := b.widx == b.ridx

def size (b : CircularBuffer α) : Nat :=
  if b.ridx ≤ b.widx then b.widx - b.ridx else b.widx + (b.buffer.length - b.ridx)

def full (b : CircularBuffer α) : Bool :=
  if 0 < b.ridx then b.widx == b.ridx - 1 else b.widx == b.buffer.length - 1

def capacity (b : CircularBuffer α) : Nat := b.buffer.length - 1

def push (b : CircularBuffer α) (o : α) : CircularBuffer α :=
  { b with
    buffer := b.buffer.set b.widx o
    widx := Circular.next b.buffer.length b.widx
    widxInside := by
      rw [List.length_set]
      exact Circular.next_lt (by have := b.widxInside; omega)
    ridxInside := by simpa using b.ridxInside }

def pop (b : CircularBuffer α) : CircularBuffer α :=
  { b with
    ridx := Circular.next b.buffer.length b.ridx
    ridxInside := Circular.next_lt (by have := b.widxInside; omega) }

def front (b : CircularBuffer α) : α := b.buffer.get ⟨b.ridx, b.ridxInside⟩

/-- `while (not empty()) pop()`, which a buffer leaves after `size` turns. -/
def drainLoop : Nat → CircularBuffer α → CircularBuffer α
  | 0, b => b
  | k + 1, b => if b.empty then b else drainLoop k b.pop

def drain (b : CircularBuffer α) : CircularBuffer α := drainLoop b.size b

/-! ## What a buffer holds -/

/-- The queue that the buffer stands for. -/
def contents (b : CircularBuffer α) : List α := Circular.slots b.buffer b.ridx b.size

theorem size_lt : b.size < b.buffer.length := by
  have := b.widxInside
  have := b.ridxInside
  unfold size
  split <;> omega

theorem length_contents : b.contents.length = b.size := Circular.length_slots size_lt.le

theorem length_contents_le : b.contents.length ≤ b.capacity := by
  have := b.size_lt
  rw [length_contents, capacity]
  omega

theorem widx_eq : b.widx = (b.ridx + b.size) % b.buffer.length := by
  have := b.widxInside
  have := b.ridxInside
  unfold size
  split
  · rw [show b.ridx + (b.widx - b.ridx) = b.widx by omega, Nat.mod_eq_of_lt b.widxInside]
  · rw [show b.ridx + (b.widx + (b.buffer.length - b.ridx)) = b.widx + b.buffer.length by omega,
      Nat.add_mod_right, Nat.mod_eq_of_lt b.widxInside]

theorem empty_iff : b.empty = true ↔ b.contents = [] := by
  have := b.ridxInside
  rw [← List.length_eq_zero_iff, length_contents, empty, beq_iff_eq]
  unfold size
  split <;> omega

theorem full_iff : b.full = true ↔ b.contents.length = b.capacity := by
  have := b.widxInside
  have := b.ridxInside
  rw [length_contents, full, capacity]
  unfold size
  split <;> split <;> simp only [beq_iff_eq] <;> omega

@[simp] theorem active_push (o : α) : (b.push o).active = b.active := rfl
@[simp] theorem active_pop : b.pop.active = b.active := rfl
@[simp] theorem capacity_push (o : α) : (b.push o).capacity = b.capacity := by simp [push, capacity]
@[simp] theorem capacity_pop : b.pop.capacity = b.capacity := rfl

@[simp] theorem contents_create [Inhabited α] (cap : Nat) : (create cap : CircularBuffer α).contents = [] :=
  empty_iff.mp rfl

theorem size_push (o : α) (room : b.full = false) : (b.push o).size = b.size + 1 := by
  have := b.widxInside
  have := b.ridxInside
  unfold full at room
  simp only [push, size, Circular.next, List.length_set]
  split at room <;> rw [beq_eq_false_iff_ne] at room <;> split <;> split <;> split <;> omega

theorem size_pop (some' : b.empty = false) : b.size = b.pop.size + 1 := by
  have := b.widxInside
  have := b.ridxInside
  rw [empty, beq_eq_false_iff_ne] at some'
  simp only [pop, size, Circular.next]
  split <;> split <;> split <;> omega

theorem contents_push (o : α) (room : b.full = false) : (b.push o).contents = b.contents ++ [o] := by
  have short : b.size + 1 < (b.push o).buffer.length := by
    rw [← size_push o room]
    exact size_lt
  have fits : b.size < b.buffer.length := size_lt
  rw [contents, size_push o room]
  simp only [push, b.widx_eq]
  exact Circular.slots_set fits o

theorem contents_pop (some' : b.empty = false) : b.contents = b.front :: b.pop.contents := by
  have fits : b.pop.size < b.buffer.length := size_lt
  rw [contents, size_pop some']
  exact Circular.slots_succ b.ridxInside fits

theorem drainLoop_empty : ∀ (k : Nat) (b : CircularBuffer α), b.size ≤ k → (drainLoop k b).empty = true
  | 0, b, small => by
      rw [drainLoop, empty_iff, ← List.length_eq_zero_iff, length_contents]
      omega
  | k + 1, b, small => by
      rw [drainLoop]
      split
      · assumption
      · rename_i left
        have smaller := size_pop (Bool.eq_false_iff.mpr left)
        exact drainLoop_empty k b.pop (by omega)

theorem drainLoop_kept : ∀ (k : Nat) (b : CircularBuffer α),
    (drainLoop k b).active = b.active ∧ (drainLoop k b).capacity = b.capacity
  | 0, b => ⟨rfl, rfl⟩
  | k + 1, b => by
      rw [drainLoop]
      split
      · exact ⟨rfl, rfl⟩
      · exact drainLoop_kept k b.pop

theorem contents_drain : b.drain.contents = [] := empty_iff.mp (drainLoop_empty _ _ (Nat.le_refl _))

end CircularBuffer

/-- `multiqueue_handler`. What a thread does when it is woken is in the model of the threads. -/
structure MultiqueueHandler (α : Type) where
  spinIdx : Nat
  running : Bool
  queues : List (CircularBuffer α)
  capacity : Nat
  nofThreadsWaiting : Nat

namespace MultiqueueHandler

variable {α : Type}

def create (capacity : Nat) : MultiqueueHandler α :=
  { spinIdx := 0, running := true, queues := [], capacity, nofThreadsWaiting := 0 }

/-- The first queue that is not active is used again. -/
def addQueue [Inhabited α] (m : MultiqueueHandler α) : Int × MultiqueueHandler α :=
  if m.running then
    let qidx := m.queues.findIdx fun b => !b.active
    if qidx = m.queues.length then
      (qidx, { m with queues := m.queues ++ [CircularBuffer.create m.capacity] })
    else (qidx, { m with queues := m.queues.modify qidx fun b => { b with active := true } })
  else (-1, m)

/-- A queue that does not exist counts as not active. -/
def isQueueActive (m : MultiqueueHandler α) (qIdx : Nat) : Bool :=
  m.running && (m.queues[qIdx]?).any (·.active)

def isFull (m : MultiqueueHandler α) (qIdx : Nat) : Bool := (m.queues[qIdx]?).any (·.full)

/-- `queues[q_idx].push(value)` -/
def pushTo (m : MultiqueueHandler α) (qIdx : Nat) (value : α) : MultiqueueHandler α :=
  { m with queues := m.queues.modify qIdx (·.push value) }

def tryPush (m : MultiqueueHandler α) (qIdx : Nat) (value : α) : Bool × MultiqueueHandler α :=
  if !m.isQueueActive qIdx || m.isFull qIdx then (false, m) else (true, m.pushTo qIdx value)

def eraseQueue (m : MultiqueueHandler α) (qIdx : Nat) : MultiqueueHandler α :=
  if m.isQueueActive qIdx then
    { m with queues := m.queues.modify qIdx fun b => { b with active := false }.drain }
  else m

def roundRobinPopLoop : Nat → MultiqueueHandler α → Option α × MultiqueueHandler α
  | 0, m => (none, m)
  | k + 1, m =>
      let m := { m with spinIdx := (m.spinIdx + 1) % m.queues.length }
      match m.queues[m.spinIdx]? with
      | none => roundRobinPopLoop k m
      | some b =>
          if m.isQueueActive m.spinIdx && !b.empty then
            (some b.front, { m with queues := m.queues.modify m.spinIdx (·.pop) })
          else roundRobinPopLoop k m

def roundRobinPop (m : MultiqueueHandler α) : Option α × MultiqueueHandler α :=
  roundRobinPopLoop m.queues.length m

/-! ## What the queues hold -/

variable {m : MultiqueueHandler α} {q : Nat}

def contents (m : MultiqueueHandler α) (qIdx : Nat) : List α := ((m.queues[qIdx]?).map (·.contents)).getD []

/-- A queue from which a task can be taken. -/
def ready (m : MultiqueueHandler α) (qIdx : Nat) : Bool := m.isQueueActive qIdx && !(m.contents qIdx).isEmpty

/-- Every buffer has the capacity the handler was made with. -/
def Bounded (m : MultiqueueHandler α) : Prop := ∀ b ∈ m.queues, b.capacity = m.capacity

theorem getElem?_queues (below : q < m.queues.length) :
    ∃ b, m.queues[q]? = some b ∧ m.contents q = b.contents ∧ m.isFull q = b.full ∧
      m.isQueueActive q = (m.running && b.active) := by
  have here := List.getElem?_eq_getElem below
  exact ⟨_, here, by simp [contents, here], by simp [isFull, here], by simp [isQueueActive, here]⟩

theorem below_of_active (active : m.isQueueActive q = true) : q < m.queues.length := by
  by_contra beyond
  simp [isQueueActive, List.getElem?_eq_none (Nat.le_of_not_lt beyond)] at active

theorem length_contents_le (bounded : m.Bounded) : (m.contents q).length ≤ m.capacity := by
  by_cases below : q < m.queues.length
  · obtain ⟨b, here, holds, -, -⟩ := getElem?_queues below
    rw [holds, ← bounded b (List.mem_of_getElem? here)]
    exact b.length_contents_le
  · simp [contents, List.getElem?_eq_none (Nat.le_of_not_lt below)]

theorem isFull_iff (bounded : m.Bounded) (below : q < m.queues.length) :
    m.isFull q = true ↔ (m.contents q).length = m.capacity := by
  obtain ⟨b, here, holds, full, -⟩ := getElem?_queues below
  rw [full, holds, b.full_iff, bounded b (List.mem_of_getElem? here)]

/-! ## The operations on one queue -/

variable {f : CircularBuffer α → CircularBuffer α}

theorem contents_modify {l : List α} (below : q < m.queues.length)
    (holds : ∀ b, m.queues[q]? = some b → (f b).contents = l) :
    ({ m with queues := m.queues.modify q f } : MultiqueueHandler α).contents =
      Function.update m.contents q l := by
  funext j
  by_cases same : j = q
  · subst same
    have here := List.getElem?_eq_getElem below
    simp [contents, here, holds _ here]
  · simp [contents, List.getElem?_modify_ne _ _ (Ne.symm same), Function.update_of_ne same]

theorem isQueueActive_modify (kept : ∀ b, (f b).active = b.active) :
    ({ m with queues := m.queues.modify q f } : MultiqueueHandler α).isQueueActive = m.isQueueActive := by
  funext j
  simp only [isQueueActive, List.getElem?_modify]
  cases m.queues[j]? with
  | none => rfl
  | some b => by_cases same : q = j <;> simp [same, kept]

theorem bounded_modify (bounded : m.Bounded) (kept : ∀ b, (f b).capacity = b.capacity) :
    ({ m with queues := m.queues.modify q f } : MultiqueueHandler α).Bounded := by
  intro b member
  obtain ⟨j, here⟩ := List.mem_iff_getElem?.mp member
  simp only [List.getElem?_modify] at here
  obtain ⟨b', there, rfl⟩ := Option.map_eq_some_iff.mp here
  have capacity := bounded b' (List.mem_of_getElem? there)
  by_cases same : q = j <;> simp [same, kept, capacity]

theorem contents_pushTo (v : α) (below : q < m.queues.length) (room : m.isFull q = false) :
    (m.pushTo q v).contents = Function.update m.contents q (m.contents q ++ [v]) := by
  obtain ⟨b, here, holds, full, -⟩ := getElem?_queues below
  apply contents_modify below
  intro b' there
  obtain rfl : b = b' := Option.some.inj (here.symm.trans there)
  rw [holds, CircularBuffer.contents_push v (full.symm.trans room)]

@[simp] theorem isQueueActive_pushTo (v : α) : (m.pushTo q v).isQueueActive = m.isQueueActive :=
  isQueueActive_modify fun _ => rfl

theorem bounded_pushTo (bounded : m.Bounded) (v : α) : (m.pushTo q v).Bounded :=
  bounded_modify bounded fun _ => CircularBuffer.capacity_push v

theorem eraseQueue_active (active : m.isQueueActive q = true) :
    (m.eraseQueue q).contents = Function.update m.contents q [] ∧
      (m.eraseQueue q).isQueueActive = Function.update m.isQueueActive q false := by
  rw [eraseQueue, if_pos active]
  refine ⟨contents_modify (below_of_active active) fun _ _ => CircularBuffer.contents_drain, ?_⟩
  funext j
  by_cases same : j = q
  · subst same
    have here := List.getElem?_eq_getElem (below_of_active active)
    have inactive (b : CircularBuffer α) :
      ({ b with active := false } : CircularBuffer α).drain.active = false :=
      (CircularBuffer.drainLoop_kept _ _).1
    simp [isQueueActive, here, inactive]
  · simp [isQueueActive, List.getElem?_modify_ne _ _ (Ne.symm same), Function.update_of_ne same]

theorem bounded_eraseQueue (bounded : m.Bounded) : (m.eraseQueue q).Bounded := by
  unfold eraseQueue
  split
  · exact bounded_modify bounded fun b => (CircularBuffer.drainLoop_kept _ _).2
  · exact bounded

@[simp] theorem length_eraseQueue : (m.eraseQueue q).queues.length = m.queues.length := by
  unfold eraseQueue
  split
  · simp
  · rfl

/-! ## The next task -/

theorem ready_iff (below : q < m.queues.length) :
    ∃ b, m.queues[q]? = some b ∧ m.contents q = b.contents ∧
      m.ready q = (m.isQueueActive q && !b.empty) := by
  obtain ⟨b, here, holds, -, -⟩ := getElem?_queues below
  refine ⟨b, here, holds, ?_⟩
  have same : b.contents.isEmpty = b.empty := by
    rw [Bool.eq_iff_iff, List.isEmpty_iff, b.empty_iff]
  rw [ready, holds, same]

/-- The handler after a task was taken from queue `q`. -/
def popped (m : MultiqueueHandler α) (q : Nat) : MultiqueueHandler α :=
  { m with spinIdx := q, queues := m.queues.modify q (·.pop) }

/-- The loop tries the next `k` queues. -/
theorem roundRobinPopLoop_eq (k : Nat) (served : m.spinIdx < m.queues.length) :
    roundRobinPopLoop k m =
      match ((List.range k).map fun j => (m.spinIdx + 1 + j) % m.queues.length).find? m.ready with
      | none => (none, { m with spinIdx := (m.spinIdx + k) % m.queues.length })
      | some i => ((m.contents i).head?, m.popped i) := by
  induction k generalizing m with
  | zero => simp [roundRobinPopLoop, Nat.mod_eq_of_lt served]
  | succ k ih =>
      have below : (m.spinIdx + 1) % m.queues.length < m.queues.length := Nat.mod_lt _ (by omega)
      obtain ⟨b, here, holds, able⟩ := ready_iff below
      have later := ih (m := { m with spinIdx := (m.spinIdx + 1) % m.queues.length }) below
      have order : (fun j => ((m.spinIdx + 1) % m.queues.length + 1 + j) % m.queues.length) =
          (fun j => (m.spinIdx + 1 + j) % m.queues.length) ∘ Nat.succ := by
        funext j
        simp only [Function.comp, Nat.add_assoc, Nat.mod_add_mod, Nat.succ_eq_add_one, Nat.add_comm 1 j]
      simp only [order] at later
      simp only [roundRobinPopLoop, here, List.range_succ_eq_map, List.map_cons, Nat.add_zero,
        List.map_map, List.find?_cons, able]
      split
      · rename_i taken
        have some' : b.empty = false := by simpa using ((Bool.and_eq_true _ _).mp taken).2
        have taken' : (m.isQueueActive ((m.spinIdx + 1) % m.queues.length) && !b.empty) = true := taken
        simp only [taken', holds, b.contents_pop some', List.head?_cons, popped]
      · rename_i left
        have left' : (m.isQueueActive ((m.spinIdx + 1) % m.queues.length) && !b.empty) = false :=
          Bool.eq_false_iff.mpr left
        rw [later, left']
        simp only [Nat.mod_add_mod, Nat.add_assoc, Nat.add_comm 1 k]
        rfl

/-- The task that is taken is the first one of the queue whose turn it is. -/
theorem roundRobinPop_eq (served : m.spinIdx < m.queues.length) :
    m.roundRobinPop =
      match (Circular.turns m.queues.length m.spinIdx).find? m.ready with
      | none => (none, m)
      | some i => ((m.contents i).head?, m.popped i) := by
  rw [roundRobinPop, roundRobinPopLoop_eq _ served, Nat.add_mod_right, Nat.mod_eq_of_lt served]
  rfl

theorem below_of_ready (able : m.ready q = true) : q < m.queues.length :=
  below_of_active ((Bool.and_eq_true _ _).mp able).1

theorem contents_popped (able : m.ready q = true) :
    (m.popped q).contents = Function.update m.contents q (m.contents q).tail := by
  have below := below_of_ready able
  obtain ⟨b, here, holds, same⟩ := ready_iff below
  have some' : b.empty = false := by
    rw [same] at able
    simpa using ((Bool.and_eq_true _ _).mp able).2
  apply contents_modify below
  intro b' there
  obtain rfl : b = b' := Option.some.inj (here.symm.trans there)
  rw [holds, b.contents_pop some', List.tail_cons]

@[simp] theorem isQueueActive_popped : (m.popped q).isQueueActive = m.isQueueActive :=
  isQueueActive_modify fun _ => rfl

theorem bounded_popped (bounded : m.Bounded) : (m.popped q).Bounded :=
  bounded_modify bounded fun _ => CircularBuffer.capacity_pop

theorem head_of_ready (able : m.ready q = true) :
    ∃ v rest, m.contents q = v :: rest := by
  cases holds : m.contents q with
  | nil => simp [ready, holds] at able
  | cons v rest => exact ⟨v, rest, rfl⟩

/-! ## A handler with `k` queues -/

section

variable [Inhabited α]

/-- `add_queue` in a row, as the constructor of the stack and the initialisation of the MAC call it. -/
def withQueues (capacity : Nat) : Nat → MultiqueueHandler α
  | 0 => create capacity
  | k + 1 => (withQueues capacity k).addQueue.2

theorem none_inactive (capacity k : Nat) :
    (List.replicate k (CircularBuffer.create capacity : CircularBuffer α)).findIdx
      (fun b => !b.active) = k := by
  have length := List.length_replicate (n := k) (a := (CircularBuffer.create capacity : CircularBuffer α))
  rw [List.findIdx_eq_length.mpr, length]
  intro b member
  rw [List.eq_of_mem_replicate member]
  rfl

theorem withQueues_eq (capacity k : Nat) :
    (withQueues capacity k : MultiqueueHandler α) =
      { spinIdx := 0, running := true, queues := List.replicate k (CircularBuffer.create capacity)
        capacity, nofThreadsWaiting := 0 } := by
  induction k with
  | zero => rfl
  | succ k ih =>
      simp only [withQueues, addQueue, ih, none_inactive, List.length_replicate, if_true, List.replicate_succ']

/-- Each call answers the next number. -/
theorem addQueue_withQueues (capacity k : Nat) :
    (withQueues capacity k : MultiqueueHandler α).addQueue = ((k : Int), withQueues capacity (k + 1)) := by
  refine Prod.ext ?_ rfl
  simp only [addQueue, withQueues_eq, none_inactive, List.length_replicate, if_true]

variable {capacity k : Nat}

@[simp] theorem length_withQueues : (withQueues capacity k : MultiqueueHandler α).queues.length = k := by
  simp [withQueues_eq]

theorem contents_withQueues : (withQueues capacity k : MultiqueueHandler α).contents q = [] := by
  rw [withQueues_eq, contents]
  simp only [List.getElem?_replicate]
  split <;> simp

theorem isQueueActive_withQueues :
    (withQueues capacity k : MultiqueueHandler α).isQueueActive q = decide (q < k) := by
  rw [withQueues_eq, isQueueActive]
  simp only [List.getElem?_replicate]
  split <;> simp_all [CircularBuffer.create]

theorem bounded_withQueues : (withQueues capacity k : MultiqueueHandler α).Bounded := by
  rw [withQueues_eq]
  intro b member
  rw [List.eq_of_mem_replicate member]
  simp [CircularBuffer.create, CircularBuffer.capacity]

end

end MultiqueueHandler

end SonicaEnb
