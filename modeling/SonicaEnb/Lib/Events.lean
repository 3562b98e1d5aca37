import SonicaEnb.Lib.Run

/-! # Runs of an event-driven machine

A machine that handles one event at a time, in whatever order they arrive. An
event that cannot happen in the state at hand has no successor. A run is logged
step by step, each with the states around it.
-/

namespace Events

variable {σ ε : Type}

structure Step (σ ε : Type) where
  pre : σ
  event : ε
  post : σ

/-- The machine as a ticking one: it does not look at the tick. -/
def turn (handle : σ → ε → Option σ) (s : σ) (_ : Nat) (e : ε) : Option (σ × Step σ ε) :=
  (handle s e).map fun s' => (s', ⟨s, e, s'⟩)

def run (handle : σ → ε → Option σ) (s : σ) (events : List ε) : Option (σ × List (Step σ ε)) :=
  Ticking.run (turn handle) s 0 events

theorem turn_eq {handle : σ → ε → Option σ} {s s' : σ} {n : Nat} {e : ε} {o : Step σ ε}
    (turned : turn handle s n e = some (s', o)) : handle s e = some s' ∧ o = ⟨s, e, s'⟩ := by
  obtain ⟨t, handled, same⟩ := Option.map_eq_some_iff.mp turned
  cases same
  exact ⟨handled, rfl⟩

/-- The log names the events in their order. -/
theorem run_events {handle : σ → ε → Option σ} {s last : σ} {events : List ε}
    {log : List (Step σ ε)} (ran : run handle s events = some (last, log)) :
    log.map Step.event = events := by
  suffices named : ∀ n, Ticking.run (turn handle) s n events = some (last, log) →
      log.map Step.event = events from named 0 ran
  clear ran
  induction events generalizing s log with
  | nil =>
      intro n ran
      cases ran
      rfl
  | cons e rest ih =>
      intro n ran
      obtain ⟨s', o, tail, turned, later, rfl⟩ := Ticking.run_cons ran
      obtain ⟨-, rfl⟩ := turn_eq turned
      rw [List.map_cons, ih _ later]

/-- Where every event of a list can be handled in every state, the list can be run. -/
theorem run_of_handles {handle : σ → ε → Option σ} {events : List ε}
    (handles : ∀ e ∈ events, ∀ s, ∃ s', handle s e = some s') (s : σ) :
    ∃ last log, run handle s events = some (last, log) := by
  suffices ∀ n, ∃ last log, Ticking.run (turn handle) s n events = some (last, log) from this 0
  induction events generalizing s with
  | nil => exact fun n => ⟨s, [], rfl⟩
  | cons e rest ih =>
      intro n
      obtain ⟨s', handled⟩ := handles e List.mem_cons_self s
      obtain ⟨last, log, ran⟩ :=
        ih (fun e' member => handles e' (List.mem_cons_of_mem e member)) s' (n + 1)
      have turned : turn handle s n e = some (s', ⟨s, e, s'⟩) := by rw [turn, handled]; rfl
      exact ⟨last, ⟨s, e, s'⟩ :: log, by simp only [Ticking.run, turned, ran]⟩

/-- The step an event of the list takes, with the run of the events in front of it. -/
theorem run_split {handle : σ → ε → Option σ} {s last : σ} {front back : List ε} {e : ε}
    {log : List (Step σ ε)} (ran : run handle s (front ++ e :: back) = some (last, log)) :
    ∃ o ∈ log, o.event = e ∧ ∃ before, run handle s front = some (o.pre, before) := by
  obtain ⟨mid, before, after, ranFront, ranBack, rfl⟩ := Ticking.run_append ran
  obtain ⟨s', o, tail, turned, -, rfl⟩ := Ticking.run_cons ranBack
  obtain ⟨-, rfl⟩ := turn_eq turned
  exact ⟨_, List.mem_append_right before List.mem_cons_self, rfl, before, ranFront⟩

/-- The events in front of a step of the log, and the run of them. -/
theorem run_before {handle : σ → ε → Option σ} {s last : σ} {events : List ε}
    {log : List (Step σ ε)} (ran : run handle s events = some (last, log)) {o : Step σ ε}
    (member : o ∈ log) :
    ∃ front back before, events = front ++ o.event :: back ∧
      run handle s front = some (o.pre, before) := by
  obtain ⟨front, back, rfl⟩ := List.append_of_mem member
  obtain ⟨i, here⟩ : ∃ i, i = front.length := ⟨_, rfl⟩
  have entry : (front ++ o :: back)[i]? = some o := by simp [here]
  obtain ⟨a, b, input, ranFront, turned, -⟩ := Ticking.run_tick ran entry
  obtain ⟨-, rfl⟩ := turn_eq turned
  have names := run_events ran
  rw [List.map_append, List.map_cons] at names
  have same : events.take i = front.map Step.event := by
    rw [← names, here]
    exact List.take_left' (List.length_map _)
  exact ⟨front.map Step.event, back.map Step.event, _, names.symm, same ▸ ranFront⟩

/-- A step of the log with the part of the log in front of it: the run up to it, and the event
    handled there. -/
theorem run_at {handle : σ → ε → Option σ} {s last : σ} {events : List ε}
    {before after : List (Step σ ε)} {o : Step σ ε}
    (ran : run handle s events = some (last, before ++ o :: after)) :
    (∃ front, run handle s front = some (o.pre, before)) ∧ handle o.pre o.event = some o.post := by
  have entry : (before ++ o :: after)[before.length]? = some o := by simp
  obtain ⟨a, b, input, ranFront, turned, -⟩ := Ticking.run_tick ran entry
  obtain ⟨handled, rfl⟩ := turn_eq turned
  rw [List.take_left] at ranFront
  exact ⟨⟨_, ranFront⟩, handled⟩

/-- Steps that follow one another from `s` on. -/
def Linked (handle : σ → ε → Option σ) : σ → List (Step σ ε) → Prop
  | _, [] => True
  | s, o :: rest => o.pre = s ∧ handle s o.event = some o.post ∧ Linked handle o.post rest

theorem run_linked {handle : σ → ε → Option σ} {s last : σ} {events : List ε}
    {log : List (Step σ ε)} (ran : run handle s events = some (last, log)) : Linked handle s log := by
  suffices linked : ∀ n, Ticking.run (turn handle) s n events = some (last, log) →
      Linked handle s log from linked 0 ran
  clear ran
  induction events generalizing s log with
  | nil =>
      intro n ran
      cases ran
      trivial
  | cons e rest ih =>
      intro n ran
      obtain ⟨s', o, tail, turned, later, rfl⟩ := Ticking.run_cons ran
      obtain ⟨handled, rfl⟩ := turn_eq turned
      exact ⟨rfl, handled, ih _ later⟩

theorem Linked.front {handle : σ → ε → Option σ} {s : σ} {front back : List (Step σ ε)}
    (linked : Linked handle s (front ++ back)) : Linked handle s front := by
  induction front generalizing s with
  | nil => trivial
  | cons o rest ih => exact ⟨linked.1, linked.2.1, ih linked.2.2⟩

/-- The part of a run that begins with one of its steps. -/
theorem Linked.tail {handle : σ → ε → Option σ} {s : σ} {before after : List (Step σ ε)}
    {o : Step σ ε} (linked : Linked handle s (before ++ o :: after)) :
    handle o.pre o.event = some o.post ∧ Linked handle o.post after := by
  induction before generalizing s with
  | nil =>
      obtain ⟨rfl, handled, later⟩ := linked
      exact ⟨handled, later⟩
  | cons first rest ih => exact ih linked.2.2

theorem Linked.handled {handle : σ → ε → Option σ} {s : σ} {log : List (Step σ ε)}
    (linked : Linked handle s log) : ∀ o ∈ log, handle o.pre o.event = some o.post := by
  induction log generalizing s with
  | nil => simp
  | cons o rest ih =>
      obtain ⟨rfl, handled, later⟩ := linked
      exact List.forall_mem_cons.mpr ⟨handled, ih later⟩

/-- What holds at the start and after every step holds in front of every step. -/
theorem Linked.pre {handle : σ → ε → Option σ} {P : σ → Prop} {s : σ} {log : List (Step σ ε)}
    (linked : Linked handle s log) (start : P s) (after : ∀ o ∈ log, P o.post) : ∀ o ∈ log, P o.pre := by
  induction log generalizing s with
  | nil => simp
  | cons o rest ih =>
      obtain ⟨rfl, -, later⟩ := linked
      obtain ⟨here, after⟩ := List.forall_mem_cons.mp after
      exact List.forall_mem_cons.mpr ⟨start, ih later here after⟩

/-- What every event meeting `C` keeps holds at both ends of every step of a run of such events. -/
theorem run_keeps {handle : σ → ε → Option σ} {I : σ → Prop} {C : σ → ε → Prop}
    (keeps : ∀ s e s', I s → handle s e = some s' → C s e → I s')
    {s last : σ} {events : List ε} {log : List (Step σ ε)} (start : I s)
    (ran : run handle s events = some (last, log)) (ok : ∀ o ∈ log, C o.pre o.event) :
    I last ∧ ∀ o ∈ log, I o.pre ∧ I o.post := by
  refine Ticking.run_invariant (C := fun o => C o.pre o.event)
    (I := fun _ s past => I s ∧ ∀ o ∈ past, I o.pre ∧ I o.post) ?_ ⟨start, by simp⟩ ran ok
  intro n s past e s' o before turned meets
  obtain ⟨handled, rfl⟩ := turn_eq turned
  have after := keeps s e s' before.1 handled meets
  refine ⟨after, ?_⟩
  intro o member
  rcases List.mem_append.mp member with earlier | now
  · exact before.2 o earlier
  · cases List.mem_singleton.mp now
    exact ⟨before.1, after⟩

theorem run_pre {handle : σ → ε → Option σ} {P : σ → Prop} {s last : σ} {events : List ε}
    {log : List (Step σ ε)} (start : P s) (ran : run handle s events = some (last, log))
    (after : ∀ o ∈ log, P o.post) : ∀ o ∈ log, P o.pre := (run_linked ran).pre start after

/-- A step of the log is a handled event, in a state that has what every event keeps. -/
theorem run_step {handle : σ → ε → Option σ} {I : σ → Prop}
    (keeps : ∀ s e s', I s → handle s e = some s' → I s')
    {s last : σ} {events : List ε} {log : List (Step σ ε)} (start : I s)
    (ran : run handle s events = some (last, log)) {o : Step σ ε} (member : o ∈ log) :
    I o.pre ∧ handle o.pre o.event = some o.post := by
  have kept : ∀ n s e s' o, I s → turn handle s n e = some (s', o) → I s' := by
    intro n s e s' o before turned
    exact keeps s e s' before (turn_eq turned).1
  obtain ⟨a, m, e, b, good, turned⟩ :=
    Ticking.run_mem_invariant (I := fun _ s => I s) kept start ran member
  obtain ⟨handled, rfl⟩ := turn_eq turned
  exact ⟨good, handled⟩

end Events
