import SonicaEnb.Mac.RarQueue

/-! # The length of a pending response

A pending response has room for eight grants, and `dl_rach_info` writes behind the last
one without looking. Grants leave one at a time, so the list stays in bounds exactly as
long as every report comes while fewer than eight of its occasion are unanswered.
-/

namespace SonicaEnb

/-- The index of `msg3_grant` that `dl_rach_info` writes. -/
def rachInfoIndex (pendingRars : List PendingRar) (info : DlSchedRarInfo) : Nat :=
  let raRnti := (1 + info.nprachTti / 10 / 4) % 65536
  let same : PendingRar → Bool := fun r => r.nprachTti == info.nprachTti && r.raRnti == raRnti
  match pendingRars.find? same with
  | some r => r.msg3Grant.length
  | none => 0

/-- Every pending response fits into its list of grants. -/
def RarsFit (pendingRars : List PendingRar) : Prop :=
  ∀ rar ∈ pendingRars, rar.msg3Grant.length ≤ maxRarList

/-- The entries of an occasion that wait. -/
def waitingOf (pendingRars : List PendingRar) (nprachTti : Nat) : List DlSchedRarInfo :=
  ofOccasion nprachTti (waitingInfos pendingRars)

namespace RarQueue

variable {pendingRars rest : List PendingRar}

/-- Nothing waits for an occasion without a response. -/
theorem waitingOf_absent (queue : RarQueue pendingRars) {nprachTti : Nat}
    (absent : ∀ rar ∈ pendingRars, rar.nprachTti ≠ nprachTti) : waitingOf pendingRars nprachTti = [] := by
  apply List.filter_eq_nil_iff.mpr
  intro info here
  obtain ⟨r, there, listed⟩ := List.mem_flatMap.mp here
  have other := absent r there
  rw [← queue.own r there info listed] at other
  simpa using other

/-- What waits for an occasion is the response of this occasion. -/
theorem waitingOf_mem (queue : RarQueue pendingRars) {rar : PendingRar} (member : rar ∈ pendingRars) :
    waitingOf pendingRars rar.nprachTti = rar.msg3Grant := by
  induction pendingRars with
  | nil => cases member
  | cons first later ih =>
      obtain ⟨collected, once⟩ := rarQueue_iff.mp queue
      obtain ⟨own, behind⟩ := List.forall_mem_cons.mp collected
      obtain ⟨apart, onceLater⟩ := List.pairwise_cons.mp once
      have queueLater : RarQueue later := rarQueue_iff.mpr ⟨behind, onceLater⟩
      rw [waitingOf, waitingInfos_cons, ofOccasion_append]
      rcases List.mem_cons.mp member with rfl | inside
      · have all : ofOccasion rar.nprachTti rar.msg3Grant = rar.msg3Grant :=
          List.filter_eq_self.mpr fun info here => decide_eq_true (own.own info here)
        have none : ofOccasion rar.nprachTti (waitingInfos later) = [] :=
          queueLater.waitingOf_absent fun r there => (apart r there).symm
        rw [all, none, List.append_nil]
      · have none : ofOccasion rar.nprachTti first.msg3Grant = [] := by
          apply List.filter_eq_nil_iff.mpr
          intro info here
          have other := apart rar inside
          rw [← own.own info here] at other
          simpa using other
        rw [none, List.nil_append]
        exact ih queueLater inside

/-- The write goes behind the entries of the occasion that wait. -/
theorem rachInfoIndex_eq (queue : RarQueue pendingRars) (info : DlSchedRarInfo) :
    rachInfoIndex pendingRars info = (waitingOf pendingRars info.nprachTti).length := by
  unfold rachInfoIndex
  simp only
  split
  · rename_i r found
    have member := List.mem_of_find?_eq_some found
    have same := List.find?_some found
    simp only [Bool.and_eq_true, beq_iff_eq] at same
    rw [← same.1, queue.waitingOf_mem member]
  · rename_i missing
    have absent : ∀ rar ∈ pendingRars, rar.nprachTti ≠ info.nprachTti := by
      intro rar member same
      have other := List.find?_eq_none.mp missing rar member
      have rnti := queue.rnti rar member
      simp [same, rnti, raRntiOf] at other
    rw [queue.waitingOf_absent absent]
    rfl

theorem rarsFit_iff (queue : RarQueue pendingRars) :
    RarsFit pendingRars ↔ ∀ tti, (waitingOf pendingRars tti).length ≤ maxRarList := by
  constructor
  · intro fit tti
    by_cases present : ∃ rar ∈ pendingRars, rar.nprachTti = tti
    · obtain ⟨rar, member, rfl⟩ := present
      rw [queue.waitingOf_mem member]
      exact fit rar member
    · have absent : ∀ rar ∈ pendingRars, rar.nprachTti ≠ tti := fun rar member same =>
        present ⟨rar, member, same⟩
      rw [queue.waitingOf_absent absent]
      exact Nat.zero_le _
  · intro few rar member
    rw [← queue.waitingOf_mem member]
    exact few rar.nprachTti

/-- A report finds room for its entry. -/
def Roomy (pendingRars : List PendingRar) : RarEvent → Prop
  | .dlRachInfo info => (waitingOf pendingRars info.nprachTti).length < maxRarList
  | .dlSched _ => True

/-- A call keeps the lists in bounds exactly if it is no report that finds its list full. -/
theorem rarsFit_step {e : RarEvent} (queue : RarQueue pendingRars) (fit : RarsFit pendingRars)
    (stepped : e.step pendingRars = some rest) : RarsFit rest ↔ Roomy pendingRars e := by
  obtain ⟨after, moved, -⟩ := queue.step stepped
  have before := queue.rarsFit_iff.mp fit
  rw [after.rarsFit_iff]
  cases e with
  | dlRachInfo info =>
      cases stepped
      have lengths : ∀ tti, (waitingOf (raDlRachInfo pendingRars info) tti).length =
          (waitingOf pendingRars tti).length + (ofOccasion tti [info]).length := by
        intro tti
        rw [waitingOf, queue.waiting_rachInfo, List.length_append, waitingOf]
      simp only [lengths, Roomy]
      constructor
      · intro all
        have own := all info.nprachTti
        have here : (ofOccasion info.nprachTti [info]).length = 1 := by simp [ofOccasion]
        omega
      · intro room tti
        by_cases mine : info.nprachTti = tti
        · subst mine
          have here : (ofOccasion info.nprachTti [info]).length = 1 := by simp [ofOccasion]
          omega
        · have none : (ofOccasion tti [info]).length = 0 := by simp [ofOccasion, mine]
          have less := before tti
          omega
  | dlSched g =>
      simp only [Roomy, iff_true]
      intro tti
      have taken := congrArg List.length (moved tti)
      simp only [List.length_append, RarEvent.submitted] at taken
      have none : (ofOccasion tti []).length = 0 := rfl
      have less := before tti
      unfold waitingOf at less ⊢
      omega

end RarQueue

/-! ## Runs -/

/-- Nothing is written or kept beyond the end of a list in this step. -/
def InBounds (o : Events.Step (List PendingRar) RarEvent) : Prop :=
  RarsFit o.post ∧ ∀ info, o.event = .dlRachInfo info → rachInfoIndex o.pre info < maxRarList

/-- How many of the reports of an occasion are unanswered after a part of the log. -/
def unanswered (log : List (Events.Step (List PendingRar) RarEvent)) (nprachTti : Nat) : Nat :=
  (ofOccasion nprachTti (allSubmitted (log.map Events.Step.event))).length -
    (ofOccasion nprachTti (rarInfos (allEmitted log))).length

theorem RarAccount.unanswered_eq {pendingRars : List PendingRar}
    {log : List (Events.Step (List PendingRar) RarEvent)} (account : RarAccount pendingRars log)
    (nprachTti : Nat) : unanswered log nprachTti = (waitingOf pendingRars nprachTti).length := by
  rw [unanswered, account.entries nprachTti, List.length_append, Nat.add_sub_cancel_left]
  rfl

/-- Every call reports at most one preamble. -/
theorem unanswered_le (log : List (Events.Step (List PendingRar) RarEvent)) (nprachTti : Nat) :
    unanswered log nprachTti ≤ log.length := by
  have one : ∀ e : RarEvent, e.submitted.length ≤ 1 := by
    intro e
    cases e <;> simp [RarEvent.submitted]
  have all : (allSubmitted (log.map Events.Step.event)).length ≤ log.length := by
    induction log with
    | nil => exact le_rfl
    | cons o rest ih =>
        have first := one o.event
        simp only [allSubmitted, List.map_cons, List.flatMap_cons, List.length_append,
          List.length_cons] at ih ⊢
        omega
  have some := List.length_filter_le (fun info : DlSchedRarInfo => decide (info.nprachTti = nprachTti))
    (allSubmitted (log.map Events.Step.event))
  unfold unanswered ofOccasion
  omega

section Run

variable {events : List RarEvent} {last : List PendingRar}
    {log : List (Events.Step (List PendingRar) RarEvent)}

theorem rarsFit_run (ran : Events.run RarEvent.step [] events = some (last, log))
    (roomy : ∀ o ∈ log, RarQueue.Roomy o.pre o.event) : ∀ o ∈ log, RarsFit o.post := by
  have keeps : ∀ (s : List PendingRar) (e : RarEvent) (s' : List PendingRar),
      RarQueue s ∧ RarsFit s → e.step s = some s' → RarQueue.Roomy s e → RarQueue s' ∧ RarsFit s' := by
    rintro s e s' ⟨queue, fit⟩ stepped room
    exact ⟨(queue.step stepped).1, (queue.rarsFit_step fit stepped).mpr room⟩
  have start : RarQueue [] ∧ RarsFit [] := ⟨rarAccount_init.queue, by simp [RarsFit]⟩
  intro o member
  exact ((Events.run_keeps keeps start ran roomy).2 o member).2.2

theorem roomy_iff_index (ran : Events.run RarEvent.step [] events = some (last, log))
    {o : Events.Step (List PendingRar) RarEvent} (member : o ∈ log) :
    RarQueue.Roomy o.pre o.event ↔
      ∀ info, o.event = .dlRachInfo info → rachInfoIndex o.pre info < maxRarList := by
  have queue : RarQueue o.pre :=
    (Events.run_step (fun _ _ _ queue stepped => (RarQueue.step queue stepped).1)
      rarAccount_init.queue ran member).1
  cases kind : o.event with
  | dlRachInfo info =>
      simp only [RarQueue.Roomy, RarEvent.dlRachInfo.injEq, forall_eq', queue.rachInfoIndex_eq]
  | dlSched g => simp [RarQueue.Roomy]

end Run

/-- In every run, all lists and all writes stay in bounds exactly if every preamble is reported
    while fewer than eight reports of its occasion are unanswered. -/
theorem pending_rars_bound_iff {events : List RarEvent} {last : List PendingRar}
    {log : List (Events.Step (List PendingRar) RarEvent)}
    (ran : Events.run RarEvent.step [] events = some (last, log)) :
    (∀ o ∈ log, InBounds o) ↔
      ∀ before o after info, log = before ++ o :: after → o.event = .dlRachInfo info →
        unanswered before info.nprachTti < maxRarList := by
  have roomy : (∀ o ∈ log, InBounds o) ↔ ∀ o ∈ log, RarQueue.Roomy o.pre o.event := by
    constructor
    · intro bounded o member
      exact (roomy_iff_index ran member).mpr (bounded o member).2
    · intro roomy o member
      exact ⟨rarsFit_run ran roomy o member, (roomy_iff_index ran member).mp (roomy o member)⟩
  have account : ∀ before o after, log = before ++ o :: after → RarAccount o.pre before := by
    rintro before o after rfl
    obtain ⟨⟨front, ranFront⟩, -⟩ := Events.run_at ran
    exact rarAccount_of_run (fun _ _ _ => id) ranFront
  rw [roomy]
  constructor
  · rintro all before o after info rfl kind
    have room := all o (by simp)
    rw [kind] at room
    rw [(account before o after rfl).unanswered_eq]
    exact room
  · intro few o member
    obtain ⟨before, after, shape⟩ := List.append_of_mem member
    cases kind : o.event with
    | dlRachInfo info =>
        have room := few before o after info shape kind
        rw [(account before o after shape).unanswered_eq] at room
        exact room
    | dlSched g => trivial

/-- Two preambles of one occasion and one of another stay in bounds. -/
theorem three_preambles_in_bounds :
    ∃ last log,
      Events.run RarEvent.step []
        [.dlRachInfo ⟨0, 0, 0x46, 7, 0⟩, .dlRachInfo ⟨1, 0, 0x47, 7, 0⟩, .dlSched (Sched.init.grid 12),
          .dlRachInfo ⟨2, 0, 0x48, 7, 80⟩] = some (last, log) ∧
      ∀ o ∈ log, InBounds o := by
  have ran : Events.run RarEvent.step []
      [.dlRachInfo ⟨0, 0, 0x46, 7, 0⟩, .dlRachInfo ⟨1, 0, 0x47, 7, 0⟩, .dlSched (Sched.init.grid 12),
        .dlRachInfo ⟨2, 0, 0x48, 7, 80⟩] = some (_, _) := rfl
  refine ⟨_, _, ran, (pending_rars_bound_iff ran).mpr ?_⟩
  intro before o after info shape _
  have few := unanswered_le before info.nprachTti
  have length := congrArg List.length shape
  simp only [List.length_append, List.length_cons, List.length_nil] at length
  unfold maxRarList
  omega

/-- The ninth preamble of an occasion is written behind the end of the list. -/
theorem ninth_preamble_out_of_bounds :
    ∃ events last log,
      Events.run RarEvent.step [] events = some (last, log) ∧ ¬ ∀ o ∈ log, InBounds o := by
  have long : ((Events.run RarEvent.step []
      ((List.range 9).map fun i => .dlRachInfo ⟨i, 0, 0x46 + i, 7, 0⟩)).any fun r =>
        r.2.any fun o => o.post.any fun rar => decide (maxRarList < rar.msg3Grant.length)) = true := by
    decide +kernel
  obtain ⟨⟨last, log⟩, ran, found⟩ := (Option.any_eq_true ..).mp long
  obtain ⟨o, member, beyond⟩ := List.any_eq_true.mp found
  obtain ⟨rar, here, excess⟩ := List.any_eq_true.mp beyond
  refine ⟨_, last, log, ran, ?_⟩
  intro bounded
  exact absurd ((bounded o member).1 rar here) (not_le.mpr (of_decide_eq_true excess))

end SonicaEnb
