import SonicaEnb.Phy.Transmit

/-! # The downlink queue of the worker

The worker looks at the head of its queue only while the NPDSCH is free, and only
for equality of its start with the TTI at hand, so a head that is passed over
blocks the queue for a whole turn. The subframes that the scheduler reserved for
the active NPDSCH and for the queue, in the order of the queue, are an agenda of
increasing TTIs; as long as it is one, every grant finds the NPDSCH free.
-/

namespace SonicaEnb

/-- A grant in the queue with the subframes reserved for it. -/
structure Job where
  record : DlGrantRecord
  times : List Nat

/-- The NPDSCH of the job begins at its first subframe and takes as many as there are. -/
def Job.Fits (j : Job) : Prop :=
  ∃ a rest, j.times = a :: rest ∧ j.record.grant.BeginsAt a j.times.length ∧ j.record.data ≠ none

/-- The subframes left for the active NPDSCH and those of the jobs behind it. -/
def agenda (now : List Nat) (jobs : List Job) : List Nat := now ++ jobs.flatMap Job.times

namespace DlWorker

/-- At the TTI sent at `tx`: the jobs are the queue, and the active NPDSCH is done with the subframes
    left for it. -/
structure Plan (tx : Nat) (w : DlWorker) (now : List Nat) (jobs : List Job) : Prop where
  sorted : (agenda now jobs).Pairwise (· < ·)
  window : ∀ a ∈ agenda now jobs, tx ≤ a ∧ a < tx + 14
  suits : ∀ a ∈ agenda now jobs, isNpdschSf a = true
  queue : w.dlPendingGrants = jobs.map Job.record
  fits : ∀ j ∈ jobs, j.Fits
  active : w.npdschActive = true → w.npdschData ≠ none ∧ w.npdschCfg.grant.tbs ≠ 0 ∧
    w.npdschCfg.numSf < w.npdschCfg.totalSf ∧ w.npdschCfg.totalSf ≤ w.npdschCfg.numSf + now.length

variable {mode : NbiotMode} {tx : Nat} {w w' : DlWorker} {now : List Nat} {jobs : List Job}

theorem Plan.of_same (plan : Plan tx w now jobs) (same : SameNpdsch w w') : Plan tx w' now jobs where
  sorted := plan.sorted
  window := plan.window
  suits := plan.suits
  queue := same.dlPendingGrants.trans plan.queue
  fits := plan.fits
  active := by
    rw [same.npdschActive, same.npdschData, same.npdschCfg]
    exact plan.active

theorem mem_agenda_of_job {j : Job} (inside : j ∈ jobs) {a : Nat} (member : a ∈ j.times) :
    a ∈ agenda now jobs :=
  List.mem_append_right _ (List.mem_flatMap.mpr ⟨j, inside, member⟩)

/-- What the head of the queue has before and behind it on the agenda. -/
theorem Plan.around {j : Job} {a : Nat} {more : List Nat} (plan : Plan tx w now (j :: jobs))
    (times : j.times = a :: more) :
    (∀ b ∈ now, b < a) ∧ (∀ b ∈ more, a < b) ∧ ∀ k ∈ jobs, ∀ b ∈ k.times, a < b := by
  have sorted := plan.sorted
  simp only [agenda, List.flatMap_cons, times, List.cons_append, List.pairwise_append,
    List.pairwise_cons] at sorted
  obtain ⟨-, ⟨later, -⟩, before⟩ := sorted
  refine ⟨fun b inside => before b inside a List.mem_cons_self, ?_, ?_⟩
  · intro b inside
    exact later b (List.mem_append_left _ inside)
  · intro k inside b member
    exact later b (List.mem_append_right _ (List.mem_flatMap.mpr ⟨k, inside, member⟩))

/-- The NPDSCH is free once no subframe is left for it. -/
theorem Plan.free (plan : Plan tx w [] jobs) : w.npdschActive = false := by
  by_contra on
  obtain ⟨-, -, less, enough⟩ := plan.active (by simpa using on)
  rw [List.length_nil] at enough
  omega

/-- The head of the queue takes the NPDSCH over. -/
theorem Plan.configure {j : Job} (plan : Plan tx w [] (j :: jobs)) :
    Plan tx (w.configure j.record (jobs.map Job.record)) j.times jobs := by
  have same : agenda j.times jobs = agenda [] (j :: jobs) := by simp [agenda]
  obtain ⟨a, more, times, begins, data⟩ := plan.fits j List.mem_cons_self
  refine ⟨?_, ?_, ?_, rfl, ?_, ?_⟩
  · rw [same]
    exact plan.sorted
  · rw [same]
    exact plan.window
  · rw [same]
    exact plan.suits
  · intro k inside
    exact plan.fits k (List.mem_cons_of_mem j inside)
  · intro _
    have total : (SonicaEnb.npdschCfg j.record.grant).totalSf = j.times.length := begins.total
    have some : 0 < j.times.length := by simp [times]
    refine ⟨data, begins.tbs, ?_, ?_⟩
    · exact total ▸ some
    · simp only [DlWorker.configure, total]
      omega

/-- The head of the queue is taken at its start, and only then. -/
theorem popGrant_plan (plan : Plan tx w now jobs) :
    ∃ now' jobs', Plan tx (w.popGrant (tx % 10240)).2 now' jobs' ∧ agenda now' jobs' = agenda now jobs ∧
      (∀ j ∈ jobs', ∀ a ∈ j.times, tx < a) ∧
      (((w.popGrant (tx % 10240)).1 = none ∧ jobs' = jobs) ∨
        ∃ j, jobs = j :: jobs' ∧ j.times.head? = some tx ∧ (w.popGrant (tx % 10240)).1 = some j.record) := by
  cases jobs with
  | nil =>
      have none : w.popGrant (tx % 10240) = (none, w) := by
        simp [popGrant, plan.queue]
      rw [none]
      exact ⟨now, [], plan, rfl, by simp, .inl ⟨rfl, rfl⟩⟩
  | cons j rest =>
      obtain ⟨a, more, times, begins, data⟩ := plan.fits j List.mem_cons_self
      obtain ⟨before, tail, behind⟩ := plan.around times
      obtain ⟨lower, upper⟩ := plan.window a (mem_agenda_of_job List.mem_cons_self (by rw [times]; simp))
      have startSfn := begins.startSfn
      have startSfidx := begins.startSfidx
      by_cases here : a = tx
      · subst here
        -- nothing of the agenda lies before the head, so the NPDSCH is free
        have done : now = [] := by
          by_contra some
          obtain ⟨b, inside⟩ := List.exists_mem_of_ne_nil now some
          have := before b inside
          have := (plan.window b (List.mem_append_left _ inside)).1
          omega
        subst done
        have popped : w.popGrant (a % 10240) = (some j.record, w.configure j.record (rest.map Job.record)) := by
          simp [popGrant, plan.queue, plan.free, startSfn, startSfidx, configure]
        rw [popped]
        exact ⟨j.times, rest, plan.configure, by simp [agenda], behind, .inr ⟨j, rfl, by rw [times]; rfl, rfl⟩⟩
      · have none : w.popGrant (tx % 10240) = (none, w) := by
          rcases popGrant_cases w (tx % 10240) with none | ⟨head, queue, whole, -, sfn, sfidx, -⟩
          · exact none
          · rw [plan.queue, List.map_cons] at whole
            cases whole
            omega
        rw [none]
        refine ⟨now, j :: rest, plan, rfl, ?_, .inl ⟨rfl, rfl⟩⟩
        intro k inside b member
        rcases List.mem_cons.mp inside with rfl | behindIt
        · rw [times] at member
          rcases List.mem_cons.mp member with rfl | later
          · omega
          · have := tail b later
            omega
        · have := behind k behindIt b member
          omega

/-- When the present is over, only the active NPDSCH has used a subframe up. -/
theorem agenda_filter (ahead : ∀ j ∈ jobs, ∀ a ∈ j.times, tx < a) :
    (agenda now jobs).filter (fun a => decide (tx < a)) = agenda (now.filter fun a => decide (tx < a)) jobs := by
  have all : (jobs.flatMap Job.times).filter (fun a => decide (tx < a)) = jobs.flatMap Job.times := by
    rw [List.filter_eq_self]
    intro a member
    obtain ⟨j, inside, member⟩ := List.mem_flatMap.mp member
    exact decide_eq_true (ahead j inside a member)
  rw [agenda, agenda, List.filter_append, all]

/-- Dropping the present from an increasing agenda takes at most one subframe away. -/
theorem length_le_filter {times : List Nat} (sorted : times.Pairwise (· < ·)) (from' : ∀ a ∈ times, tx ≤ a) :
    times.length ≤ (times.filter fun a => decide (tx < a)).length + 1 := by
  cases times with
  | nil => simp
  | cons a rest =>
      have later := (List.pairwise_cons.mp sorted).1
      have all : (rest.filter fun b => decide (tx < b)) = rest := by
        rw [List.filter_eq_self]
        intro b inside
        have := later b inside
        have := from' a List.mem_cons_self
        exact decide_eq_true (by omega)
      rw [List.filter_cons, List.length_cons]
      split
      · rw [all, List.length_cons]
        omega
      · rw [all]

/-- Sending a block uses one subframe up. -/
theorem Plan.active_put (plan : Plan tx w now jobs) (on : w.npdschActive = true) {left : List Nat}
    (length : now.length ≤ left.length + 1) (still : (w.putNpdsch tx).2.npdschActive = true) :
    (w.putNpdsch tx).2.npdschData ≠ none ∧ (w.putNpdsch tx).2.npdschCfg.grant.tbs ≠ 0 ∧
      (w.putNpdsch tx).2.npdschCfg.numSf < (w.putNpdsch tx).2.npdschCfg.totalSf ∧
      (w.putNpdsch tx).2.npdschCfg.totalSf ≤ (w.putNpdsch tx).2.npdschCfg.numSf + left.length := by
  obtain ⟨data, tbs, less, enough⟩ := plan.active on
  rcases npdschEncodeRnti_cases w.npdsch w.npdschCfg w.npdschData w.npdschRnti tx with
    ⟨-, none | zero⟩ | ⟨b, -, -, ran⟩
  · exact absurd none data
  · exact absurd zero tbs
  · obtain ⟨grant, -, -, numSf⟩ := NpdschCfg.advance_frame { w.npdschCfg with isEncoded := true }
    have total : { w.npdschCfg with isEncoded := true }.advance.totalSf = w.npdschCfg.totalSf := by
      rw [NpdschCfg.totalSf, grant]
      rfl
    simp only [putNpdsch_mapped ran, total, numSf] at still ⊢
    split at still
    · cases still
    · rename_i more
      rw [if_neg more]
      refine ⟨data, by rw [grant]; exact tbs, ?_, ?_⟩
      · simp only [total, numSf]
        omega
      · simp only [total, numSf]
        omega

/-- Where nothing can be sent, nothing of the agenda is now. -/
theorem Plan.pause (plan : Plan tx w now jobs) (pause : isNpdschSf tx = false) :
    (now.filter fun a => decide (tx < a)) = now := by
  rw [List.filter_eq_self]
  intro a inside
  have suits := plan.suits a (List.mem_append_left _ inside)
  have lower := (plan.window a (List.mem_append_left _ inside)).1
  have notNow : a ≠ tx := by
    rintro rfl
    rw [pause] at suits
    cases suits
  exact decide_eq_true (by omega)

/-- Sending a block, or pausing where nothing can be sent, uses up the present. -/
theorem put_plan (plan : Plan tx w now jobs) (ahead : ∀ j ∈ jobs, ∀ a ∈ j.times, tx < a) (put : Bool)
    (sends : w.npdschActive = true → isNpdschSf tx = true → put = true)
    (only : put = true → w.npdschActive = true) :
    Plan (tx + 1) (if put then (w.putNpdsch tx).2 else w) (now.filter fun a => decide (tx < a)) jobs := by
  have sub : ∀ a ∈ agenda (now.filter fun a => decide (tx < a)) jobs, a ∈ agenda now jobs ∧ tx < a := by
    intro a member
    rw [← agenda_filter ahead, List.mem_filter, decide_eq_true_eq] at member
    exact member
  have length : now.length ≤ (now.filter fun a => decide (tx < a)).length + 1 :=
    length_le_filter (List.pairwise_append.mp plan.sorted).1
      fun a inside => (plan.window a (List.mem_append_left _ inside)).1
  have queue : (if put then (w.putNpdsch tx).2 else w).dlPendingGrants = w.dlPendingGrants := by
    split
    · exact putNpdsch_queue w
    · rfl
  refine ⟨?_, ?_, ?_, queue.trans plan.queue, plan.fits, ?_⟩
  · rw [← agenda_filter ahead]
    exact plan.sorted.filter _
  · intro a member
    obtain ⟨old, after⟩ := sub a member
    have := (plan.window a old).2
    omega
  · exact fun a member => plan.suits a (sub a member).1
  · cases put with
    | true => exact plan.active_put (only rfl) length
    | false =>
        simp only [Bool.false_eq_true, if_false]
        intro on
        have pause : isNpdschSf tx = false := by
          by_contra can
          cases sends on (by simpa using can)
        rw [plan.pause pause]
        exact plan.active on

/-- A TTI of the worker, from the plan it has once the grant of MAC is taken. -/
theorem workDl_plan {rx : Nat} {o : TtiLog} {dl : DlSchedPhy} {ulGrants : List UlSchedGrant}
    (handed : Handed rx o dl)
    (plan : Plan (rx + 4) ((w.putUlDci ulGrants).2.takeGrant mode dl (rx + 4)).2.2.2 now jobs) :
    ∃ now' jobs', Plan (rx + 5) (w.workDl mode (rx + 4) dl ulGrants).2 now' jobs' ∧
      agenda now' jobs' = (agenda now jobs).filter (fun a => decide (rx + 4 < a)) ∧
      (∀ j ∈ jobs', ∀ a ∈ j.times, rx + 4 < a) ∧
      (((w.workDl mode (rx + 4) dl ulGrants).1.popped = none ∧ jobs' = jobs) ∨
        ∃ j, jobs = j :: jobs' ∧ j.times.head? = some (rx + 4) ∧
          (w.workDl mode (rx + 4) dl ulGrants).1.popped = some j.record) := by
  have only := takeGrant_sib1_only handed (w.putUlDci ulGrants).2 mode (rx + 4)
  simp only [workDl]
  generalize (w.putUlDci ulGrants).2.takeGrant mode dl (rx + 4) = result at *
  obtain ⟨now', jobs', planned, same, ahead, popped⟩ := popGrant_plan plan
  generalize result.2.2.2.popGrant ((rx + 4) % 10240) = taken at *
  refine ⟨now'.filter fun a => decide (rx + 4 < a), jobs', ?_, ?_, ahead, popped⟩
  · have put := put_plan planned ahead
      (!result.1 && taken.2.npdschActive && isValidDlSf ((rx + 4) % 10240)) ?_ ?_
    · cases sends : !result.1 && taken.2.npdschActive && isValidDlSf ((rx + 4) % 10240) with
      | false => rw [sends] at put; exact put
      | true => rw [sends] at put; exact put
    · intro on suits
      rw [isNpdschSf_iff] at suits
      have valid : isValidDlSf ((rx + 4) % 10240) = true := by
        rw [isValidDlSf_mod, isValidDlSf_iff]
        exact suits.1
      rw [only suits.2, on, valid]
      rfl
    · intro sends
      simp only [Bool.and_eq_true] at sends
      exact sends.1.2
  · rw [← same, agenda_filter ahead]

end DlWorker

/-! ## The subframes behind a DCI -/

/-- The data of a DCI begins where the PHY computes it to begin. -/
theorem npdschTimes_head {tti : Nat} (valid : isValidDlSf tti = true) (n : Nat) :
    ∃ rest, npdschTimes tti (n + 1) = rarTx tti :: rest := by
  have skip := validSkip_le (tti + 5)
  have whole : 9 = 8 - validSkip (tti + 5) + 1 + validSkip (tti + 5) := by omega
  have suits := DlWorker.rarTx_suits valid
  rw [npdschTimes, whole, firstTimes_validSkip, ← rarTx, firstTimes_take suits]
  exact ⟨_, rfl⟩

theorem length_npdschTimes (tti : Nat) {n : Nat} (few : n ≤ 3) : (npdschTimes tti n).length = n :=
  length_firstTimes (Nat.le_trans few (npdsch_room (tti + 5)))

theorem length_sib2Times {tti : Nat} (occasion : tti % 20 = 1) : (sib2Times tti).length = 8 :=
  length_firstTimes (sib2_room occasion).ge

/-! ## The agenda and the table -/

/-- In front of the TTI received at `rx`: the agenda is reserved, and what a grant of this TTI could
    take lies behind all of it. -/
structure OnTime (rx : Nat) (s : Sched) (w : DlWorker) (now : List Nat) (jobs : List Job) : Prop where
  plan : DlWorker.Plan (rx + 4) w now jobs
  marked : ∀ a ∈ agenda now jobs, s.dlSchedTable (a % 10240) = true
  closed : ∀ b ∈ agenda now jobs, ∀ a, rx + 8 ≤ a → a < b → isNpdschSf a = true → a ∈ agenda now jobs

/-- The same within the TTI, once the grant of MAC is taken; `s` is the scheduler after it. -/
structure Taken (rx : Nat) (s : Sched) (w : DlWorker) (now : List Nat) (jobs : List Job) : Prop where
  plan : DlWorker.Plan (rx + 4) w now jobs
  marked : ∀ a ∈ agenda now jobs, rx + 4 < a → s.dlSchedTable (a % 10240) = true
  closed : ∀ b ∈ agenda now jobs, ∀ a, rx + 9 ≤ a → a < b → isNpdschSf a = true → a ∈ agenda now jobs

section

variable {mode : NbiotMode} {rx : Nat} {s s' : Sched} {w w' : DlWorker} {now : List Nat} {jobs : List Job}

theorem OnTime.taken (onTime : OnTime rx s w now jobs)
    (keeps : ∀ a, rx + 4 < a → a < rx + 18 → s.dlSchedTable (a % 10240) = true →
      s'.dlSchedTable (a % 10240) = true)
    (same : DlWorker.SameNpdsch w w') : Taken rx s' w' now jobs where
  plan := onTime.plan.of_same same
  marked a member after := keeps a after (onTime.plan.window a member).2 (onTime.marked a member)
  closed b member a from' := onTime.closed b member a (by omega)

/-- What was free for a grant of this TTI lies behind the agenda. -/
theorem OnTime.before (onTime : OnTime rx s w now jobs) {a b : Nat} (member : b ∈ agenda now jobs)
    (from' : rx + 8 ≤ a) (suits : isNpdschSf a = true) (free : s.dlSchedTable (a % 10240) = false) : b < a := by
  have notThere : a ∉ agenda now jobs := by
    intro there
    rw [onTime.marked a there] at free
    cases free
  by_contra behind
  rcases Nat.lt_or_ge a b with less | notLess
  · exact notThere (onTime.closed b member a from' less suits)
  · have same : a = b := by omega
    exact notThere (same ▸ member)

/-- A grant with its DCI now goes to the end of the agenda. -/
theorem OnTime.push (onTime : OnTime rx s w now jobs)
    (keeps : ∀ a, rx + 4 < a → a < rx + 18 → s.dlSchedTable (a % 10240) = true →
      s'.dlSchedTable (a % 10240) = true)
    {r : DlGrantRecord} {n : Nat} (valid : isValidDlSf (rx + 4) = true) (some : 0 < n) (few : n ≤ 3)
    (begins : r.grant.BeginsAt (rarTx (rx + 4)) n) (data : r.data ≠ none)
    (free : ∀ a ∈ npdschTimes (rx + 4) n, s.dlSchedTable (a % 10240) = false)
    (marks : ∀ a ∈ npdschTimes (rx + 4) n, s'.dlSchedTable (a % 10240) = true) (hNdiDl : Bool) :
    Taken rx s' { w with dlPendingGrants := w.dlPendingGrants ++ [r], hNdiDl := hNdiDl } now
      (jobs ++ [⟨r, npdschTimes (rx + 4) n⟩]) := by
  have whole : agenda now (jobs ++ [⟨r, npdschTimes (rx + 4) n⟩]) = agenda now jobs ++ npdschTimes (rx + 4) n := by
    simp [agenda]
  have old : Taken rx s' w now jobs := onTime.taken keeps ⟨rfl, rfl, rfl, rfl⟩
  refine ⟨⟨?_, ?_, ?_, ?_, ?_, onTime.plan.active⟩, ?_, ?_⟩
  · rw [whole, List.pairwise_append]
    refine ⟨onTime.plan.sorted, firstTimes_sorted, ?_⟩
    intro b member a new
    obtain ⟨lower, -, suits⟩ := mem_npdschTimes new
    exact onTime.before member (by omega) suits (free a new)
  · intro a member
    rw [whole, List.mem_append] at member
    rcases member with there | new
    · exact onTime.plan.window a there
    · obtain ⟨lower, upper, -⟩ := mem_npdschTimes new
      omega
  · intro a member
    rw [whole, List.mem_append] at member
    rcases member with there | new
    · exact onTime.plan.suits a there
    · exact (mem_npdschTimes new).2.2
  · simp [onTime.plan.queue]
  · intro j member
    rcases List.mem_append.mp member with there | new
    · exact onTime.plan.fits j there
    · rw [List.mem_singleton.mp new]
      obtain ⟨m, rfl⟩ : ∃ m, n = m + 1 := ⟨n - 1, by omega⟩
      obtain ⟨rest, head⟩ := npdschTimes_head valid m
      refine ⟨rarTx (rx + 4), rest, head, ?_, data⟩
      rw [length_npdschTimes _ few]
      exact begins
  · intro a member after
    rw [whole, List.mem_append] at member
    rcases member with there | new
    · exact old.marked a there after
    · exact marks a new
  · intro b member a from' less suits
    rw [whole, List.mem_append] at member ⊢
    rcases member with there | new
    · exact .inl (old.closed b there a from' less suits)
    · exact .inr (firstTimes_closed new (by omega) less suits)

/-- A SIB2 that finds its subframes free finds the NPDSCH free and the queue empty. -/
theorem OnTime.nothing_left (onTime : OnTime rx s w now jobs) (occasion : (rx + 4) % 40 = 1)
    (free : ∀ a ∈ sib2Times (rx + 4), s.dlSchedTable (a % 10240) = false) : now = [] ∧ jobs = [] := by
  have notThere : ∀ a ∈ sib2Times (rx + 4), a ∉ agenda now jobs := by
    intro a member there
    have unmarked := free a member
    rw [onTime.marked a there] at unmarked
    cases unmarked
  -- one subframe that can carry data lies both in the eight and before all that is further ahead
  have within : rx + 9 ∈ sib2Times (rx + 4) ∧ isNpdschSf (rx + 9) = true := by
    rw [mem_sib2Times (by omega), isNpdschSf_iff, isValidDlSf_iff]
    omega
  have empty : agenda now jobs = [] := by
    by_contra some
    obtain ⟨b, member⟩ := List.exists_mem_of_ne_nil _ some
    have lower := (onTime.plan.window b member).1
    by_cases near : b ≤ rx + 14
    · have suits := onTime.plan.suits b member
      rw [isNpdschSf, Bool.and_eq_true] at suits
      exact notThere b ((mem_sib2Times (by omega)).mpr ⟨by omega, by omega, suits.1⟩) member
    · exact notThere _ within.1 (onTime.closed b member (rx + 9) (by omega) (by omega) within.2)
  obtain ⟨none, noTimes⟩ := List.append_eq_nil_iff.mp empty
  refine ⟨none, ?_⟩
  by_contra some
  obtain ⟨j, inside⟩ := List.exists_mem_of_ne_nil jobs some
  obtain ⟨a, rest, times, -⟩ := onTime.plan.fits j inside
  have there : a ∈ jobs.flatMap Job.times := List.mem_flatMap.mpr ⟨j, inside, by rw [times]; simp⟩
  rw [noTimes] at there
  cases there

theorem OnTime.sib2 (onTime : OnTime rx s w now jobs) (occasion : (rx + 4) % 40 = 1)
    (free : ∀ a ∈ sib2Times (rx + 4), s.dlSchedTable (a % 10240) = false)
    (marks : ∀ a ∈ sib2Times (rx + 4), s'.dlSchedTable (a % 10240) = true) (mode : NbiotMode) :
    jobs = [] ∧ Taken rx s' (w.workSib2 mode { dci := raDlSib2, data := some (.bcch 1) } (rx + 4))
      (sib2Times (rx + 4)) [] := by
  obtain ⟨none, noJobs⟩ := onTime.nothing_left occasion free
  have residue : (rx + 4) % 20 = 1 := by omega
  have whole : agenda (sib2Times (rx + 4)) [] = sib2Times (rx + 4) := by simp [agenda]
  refine ⟨noJobs, ⟨⟨?_, ?_, ?_, ?_, ?_, ?_⟩, ?_, ?_⟩⟩
  · rw [whole]
    exact firstTimes_sorted
  · intro a member
    rw [whole] at member
    obtain ⟨lower, upper, -⟩ := (mem_sib2Times residue).mp member
    omega
  · intro a member
    rw [whole] at member
    obtain ⟨lower, upper, valid⟩ := (mem_sib2Times residue).mp member
    rw [isNpdschSf, valid, Bool.true_and, decide_eq_true_eq]
    omega
  · have queue := onTime.plan.queue
    rw [noJobs] at queue
    exact queue
  · intro j inside
    cases inside
  · intro _
    obtain ⟨nofSf, nofRep, tbs⟩ := DlWorker.sib2_grantOf mode (rx + 4)
    have total : (w.workSib2 mode { dci := raDlSib2, data := some (.bcch 1) } (rx + 4)).npdschCfg.totalSf = 8 := by
      change _ * _ = _
      rw [DlWorker.workSib2, SonicaEnb.npdschCfg, nofSf, nofRep]
    rw [total, length_sib2Times residue]
    refine ⟨?_, tbs, Nat.succ_pos 7, Nat.le_add_left 8 0⟩
    intro none
    cases none
  · intro a member _
    rw [whole] at member
    exact marks a member
  · intro b member a from' less suits
    rw [whole] at member ⊢
    obtain ⟨-, upper, -⟩ := (mem_sib2Times residue).mp member
    rw [isNpdschSf, Bool.and_eq_true] at suits
    exact (mem_sib2Times residue).mpr ⟨by omega, by omega, suits.1⟩

end

/-! ## One TTI -/

namespace Sched

variable {s s' : Sched} {rx : Nat} {c : TtiCalls} {o : TtiLog}

/-- The subframe of a response is claimed. -/
theorem tti_rar_claims (stepped : s.tti rx c = some (s', o)) (ok : RingOk rx s) {rar : PendingRar}
    (due : o.pre.rarDue (rx % 10240) = some rar) (valid : isValidDlSf (rx + 4) = true) :
    ∀ a ∈ npdschTimes (rx + 4) 1, a ∈ o.dlClaims := by
  intro a member
  obtain ⟨rest, head⟩ := npdschTimes_head valid 0
  have one := length_npdschTimes (rx + 4) (by omega : 1 ≤ 3)
  rw [head, List.length_cons, Nat.add_eq_right, List.length_eq_zero_iff] at one
  rw [head, one, List.mem_singleton] at member
  rw [member]
  rcases tti_rarAllocs stepped ok with ⟨none, -⟩ | ⟨rar, alloc, -, only, -⟩
  · rw [due] at none
    cases none
  · simp only [TtiLog.dlClaims, tti_rar stepped, SfGrid.rarSchedResult, only, tti_tx stepped]
    simp

/-- The subframes of a user are claimed. -/
theorem tti_user_claims (windows : Windows rx s) (stepped : s.tti rx c = some (s', o)) {user : Nat}
    {ue : SchedUe} (due : o.pre.dlUserDue (rx % 10240) = some user) (found : o.pre.ueDb.find? user = some ue) :
    ∀ a ∈ npdschTimes (rx + 4) (iSfToNSfNpdsch.getD (SfGrid.iSfFor ue.getRequestedDlBytes.2) 0),
      a ∈ o.dlClaims := by
  have listed := tti_lists stepped windows.ring (by rw [due]; rfl)
  cases tti_dlOutcome stepped windows.ring with
  | nothing _ _ _ _ _ _ _ _ data => exact absurd (tti_no_data stepped data) listed
  | sib1 _ _ _ _ _ _ _ data => exact absurd (tti_no_data stepped data) listed
  | sib2 _ _ _ _ _ _ _ data => exact absurd (tti_no_data stepped data) listed
  | rar _ _ _ _ _ _ _ _ _ _ _ data => exact absurd (tti_no_data stepped data) listed
  | user user' ue' npdschTtis _ due' found' placed free valid search _ _ elapsed _ _ _ _ _ data =>
      rw [due] at due'
      cases due'
      rw [found] at found'
      cases found'
      rw [(windows.dl.pre stepped).reserve free valid search elapsed] at placed
      cases placed
      intro a member
      rw [← npdschTimes_unwrap] at member
      simp only [TtiLog.dlClaims, data, TtiLog.tx, (tti_cases stepped).1, List.flatMap_cons, List.flatMap_nil,
        List.append_nil, List.mem_append, List.mem_cons]
      exact .inl (.inr (.inr member))

/-- The subframes of a SIB2 are reserved. -/
theorem tti_sib2_marks (stepped : s.tti rx c = some (s', o)) (ok : RingOk rx s)
    (occasion : isSib2Start (rx + 4) = true) (free : o.pre.dlCleared rx ((rx + 4) % 10240) = false) :
    ∀ a ∈ sib2Times (rx + 4), s'.dlSchedTable (a % 10240) = true := by
  have residue := sib2Start_residue occasion
  cases tti_dlOutcome stepped ok with
  | nothing _ _ noSib2 =>
      rw [noSib2 occasion] at free
      cases free
  | sib1 _ sib1 => omega
  | sib2 table =>
      intro a member
      rw [table]
      exact Wheel.mark_of_mem _ (List.mem_map_of_mem member)
  | rar _ _ _ _ _ noSib2 =>
      rw [noSib2] at occasion
      cases occasion
  | user _ _ _ _ _ _ _ _ _ _ _ noSib2 =>
      rw [noSib2] at occasion
      cases occasion

/-- A reservation ahead outlasts the TTI. -/
theorem tti_keeps (stepped : s.tti rx c = some (s', o)) (ok : RingOk rx s) {a : Nat} (from' : rx < a)
    (below : a < rx + 10240) (marked : s.dlSchedTable (a % 10240) = true) :
    s'.dlSchedTable (a % 10240) = true := by
  apply (tti_dlOutcome stepped ok).keeps
  rw [dlCleared_other from' below, (tti_pre_sameCarrier stepped).dlSchedTable]
  exact marked

end Sched

section

variable {s s' : Sched} {rx : Nat} {c : TtiCalls} {o : TtiLog} {w : DlWorker} {now : List Nat} {jobs : List Job}

/-- In a clean TTI a grant with its DCI finds its place at the end of the agenda. -/
theorem OnTime.push_clean (onTime : OnTime rx s w now jobs) (windows : Sched.Windows rx s)
    (stepped : s.tti rx c = some (s', o)) (clean : o.DlClean) {r : DlGrantRecord} {n : Nat}
    (valid : isValidDlSf (rx + 4) = true) (pos : 0 < n) (few : n ≤ 3)
    (begins : r.grant.BeginsAt (rarTx (rx + 4)) n) (data : r.data ≠ none)
    (claims : ∀ a ∈ npdschTimes (rx + 4) n, a ∈ o.dlClaims) (hNdiDl : Bool) :
    ∃ now' jobs', Taken rx s' { w with dlPendingGrants := w.dlPendingGrants ++ [r], hNdiDl := hNdiDl } now' jobs' ∧
      (∀ j ∈ jobs, j ∈ jobs') ∧ ∃ j ∈ jobs', j.record = r ∧ j.times.head? = some (rarTx (rx + 4)) := by
  obtain ⟨fair, -⟩ := Sched.tti_fairClaims windows stepped clean
  have keeps := fun a (from' : rx + 4 < a) (below : a < rx + 18) marked =>
    Sched.tti_keeps stepped windows.ring (a := a) (by omega) (by omega) marked
  refine ⟨now, jobs ++ [⟨r, npdschTimes (rx + 4) n⟩],
    onTime.push keeps valid pos few begins data ?_ ?_ hNdiDl, fun j inside => List.mem_append_left _ inside,
    ⟨r, npdschTimes (rx + 4) n⟩, List.mem_append_right _ List.mem_cons_self, rfl, ?_⟩
  · intro a member
    rw [← (Sched.tti_pre_sameCarrier stepped).dlSchedTable]
    exact fair.free a (claims a member)
  · intro a member
    have after := (mem_npdschTimes member).1
    rcases fair.marked a (claims a member) with now | marked
    · omega
    · exact marked
  · obtain ⟨m, rfl⟩ : ∃ m, n = m + 1 := ⟨n - 1, by omega⟩
    obtain ⟨rest, head⟩ := npdschTimes_head valid m
    rw [head, List.head?_cons]

/-- In a clean TTI the grant of MAC finds its place on the agenda. -/
theorem OnTime.takeGrant {dl : DlSchedPhy} (onTime : OnTime rx s w now jobs)
    (windows : Sched.Windows rx s) (stepped : s.tti rx c = some (s', o)) (clean : o.DlClean)
    (handed : Handed rx o dl) (block : dl.npdsch.hasNpdcch = true → dl.npdsch.data ≠ none)
    (mode : NbiotMode) :
    ∃ now' jobs', Taken rx s' (w.takeGrant mode dl (rx + 4)).2.2.2 now' jobs' ∧ (∀ j ∈ jobs, j ∈ jobs') ∧
      ∀ r, (w.takeGrant mode dl (rx + 4)).2.2.1.map Prod.snd = some r →
        ∃ j ∈ jobs', j.record = r ∧ j.times.head? = some (rarTx (rx + 4)) := by
  have tablePre := (Sched.tti_pre_sameCarrier stepped).dlSchedTable
  have keeps := fun a (from' : rx + 4 < a) (below : a < rx + 18) marked =>
    Sched.tti_keeps stepped windows.ring (a := a) (by omega) (by omega) marked
  have push := fun {r : DlGrantRecord} {n : Nat} =>
    onTime.push_clean windows stepped clean (r := r) (n := n)
  cases handed with
  | nothing none =>
      rw [DlWorker.takeGrant_nothing w none]
      refine ⟨now, jobs, onTime.taken keeps ⟨rfl, rfl, rfl, rfl⟩, fun _ inside => inside, ?_⟩
      intro r none
      cases none
  | sib1 _ only =>
      subst only
      rw [DlWorker.takeGrant_sib1 w Nat.one_pos rfl]
      refine ⟨now, jobs, onTime.taken keeps (DlWorker.workSib1_same w mode _ _), fun _ inside => inside, ?_⟩
      intro r none
      cases none
  | sib2 occasion free only =>
      subst only
      have residue := Sched.sib2Start_residue occasion
      have sib2Clean := clean.1
      simp only [Sched.tti_tx stepped, tablePre] at sib2Clean
      rw [Sched.dlCleared_now, tablePre] at free
      have marks := Sched.tti_sib2_marks stepped windows.ring occasion
        (by rw [Sched.dlCleared_now, tablePre]; exact free)
      rw [DlWorker.takeGrant_sib2 w Nat.one_pos rfl rfl]
      obtain ⟨noJobs, taken⟩ := onTime.sib2 residue (sib2Clean occasion free) marks mode
      rw [noJobs]
      refine ⟨_, [], taken, ?_, ?_⟩
      · intro j inside
        cases inside
      · intro r none
        cases none
  | rar _ rnti due valid grants dci =>
      rw [DlWorker.takeGrant_dci w grants (by rw [dci]; rfl) (by rw [dci])]
      have begins : (DlWorker.recordOf mode dl.npdsch (rx + 4)).grant.BeginsAt (rarTx (rx + 4)) 1 := by
        rw [DlWorker.recordOf, dci]
        exact DlWorker.rar_beginsAt mode (rx + 4) rnti
      obtain ⟨now', jobs', taken, old, new⟩ := push valid Nat.one_pos (by omega) begins (block (by rw [dci]))
        (Sched.tti_rar_claims stepped windows.ring due valid) (!w.hNdiDl)
      refine ⟨now', jobs', taken, old, ?_⟩
      intro r pushed
      cases pushed
      exact new
  | user user ue due found valid _ grants dci npdcch _ =>
      rw [DlWorker.takeGrant_dci w grants (DlWorker.handed_noSib1 dci) npdcch]
      have size := Sched.iSfFor_nofSf ue.getRequestedDlBytes.2
      have begins : (DlWorker.recordOf mode dl.npdsch (rx + 4)).grant.BeginsAt (rarTx (rx + 4))
          (iSfToNSfNpdsch.getD (SfGrid.iSfFor ue.getRequestedDlBytes.2) 0) := by
        rw [DlWorker.recordOf, dci]
        exact DlWorker.user_beginsAt mode (rx + 4) ue.afterAlloc ue.getRequestedDlBytes.2
      obtain ⟨now', jobs', taken, old, new⟩ := push valid (by omega) (by omega) begins (block npdcch)
        (Sched.tti_user_claims windows stepped due found) (!w.hNdiDl)
      refine ⟨now', jobs', taken, old, ?_⟩
      intro r pushed
      cases pushed
      exact new

end

/-! ## Runs -/

/-- The grant that goes to the queue has data: the transport block is not empty. -/
def EnbLog.HasBlock (o : EnbLog) : Prop :=
  o.phy.input.dl.npdsch.hasNpdcch = true → o.phy.input.dl.npdsch.data ≠ none

instance (o : EnbLog) : Decidable o.HasBlock := inferInstanceAs (Decidable (_ → _))

namespace Enb

/-- In front of the TTI received at `rx`: what was queued was taken at its start or waits for it. -/
structure Punctual (rx : Nat) (s : Enb) (past : List EnbLog) : Prop where
  windows : Sched.Windows rx s.sched
  before : ∀ p ∈ past, p.sched.tx < rx + 4
  agenda : ∃ now jobs, OnTime rx s.sched s.phyMac.worker.dl now jobs ∧
    ∀ p ∈ past, ∀ r, p.phy.work.dl.pushed = some r →
      (∀ q ∈ past, q.sched.tx = rarTx p.sched.tx → q.phy.work.dl.popped = some r) ∧
        (rx + 4 ≤ rarTx p.sched.tx → ∃ j ∈ jobs, j.record = r ∧ j.times.head? = some (rarTx p.sched.tx))

theorem init_plan (tx : Nat) : DlWorker.Plan tx {} [] [] where
  sorted := List.Pairwise.nil
  window _ member := by cases member
  suits _ member := by cases member
  queue := rfl
  fits _ member := by cases member
  active on := by cases on

theorem init_punctual (start : Nat) : Punctual start {} [] where
  windows := Sched.init_windows start
  before _ member := by cases member
  agenda := by
    refine ⟨[], [], ⟨init_plan (start + 4), ?_, ?_⟩, ?_⟩ <;> intro _ member <;> cases member

variable {mode : NbiotMode} {rx : Nat} {i : EnbInput} {s s' : Enb} {o : EnbLog} {past : List EnbLog}

/-- Of the jobs at hand the one that starts now is taken and one that starts later stays. -/
theorem taken_in_turn {tx : Nat} {jobs jobs' : List Job} {popped : Option DlGrantRecord}
    (ahead : ∀ j ∈ jobs', ∀ a ∈ j.times, tx < a)
    (outcome : (popped = none ∧ jobs' = jobs) ∨
      ∃ j, jobs = j :: jobs' ∧ j.times.head? = some tx ∧ popped = some j.record) :
    (∀ j ∈ jobs, j.times.head? = some tx → popped = some j.record) ∧
      ∀ j ∈ jobs, ∀ a, j.times.head? = some a → tx < a → j ∈ jobs' := by
  rcases outcome with ⟨-, rfl⟩ | ⟨k, rfl, start, taken⟩
  · refine ⟨?_, fun j inside _ _ _ => inside⟩
    intro j inside head
    have := ahead j inside tx (List.mem_of_mem_head? head)
    omega
  · constructor
    · intro j inside head
      rcases List.mem_cons.mp inside with rfl | behind
      · exact taken
      · have := ahead j behind tx (List.mem_of_mem_head? head)
        omega
    · intro j inside a head later
      rcases List.mem_cons.mp inside with rfl | behind
      · rw [start] at head
        cases head
        omega
      · exact behind

theorem tti_punctual (inv : Punctual rx s past) (stepped : s.tti mode rx i = some (s', o))
    (clean : o.sched.DlClean ∧ o.HasBlock) : Punctual (rx + 1) s' (past ++ [o]) := by
  obtain ⟨sched, pre, macCalls, dl, ulGrants, worked⟩ := tti_dl stepped
  have handed := tti_handed stepped inv.windows.ring
  obtain ⟨now, jobs, onTime, tracked⟩ := inv.agenda
  have first := onTime.plan.of_same (DlWorker.putUlDci_same s.phyMac.worker.dl ulGrants).1
  obtain ⟨now₁, jobs₁, taken, old, new⟩ := OnTime.takeGrant
    ⟨first, onTime.marked, onTime.closed⟩ inv.windows sched clean.1 handed clean.2 mode
  obtain ⟨now', jobs', plan, left, ahead, popped⟩ := DlWorker.workDl_plan handed taken.plan
  have pushed : ∀ r, o.phy.work.dl.pushed = some r →
      ∃ j ∈ jobs₁, j.record = r ∧ j.times.head? = some (rarTx (rx + 4)) := by
    intro r isPushed
    apply new r
    have same : (s.phyMac.worker.dl.workDl mode (rx + 4) o.phy.input.dl ulGrants).1.pushed = some r := by
      rw [worked]
      exact isPushed
    exact same
  rw [worked] at plan popped
  obtain ⟨starts, stays⟩ := taken_in_turn ahead popped
  have tx := Sched.tti_tx sched
  refine ⟨Sched.tti_windows inv.windows sched, before_snoc tx inv.before, now', jobs', ⟨plan, ?_, ?_⟩, ?_⟩
  · intro a member
    rw [left, List.mem_filter, decide_eq_true_eq] at member
    exact taken.marked a member.1 member.2
  · intro b member a from' less suits
    rw [left, List.mem_filter, decide_eq_true_eq] at member ⊢
    exact ⟨taken.closed b member.1 a (by omega) less suits, by omega⟩
  · intro p member r isPushed
    rcases List.mem_append.mp member with there | here
    · obtain ⟨atStart, waits⟩ := tracked p there r isPushed
      constructor
      · intro q inside time
        rcases List.mem_append.mp inside with earlier | latest
        · exact atStart q earlier time
        · rw [List.mem_singleton.mp latest] at time ⊢
          rw [tx] at time
          obtain ⟨j, inJobs, record, head⟩ := waits (by omega)
          rw [← record]
          exact starts j (old j inJobs) (by rw [head, time])
      · intro later
        obtain ⟨j, inJobs, record, head⟩ := waits (by omega)
        exact ⟨j, stays j (old j inJobs) _ head (by omega), record, head⟩
    · rw [List.mem_singleton.mp here] at isPushed ⊢
      rw [tx]
      have near := (rarTx_le (rx + 4)).1
      constructor
      · intro q inside time
        rcases List.mem_append.mp inside with earlier | latest
        · have := inv.before q earlier
          omega
        · rw [List.mem_singleton.mp latest, tx] at time
          omega
      · intro later
        obtain ⟨j, inJobs, record, head⟩ := pushed r isPushed
        exact ⟨j, stays j inJobs _ head (by omega), record, head⟩

theorem startTti_of_begins {r : DlGrantRecord} {a n : Nat} (begins : r.grant.BeginsAt a n) :
    r.startTti = a % 10240 := by
  rw [DlGrantRecord.startTti, begins.startSfn, begins.startSfidx]
  omega

/-- What a TTI queues starts at the first valid subframe from the fifth TTI after its DCI on. -/
theorem run_pushed {start : Nat} {inputs : List EnbInput} {last : Enb} {log : List EnbLog}
    (ran : run mode start inputs = some (last, log)) (member : o ∈ log) {r : DlGrantRecord}
    (pushed : o.phy.work.dl.pushed = some r) : r.startTti = rarTx o.sched.tx % 10240 := by
  obtain ⟨s, rx, i, s', windows, stepped⟩ := Ticking.run_mem_invariant
    (I := fun n (s : Enb) => Sched.Windows n s.sched)
    (fun _ _ _ _ _ windows stepped => Sched.tti_windows windows (tti_dl stepped).1)
    (Sched.init_windows start) ran member
  obtain ⟨sched, -, -, dl, ulGrants, worked⟩ := tti_dl stepped
  have handed := tti_handed stepped windows.ring
  have queued := (DlWorker.workDl_pushed handed s.phyMac.worker.dl mode ulGrants r
    (by rw [worked]; exact pushed)).1
  obtain ⟨n, -, begins⟩ := queued.begins
  rw [Sched.tti_tx sched]
  exact startTti_of_begins begins

/-- In every run whose TTIs are clean and whose transport blocks are not empty, every grant is taken
    from the queue at its start, and no grant in the queue has missed it. -/
theorem dl_queue_on_time {start : Nat} {inputs : List EnbInput} {last : Enb} {log : List EnbLog}
    (ran : run mode start inputs = some (last, log)) (clean : ∀ o ∈ log, o.sched.DlClean ∧ o.HasBlock) :
    (∀ o ∈ log, ∀ r, o.phy.work.dl.pushed = some r → r.startTti = rarTx o.sched.tx % 10240 ∧
        ∀ p ∈ log, p.sched.tx = rarTx o.sched.tx → p.phy.work.dl.popped = some r) ∧
      ∀ r ∈ last.phyMac.worker.dl.dlPendingGrants, ∃ a, start + inputs.length + 4 ≤ a ∧
        a < start + inputs.length + 18 ∧ r.startTti = a % 10240 := by
  have all := Ticking.run_invariant (I := Punctual) (C := fun o => o.sched.DlClean ∧ o.HasBlock)
    (fun _ _ _ _ _ _ inv stepped clean => tti_punctual inv stepped clean) (init_punctual start) ran clean
  obtain ⟨now, jobs, onTime, tracked⟩ := all.agenda
  constructor
  · intro o member r pushed
    exact ⟨run_pushed ran member pushed, (tracked o member r pushed).1⟩
  · intro r member
    rw [onTime.plan.queue] at member
    obtain ⟨j, inside, rfl⟩ := List.mem_map.mp member
    obtain ⟨a, rest, times, begins, -⟩ := onTime.plan.fits j inside
    obtain ⟨lower, upper⟩ := onTime.plan.window a (DlWorker.mem_agenda_of_job inside (by rw [times]; simp))
    exact ⟨a, by omega, by omega, startTti_of_begins begins⟩

/-- A response and a user that waits. -/
def responseAndUser : List EnbInput :=
  { calls := ⟨rachDetected 0x46 0 ++ Sched.dlWaiting 0x47, []⟩, macCalls := [.ueAdd 0x47] } ::
    List.replicate 10 {}

/-- The response begins at TTI 21 and the data of the user at TTI 22, each taken when it is due. -/
theorem response_and_user_on_time : ∃ last log,
    run .standalone 12 responseAndUser = some (last, log) ∧
      (log.filterMap fun o => o.phy.work.dl.pushed).map DlGrantRecord.startTti = [21, 22] ∧
      (∀ o ∈ log, ∀ r, o.phy.work.dl.pushed = some r → r.startTti = rarTx o.sched.tx % 10240 ∧
        ∀ p ∈ log, p.sched.tx = rarTx o.sched.tx → p.phy.work.dl.popped = some r) ∧
      last.phyMac.worker.dl.dlPendingGrants = [] := by
  have checked : ((run .standalone 12 responseAndUser).any fun r =>
        (r.2.all fun o => decide (o.sched.DlClean ∧ o.HasBlock)) &&
        decide ((r.2.filterMap fun o => o.phy.work.dl.pushed).map DlGrantRecord.startTti = [21, 22]) &&
        decide (r.1.phyMac.worker.dl.dlPendingGrants = [])) = true := by decide +kernel
  obtain ⟨⟨last, log⟩, ran, facts⟩ := Option.any_eq_true .. |>.mp checked
  simp only [Bool.and_eq_true, List.all_eq_true, decide_eq_true_eq] at facts
  obtain ⟨⟨clean, pushed⟩, empty⟩ := facts
  exact ⟨last, log, ran, pushed, (dl_queue_on_time ran clean).1, empty⟩

/-- Two responses with DCIs at TTIs 4 and 6 both begin at TTI 11. One is taken there; after TTI 14
    the other still waits for TTI 11. -/
theorem second_response_stuck : ∃ last log,
    run .standalone 0 ({ calls := ⟨rachDetected 0x46 0 ++ rachDetected 0x47 1, []⟩ } :: List.replicate 10 {}) =
        some (last, log) ∧
      (log.filterMap fun o => o.phy.work.dl.pushed).map DlGrantRecord.startTti = [11, 11] ∧
      (log.filterMap fun o => o.phy.work.dl.popped).map DlGrantRecord.startTti = [11] ∧
      (∃ o ∈ log, o.sched.tx = 14) ∧
      ∃ r ∈ last.phyMac.worker.dl.dlPendingGrants, r.startTti = 11 := by
  have checked : ((run .standalone 0 ({ calls := ⟨rachDetected 0x46 0 ++ rachDetected 0x47 1, []⟩ } ::
      List.replicate 10 {})).any fun r =>
        decide ((r.2.filterMap fun o => o.phy.work.dl.pushed).map DlGrantRecord.startTti = [11, 11]) &&
        decide ((r.2.filterMap fun o => o.phy.work.dl.popped).map DlGrantRecord.startTti = [11]) &&
        (r.2.any fun o => decide (o.sched.tx = 14)) &&
        r.1.phyMac.worker.dl.dlPendingGrants.any fun r => decide (r.startTti = 11)) = true := by
    decide +kernel
  obtain ⟨⟨last, log⟩, ran, facts⟩ := Option.any_eq_true .. |>.mp checked
  simp only [Bool.and_eq_true, List.any_eq_true, decide_eq_true_eq] at facts
  obtain ⟨⟨⟨pushed, popped⟩, later⟩, waits⟩ := facts
  exact ⟨last, log, ran, pushed, popped, later, waits⟩

end Enb

end SonicaEnb
