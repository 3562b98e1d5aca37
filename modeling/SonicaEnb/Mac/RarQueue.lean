import Mathlib.Data.List.Perm.Basic
import SonicaEnb.Lib.Events
import SonicaEnb.Mac.DlWindow

/-! # The queue of responses

`ra_sched` collects the preambles of one NPRACH occasion in one pending response
and hands out their grants one at a time, the oldest response first. What is
handed out and what still waits is together what was reported.
-/

namespace SonicaEnb

/-- `sched_interface::MAX_RAR_LIST` -/
def maxRarList : Nat := 8

/-- The calls of `ra_sched`. The subframe of `dl_sched` comes with everything it reaches. -/
inductive RarEvent where
  | dlRachInfo (info : DlSchedRarInfo)
  | dlSched (g : SfGrid)

namespace RarEvent

/-- What a call leaves in `pending_rars`. There is no successor where `dl_rach_info` would write past
    the end of `msg3_grant`, nor where the loop of `dl_sched` does not end. -/
def handle (pendingRars : List PendingRar) : RarEvent → Option (List PendingRar)
  | dlRachInfo info =>
      let after := raDlRachInfo pendingRars info
      if after.all fun rar => rar.msg3Grant.length ≤ maxRarList then some after else none
  | dlSched g => (raDlSched pendingRars g).map fun (_, rest, _) => rest

/-- What a call leaves when nobody looks where `dl_rach_info` writes. -/
def step (pendingRars : List PendingRar) : RarEvent → Option (List PendingRar)
  | dlRachInfo info => some (raDlRachInfo pendingRars info)
  | dlSched g => (raDlSched pendingRars g).map fun (_, rest, _) => rest

theorem step_of_handle {pendingRars rest : List PendingRar} {e : RarEvent}
    (handled : e.handle pendingRars = some rest) : e.step pendingRars = some rest := by
  cases e with
  | dlRachInfo info =>
      simp only [handle] at handled
      split at handled
      · exact handled
      · cases handled
  | dlSched g => exact handled

def submitted : RarEvent → List DlSchedRarInfo
  | dlRachInfo info => [info]
  | dlSched _ => []

/-- The RAR elements a call adds to the result of its subframe. -/
def emitted (pendingRars : List PendingRar) : RarEvent → List DlSchedRar
  | dlRachInfo _ => []
  | dlSched g =>
      match raDlSched pendingRars g with
      | none => []
      | some (_, _, g') =>
          SfGrid.rarSchedResult
            { g'.sf with rarAllocs := g'.sf.rarAllocs.drop g.sf.rarAllocs.length }

end RarEvent

/-- The entries of a list of RAR elements, in their order. -/
def rarInfos (rars : List DlSchedRar) : List DlSchedRarInfo :=
  rars.flatMap fun rar => rar.msg3Grant.map (·.data)

/-- The entries that wait, the oldest response first. -/
def waitingInfos (pendingRars : List PendingRar) : List DlSchedRarInfo :=
  pendingRars.flatMap fun rar => rar.msg3Grant

/-- The entries of one NPRACH occasion. -/
def ofOccasion (nprachTti : Nat) (infos : List DlSchedRarInfo) : List DlSchedRarInfo :=
  infos.filter fun info => info.nprachTti = nprachTti

/-- `ra_rnti` as `dl_rach_info` computes it. -/
def raRntiOf (nprachTti : Nat) : Nat := (1 + nprachTti / 10 / 4) % 65536

/-- One response for every occasion, with at least one entry, all of this occasion. -/
structure RarQueue (pendingRars : List PendingRar) : Prop where
  grants : ∀ rar ∈ pendingRars, rar.msg3Grant ≠ []
  own : ∀ rar ∈ pendingRars, ∀ info ∈ rar.msg3Grant, info.nprachTti = rar.nprachTti
  rnti : ∀ rar ∈ pendingRars, rar.raRnti = raRntiOf rar.nprachTti
  once : pendingRars.Pairwise fun a b => a.nprachTti ≠ b.nprachTti

/-- A response that may wait in the queue. -/
structure PendingRar.Collected (rar : PendingRar) : Prop where
  grants : rar.msg3Grant ≠ []
  own : ∀ info ∈ rar.msg3Grant, info.nprachTti = rar.nprachTti
  rnti : rar.raRnti = raRntiOf rar.nprachTti

namespace PendingRar.Collected

variable {rar : PendingRar} {info : DlSchedRarInfo} {more : List DlSchedRarInfo}

theorem opened (info : DlSchedRarInfo) :
    Collected ⟨raRntiOf info.nprachTti, info.nprachTti, [info]⟩ where
  grants := List.cons_ne_nil _ _
  own entry here := by rw [List.mem_singleton.mp here]
  rnti := rfl

theorem joined (collected : rar.Collected) (same : rar.nprachTti = info.nprachTti) :
    Collected { rar with msg3Grant := rar.msg3Grant ++ [info] } where
  grants := by simp
  own entry here := by
    rcases List.mem_append.mp here with old | new
    · exact collected.own entry old
    · rw [List.mem_singleton.mp new]
      exact same.symm
  rnti := collected.rnti

/-- What is left of a response after its first entry. -/
theorem left (collected : rar.Collected) (grants : rar.msg3Grant = info :: more) (some : more ≠ []) :
    Collected { rar with msg3Grant := more } where
  grants := some
  own entry here := collected.own entry (by simp [grants, here])
  rnti := collected.rnti

end PendingRar.Collected

theorem rarQueue_iff {pendingRars : List PendingRar} :
    RarQueue pendingRars ↔ (∀ rar ∈ pendingRars, rar.Collected) ∧
      pendingRars.Pairwise fun a b => a.nprachTti ≠ b.nprachTti := by
  constructor
  · intro queue
    refine ⟨?_, queue.once⟩
    intro rar member
    exact ⟨queue.grants rar member, queue.own rar member, queue.rnti rar member⟩
  · rintro ⟨collected, once⟩
    exact ⟨fun rar member => (collected rar member).grants, fun rar member => (collected rar member).own,
      fun rar member => (collected rar member).rnti, once⟩

theorem ofOccasion_append (tti : Nat) (xs ys : List DlSchedRarInfo) :
    ofOccasion tti (xs ++ ys) = ofOccasion tti xs ++ ofOccasion tti ys := List.filter_append ..

theorem waitingInfos_append (xs ys : List PendingRar) :
    waitingInfos (xs ++ ys) = waitingInfos xs ++ waitingInfos ys := List.flatMap_append

theorem waitingInfos_cons (rar : PendingRar) (rest : List PendingRar) :
    waitingInfos (rar :: rest) = rar.msg3Grant ++ waitingInfos rest := List.flatMap_cons

/-- Lists that agree on every occasion, entry by entry, have the same entries. -/
theorem perm_of_occasions {xs ys : List DlSchedRarInfo}
    (agree : ∀ tti, ofOccasion tti xs = ofOccasion tti ys) : xs.Perm ys := by
  rw [List.perm_iff_count]
  intro info
  have own : ∀ infos : List DlSchedRarInfo,
      (ofOccasion info.nprachTti infos).count info = infos.count info := by
    intro infos
    exact List.count_filter (by simp)
  rw [← own xs, ← own ys, agree]

/-! ## A reported preamble -/

/-- The entry goes to the response of its occasion, or to a new one at the end. -/
theorem raDlRachInfo_cases {pendingRars : List PendingRar} (queue : RarQueue pendingRars)
    (info : DlSchedRarInfo) :
    (∃ before rar after, pendingRars = before ++ rar :: after ∧ rar.nprachTti = info.nprachTti ∧
      raDlRachInfo pendingRars info =
        before ++ { rar with msg3Grant := rar.msg3Grant ++ [info] } :: after) ∨
      ((∀ rar ∈ pendingRars, rar.nprachTti ≠ info.nprachTti) ∧
        raDlRachInfo pendingRars info =
          pendingRars ++ [⟨raRntiOf info.nprachTti, info.nprachTti, [info]⟩]) := by
  unfold raDlRachInfo
  simp only
  split
  · rename_i i found
    left
    obtain ⟨inside, same, -⟩ := List.findIdx?_eq_some_iff_getElem.mp found
    refine ⟨pendingRars.take i, pendingRars[i], pendingRars.drop (i + 1), ?_, ?_, ?_⟩
    · rw [← List.drop_eq_getElem_cons inside, List.take_append_drop]
    · simp only [Bool.and_eq_true, beq_iff_eq] at same
      exact same.1
    · rw [List.modify_eq_take_cons_drop inside]
  · rename_i absent
    right
    refine ⟨?_, rfl⟩
    intro rar member same
    have other := List.findIdx?_eq_none_iff.mp absent rar member
    have rnti : rar.raRnti = raRntiOf rar.nprachTti := queue.rnti rar member
    simp [same, rnti, raRntiOf] at other

theorem RarQueue.rachInfo {pendingRars : List PendingRar} (queue : RarQueue pendingRars)
    (info : DlSchedRarInfo) : RarQueue (raDlRachInfo pendingRars info) := by
  obtain ⟨collected, once⟩ := rarQueue_iff.mp queue
  apply rarQueue_iff.mpr
  rcases raDlRachInfo_cases queue info with
    ⟨before, rar, after, rfl, same, joined⟩ | ⟨absent, opened⟩
  · rw [joined]
    constructor
    · intro r member
      rcases List.mem_append.mp member with early | late
      · exact collected r (List.mem_append_left _ early)
      · rcases List.mem_cons.mp late with rfl | late
        · exact (collected rar (by simp)).joined same
        · exact collected r (by simp [late])
    · rw [← List.pairwise_map (f := PendingRar.nprachTti) (R := (· ≠ ·))] at once ⊢
      simpa using once
  · rw [opened]
    constructor
    · intro r member
      rcases List.mem_append.mp member with old | new
      · exact collected r old
      · rw [List.mem_singleton.mp new]
        exact .opened info
    · refine List.pairwise_append.mpr ⟨once, List.pairwise_singleton _ _, ?_⟩
      intro r member new here
      rw [List.mem_singleton.mp here]
      exact absent r member

/-- One more entry waits behind the others of its occasion. -/
theorem RarQueue.waiting_rachInfo {pendingRars : List PendingRar} (queue : RarQueue pendingRars)
    (info : DlSchedRarInfo) (tti : Nat) :
    ofOccasion tti (waitingInfos (raDlRachInfo pendingRars info)) =
      ofOccasion tti (waitingInfos pendingRars) ++ ofOccasion tti [info] := by
  rcases raDlRachInfo_cases queue info with
    ⟨before, rar, after, rfl, same, joined⟩ | ⟨absent, opened⟩
  · rw [joined]
    simp only [waitingInfos_append, waitingInfos_cons, ofOccasion_append, List.append_assoc]
    by_cases mine : info.nprachTti = tti
    · -- the responses behind are of other occasions
      have others := (List.pairwise_cons.mp (List.pairwise_append.mp queue.once).2.1).1
      have none : ofOccasion tti (waitingInfos after) = [] := by
        apply List.filter_eq_nil_iff.mpr
        intro entry member
        obtain ⟨r, later, here⟩ := List.mem_flatMap.mp member
        have other := others r later
        have owned := queue.own r (by simp [later]) entry here
        simp only [decide_eq_true_eq]
        omega
      simp [none]
    · have none : ofOccasion tti [info] = [] := by simp [ofOccasion, mine]
      simp [none]
  · rw [opened, waitingInfos_append, ofOccasion_append]
    rfl

/-! ## A turn of the scheduler -/

/-- Nothing happens, or the entry that waits in front goes out alone, under the RNTI of its
    occasion. -/
theorem RarQueue.sched {pendingRars rest : List PendingRar} {g g' : SfGrid} {ret : AllocOutcome}
    (queue : RarQueue pendingRars) (ran : raDlSched pendingRars g = some (ret, rest, g')) :
    RarQueue rest ∧
      ((rest = pendingRars ∧ g'.sf.rarAllocs = g.sf.rarAllocs) ∨
        ∃ info alloc, waitingInfos pendingRars = info :: waitingInfos rest ∧
          g'.sf.rarAllocs = g.sf.rarAllocs ++ [alloc] ∧ alloc.rarGrant.map (·.data) = [info] ∧
          alloc.allocData.rnti = raRntiOf info.nprachTti) := by
  rcases SfGrid.raDlSched_cases ran with
    ⟨-, -, rfl, rfl⟩ | ⟨rar, later, info, more, alloc, rfl, -, grants, answers, outcome⟩
  · exact ⟨queue, .inl ⟨rfl, rfl⟩⟩
  · have member : rar ∈ rar :: later := List.mem_cons_self
    have occasion : info.nprachTti = rar.nprachTti := queue.own rar member info (by simp [grants])
    have rnti : alloc.allocData.rnti = raRntiOf info.nprachTti := by
      rw [answers.rnti, queue.rnti rar member, occasion]
    obtain ⟨collected, once⟩ := rarQueue_iff.mp queue
    obtain ⟨own, behind⟩ := List.forall_mem_cons.mp collected
    rcases outcome with ⟨rfl, -, rfl, rfl⟩ | ⟨some, -, rfl, rfl⟩
    · refine ⟨rarQueue_iff.mpr ⟨behind, once.of_cons⟩, .inr ⟨info, alloc, ?_, rfl, answers.data, rnti⟩⟩
      rw [waitingInfos_cons, grants]
      rfl
    · refine ⟨rarQueue_iff.mpr ⟨?_, ?_⟩, .inr ⟨info, alloc, ?_, rfl, answers.data, rnti⟩⟩
      · exact List.forall_mem_cons.mpr ⟨own.left grants some, behind⟩
      · exact List.pairwise_cons.mpr ⟨(List.pairwise_cons.mp once).1, once.of_cons⟩
      · rw [waitingInfos_cons, waitingInfos_cons, grants]
        rfl

/-- The loop of `dl_sched` ends. -/
theorem RarQueue.sched_returns {pendingRars : List PendingRar} (queue : RarQueue pendingRars)
    (g : SfGrid) : ∃ ret rest g', raDlSched pendingRars g = some (ret, rest, g') :=
  Sched.raDlSched_returns queue.grants g

theorem raRntiOf_eq (nprachTti : Nat) : raRntiOf nprachTti = (1 + nprachTti / 40) % 65536 := by
  rw [raRntiOf, Nat.div_div_eq_div_mul]

theorem emitted_of_sent {pendingRars rest : List PendingRar} {g g' : SfGrid} {ret : AllocOutcome}
    {new : List RarAlloc} (ran : raDlSched pendingRars g = some (ret, rest, g'))
    (sent : g'.sf.rarAllocs = g.sf.rarAllocs ++ new) :
    (RarEvent.dlSched g).emitted pendingRars =
      SfGrid.rarSchedResult { g'.sf with rarAllocs := new } := by
  simp only [RarEvent.emitted, ran, sent, List.drop_left]

/-- What a call does to the queue, entry by entry for every occasion. -/
theorem RarQueue.step {pendingRars rest : List PendingRar} {e : RarEvent}
    (queue : RarQueue pendingRars) (stepped : e.step pendingRars = some rest) :
    RarQueue rest ∧
      (∀ tti, ofOccasion tti (waitingInfos pendingRars) ++ ofOccasion tti e.submitted =
        ofOccasion tti (rarInfos (e.emitted pendingRars)) ++ ofOccasion tti (waitingInfos rest)) ∧
      ∀ rar ∈ e.emitted pendingRars, ∀ info ∈ rarInfos [rar],
        rar.dci.alloc.rnti = raRntiOf info.nprachTti := by
  cases e with
  | dlRachInfo info =>
      cases stepped
      exact ⟨queue.rachInfo info, fun tti => (queue.waiting_rachInfo info tti).symm, nofun⟩
  | dlSched g =>
      obtain ⟨⟨ret, rest', g'⟩, ran, rfl⟩ := Option.map_eq_some_iff.mp stepped
      obtain ⟨after, ⟨rfl, none⟩ | ⟨info, alloc, front, sent, data, rnti⟩⟩ := queue.sched ran
      · have nothing := emitted_of_sent ran (none.trans (List.append_nil _).symm)
        rw [nothing]
        exact ⟨after, fun tti => List.append_nil _, nofun⟩
      · have one := emitted_of_sent ran sent
        have infos : rarInfos ((RarEvent.dlSched g).emitted pendingRars) = [info] := by
          rw [one]
          simpa [rarInfos, SfGrid.rarSchedResult] using data
        refine ⟨after, ?_, ?_⟩
        · intro tti
          have none : (RarEvent.dlSched g).submitted = [] := rfl
          rw [infos, front, none, ← ofOccasion_append, List.append_nil]
          exact ofOccasion_append tti [info] (waitingInfos rest')
        · intro rar member entry inside
          rw [one] at member
          cases List.mem_singleton.mp member
          have here : entry = info := by
            rw [one] at infos
            rw [← List.mem_singleton, ← infos]
            exact inside
          rw [here]
          exact rnti

/-! ## Runs -/

/-- All entries reported to the queue, in their order. -/
def allSubmitted (events : List RarEvent) : List DlSchedRarInfo := events.flatMap RarEvent.submitted

/-- All RAR elements of a run, in their order. -/
def allEmitted (log : List (Events.Step (List PendingRar) RarEvent)) : List DlSchedRar :=
  log.flatMap fun o => o.event.emitted o.pre

/-- The queue against the log of a run. -/
structure RarAccount (pendingRars : List PendingRar)
    (log : List (Events.Step (List PendingRar) RarEvent)) : Prop where
  queue : RarQueue pendingRars
  entries : ∀ tti, ofOccasion tti (allSubmitted (log.map Events.Step.event)) =
    ofOccasion tti (rarInfos (allEmitted log)) ++ ofOccasion tti (waitingInfos pendingRars)
  rntis : ∀ rar ∈ allEmitted log, ∀ info ∈ rarInfos [rar],
    rar.dci.alloc.rnti = raRntiOf info.nprachTti

theorem rarAccount_init : RarAccount [] [] where
  queue := ⟨nofun, nofun, nofun, .nil⟩
  entries _ := rfl
  rntis := nofun

theorem RarAccount.step {o : Events.Step (List PendingRar) RarEvent}
    {log : List (Events.Step (List PendingRar) RarEvent)} (account : RarAccount o.pre log)
    (stepped : o.event.step o.pre = some o.post) : RarAccount o.post (log ++ [o]) := by
  obtain ⟨after, moved, named⟩ := account.queue.step stepped
  have emitted : allEmitted (log ++ [o]) = allEmitted log ++ o.event.emitted o.pre := by
    simp [allEmitted]
  refine ⟨after, ?_, ?_⟩
  · intro tti
    calc ofOccasion tti (allSubmitted ((log ++ [o]).map Events.Step.event))
        = ofOccasion tti (allSubmitted (log.map Events.Step.event)) ++
            ofOccasion tti o.event.submitted := by
          rw [← ofOccasion_append]
          simp [allSubmitted]
      _ = ofOccasion tti (rarInfos (allEmitted log)) ++
            (ofOccasion tti (waitingInfos o.pre) ++ ofOccasion tti o.event.submitted) := by
          rw [account.entries, List.append_assoc]
      _ = ofOccasion tti (rarInfos (allEmitted log)) ++
            (ofOccasion tti (rarInfos (o.event.emitted o.pre)) ++
              ofOccasion tti (waitingInfos o.post)) := by
          rw [moved]
      _ = ofOccasion tti (rarInfos (allEmitted (log ++ [o]))) ++
            ofOccasion tti (waitingInfos o.post) := by
          rw [emitted, ← List.append_assoc, ← ofOccasion_append]
          simp [rarInfos]
  · intro rar member
    rw [emitted] at member
    rcases List.mem_append.mp member with earlier | now
    · exact account.rntis rar earlier
    · exact named rar now

/-- The queue is accounted for after every run of a machine whose calls are these. -/
theorem rarAccount_of_run {handle : List PendingRar → RarEvent → Option (List PendingRar)}
    (steps : ∀ pendingRars e rest, handle pendingRars e = some rest → e.step pendingRars = some rest)
    {events : List RarEvent} {last : List PendingRar}
    {log : List (Events.Step (List PendingRar) RarEvent)}
    (ran : Events.run handle [] events = some (last, log)) : RarAccount last log := by
  refine Ticking.run_invariant (C := fun _ => True) (I := fun _ => RarAccount) ?_ rarAccount_init
    ran fun _ _ => trivial
  intro n pendingRars past e rest o account turned _
  obtain ⟨handled, rfl⟩ := Events.turn_eq turned
  exact RarAccount.step (o := ⟨pendingRars, e, rest⟩) account (steps _ _ _ handled)

/-- In every run, the entries reported are those handed out and those that wait; the entries of one
    occasion go out in the order they came, each under the RNTI of the occasion; and every response
    keeps an entry, so that `dl_sched` returns whatever subframe it is called for. -/
theorem rar_queue_conserved {events : List RarEvent} {last : List PendingRar}
    {log : List (Events.Step (List PendingRar) RarEvent)}
    (ran : Events.run RarEvent.handle [] events = some (last, log)) :
    (allSubmitted events).Perm (rarInfos (allEmitted log) ++ waitingInfos last) ∧
      (∀ tti, ofOccasion tti (allSubmitted events) =
        ofOccasion tti (rarInfos (allEmitted log)) ++ ofOccasion tti (waitingInfos last)) ∧
      (∀ rar ∈ allEmitted log, ∀ info ∈ rarInfos [rar],
        rar.dci.alloc.rnti = (1 + info.nprachTti / 40) % 65536 ∧
          (info.nprachTti < 10240 → rar.dci.alloc.rnti = 1 + info.nprachTti / 40)) ∧
      (∀ rar ∈ last, 1 ≤ rar.msg3Grant.length) ∧
      ∀ g, ∃ ret rest g', raDlSched last g = some (ret, rest, g') := by
  have account := rarAccount_of_run (fun _ _ _ => RarEvent.step_of_handle) ran
  have entries := account.entries
  rw [Events.run_events ran] at entries
  refine ⟨?_, entries, ?_, ?_, account.queue.sched_returns⟩
  · apply perm_of_occasions
    intro tti
    rw [entries, ofOccasion_append]
  · intro rar member info inside
    rw [account.rntis rar member info inside, raRntiOf_eq]
    refine ⟨rfl, ?_⟩
    intro tti
    exact Nat.mod_eq_of_lt (by omega)
  · intro rar member
    exact List.length_pos_iff.mpr (account.queue.grants rar member)

/-- Two preambles of one occasion and one of another; TTI 16 takes one entry, TTI 17 the next. -/
theorem three_preambles_answered :
    ∃ last log,
      Events.run RarEvent.handle []
        [.dlRachInfo ⟨0, 0, 0x46, 7, 0⟩, .dlRachInfo ⟨1, 0, 0x47, 7, 0⟩, .dlSched (Sched.init.grid 12),
          .dlRachInfo ⟨2, 0, 0x48, 7, 80⟩, .dlSched (Sched.init.grid 13)] = some (last, log) ∧
      (allSubmitted [.dlRachInfo ⟨0, 0, 0x46, 7, 0⟩, .dlRachInfo ⟨1, 0, 0x47, 7, 0⟩,
        .dlSched (Sched.init.grid 12), .dlRachInfo ⟨2, 0, 0x48, 7, 80⟩,
        .dlSched (Sched.init.grid 13)]).Perm (rarInfos (allEmitted log) ++ waitingInfos last) := by
  have ran : Events.run RarEvent.handle []
      [.dlRachInfo ⟨0, 0, 0x46, 7, 0⟩, .dlRachInfo ⟨1, 0, 0x47, 7, 0⟩, .dlSched (Sched.init.grid 12),
        .dlRachInfo ⟨2, 0, 0x48, 7, 80⟩, .dlSched (Sched.init.grid 13)] = some (_, _) := rfl
  exact ⟨_, _, ran, (rar_queue_conserved ran).1⟩

end SonicaEnb
