import SonicaEnb.Mac.UlTurn

/-! # The uplink loop, twice

`sched_users_ul` counts timers down, so a second round over the UEs goes on where
the first has stopped. It changes nothing exactly when the first round has left no
timer running, and no UE that could be granted what the TTI has left.
-/

namespace SonicaEnb

namespace SfGrid

variable {g : SfGrid} {user visited : Nat} {ue : SchedUe} {order : List Nat}

theorem wantsUl_iff : g.wantsUl user = true ↔ ∃ ue, g.ulAsker user = some ue ∧ ue.msgWaitTimer = 0 := by
  unfold wantsUl ulAsker
  cases g.sf.isUlAlloc user with
  | true => simp
  | false =>
      cases g.ueDb.find? user with
      | none => simp
      | some ue => simp [Option.filter_some]

theorem ulAsker_known (asks : g.ulAsker user = some ue) : user ∈ g.ueDb.keys := by
  unfold ulAsker at asks
  split at asks
  · cases asks
  · rw [SortedMap.mem_keys_iff, (Option.filter_eq_some_iff.mp asks).1]
    rfl

/-! ## One visit -/

theorem ulAsker_tickUl (g : SfGrid) (visited user : Nat) :
    (g.tickUl visited).ulAsker user =
      if user = visited then
        (g.ulAsker user).map fun ue => { ue with msgWaitTimer := ue.msgWaitTimer - 1 }
      else g.ulAsker user := by
  unfold ulAsker
  have sf : (g.tickUl visited).sf = g.sf := rfl
  rw [sf]
  cases g.sf.isUlAlloc user with
  | true => simp
  | false =>
      simp only [tickUl, SortedMap.find?_modify, Bool.false_eq_true, if_false]
      split
      · cases g.ueDb.find? user with
        | none => rfl
        | some ue =>
            simp only [Option.map_some, Option.filter_some]
            have pending : SchedUe.getPendingUlNewData { ue with msgWaitTimer := ue.msgWaitTimer - 1 } =
                ue.getPendingUlNewData := rfl
            rw [pending]
            split <;> rfl
      · rfl

theorem ulAsker_grantUl (g : SfGrid) (visited user : Nat) (ue : SchedUe) :
    (g.grantUl visited ue).ulAsker user = if user = visited then none else g.ulAsker user := by
  unfold ulAsker
  by_cases here : user = visited
  · simp [grantUl, SfSched.isUlAlloc, here]
  · have alloc : (g.grantUl visited ue).sf.isUlAlloc user = g.sf.isUlAlloc user := by
      simp [grantUl, SfSched.isUlAlloc, Ne.symm here]
    rw [alloc, if_neg here]
    simp only [grantUl, SortedMap.find?_modify, here, if_false]

/-- A visit to another UE. -/
theorem visit_ulAsker_other (other : user ≠ visited) :
    (allocateUserNewtxPrbs g visited).ulAsker user = g.ulAsker user := by
  rw [allocateUserNewtxPrbs_eq]
  split
  · rfl
  · split
    · rw [ulAsker_tickUl, if_neg other]
    · split
      · rw [ulAsker_grantUl, if_neg other]
      · rfl

/-- A UE that asks after its visit has asked before, and its timer has gone down. -/
theorem visit_ulAsker_own (asks : (allocateUserNewtxPrbs g user).ulAsker user = some ue) :
    ∃ before, g.ulAsker user = some before ∧ ue.msgWaitTimer = before.msgWaitTimer - 1 := by
  rw [allocateUserNewtxPrbs_eq] at asks
  cases first : g.ulAsker user with
  | none =>
      simp only [first] at asks
      cases asks
  | some before =>
      simp only [first] at asks
      split at asks
      · rw [ulAsker_tickUl, if_pos rfl, first] at asks
        cases asks
        exact ⟨before, rfl, rfl⟩
      · rename_i expired
        split at asks
        · rw [ulAsker_grantUl, if_pos rfl] at asks
          cases asks
        · rw [first] at asks
          cases asks
          exact ⟨ue, rfl, by omega⟩

/-- A UE whose timer runs goes on asking. -/
theorem visit_ulAsker_running (asks : g.ulAsker user = some ue) (runs : ue.msgWaitTimer ≠ 0) :
    ((allocateUserNewtxPrbs g user).ulAsker user).isSome := by
  rw [allocateUserNewtxPrbs_eq, asks]
  simp only [runs, ne_eq, not_false_eq_true, if_true]
  rw [ulAsker_tickUl, if_pos rfl, asks]
  rfl

/-- Where a visit leaves the TTI free, it was free, and the UE visited did not want it. -/
theorem visit_newtxTtiFree (free : (allocateUserNewtxPrbs g user).newtxTtiFree = true) :
    g.newtxTtiFree = true ∧ g.wantsUl user = false := by
  rcases allocateUserNewtxPrbs_cases g user with idle | ⟨-, -, granted⟩
  · have before : g.newtxTtiFree = true := idle.newtxTtiFree ▸ free
    refine ⟨before, Bool.eq_false_iff.mpr ?_⟩
    intro wants
    obtain ⟨ue, asks, timer⟩ := wantsUl_iff.mp wants
    have full : (g.grantUl user ue).newtxTtiFree = false :=
      Newtx.full (g := g) ⟨⟨_, rfl, rfl⟩, rfl, rfl⟩
    rw [allocateUserNewtxPrbs_eq, asks] at free
    simp only [timer, ne_eq, not_true_eq_false, if_false, before, if_true, full] at free
    cases free
  · rw [granted.full] at free
    cases free

/-! ## One round -/

theorem visits_newtxTtiFree (nodup : order.Nodup)
    (free : (order.foldl allocateUserNewtxPrbs g).newtxTtiFree = true) :
    g.newtxTtiFree = true ∧ ∀ user ∈ order, g.wantsUl user = false := by
  induction order generalizing g with
  | nil => exact ⟨free, by simp⟩
  | cons visited rest ih =>
      obtain ⟨notLater, later⟩ := List.nodup_cons.mp nodup
      obtain ⟨free', nobody⟩ := ih later free
      obtain ⟨before, notVisited⟩ := visit_newtxTtiFree free'
      refine ⟨before, List.forall_mem_cons.mpr ⟨notVisited, ?_⟩⟩
      intro user member
      have other : user ≠ visited := fun same => notLater (same ▸ member)
      apply Bool.eq_false_iff.mpr
      intro wants
      obtain ⟨ue, asks, timer⟩ := wantsUl_iff.mp wants
      have wants' := wantsUl_iff.mpr ⟨ue, (visit_ulAsker_other (g := g) other).trans asks, timer⟩
      rw [nobody user member] at wants'
      cases wants'

/-- After a round, a UE that asks has asked before, and its timer has gone down. -/
theorem schedUsersUl_asker (asks : (schedUsersUl g).ulAsker user = some ue) :
    ∃ before, g.ulAsker user = some before ∧ ue.msgWaitTimer = before.msgWaitTimer - 1 := by
  have known : (g.ueDb.find? user).isSome := by
    rw [← (schedUsersUl_ulFrame g).ues.isSome, ← SortedMap.mem_keys_iff]
    exact ulAsker_known asks
  revert asks
  generalize start : g.ulAsker user = asker
  apply schedUsersUl_once (P := fun g => g.ulAsker user = asker)
    (Q := fun g => g.ulAsker user = some ue →
      ∃ before, asker = some before ∧ ue.msgWaitTimer = before.msgWaitTimer - 1) known
  · intro g visited elsewhere same
    exact (visit_ulAsker_other elsewhere).trans same
  · intro g same asks
    exact same ▸ visit_ulAsker_own asks
  · intro g visited elsewhere down asks
    exact down ((visit_ulAsker_other elsewhere).symm.trans asks)
  · exact start

theorem schedUsersUl_running (asks : g.ulAsker user = some ue) (runs : ue.msgWaitTimer ≠ 0) :
    ((schedUsersUl g).ulAsker user).isSome := by
  apply schedUsersUl_once (P := fun g => g.ulAsker user = some ue)
    (Q := fun g => (g.ulAsker user).isSome) ((SortedMap.mem_keys_iff _ _).mp (ulAsker_known asks))
  · intro g visited elsewhere asks
    exact (visit_ulAsker_other elsewhere).trans asks
  · intro g asks
    exact visit_ulAsker_running asks runs
  · intro g visited elsewhere still
    rw [visit_ulAsker_other elsewhere]
    exact still
  · exact asks

/-- A round leaves the TTI free exactly when it was, and nothing was due in it. -/
theorem schedUsersUl_newtxTtiFree :
    (schedUsersUl g).newtxTtiFree = true ↔ g.newtxTtiFree = true ∧ g.newtxDue = false := by
  constructor
  · intro free
    obtain ⟨before, nobody⟩ := visits_newtxTtiFree (visitOrder_nodup g _) free
    refine ⟨before, ?_⟩
    simp only [newtxDue, Bool.and_eq_false_iff]
    right
    rw [List.any_eq_false]
    intro user member
    rw [nobody user (List.mem_rotate.mpr member)]
    exact Bool.false_ne_true
  · rintro ⟨free, notDue⟩
    rcases schedUsersUl_cases g with ⟨sf, dl, ul⟩ | ⟨due, -⟩
    · simp only [newtxTtiFree, sf, dl, ul]
      exact free
    · rw [notDue] at due
      cases due

/-! ## A second round -/

/-- Another round would change nothing. -/
def UlSettled (g : SfGrid) : Prop :=
  ∀ user ue, g.ulAsker user = some ue → ue.msgWaitTimer = 0 ∧ g.newtxTtiFree = false

theorem UlSettled.same (settled : UlSettled g) : schedUsersUl g = g := by
  unfold schedUsersUl
  generalize visitOrder g g.sf.ttiParams.ttiTxUl = order
  induction order with
  | nil => rfl
  | cons visited rest ih =>
      have idle : allocateUserNewtxPrbs g visited = g := by
        rw [allocateUserNewtxPrbs_eq]
        cases asks : g.ulAsker visited with
        | none => rfl
        | some ue =>
            obtain ⟨timer, full⟩ := settled visited ue asks
            simp [timer, full]
      rw [List.foldl_cons, idle, ih]

/-- A UE that asks and does not wait makes a new transmission due in a free TTI. -/
theorem newtxDue_of_expired {user : Nat} {ue : SchedUe} (free : g.newtxTtiFree = true)
    (asks : g.ulAsker user = some ue) (expired : ue.msgWaitTimer = 0) : g.newtxDue = true := by
  rw [newtxDue, free, Bool.true_and, List.any_eq_true]
  exact ⟨user, ulAsker_known asks, wantsUl_iff.mpr ⟨ue, asks, expired⟩⟩

/-- A round that leaves the UEs and the table as they are leaves everything as it is. -/
theorem ulSettled_of_same (ueDb : (schedUsersUl g).ueDb = g.ueDb)
    (table : (schedUsersUl g).ulSchedTable = g.ulSchedTable) : UlSettled g := by
  intro user ue asks
  rcases schedUsersUl_cases g with ⟨sf, dl, -⟩ | ⟨due, granted⟩
  · have sameAsker : (schedUsersUl g).ulAsker user = g.ulAsker user := by
      simp only [ulAsker, sf, ueDb]
    have sameFree : (schedUsersUl g).newtxTtiFree = g.newtxTtiFree := by
      simp only [newtxTtiFree, sf, dl, table]
    obtain ⟨before, asked, timer⟩ := schedUsersUl_asker (sameAsker.trans asks)
    rw [asks] at asked
    cases asked
    have expired : ue.msgWaitTimer = 0 := by omega
    refine ⟨expired, Bool.eq_false_iff.mpr ?_⟩
    intro free
    have notDue := (schedUsersUl_newtxTtiFree.mp (sameFree.trans free)).2
    have due := newtxDue_of_expired free asks expired
    rw [notDue] at due
    cases due
  · have full := granted.full
    obtain ⟨⟨a, -, sf⟩, dl, -⟩ := granted
    simp only [newtxTtiFree, sf, dl, table] at full
    simp only [newtxDue, newtxTtiFree, full, Bool.false_and] at due
    cases due

/-- One round settles everything: no UE that asks has more than one turn to wait, and a TTI that is
    free for a new transmission gets one, if any UE asks. -/
def UlSettles (g : SfGrid) : Prop :=
  ∀ user ue, g.ulAsker user = some ue →
    ue.msgWaitTimer ≤ 1 ∧ (g.newtxTtiFree = true → g.newtxDue = true)

theorem ulSettled_iff : UlSettled (schedUsersUl g) ↔ UlSettles g := by
  constructor
  · intro settled user ue asks
    have left : ue.msgWaitTimer ≠ 0 →
        ue.msgWaitTimer - 1 = 0 ∧ (schedUsersUl g).newtxTtiFree = false := by
      intro runs
      obtain ⟨ue', asks'⟩ := Option.isSome_iff_exists.mp (schedUsersUl_running asks runs)
      obtain ⟨before, asked, timer⟩ := schedUsersUl_asker asks'
      rw [asks] at asked
      cases asked
      rw [← timer]
      exact settled user ue' asks'
    constructor
    · by_contra more
      have := (left (by omega)).1
      omega
    · intro free
      by_contra notDue
      have notDue := Bool.eq_false_iff.mpr notDue
      have runs : ue.msgWaitTimer ≠ 0 := by
        intro expired
        have due := newtxDue_of_expired free asks expired
        rw [notDue] at due
        cases due
      have stillFree := schedUsersUl_newtxTtiFree.mpr ⟨free, notDue⟩
      rw [(left runs).2] at stillFree
      cases stillFree
  · intro settles user ue asks
    obtain ⟨before, asked, timer⟩ := schedUsersUl_asker asks
    obtain ⟨short, granted⟩ := settles user before asked
    refine ⟨by omega, Bool.eq_false_iff.mpr ?_⟩
    intro free
    obtain ⟨freeBefore, notDue⟩ := schedUsersUl_newtxTtiFree.mp free
    rw [granted freeBefore] at notDue
    cases notDue

end SfGrid

end SonicaEnb
