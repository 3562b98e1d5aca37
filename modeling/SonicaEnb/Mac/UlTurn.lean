import Mathlib.Data.List.Rotate
import SonicaEnb.Lib.Rounds
import SonicaEnb.Mac.Frames

/-! # What the uplink phases of a TTI do

Both phases put at most one allocation into a subframe: the first Msg3 marks the
subframes that every other Msg3 of the same TTI would need, and the first new
transmission marks the one subframe that is checked for the others.
-/

namespace SonicaEnb

namespace SfGrid

/-! ## Msg3 -/

/-- The four uplink subframes of a Msg3 in the subframe of the grid. -/
def msg3Ttis (g : SfGrid) : List Nat := ulInterval (msg3RxTti g.sf.ttiParams.ttiTxDl) 4

/-- The grid with a Msg3 in its subframe. -/
def queueMsg3 (g : SfGrid) (a : UlAlloc) : SfGrid :=
  { g with
    ulSchedTable := g.ulSchedTable.mark g.msg3Ttis
    sf.ulDataAllocs := g.sf.ulDataAllocs ++ [a] }

theorem allocMsg3_cases (g : SfGrid) (user : Nat) (grant : DlSchedRarGrant) :
    (g.allocMsg3 user grant).2 = g ∨
      ∃ a, a.type = .msg3 ∧ a.mcs = 0 ∧ a.user = user ∧ g.msg3Ttis.any g.ulSchedTable = false ∧
        (g.allocMsg3 user grant).2 = g.queueMsg3 a := by
  unfold allocMsg3
  split
  · rename_i zero
    simp only [allocUl]
    split
    · exact .inl rfl
    · simp only [allocUlMsg3]
      split
      · exact .inl rfl
      · rename_i free
        exact .inr ⟨_, rfl, zero, rfl, Bool.eq_false_iff.mpr free, rfl⟩
  · exact .inl rfl

/-- Where a Msg3 was queued, no other finds its subframes free. -/
theorem queueMsg3_full (g : SfGrid) (a : UlAlloc) :
    (g.queueMsg3 a).msg3Ttis.any (g.queueMsg3 a).ulSchedTable = true := by
  refine List.any_eq_true.mpr ⟨msg3RxTti g.sf.ttiParams.ttiTxDl % 10240, ?_, ?_⟩
  · exact List.mem_map.mpr ⟨0, by simp, rfl⟩
  · have member : msg3RxTti g.sf.ttiParams.ttiTxDl % 10240 ∈ g.msg3Ttis :=
      List.mem_map.mpr ⟨0, by simp, rfl⟩
    simp [queueMsg3, Wheel.mark_apply, member]

theorem raUlSched_cons (grant : DlSchedRarGrant) (rest : List DlSchedRarGrant) (g : SfGrid) :
    raUlSched (grant :: rest) g =
      raUlSched rest (match g.ueDb.find? grant.data.tempCrnti with
        | none => g
        | some _ => (g.allocMsg3 grant.data.tempCrnti grant).2) := rfl

theorem raUlSched_cases (grants : List DlSchedRarGrant) (g : SfGrid) :
    raUlSched grants g = g ∨
      ∃ a, a.type = .msg3 ∧ a.mcs = 0 ∧ (g.ueDb.find? a.user).isSome ∧
        g.msg3Ttis.any g.ulSchedTable = false ∧ raUlSched grants g = g.queueMsg3 a := by
  induction grants generalizing g with
  | nil => exact .inl rfl
  | cons grant rest ih =>
      rw [raUlSched_cons]
      cases found : g.ueDb.find? grant.data.tempCrnti with
      | none => exact ih g
      | some ue =>
          simp only
          rcases allocMsg3_cases g grant.data.tempCrnti grant with same | ⟨a, type, mcs, user, free, queued⟩
          · rw [same]
            exact ih g
          · right
            refine ⟨a, type, mcs, by rw [user, found]; rfl, free, ?_⟩
            rw [queued]
            rcases ih (g.queueMsg3 a) with same | ⟨_, -, -, -, free', -⟩
            · exact same
            · rw [queueMsg3_full] at free'
              cases free'

theorem raUlSched_ueDb (grants : List DlSchedRarGrant) (g : SfGrid) :
    (raUlSched grants g).ueDb = g.ueDb := by
  rcases raUlSched_cases grants g with same | ⟨a, -, -, -, -, queued⟩
  · rw [same]
  · rw [queued]; rfl

/-- Only the Msg3 of UEs that are known is queued. -/
theorem mem_raUlSched {grants : List DlSchedRarGrant} {g : SfGrid} {a : UlAlloc}
    (member : a ∈ (raUlSched grants g).sf.ulDataAllocs) :
    a ∈ g.sf.ulDataAllocs ∨ (a.type = .msg3 ∧ a.mcs = 0 ∧ (g.ueDb.find? a.user).isSome) := by
  rcases raUlSched_cases grants g with same | ⟨a', type, mcs, known, -, queued⟩
  · rw [same] at member
    exact .inl member
  · rw [queued] at member
    rcases List.mem_append.mp member with old | new
    · exact .inl old
    · rw [List.mem_singleton] at new
      exact .inr (new ▸ ⟨type, mcs, known⟩)

/-! ## New transmissions -/

/-- The conditions a new transmission puts on its TTI, the user apart. -/
def newtxTtiFree (g : SfGrid) : Bool :=
  isValidDlSf g.sf.ttiParams.ttiTxDl && !g.dlSchedTable g.sf.ttiParams.ttiTxDl &&
    decide (g.sf.ttiParams.ttiTxDl % 8 < 2) && !g.ulSchedTable (g.sf.ttiParams.ttiTxUl % 10240)

/-- The UE waits for a grant: it has data, its timer has run out, and it has no grant yet. -/
def wantsUl (g : SfGrid) (user : Nat) : Bool :=
  !g.sf.isUlAlloc user &&
    match g.ueDb.find? user with
    | none => false
    | some ue => decide (0 < ue.getPendingUlNewData) && ue.msgWaitTimer == 0

/-- A new transmission is granted in the TTI of the grid. -/
def newtxDue (g : SfGrid) : Bool := g.newtxTtiFree && g.ueDb.keys.any g.wantsUl

/-- What a visit that grants nothing leaves, apart from the UE visited. -/
structure UlIdle (g g' : SfGrid) (user : Nat) : Prop where
  sf : g'.sf = g.sf
  dlSchedTable : g'.dlSchedTable = g.dlSchedTable
  ulSchedTable : g'.ulSchedTable = g.ulSchedTable
  others : ∀ u, u ≠ user → g'.ueDb.find? u = g.ueDb.find? u

/-- What a granted new transmission leaves. -/
structure Newtx (g g' : SfGrid) : Prop where
  alloc : ∃ a, a.type = .newtx ∧ g'.sf = { g.sf with ulDataAllocs := g.sf.ulDataAllocs ++ [a] }
  dlSchedTable : g'.dlSchedTable = g.dlSchedTable
  ulSchedTable : g'.ulSchedTable =
    (g.ulSchedTable.set (g.sf.ttiParams.ttiTxUl % 10240) true).set g.sf.ttiParams.ttiTxDl true

theorem UlIdle.refl (g : SfGrid) (user : Nat) : UlIdle g g user := ⟨rfl, rfl, rfl, fun _ _ => rfl⟩

theorem foldl_set_same (table : Wheel) (i n : Nat) :
    (List.range (n + 1)).foldl (fun table _ => table.set i true) table = table.set i true := by
  induction n with
  | zero => rfl
  | succ n ih =>
      rw [List.range_succ, List.foldl_append, ih]
      funext j
      simp [Wheel.set]

/-- The UE as it asks for a grant: it has data and no grant yet. -/
def ulAsker (g : SfGrid) (user : Nat) : Option SchedUe :=
  if g.sf.isUlAlloc user then none
  else (g.ueDb.find? user).filter fun ue => decide (0 < ue.getPendingUlNewData)

/-- The grid after the timer of a UE was counted down. -/
def tickUl (g : SfGrid) (user : Nat) : SfGrid :=
  { g with ueDb := g.ueDb.modify user fun ue => { ue with msgWaitTimer := ue.msgWaitTimer - 1 } }

/-- The grid after a new transmission was granted; the buffers of the UE count as empty. -/
def grantUl (g : SfGrid) (user : Nat) (ue : SchedUe) : SfGrid :=
  { g with
    ulSchedTable :=
      (g.ulSchedTable.set (g.sf.ttiParams.ttiTxUl % 10240) true).set g.sf.ttiParams.ttiTxDl true
    sf.ulDataAllocs := g.sf.ulDataAllocs ++
      [⟨.newtx, user, { scNum := 12, len := 4 }, if ue.getPendingUlNewData ≥ 125 then 12 else 9⟩]
    ueDb := g.ueDb.modify user fun ue => (ue.ulBufferState 0 0 true).ulBufferState 3 0 true }

/-- One visit of `sched_users_ul`: a UE that does not ask is passed over, a running timer is counted
    down, and otherwise the TTI decides. -/
theorem allocateUserNewtxPrbs_eq (g : SfGrid) (user : Nat) :
    allocateUserNewtxPrbs g user =
      match g.ulAsker user with
      | none => g
      | some ue =>
          if ue.msgWaitTimer ≠ 0 then g.tickUl user
          else if g.newtxTtiFree then g.grantUl user ue else g := by
  unfold allocateUserNewtxPrbs ulAsker
  cases notYet : g.sf.isUlAlloc user with
  | true => simp
  | false =>
      simp only [Bool.false_eq_true, if_false]
      cases found : g.ueDb.find? user with
      | none => rfl
      | some ue =>
          by_cases pending : 0 < ue.getPendingUlNewData
          · have unfolded : g.allocUlUser user {} = g.allocUlNpdcch .newtx user := by
              simp [allocUlUser, allocUl, notYet]
            simp only [unfolded, allocUlNpdcch, found, Option.filter_some, pending, decide_true, if_true]
            by_cases timer : ue.msgWaitTimer = 0
            · by_cases valid : isValidDlSf g.sf.ttiParams.ttiTxDl = true
              · by_cases marked : g.dlSchedTable g.sf.ttiParams.ttiTxDl = true
                · simp [timer, valid, marked, newtxTtiFree]
                · by_cases early : g.sf.ttiParams.ttiTxDl % 8 < 2
                  · by_cases busy : g.ulSchedTable (g.sf.ttiParams.ttiTxUl % 10240) = true
                    · have all : ((List.range 4).any fun _ => true) = true := by decide
                      simp [timer, valid, marked, early, not_le.mpr early, busy, all, newtxTtiFree]
                    · have none : ((List.range 4).any fun _ => false) = false := by decide
                      simp only [timer, valid, marked, early, busy, none, newtxTtiFree, ne_eq,
                        not_true_eq_false, if_false, Bool.not_true, Bool.false_eq_true, not_le.mpr early,
                        ge_iff_le, decide_true, Bool.not_false, Bool.and_self, if_true, foldl_set_same _ _ 3]
                      rfl
                  · simp [timer, valid, marked, early, not_lt.mp early, newtxTtiFree]
              · simp [timer, valid, newtxTtiFree]
            · simp only [timer, ne_eq, not_false_eq_true, if_true]
              rfl
          · simp [Option.filter_some, pending]

theorem allocateUserNewtxPrbs_cases (g : SfGrid) (user : Nat) :
    UlIdle g (allocateUserNewtxPrbs g user) user ∨
      (g.newtxTtiFree = true ∧ g.wantsUl user = true ∧ Newtx g (allocateUserNewtxPrbs g user)) := by
  rw [allocateUserNewtxPrbs_eq]
  cases asks : g.ulAsker user with
  | none => exact .inl (.refl g user)
  | some ue =>
      simp only
      split
      · refine .inl ⟨rfl, rfl, rfl, ?_⟩
        intro u different
        simp [tickUl, SortedMap.find?_modify, different]
      · rename_i expired
        split
        · rename_i free
          refine .inr ⟨free, ?_, ⟨_, rfl, rfl⟩, rfl, rfl⟩
          unfold ulAsker at asks
          split at asks
          · cases asks
          · rename_i notYet
            obtain ⟨found, pending⟩ := Option.filter_eq_some_iff.mp asks
            have timer : ue.msgWaitTimer = 0 := by simpa using expired
            have notYet := Bool.eq_false_iff.mpr notYet
            simp [wantsUl, notYet, found, timer, of_decide_eq_true pending]
        · exact .inl (.refl g user)

theorem UlIdle.newtxTtiFree {g g' : SfGrid} {user : Nat} (idle : UlIdle g g' user) :
    g'.newtxTtiFree = g.newtxTtiFree := by
  simp only [SfGrid.newtxTtiFree, idle.sf, idle.dlSchedTable, idle.ulSchedTable]

theorem UlIdle.wantsUl {g g' : SfGrid} {user u : Nat} (idle : UlIdle g g' user) (different : u ≠ user) :
    g'.wantsUl u = g.wantsUl u := by
  simp only [SfGrid.wantsUl, idle.sf, idle.others u different]

/-- Where a transmission was granted, the TTI is free for no other. -/
theorem Newtx.full {g g' : SfGrid} (granted : Newtx g g') : g'.newtxTtiFree = false := by
  obtain ⟨⟨a, -, sf⟩, -, ul⟩ := granted
  have marked : g'.ulSchedTable (g'.sf.ttiParams.ttiTxUl % 10240) = true := by
    rw [ul, sf]
    simp only [Wheel.set]
    split
    · rfl
    · simp
  simp [SfGrid.newtxTtiFree, marked]

/-- The loop over the UEs: the table and the subframe stay, or one of the UEs that wait is granted. -/
theorem schedUsersUl_loop {order : List Nat} (nodup : order.Nodup) (g : SfGrid) :
    ((order.foldl allocateUserNewtxPrbs g).sf = g.sf ∧
        (order.foldl allocateUserNewtxPrbs g).dlSchedTable = g.dlSchedTable ∧
        (order.foldl allocateUserNewtxPrbs g).ulSchedTable = g.ulSchedTable) ∨
      (g.newtxTtiFree = true ∧ (∃ u ∈ order, g.wantsUl u = true) ∧
        Newtx g (order.foldl allocateUserNewtxPrbs g)) := by
  induction order generalizing g with
  | nil => exact .inl ⟨rfl, rfl, rfl⟩
  | cons user rest ih =>
      obtain ⟨notLater, later⟩ := List.nodup_cons.mp nodup
      rw [List.foldl_cons]
      rcases allocateUserNewtxPrbs_cases g user with idle | ⟨free, wants, granted⟩
      · rcases ih later (allocateUserNewtxPrbs g user) with
          ⟨sf, dl, ul⟩ | ⟨free, ⟨u, member, wants⟩, alloc, dl, ul⟩
        · exact .inl ⟨sf.trans idle.sf, dl.trans idle.dlSchedTable, ul.trans idle.ulSchedTable⟩
        · right
          have different : u ≠ user := fun same => notLater (same ▸ member)
          rw [idle.newtxTtiFree] at free
          rw [idle.wantsUl different] at wants
          rw [idle.sf] at alloc ul
          rw [idle.ulSchedTable] at ul
          exact ⟨free, ⟨u, List.mem_cons_of_mem user member, wants⟩, alloc,
            dl.trans idle.dlSchedTable, ul⟩
      · right
        refine ⟨free, ⟨user, List.mem_cons_self, wants⟩, ?_⟩
        rcases ih later (allocateUserNewtxPrbs g user) with ⟨sf, dl, ul⟩ | ⟨free', -⟩
        · obtain ⟨⟨a, type, shape⟩, dl', ul'⟩ := granted
          exact ⟨⟨a, type, sf.trans shape⟩, dl.trans dl', ul.trans ul'⟩
        · rw [granted.full] at free'
          cases free'

theorem visitOrder_nodup (g : SfGrid) (tti : Nat) : (visitOrder g tti).Nodup :=
  List.nodup_rotate.mpr (SortedMap.keys_nodup g.ueDb)

/-- The round over the UEs, for one that is known: it is visited once. -/
theorem schedUsersUl_once {P Q : SfGrid → Prop} {g : SfGrid} {user : Nat}
    (known : (g.ueDb.find? user).isSome)
    (earlier : ∀ g visited, user ≠ visited → P g → P (allocateUserNewtxPrbs g visited))
    (own : ∀ g, P g → Q (allocateUserNewtxPrbs g user))
    (later : ∀ g visited, user ≠ visited → Q g → Q (allocateUserNewtxPrbs g visited))
    (before : P g) : Q (schedUsersUl g) := by
  have member : user ∈ visitOrder g g.sf.ttiParams.ttiTxUl :=
    List.mem_rotate.mpr ((SortedMap.mem_keys_iff _ _).mpr known)
  exact Round.once (visitOrder_nodup g _) member earlier own later before

theorem schedUsersUl_cases (g : SfGrid) :
    ((schedUsersUl g).sf = g.sf ∧ (schedUsersUl g).dlSchedTable = g.dlSchedTable ∧
        (schedUsersUl g).ulSchedTable = g.ulSchedTable) ∨
      (g.newtxDue = true ∧ Newtx g (schedUsersUl g)) := by
  rcases schedUsersUl_loop (visitOrder_nodup g _) g with same | ⟨free, ⟨u, member, wants⟩, granted⟩
  · exact .inl same
  · right
    refine ⟨?_, granted⟩
    have known : u ∈ g.ueDb.keys := List.mem_rotate.mp member
    simp only [newtxDue, free, Bool.true_and]
    exact List.any_eq_true.mpr ⟨u, known, wants⟩

end SfGrid

end SonicaEnb
