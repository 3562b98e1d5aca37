import SonicaEnb.Mac.MacDb

/-! # RNTIs come round again

`mac::allocate_rnti` counts from 4097 to 59999 and starts again, without a look
at the database. Whether it gives away an RNTI that is still in use is decided
by the order of preambles and removals alone.
-/

namespace SonicaEnb

/-- How many RNTIs `allocate_rnti` gives away before it repeats itself. -/
def rntiTurn : Nat := 55903

/-- The RNTI that `allocate_rnti` answers after `n` earlier calls. -/
def nthRnti (n : Nat) : Nat := 4097 + n % rntiTurn

def MacEvent.isRach : MacEvent → Bool
  | rachDetected => true
  | _ => false

def rachCount (events : List MacEvent) : Nat := events.countP MacEvent.isRach

/-- No UE stays for a whole turn of the counter: between a preamble and the one a turn later the UE
    of the first is removed. -/
def LeavesInTurn (events : List MacEvent) : Prop :=
  ∀ first between after,
    events = first ++ .rachDetected :: between ++ .rachDetected :: after →
    rachCount between + 1 = rntiTurn → .ueRem (nthRnti (rachCount first)) ∈ between

/-- Some preamble was given the RNTI, and it was not removed since. -/
def Held (past : List MacEvent) (rnti : Nat) : Prop :=
  ∃ first between, past = first ++ .rachDetected :: between ∧
    rnti = nthRnti (rachCount first) ∧ .ueRem rnti ∉ between

theorem rachCount_append (xs ys : List MacEvent) :
    rachCount (xs ++ ys) = rachCount xs + rachCount ys := List.countP_append

theorem rachCount_rach (xs : List MacEvent) : rachCount (.rachDetected :: xs) = rachCount xs + 1 :=
  List.countP_cons_of_pos rfl

/-- The last preambles of a history can be counted off from its end. -/
theorem split_last {n : Nat} {events : List MacEvent} (many : n < rachCount events) :
    ∃ earlier later, events = earlier ++ .rachDetected :: later ∧ rachCount later = n := by
  induction events with
  | nil => cases many
  | cons e rest ih =>
      by_cases inRest : n < rachCount rest
      · obtain ⟨earlier, later, rfl, counted⟩ := ih inRest
        exact ⟨e :: earlier, later, rfl, counted⟩
      · cases e with
        | rachDetected =>
            rw [rachCount_rach] at many
            exact ⟨[], rest, rfl, by omega⟩
        | _ => exact absurd many inRest

theorem held_append {past : List MacEvent} {e : MacEvent} {rnti : Nat} :
    Held (past ++ [e]) rnti ↔
      (e = .rachDetected ∧ rnti = nthRnti (rachCount past)) ∨ (Held past rnti ∧ e ≠ .ueRem rnti) := by
  constructor
  · rintro ⟨first, between, shape, given, stays⟩
    rcases List.eq_nil_or_concat between with rfl | ⟨front, last, rfl⟩
    · obtain ⟨rfl, here⟩ := List.append_inj' shape rfl
      cases here
      exact .inl ⟨rfl, given⟩
    · rw [List.concat_eq_append, ← List.cons_append, ← List.append_assoc] at shape
      obtain ⟨rfl, here⟩ := List.append_inj' shape rfl
      cases here
      simp only [List.concat_eq_append, List.mem_append, List.mem_singleton, not_or] at stays
      exact .inr ⟨⟨first, front, rfl, given, stays.1⟩, fun same => stays.2 same.symm⟩
  · rintro (⟨rfl, given⟩ | ⟨⟨first, between, rfl, given, stays⟩, other⟩)
    · exact ⟨past, [], rfl, given, List.not_mem_nil⟩
    · refine ⟨first, between ++ [e], by simp, given, ?_⟩
      intro member
      rcases List.mem_append.mp member with earlier | now
      · exact stays earlier
      · exact other (List.mem_singleton.mp now).symm

namespace MacDb

/-- What an event does to the keys of the database. -/
theorem handle_keys {mac mac' : MacDb} {e : MacEvent} (handled : mac.handle e = some mac')
    (rnti : Nat) :
    (mac'.ueDb.find? rnti).isSome ↔
      (e = .rachDetected ∧ rnti = mac.lastRnti) ∨
        ((mac.ueDb.find? rnti).isSome ∧ e ≠ .ueRem rnti) := by
  cases e with
  | rachDetected =>
      cases handled
      simp only [rachDetected, allocateRnti, SortedMap.find?_insert]
      split <;> simp_all
  | ueRem key =>
      cases handled
      unfold ueRem
      by_cases here : rnti = key
      · subst here
        split
        · rename_i absent
          simp [absent]
        · simp [SortedMap.find?_erase]
      · have other : MacEvent.ueRem key ≠ .ueRem rnti := by
          rintro ⟨⟩
          exact here rfl
        split
        · simp [other]
        · simp [SortedMap.find?_erase, here, other]
  | processPdu key =>
      obtain ⟨ue, pdu, rest, found, -, rfl⟩ := processPdu_cases handled
      simp only [processPdu, SortedMap.find?_insert]
      split
      · rename_i here
        subst here
        simp [found]
      · simp
  | crcInfo key pdu =>
      cases handled
      simp only [pushPdu, SortedMap.find?_modify]
      split <;> simp
  | ueCfg key given =>
      cases handled
      simp [ueCfg_ueDb]
  | ueSetCrnti tempCrnti crnti given =>
      cases handled
      simp [ueSetCrnti_snd, ueCfg_ueDb]
  | rachTask key =>
      cases handled
      simp [schedUeCfg]
  | generatePdu key lcids =>
      cases handled
      simp

theorem nthRnti_succ (n : Nat) :
    nthRnti (n + 1) = if nthRnti n + 1 ≥ 60000 then 4097 else nthRnti n + 1 := by
  unfold nthRnti rntiTurn
  split <;> omega

/-- The counter moves with every preamble and with nothing else. -/
theorem handle_lastRnti {mac mac' : MacDb} {e : MacEvent} {past : List MacEvent}
    (handled : mac.handle e = some mac') (counter : mac.lastRnti = nthRnti (rachCount past)) :
    mac'.lastRnti = nthRnti (rachCount (past ++ [e])) := by
  rw [rachCount_append]
  cases e with
  | rachDetected =>
      cases handled
      have counted : rachCount [.rachDetected] = 1 := rfl
      rw [counted, nthRnti_succ, ← counter]
      rfl
  | ueRem key =>
      cases handled
      unfold ueRem
      split <;> exact counter
  | processPdu key =>
      obtain ⟨ue, pdu, rest, -, -, rfl⟩ := processPdu_cases handled
      exact counter
  | crcInfo key pdu => cases handled; exact counter
  | ueCfg key given =>
      cases handled
      unfold ueCfg
      cases mac.ueDb.find? key <;> cases given <;> exact counter
  | ueSetCrnti tempCrnti crnti given =>
      cases handled
      rw [ueSetCrnti_snd]
      unfold ueCfg
      cases mac.ueDb.find? crnti <;> cases given <;> exact counter
  | rachTask key => cases handled; exact counter
  | generatePdu key lcids => cases handled; exact counter

/-- After any run the counter has moved once per preamble, and the database holds the UEs that
    were not removed since theirs. -/
theorem run_held {events : List MacEvent} {last : MacDb} {log : List (Events.Step MacDb MacEvent)}
    (ran : Events.run handle {} events = some (last, log)) :
    last.lastRnti = nthRnti (rachCount events) ∧
      ∀ rnti, (last.ueDb.find? rnti).isSome ↔ Held events rnti := by
  have kept := Ticking.run_invariant (C := fun _ => True)
    (I := fun _ mac past => mac.lastRnti = nthRnti (rachCount (past.map Events.Step.event)) ∧
      ∀ rnti, (mac.ueDb.find? rnti).isSome ↔ Held (past.map Events.Step.event) rnti)
    ?_ ⟨rfl, ?_⟩ ran fun _ _ => trivial
  · rwa [Events.run_events ran] at kept
  · intro n mac past e mac' o ⟨counter, held⟩ turned _
    obtain ⟨handled, rfl⟩ := Events.turn_eq turned
    rw [List.map_append]
    refine ⟨handle_lastRnti handled counter, ?_⟩
    intro rnti
    rw [handle_keys handled, List.map_singleton, held_append, held, counter]
  · intro rnti
    refine iff_of_false (by simp [SortedMap.find?, SortedMap.empty]) ?_
    rintro ⟨first, between, shape, -⟩
    cases first <;> cases shape

/-- A UE that stays for a whole turn of the counter is in the database when its RNTI is given away
    again. -/
theorem rach_finds_held {first between after : List MacEvent} {last : MacDb}
    {log : List (Events.Step MacDb MacEvent)}
    (ran : Events.run handle {} (first ++ .rachDetected :: between ++ .rachDetected :: after) =
      some (last, log))
    (turn : rachCount between + 1 = rntiTurn)
    (stays : .ueRem (nthRnti (rachCount first)) ∉ between) :
    ∃ o ∈ log, o.event = .rachDetected ∧ o.pre.allocateRnti.1 = nthRnti (rachCount first) ∧
      (o.pre.ueDb.find? o.pre.allocateRnti.1).isSome := by
  obtain ⟨o, member, named, before, ranFront⟩ := Events.run_split ran
  obtain ⟨counter, held⟩ := run_held ranFront
  have again : o.pre.allocateRnti.1 = nthRnti (rachCount first) := by
    calc o.pre.lastRnti
        = nthRnti (rachCount (first ++ .rachDetected :: between)) := counter
      _ = nthRnti (rachCount first + (rachCount between + 1)) := by
          rw [rachCount_append, rachCount_rach]
      _ = nthRnti (rachCount first) := by
          rw [turn, nthRnti, Nat.add_mod_right]
          rfl
  refine ⟨o, member, named, again, ?_⟩
  rw [again]
  exact (held _).mpr ⟨first, between, rfl, rfl, stays⟩

/-- A UE that is found under the RNTI to be given away stayed for a whole turn of the counter. -/
theorem stayed_of_held {past : List MacEvent} (held : Held past (nthRnti (rachCount past))) :
    ∃ first between, past = first ++ .rachDetected :: between ∧
      rachCount between + 1 = rntiTurn ∧ .ueRem (nthRnti (rachCount first)) ∉ between := by
  obtain ⟨first, between, rfl, given, stays⟩ := held
  rw [rachCount_append, rachCount_rach] at given
  -- the counter has come back to the RNTI, after one turn or more
  have turns : (rachCount between + 1) % rntiTurn = 0 := by
    unfold nthRnti rntiTurn at given
    unfold rntiTurn
    omega
  have atLeast : rntiTurn ≤ rachCount between + 1 := by
    unfold rntiTurn at turns ⊢
    omega
  rcases atLeast.eq_or_lt with exactly | more
  · refine ⟨first, between, rfl, exactly.symm, ?_⟩
    rwa [rachCount_append, rachCount_rach, ← exactly, nthRnti, Nat.add_mod_right] at stays
  · have many : rntiTurn - 1 < rachCount between := by
      unfold rntiTurn at more ⊢
      omega
    obtain ⟨earlier, later, rfl, counted⟩ := split_last many
    rw [rachCount_append, rachCount_rach, counted] at turns
    refine ⟨first ++ .rachDetected :: earlier, later, by simp, ?_, ?_⟩
    · rw [counted]
      rfl
    · have same : nthRnti (rachCount (first ++ .rachDetected :: earlier)) =
          nthRnti (rachCount (first ++ .rachDetected :: (earlier ++ .rachDetected :: later))) := by
        rw [rachCount_append, rachCount_append, rachCount_rach, rachCount_rach, rachCount_append,
          rachCount_rach, counted]
        unfold nthRnti rntiTurn
        omega
      rw [same]
      intro member
      exact stays (List.mem_append_right earlier (List.mem_cons_of_mem _ member))

end MacDb

/-- In every run, every preamble is given an RNTI that no UE of the database has, exactly if no UE
    stays for a whole turn of the counter. -/
theorem rnti_fresh_iff {events : List MacEvent} {last : MacDb}
    {log : List (Events.Step MacDb MacEvent)}
    (ran : Events.run MacDb.handle {} events = some (last, log)) :
    (∀ o ∈ log, o.event = .rachDetected → o.pre.ueDb.find? o.pre.allocateRnti.1 = none) ↔
      LeavesInTurn events := by
  constructor
  · intro fresh first between after shape turn
    by_contra stays
    subst shape
    obtain ⟨o, member, named, -, found⟩ := MacDb.rach_finds_held ran turn stays
    rw [fresh o member named] at found
    cases found
  · intro leaves o member named
    obtain ⟨front, back, before, rfl, ranFront⟩ := Events.run_before ran member
    obtain ⟨counter, held⟩ := MacDb.run_held ranFront
    by_contra found
    have inUse : Held front (nthRnti (rachCount front)) := by
      rw [← held, ← counter]
      exact Option.isSome_iff_ne_none.mpr found
    obtain ⟨first, between, rfl, turn, stays⟩ := MacDb.stayed_of_held inUse
    rw [named] at leaves
    exact stays (leaves first between back rfl turn)

/-- `n` UEs that come and go, one after the other. -/
def comeAndGo (n : Nat) : List MacEvent :=
  (List.range n).flatMap fun i => [.rachDetected, .ueRem (4098 + i)]

theorem mem_comeAndGo {n : Nat} {e : MacEvent} (member : e ∈ comeAndGo n) :
    e = .rachDetected ∨ ∃ i, e = .ueRem (4098 + i) := by
  obtain ⟨i, -, here⟩ := List.mem_flatMap.mp member
  rcases List.mem_cons.mp here with rfl | last
  · exact .inl rfl
  · exact .inr ⟨i, List.mem_singleton.mp last⟩

theorem rachCount_comeAndGo (n : Nat) : rachCount (comeAndGo n) = n := by
  induction n with
  | zero => rfl
  | succ n ih =>
      rw [comeAndGo, List.range_succ, List.flatMap_append, rachCount_append]
      exact congrArg (· + 1) ih

theorem handle_comeAndGo {e : MacEvent} (known : e = .rachDetected ∨ ∃ i, e = .ueRem (4098 + i)) (mac : MacDb) :
    ∃ mac', mac.handle e = some mac' := by
  rcases known with rfl | ⟨i, rfl⟩
  · exact ⟨_, rfl⟩
  · exact ⟨_, rfl⟩

/-- The UE under 4097 leaves and 55902 others come and go: the next preamble is given 4097 again, which is free. -/
theorem left_in_turn :
    ∃ last log,
      Events.run MacDb.handle {} (.rachDetected :: .ueRem 4097 :: comeAndGo 55902 ++ [.rachDetected]) =
        some (last, log) ∧
      ∀ o ∈ log, o.event = .rachDetected → o.pre.ueDb.find? o.pre.allocateRnti.1 = none := by
  have handles : ∀ e ∈ .rachDetected :: .ueRem 4097 :: comeAndGo 55902 ++ [.rachDetected], ∀ mac : MacDb,
      ∃ mac', mac.handle e = some mac' := by
    intro e member mac
    have known : e = .rachDetected ∨ e = .ueRem 4097 ∨ e ∈ comeAndGo 55902 := by
      simpa [or_comm, or_assoc, or_left_comm] using member
    rcases known with rfl | rfl | inside
    · exact ⟨_, rfl⟩
    · exact ⟨_, rfl⟩
    · exact handle_comeAndGo (mem_comeAndGo inside) mac
  obtain ⟨last, log, ran⟩ := Events.run_of_handles handles {}
  refine ⟨last, log, ran, (rnti_fresh_iff ran).mpr ?_⟩
  intro first between after shape turn
  -- Of 55904 preambles the two are the first and the last.
  have count := congrArg rachCount shape
  have total : rachCount (.rachDetected :: .ueRem 4097 :: comeAndGo 55902 ++ [.rachDetected]) = 55904 := by
    have left : rachCount (.ueRem 4097 :: comeAndGo 55902) = 55902 :=
      (List.countP_cons_of_neg (by decide)).trans (rachCount_comeAndGo 55902)
    have last : rachCount [.rachDetected] = 1 := rfl
    rw [rachCount_append, rachCount_rach, left, last]
  rw [total, rachCount_append, rachCount_rach, rachCount_append, rachCount_rach] at count
  unfold rntiTurn at turn
  cases first with
  | cons e rest =>
      obtain ⟨rfl, -⟩ := List.cons.inj shape
      rw [rachCount_rach] at count
      omega
  | nil =>
      cases between with
      | nil => cases turn
      | cons e rest =>
          obtain ⟨-, behind⟩ := List.cons.inj shape
          obtain ⟨rfl, -⟩ := List.cons.inj behind
          exact .head _

/-- The UE under 4097 stays while 55902 others come and go: the next preamble is given 4097, and the
    context of the UE is overwritten. -/
theorem rnti_given_twice :
    ∃ last log,
      Events.run MacDb.handle {} (.rachDetected :: comeAndGo 55902 ++ [.rachDetected]) =
        some (last, log) ∧
      ∃ o ∈ log, o.event = .rachDetected ∧ o.pre.allocateRnti.1 = 4097 ∧
        (o.pre.ueDb.find? o.pre.allocateRnti.1).isSome := by
  have handles : ∀ e ∈ .rachDetected :: comeAndGo 55902 ++ [.rachDetected], ∀ mac : MacDb,
      ∃ mac', mac.handle e = some mac' := by
    intro e member mac
    have known : e = .rachDetected ∨ e ∈ comeAndGo 55902 := by
      simpa [or_comm, or_assoc] using member
    exact handle_comeAndGo (known.elim .inl mem_comeAndGo) mac
  obtain ⟨last, log, ran⟩ := Events.run_of_handles handles {}
  refine ⟨last, log, ran, @MacDb.rach_finds_held [] _ _ _ _ ran ?_ ?_⟩
  · rw [rachCount_comeAndGo]
    rfl
  · intro member
    have first : nthRnti (rachCount []) = 4097 := rfl
    rcases mem_comeAndGo member with same | ⟨i, same⟩
    · cases same
    · have rntis := MacEvent.ueRem.inj same
      omega

end SonicaEnb
