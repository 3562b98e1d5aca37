import SonicaEnb.Lib.Events
import SonicaEnb.Lib.Pool
import SonicaEnb.Mac.UePdu

/-! # The buffers of received PDUs

A UE object has 128 buffers for uplink PDUs. The MAC requests one for a grant and
keeps it under the HARQ process of the TTI; then the buffer is given back, or it
is queued with the PDU in it, and given back when the PDU is processed. A buffer
is given back by its address, and `process_pdu` moves the address of a PDU that
begins with a CCCH subheader by one before it does so.
-/

namespace SonicaEnb

/-- A pointer into one of the buffers. -/
structure PduPtr where
  buffer : Nat
  offset : Nat := 0
  deriving Repr, DecidableEq

/-- The pool size given to `pdus` by the constructor of `ue`. -/
def nofPduBuffers : Nat := 128

/-- `pdu_queue::MAX_PDU_LEN` -/
def maxPduLen : Nat := 150 * 1024 / 8

/-- The addresses of the buffers. -/
def pduBuffers : List PduPtr := (List.range nofPduBuffers).map fun buffer => { buffer := buffer }

/-- The PDU begins with a CCCH subheader, as `process_pdu` sees it. -/
def RxPdu.StartsCcch (pdu : RxPdu) : Prop := (pdu.buf 0).toNat % 32 = 0

instance (pdu : RxPdu) : Decidable pdu.StartsCcch := inferInstanceAs (Decidable (_ = _))

/-- `ue`, of which these calls use `pdus`, with its pool and its queue, and `pending_buffers`. -/
structure UePdus where
  pool : Pool PduPtr := .full pduBuffers
  pendingBuffers : List (Option PduPtr)
  pduQ : List (PduPtr × RxPdu) := []

namespace UePdus

/-- The state the constructor leaves. -/
def init (nofRxHarqProc : Nat) : UePdus := { pendingBuffers := List.replicate nofRxHarqProc none }

/-- `tti % nof_rx_harq_proc`; `pending_buffers` has one entry for each process. -/
def pid (u : UePdus) (tti : Nat) : Nat := tti % u.pendingBuffers.length

/-- `pdu_queue::request`. It waits for a buffer when there is none: then it does not return. -/
def request (pool : Pool PduPtr) (len : Nat) : Option (Option PduPtr × Pool PduPtr) :=
  if len > maxPduLen then some (none, pool)
  else pool.allocate.map fun (pdu, pool) => (some pdu, pool)

/-- `request_buffer` -/
def requestBuffer (u : UePdus) (tti len : Nat) : Option (Option PduPtr × UePdus) :=
  if len = 0 then some (none, u)
  else
    match u.pendingBuffers[u.pid tti]? with
    | none => none
    | some (some _) => some (none, u)
    | some none =>
        (request u.pool len).map fun (ret, pool) =>
          (ret, { u with pool := pool, pendingBuffers := u.pendingBuffers.set (u.pid tti) ret })

/-- `push_pdu`, with what the buffer holds by then. -/
def pushPdu (u : UePdus) (tti : Nat) (pdu : RxPdu) : Option UePdus :=
  match u.pendingBuffers[u.pid tti]? with
  | none => none
  | some none => some u
  | some (some ptr) =>
      some { u with
        pduQ := u.pduQ ++ [(ptr, pdu)]
        pendingBuffers := u.pendingBuffers.set (u.pid tti) none }

/-- `deallocate_pdu` -/
def deallocatePdu (u : UePdus) (tti : Nat) : Option UePdus :=
  match u.pendingBuffers[u.pid tti]? with
  | none => none
  | some none => some u
  | some (some ptr) =>
      some { u with
        pool := (u.pool.deallocate ptr).2
        pendingBuffers := u.pendingBuffers.set (u.pid tti) none }

/-- What `process_pdu` does to the pool. -/
def processPdu (pool : Pool PduPtr) (e : PduPtr × RxPdu) : Pool PduPtr :=
  let pdu := if e.2.StartsCcch then { e.1 with offset := e.1.offset + 1 } else e.1
  (pool.deallocate pdu).2

/-- `process_pdus` -/
def processPdus (u : UePdus) : Bool × UePdus :=
  (!u.pduQ.isEmpty, { u with pool := u.pduQ.foldl processPdu u.pool, pduQ := [] })

end UePdus

/-- The calls that use the buffers. -/
inductive PduEvent where
  | requestBuffer (tti len : Nat)
  | pushPdu (tti : Nat) (pdu : RxPdu)
  | deallocatePdu (tti : Nat)
  | processPdus

namespace UePdus

def handle (u : UePdus) : PduEvent → Option UePdus
  | .requestBuffer tti len => (u.requestBuffer tti len).map Prod.snd
  | .pushPdu tti pdu => u.pushPdu tti pdu
  | .deallocatePdu tti => u.deallocatePdu tti
  | .processPdus => some u.processPdus.2

/-- The buffers that are pending or queued. -/
def held (u : UePdus) : List PduPtr := u.pendingBuffers.reduceOption ++ u.pduQ.map Prod.fst

/-- Each of the 128 buffers is in the pool, pending or queued, and in one place only. -/
def Conserved (u : UePdus) : Prop := (u.pool.available ++ u.held).Perm pduBuffers

theorem Conserved.count {u : UePdus} (conserved : u.Conserved) :
    u.pool.available.length + u.pendingBuffers.reduceOption.length + u.pduQ.length = 128 := by
  have lengths := conserved.length_eq
  simp only [held, List.length_append, List.length_map, pduBuffers, List.length_range] at lengths
  rw [Nat.add_assoc, lengths]
  rfl

/-- The buffers of the PDUs whose address is moved before they are given back. -/
def movedBuffers (u : UePdus) : PduEvent → List PduPtr
  | .processPdus => (u.pduQ.filter fun e => decide e.2.StartsCcch).map Prod.fst
  | _ => []

/-! ## One call -/

variable {u u' : UePdus} {moved : List PduPtr}

/-- A moved address is the address of no buffer. -/
theorem moved_foreign {ptr : PduPtr} : { ptr with offset := ptr.offset + 1 } ∉ pduBuffers := by
  intro member
  obtain ⟨buffer, -, same⟩ := List.mem_map.mp member
  have offset := congrArg PduPtr.offset same
  exact absurd offset.symm (Nat.succ_ne_zero ptr.offset)

theorem processPdu_accounts {pool : Pool PduPtr} {e : PduPtr × RxPdu} {held : List PduPtr}
    (accounts : Pool.Accounts pduBuffers pool (e.1 :: held)) :
    Pool.Accounts pduBuffers (processPdu pool e)
      ((if e.2.StartsCcch then [e.1] else []) ++ held) := by
  unfold processPdu
  by_cases ccch : e.2.StartsCcch
  · simp only [ccch, if_true]
    rw [accounts.deallocate_foreign moved_foreign]
    exact accounts
  · simp only [ccch, if_false]
    exact accounts.deallocate

theorem processPdus_accounts {queue : List (PduPtr × RxPdu)} {pool : Pool PduPtr}
    {held : List PduPtr} (accounts : Pool.Accounts pduBuffers pool (queue.map Prod.fst ++ held)) :
    Pool.Accounts pduBuffers (queue.foldl processPdu pool)
      ((queue.filter fun e => decide e.2.StartsCcch).map Prod.fst ++ held) := by
  induction queue generalizing pool held with
  | nil => exact accounts
  | cons e rest ih =>
      rw [List.map_cons, List.cons_append] at accounts
      have first := (processPdu_accounts accounts).pass (List.perm_append_comm_assoc ..)
      refine (ih first).pass ((List.perm_append_comm_assoc ..).trans ?_)
      rw [List.filter_cons]
      split <;> simp_all

/-- Every call keeps the account; what it moves is never given back. -/
theorem handle_accounts {e : PduEvent} (handled : u.handle e = some u')
    (accounts : Pool.Accounts pduBuffers u.pool (u.held ++ moved)) :
    Pool.Accounts pduBuffers u'.pool (u'.held ++ (moved ++ u.movedBuffers e)) := by
  cases e with
  | requestBuffer tti len =>
      simp only [handle, requestBuffer, movedBuffers, List.append_nil] at handled ⊢
      split at handled
      · cases handled
        exact accounts
      · split at handled
        · cases handled
        · cases handled
          exact accounts
        · rename_i free
          simp only [request] at handled
          split at handled
          · cases handled
            have slot := List.reduceOption_set free none
            exact accounts.pass ((slot.symm.append_right _).append_right _)
          · cases got : u.pool.allocate with
            | none => simp [got] at handled
            | some result =>
                obtain ⟨ptr, pool⟩ := result
                simp only [got, Option.map_some, Option.some.injEq] at handled
                subst handled
                have slot := List.reduceOption_set free (some ptr)
                exact (accounts.allocate got).pass ((slot.symm.append_right _).append_right _)
  | pushPdu tti pdu =>
      simp only [handle, pushPdu, movedBuffers, List.append_nil] at handled ⊢
      split at handled
      · cases handled
      · cases handled
        exact accounts
      · rename_i ptr pending
        cases handled
        have slot := (List.reduceOption_set pending none).symm.append_right (u.pduQ.map Prod.fst)
        have toBack : ((some ptr).toList ++ (u.pendingBuffers.set (u.pid tti) none).reduceOption ++
              u.pduQ.map Prod.fst).Perm
            ((u.pendingBuffers.set (u.pid tti) none).reduceOption ++
              (u.pduQ ++ [(ptr, pdu)]).map Prod.fst) := by
          rw [List.append_assoc, List.map_append, ← List.append_assoc _ (u.pduQ.map Prod.fst)]
          exact List.perm_append_comm
        exact accounts.pass ((slot.trans toBack).append_right moved)
  | deallocatePdu tti =>
      simp only [handle, deallocatePdu, movedBuffers, List.append_nil] at handled ⊢
      split at handled
      · cases handled
      · cases handled
        exact accounts
      · rename_i ptr pending
        cases handled
        have slot := List.reduceOption_set pending none
        exact Pool.Accounts.deallocate (accounts.pass ((slot.symm.append_right _).append_right _))
  | processPdus =>
      cases handled
      have first : (u.held ++ moved).Perm
          (u.pduQ.map Prod.fst ++ (u.pendingBuffers.reduceOption ++ moved)) := by
        rw [held, List.append_assoc]
        exact List.perm_append_comm_assoc ..
      apply (processPdus_accounts (accounts.pass first)).pass
      simp only [processPdus, held, movedBuffers, List.map_nil, List.append_nil]
      exact (List.perm_append_comm_assoc ..).trans (List.perm_append_comm.append_left _)

/-! ## Runs -/

theorem init_accounts (nofRxHarqProc : Nat) :
    Pool.Accounts pduBuffers (init nofRxHarqProc).pool ((init nofRxHarqProc).held ++ []) := by
  have nothing : (init nofRxHarqProc).held ++ [] = [] := by
    simp [held, init, List.reduceOption_replicate_none]
  rw [nothing]
  exact Pool.accounts_full pduBuffers

/-- The buffers lost in the steps of a log. -/
def lostBuffers (log : List (Events.Step UePdus PduEvent)) : List PduPtr :=
  log.flatMap fun o => o.pre.movedBuffers o.event

/-- In every run, each buffer is in the pool, pending, queued, or lost, and in one place only. -/
theorem run_accounts {nofRxHarqProc : Nat} {events : List PduEvent} {last : UePdus}
    {log : List (Events.Step UePdus PduEvent)}
    (ran : Events.run handle (init nofRxHarqProc) events = some (last, log)) :
    Pool.Accounts pduBuffers last.pool (last.held ++ lostBuffers log) := by
  refine Ticking.run_invariant (C := fun _ => True)
    (I := fun _ s past => Pool.Accounts pduBuffers s.pool (s.held ++ lostBuffers past)) ?_
    (init_accounts nofRxHarqProc) ran (by simp)
  intro n s past e s' o accounts turned _
  obtain ⟨handled, rfl⟩ := Events.turn_eq turned
  have next := handle_accounts handled accounts
  simpa only [lostBuffers, List.flatMap_append, List.flatMap_cons, List.flatMap_nil,
    List.append_nil] using next

/-- Once all buffers are lost, a request waits for ever. -/
theorem request_waits {nofRxHarqProc tti len : Nat} {events : List PduEvent} {last : UePdus}
    {log : List (Events.Step UePdus PduEvent)}
    (ran : Events.run handle (init nofRxHarqProc) events = some (last, log))
    (allLost : (lostBuffers log).length = nofPduBuffers) (valid : 0 < len ∧ len ≤ maxPduLen) :
    last.pendingBuffers[last.pid tti]? = some none → last.requestBuffer tti len = none := by
  have lengths := (run_accounts ran).perm.length_eq
  simp only [List.length_append, pduBuffers, List.length_map, List.length_range, allLost] at lengths
  have empty : last.pool.available = [] := List.length_eq_zero_iff.mp (by omega)
  intro free
  simp only [requestBuffer, free, request, Pool.allocate, empty, Nat.ne_of_gt valid.1, if_false,
    not_lt.mpr valid.2, Option.map_none]

/-- Beside lost buffers, the others are not all. -/
theorem conserved_iff {lost : List PduPtr}
    (accounts : Pool.Accounts pduBuffers u.pool (u.held ++ lost)) : u.Conserved ↔ lost = [] := by
  constructor
  · intro conserved
    have all := accounts.perm.length_eq
    have here := conserved.length_eq
    rw [← List.append_assoc, List.length_append, here] at all
    exact List.length_eq_zero_iff.mp (by omega)
  · rintro rfl
    rw [List.append_nil] at accounts
    exact accounts.perm

/-- After a step of a run the buffers are conserved exactly if none was lost up to then. -/
theorem step_conserved_iff {nofRxHarqProc : Nat} {events : List PduEvent} {last : UePdus}
    {before after : List (Events.Step UePdus PduEvent)} {o : Events.Step UePdus PduEvent}
    (ran : Events.run handle (init nofRxHarqProc) events = some (last, before ++ o :: after)) :
    o.post.Conserved ↔ lostBuffers before = [] ∧ o.pre.movedBuffers o.event = [] := by
  obtain ⟨⟨front, ranFront⟩, handled⟩ := Events.run_at ran
  have accounts := handle_accounts handled (run_accounts ranFront)
  rw [conserved_iff accounts, List.append_eq_nil_iff]

theorem movedBuffers_eq_nil {e : PduEvent} :
    u.movedBuffers e = [] ↔ e = .processPdus → ∀ q ∈ u.pduQ, ¬ q.2.StartsCcch := by
  cases e <;> simp [movedBuffers, List.filter_eq_nil_iff]

end UePdus

open UePdus in
/-- In every run, the buffers are conserved after every call, exactly if no PDU that is processed
    begins with a CCCH subheader. -/
theorem pdu_buffers_conserved_iff {nofRxHarqProc : Nat} {events : List PduEvent} {last : UePdus}
    {log : List (Events.Step UePdus PduEvent)}
    (ran : Events.run handle (init nofRxHarqProc) events = some (last, log)) :
    (∀ o ∈ log, o.post.Conserved) ↔
      ∀ o ∈ log, o.event = .processPdus → ∀ e ∈ o.pre.pduQ, ¬ e.2.StartsCcch := by
  simp only [← movedBuffers_eq_nil]
  constructor
  · intro conserved o member
    obtain ⟨before, after, rfl⟩ := List.append_of_mem member
    exact ((step_conserved_iff ran).mp (conserved o member)).2
  · intro nothing o member
    obtain ⟨before, after, rfl⟩ := List.append_of_mem member
    have earlier : lostBuffers before = [] :=
      List.flatMap_eq_nil_iff.mpr fun p inside => nothing p (List.mem_append_left _ inside)
    exact (step_conserved_iff ran).mpr ⟨earlier, nothing o member⟩

/-- A PDU for the third logical channel: its buffer comes back. -/
theorem drb_buffer_comes_back :
    ∃ last log,
      Events.run UePdus.handle (UePdus.init 2)
          [.requestBuffer 8 3, .pushPdu 8 ⟨Buffer.ofList [3, 1, 2], 3⟩, .processPdus] =
        some (last, log) ∧
      ∀ o ∈ log, o.post.Conserved := by
  have checked : ((Events.run UePdus.handle (UePdus.init 2)
      [.requestBuffer 8 3, .pushPdu 8 ⟨Buffer.ofList [3, 1, 2], 3⟩, .processPdus]).any fun r =>
        r.2.all fun o => o.pre.pduQ.all fun e => !decide e.2.StartsCcch) = true := by decide +kernel
  obtain ⟨⟨last, log⟩, ran, others⟩ := (Option.any_eq_true ..).mp checked
  refine ⟨last, log, ran, (pdu_buffers_conserved_iff ran).mpr ?_⟩
  intro o member _ e queued
  simpa using List.all_eq_true.mp (List.all_eq_true.mp others o member) e queued

/-- A Msg3: its buffer does not. -/
theorem msg3_buffer_lost :
    ∃ last log,
      Events.run UePdus.handle (UePdus.init 2)
          [.requestBuffer 8 8, .pushPdu 8 ⟨Buffer.ofList [0, 0, 1, 2, 3, 4, 5, 6], 8⟩, .processPdus] =
        some (last, log) ∧
      ¬ ∀ o ∈ log, o.post.Conserved := by
  have short : ((Events.run UePdus.handle (UePdus.init 2)
      [.requestBuffer 8 8, .pushPdu 8 ⟨Buffer.ofList [0, 0, 1, 2, 3, 4, 5, 6], 8⟩,
        .processPdus]).any fun r =>
        r.2.any fun o => o.post.pool.available.length + o.post.pendingBuffers.reduceOption.length +
          o.post.pduQ.length == 127) = true := by decide +kernel
  obtain ⟨⟨last, log⟩, ran, found⟩ := (Option.any_eq_true ..).mp short
  obtain ⟨o, member, count⟩ := List.any_eq_true.mp found
  refine ⟨last, log, ran, ?_⟩
  intro conserved
  have all := (conserved o member).count
  rw [beq_iff_eq] at count
  omega

end SonicaEnb
