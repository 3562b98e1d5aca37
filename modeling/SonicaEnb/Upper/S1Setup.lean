import SonicaEnb.Lib.Events

/-! # The connection to the MME

`s1ap` keeps one association with the MME. Its state is spread over two flags, the
socket, the S1 setup procedure and two timers; six handlers change it. What the
network answers to an attempt to connect is an input of the handler that attempts.
-/

namespace SonicaEnb

/-- `proc_outcome_t` -/
inductive ProcOutcome where
  | yield
  | error
  | success
  deriving Repr, DecidableEq

/-- How an attempt to reach the MME goes: a socket can be had and bound, the MME takes the
    connection, the S1SetupRequest can be sent. -/
structure MmeAttempt where
  bound : Bool
  accepted : Bool
  sent : Bool
  deriving Repr, DecidableEq

/-- What a received PDU unpacks to, as far as the connection is concerned. -/
inductive S1apPdu where
  | s1SetupResp
  | s1SetupFail
  | other
  deriving Repr, DecidableEq

/-- A read from the MME socket: an SCTP notification (`some true`: `SCTP_SHUTDOWN_EVENT`) or data. -/
structure MmeRx where
  notification : Option Bool
  nBytes : Nat
  pdu : S1apPdu
  deriving Repr, DecidableEq

/-- Whether the read closes the socket. -/
def MmeRx.closes (rx : MmeRx) : Bool :=
  match rx.notification with
  | some shutdown => shutdown
  | none => rx.nBytes == 0

/-- The members of `s1ap` the connection lives in. -/
structure S1apConn where
  running : Bool := false
  mmeConnected : Bool := false
  /-- `s1ap_socket.is_init()` -/
  socket : Bool := false
  /-- `s1setup_proc.is_busy()` -/
  setupBusy : Bool := false
  /-- `mme_connect_timer.is_running()` -/
  mmeConnectTimer : Bool := false
  /-- `s1setup_timeout.is_running()` -/
  s1setupTimeout : Bool := false
  deriving Repr, DecidableEq

namespace S1apConn

/-! ## Socket -/

def connectMme (s : S1apConn) (attempt : MmeAttempt) : Bool × S1apConn :=
  -- open_socket refuses a socket that is open; a bind that fails closes it again
  if s.socket then (false, s)
  else if attempt.bound then (attempt.accepted, { s with socket := true })
  else (false, s)

/-! ## Procedure -/

def startMmeConnection (s : S1apConn) (attempt : MmeAttempt) : ProcOutcome × S1apConn :=
  if ¬ s.running then (.error, s)
  else if s.mmeConnected then (.success, s)
  else
    let (connected, s) := s.connectMme attempt
    if ¬ connected then (.error, { s with mmeConnectTimer := true })
    else if ¬ attempt.sent then (.error, { s with running := false })
    else (.yield, { s with s1setupTimeout := true })

/-- `s1_setup_proc_t::react` -/
def react (s : S1apConn) (success : Bool) : ProcOutcome × S1apConn :=
  (if success then .success else .error, { s with s1setupTimeout := false })

/-- `s1_setup_proc_t::then` -/
def onDone (s : S1apConn) (success : Bool) : S1apConn :=
  if success then s else { s with socket := false }

/-- `proc_base_t::handle_outcome`, with `proc_t::run_then` -/
def handleOutcome (s : S1apConn) : ProcOutcome → S1apConn
  | .yield => s
  | .error => { s.onDone false with setupBusy := false }
  | .success => { s.onDone true with setupBusy := false }

/-- `s1setup_proc.launch()` -/
def launch (s : S1apConn) (attempt : MmeAttempt) : S1apConn :=
  if s.setupBusy then s
  else
    let (outcome, s) := { s with setupBusy := true }.startMmeConnection attempt
    s.handleOutcome outcome

/-- `s1setup_proc.trigger(res)` -/
def trigger (s : S1apConn) (success : Bool) : S1apConn :=
  if s.setupBusy then
    let (outcome, s) := s.react success
    s.handleOutcome outcome
  else s

/-! ## Handlers -/

/-- `s1ap::init`, from the members as they are constructed. -/
def init (attempt : MmeAttempt) : S1apConn := { running := true : S1apConn }.launch attempt

def stop (s : S1apConn) : S1apConn := { s with running := false, socket := false }

def handleS1apRxPdu (s : S1apConn) : S1apPdu → S1apConn
  | .s1SetupResp => { s with mmeConnected := true }.trigger true
  -- handle_s1setupfailure only logs the cause
  | .s1SetupFail => s
  | .other => s

def handleMmeRxMsg (s : S1apConn) (rx : MmeRx) (attempt : MmeAttempt) : S1apConn :=
  let s :=
    match rx.notification with
    | some shutdown => if shutdown then { s with socket := false } else s
    | none => if rx.nBytes = 0 then { s with socket := false } else s
  if ¬ s.socket then { s with mmeConnected := false }.launch attempt
  else s.handleS1apRxPdu rx.pdu

end S1apConn

/-- What can happen to the connection, with the answer of the network where it is asked. -/
inductive MmeEvent where
  | mmeConnectExpired (attempt : MmeAttempt)
  | s1setupTimeoutExpired
  | mmeRx (rx : MmeRx) (attempt : MmeAttempt)
  | stop
  deriving Repr, DecidableEq

/-- A timer expires while it runs, and its callback finds it stopped. A closed socket reads nothing. -/
def S1apConn.handle (s : S1apConn) : MmeEvent → Option S1apConn
  | .mmeConnectExpired attempt =>
      if s.mmeConnectTimer then some ({ s with mmeConnectTimer := false }.launch attempt) else none
  | .s1setupTimeoutExpired =>
      if s.s1setupTimeout then some ({ s with s1setupTimeout := false }.trigger false) else none
  | .mmeRx rx attempt => if s.socket then some (s.handleMmeRxMsg rx attempt) else none
  | .stop => some s.stop

def S1apConn.run (attempt : MmeAttempt) (events : List MmeEvent) :
    Option (S1apConn × List (Events.Step S1apConn MmeEvent)) :=
  Events.run handle (init attempt) events

/-- The eNB is connected, about to be, or will try again. -/
def S1apConn.Retries (s : S1apConn) : Prop :=
  s.running → s.mmeConnected = false → s.setupBusy ∨ s.mmeConnectTimer

instance (s : S1apConn) : Decidable s.Retries :=
  inferInstanceAs (Decidable (_ → _ → _ ∨ _))

/-! ## What the handlers keep -/

namespace S1apConn

structure Coherent (s : S1apConn) : Prop where
  timed : s.s1setupTimeout = true → s.setupBusy = true
  waiting : s.setupBusy = true → s.mmeConnected = false
  armed : s.mmeConnectTimer = true → s.socket = false ∧ s.setupBusy = false

/-- An attempt from a closed socket with the timer at rest ends connected, waiting for the answer,
    with the timer armed, or with `s1ap` stopped. -/
theorem Coherent.launch {s : S1apConn} (coherent : s.Coherent) (closed : s.socket = false)
    (unarmed : s.mmeConnectTimer = false) (attempt : MmeAttempt) :
    (s.launch attempt).Coherent ∧ (s.launch attempt).Retries := by
  obtain ⟨timed, waiting, -⟩ := coherent
  obtain ⟨running, connected, socket, busy, timer, timeout⟩ := s
  obtain ⟨bound, accepted, sent⟩ := attempt
  simp only at closed unarmed
  subst closed unarmed
  cases busy with
  | true => exact ⟨⟨timed, waiting, by simp [S1apConn.launch]⟩, fun _ _ => .inl rfl⟩
  | false =>
      have quiet : timeout = false := by simpa using timed
      subst quiet
      cases running with
      | false => exact ⟨⟨nofun, nofun, nofun⟩, nofun⟩
      | true =>
          cases connected with
          | true => exact ⟨⟨nofun, nofun, nofun⟩, nofun⟩
          | false =>
              cases bound with
              | false => exact ⟨⟨nofun, nofun, fun _ => ⟨rfl, rfl⟩⟩, fun _ _ => .inr rfl⟩
              | true =>
                  cases accepted with
                  | false => exact ⟨⟨nofun, nofun, fun _ => ⟨rfl, rfl⟩⟩, fun _ _ => .inr rfl⟩
                  | true =>
                      cases sent with
                      | false => exact ⟨⟨nofun, nofun, nofun⟩, nofun⟩
                      | true => exact ⟨⟨fun _ => rfl, fun _ => rfl, nofun⟩, fun _ _ => .inl rfl⟩

/-- An answer ends the procedure, and nothing waits for it any more. -/
theorem trigger_eq {s : S1apConn} (busy : s.setupBusy = true) (success : Bool) :
    s.trigger success = { s with
      s1setupTimeout := false
      setupBusy := false
      socket := if success then s.socket else false } := by
  cases success <;> simp [trigger, busy, react, handleOutcome, onDone]

/-- An S1SetupResponse connects, whether it is waited for or not. -/
theorem s1setupresponse_coherent {s : S1apConn} (connected : s.mmeConnected = true)
    (timed : s.s1setupTimeout = true → s.setupBusy = true) (unarmed : s.mmeConnectTimer = false) :
    (s.trigger true).Coherent ∧ (s.trigger true).Retries := by
  cases busy : s.setupBusy with
  | true =>
      rw [trigger_eq busy]
      exact ⟨⟨nofun, nofun, by simp [unarmed]⟩, by simp [Retries, connected]⟩
  | false =>
      have same : s.trigger true = s := by simp [trigger, busy]
      rw [same]
      exact ⟨⟨timed, by simp [busy], by simp [unarmed]⟩, by simp [Retries, connected]⟩

theorem Coherent.handleS1apRxPdu {s : S1apConn} (coherent : s.Coherent)
    (unarmed : s.mmeConnectTimer = false) (pdu : S1apPdu) :
    (s.handleS1apRxPdu pdu).Coherent ∧ (s.Retries → (s.handleS1apRxPdu pdu).Retries) := by
  cases pdu with
  | s1SetupResp =>
      have connected := s1setupresponse_coherent (s := { s with mmeConnected := true })
        rfl coherent.timed unarmed
      exact ⟨connected.1, fun _ => connected.2⟩
  | s1SetupFail => exact ⟨coherent, fun retries => retries⟩
  | other => exact ⟨coherent, fun retries => retries⟩

theorem handleMmeRxMsg_eq {s : S1apConn} (isOpen : s.socket = true) (rx : MmeRx)
    (attempt : MmeAttempt) :
    s.handleMmeRxMsg rx attempt =
      if rx.closes then { s with socket := false, mmeConnected := false }.launch attempt
      else s.handleS1apRxPdu rx.pdu := by
  obtain ⟨notification, nBytes, pdu⟩ := rx
  cases notification with
  | none => by_cases empty : nBytes = 0 <;> simp [handleMmeRxMsg, MmeRx.closes, empty, isOpen]
  | some shutdown => cases shutdown <;> simp [handleMmeRxMsg, MmeRx.closes, isOpen]

theorem Coherent.unarmed {s : S1apConn} (coherent : s.Coherent)
    (used : s.socket = true ∨ s.setupBusy = true) : s.mmeConnectTimer = false := by
  cases timer : s.mmeConnectTimer with
  | false => rfl
  | true =>
      obtain ⟨closed, idle⟩ := coherent.armed timer
      simp [closed, idle] at used

theorem Coherent.handleMmeRxMsg {s : S1apConn} (coherent : s.Coherent) (isOpen : s.socket = true)
    (rx : MmeRx) (attempt : MmeAttempt) :
    (s.handleMmeRxMsg rx attempt).Coherent ∧
      (s.Retries → (s.handleMmeRxMsg rx attempt).Retries) := by
  have unarmed := coherent.unarmed (.inl isOpen)
  rw [handleMmeRxMsg_eq isOpen]
  split
  · have lost : Coherent { s with socket := false, mmeConnected := false } :=
      ⟨coherent.timed, fun _ => rfl, fun armed => ⟨rfl, (coherent.armed armed).2⟩⟩
    have again := lost.launch rfl unarmed attempt
    exact ⟨again.1, fun _ => again.2⟩
  · exact coherent.handleS1apRxPdu unarmed rx.pdu

/-- The setup timeout ends the procedure and closes the socket, and arms nothing. -/
theorem Coherent.timeout {s : S1apConn} (coherent : s.Coherent) (timed : s.s1setupTimeout = true) :
    ({ s with s1setupTimeout := false }.trigger false).Coherent ∧
      (({ s with s1setupTimeout := false }.trigger false).Retries ↔ s.running = false) := by
  have busy := coherent.timed timed
  have alone := coherent.waiting busy
  have unarmed := coherent.unarmed (.inr busy)
  rw [trigger_eq (s := { s with s1setupTimeout := false }) busy]
  refine ⟨⟨nofun, nofun, by simp [unarmed]⟩, ?_⟩
  simp [Retries, alone, unarmed]

/-- The setup timeout of a running `s1ap` expires. -/
def strands (s : S1apConn) (e : MmeEvent) : Prop :=
  s.running = true ∧ e = .s1setupTimeoutExpired

theorem Coherent.handle {s s' : S1apConn} {e : MmeEvent} (coherent : s.Coherent)
    (handled : s.handle e = some s') :
    s'.Coherent ∧ (s.Retries → ¬ s.strands e → s'.Retries) := by
  cases e with
  | mmeConnectExpired attempt =>
      obtain ⟨armed, rfl⟩ : s.mmeConnectTimer = true ∧ _ = s' := by
        simpa [S1apConn.handle] using handled
      obtain ⟨closed, idle⟩ := coherent.armed armed
      have expired : Coherent { s with mmeConnectTimer := false } :=
        ⟨coherent.timed, coherent.waiting, nofun⟩
      have again := expired.launch closed rfl attempt
      exact ⟨again.1, fun _ _ => again.2⟩
  | s1setupTimeoutExpired =>
      obtain ⟨timed, rfl⟩ : s.s1setupTimeout = true ∧ _ = s' := by
        simpa [S1apConn.handle] using handled
      obtain ⟨kept, retries⟩ := coherent.timeout timed
      refine ⟨kept, fun _ alive => retries.mpr ?_⟩
      simpa [strands] using alive
  | mmeRx rx attempt =>
      obtain ⟨isOpen, rfl⟩ : s.socket = true ∧ _ = s' := by
        simpa [S1apConn.handle] using handled
      have read := coherent.handleMmeRxMsg isOpen rx attempt
      exact ⟨read.1, fun retries _ => read.2 retries⟩
  | stop =>
      cases handled
      exact ⟨⟨coherent.timed, coherent.waiting, fun armed => ⟨rfl, (coherent.armed armed).2⟩⟩,
        fun _ _ => nofun⟩

theorem Coherent.stranded {s s' : S1apConn} {e : MmeEvent} (coherent : s.Coherent)
    (handled : s.handle e = some s') (stranding : s.strands e) : ¬ s'.Retries := by
  obtain ⟨running, rfl⟩ := stranding
  obtain ⟨timed, rfl⟩ : s.s1setupTimeout = true ∧ _ = s' := by
    simpa [S1apConn.handle] using handled
  rw [(coherent.timeout timed).2, running]
  simp

theorem init_coherent (attempt : MmeAttempt) :
    (init attempt).Coherent ∧ (init attempt).Retries := by
  have fresh : Coherent { running := true } := ⟨nofun, nofun, nofun⟩
  exact fresh.launch rfl rfl attempt

end S1apConn

/-- In every run the eNB keeps trying to reach the MME exactly if no setup timeout expires while
    `s1ap` runs. -/
theorem mme_retried_iff {attempt : MmeAttempt} {events : List MmeEvent} {last : S1apConn}
    {log : List (Events.Step S1apConn MmeEvent)}
    (ran : S1apConn.run attempt events = some (last, log)) :
    ((S1apConn.init attempt).Retries ∧ ∀ o ∈ log, o.post.Retries) ↔
      ∀ o ∈ log, o.pre.running = true → o.event ≠ .s1setupTimeoutExpired := by
  have start := S1apConn.init_coherent attempt
  constructor
  · intro retried o member running expired
    have step := Events.run_step (fun _ _ _ coherent handled => (coherent.handle handled).1)
      start.1 ran member
    exact step.1.stranded step.2 ⟨running, expired⟩ (retried.2 o member)
  · intro inTime
    refine ⟨start.2, ?_⟩
    have kept := Events.run_keeps (I := fun s => s.Coherent ∧ s.Retries)
      (C := fun s e => ¬ s.strands e) ?_ start ran ?_
    · exact fun o member => (kept.2 o member).2.2
    · intro s e s' before handled alive
      have next := before.1.handle handled
      exact ⟨next.1, next.2 before.2 alive⟩
    · intro o member stranding
      exact inTime o member stranding.1 stranding.2

def reached : MmeAttempt := ⟨true, true, true⟩

/-- Refused once, then connected. -/
theorem connected_on_second_attempt :
    ∃ last log,
      S1apConn.run ⟨true, false, true⟩
        [.mmeConnectExpired reached, .mmeRx ⟨none, 20, .s1SetupResp⟩ reached] = some (last, log) ∧
      ((S1apConn.init ⟨true, false, true⟩).Retries ∧ ∀ o ∈ log, o.post.Retries) := by
  have ran : S1apConn.run ⟨true, false, true⟩
      [.mmeConnectExpired reached, .mmeRx ⟨none, 20, .s1SetupResp⟩ reached] = some (_, _) := rfl
  refine ⟨_, _, ran, (mme_retried_iff ran).mpr ?_⟩
  simp

/-- The MME refuses the setup and closes nothing: five seconds later the procedure has ended, the
    socket is closed and no timer runs. -/
theorem setup_failure_strands :
    ∃ last log,
      S1apConn.run reached [.mmeRx ⟨none, 20, .s1SetupFail⟩ reached, .s1setupTimeoutExpired] =
        some (last, log) ∧
      last = { running := true } ∧ ∃ o ∈ log, o.post = last ∧ ¬ o.post.Retries := by
  refine ⟨_, _, rfl, rfl, _, List.mem_cons_of_mem _ List.mem_cons_self, rfl, ?_⟩
  decide

end SonicaEnb
