import SonicaEnb.Phy.RaNbiot

/-! # The clock of the PHY

`txrx` counts receive TTIs and hands every worker a time. The HFN it hands over is
that of the subframe sent, four TTIs ahead of the one received, while its own HFN
follows the subframe received; each wraps at a modulus of its own.
-/

namespace SonicaEnb

/-- `TTIMOD` -/
def ttiMod (tti : Nat) : Nat := tti % 20

/-- The time of a worker, as `sf_worker::set_time` writes it. -/
structure WorkerTime where
  hfn : Nat
  ttiRx : Nat
  ttiTxDl : Nat
  ttiTxUl : Nat
  tTxDl : Nat
  tRx : Nat
  tTxUl : Nat
  txWorkerCnt : Nat
  deriving Repr, DecidableEq

def setTime (hfn tti txWorkerCnt : Nat) : WorkerTime :=
  let ttiTxDl := ttiAdd tti fddHarqDelayUlMs
  let ttiTxUl := ttiAdd tti (fddDelayUlNbMs + fddHarqDelayDlMs)
  { hfn := hfn, ttiRx := tti, ttiTxDl := ttiTxDl, ttiTxUl := ttiTxUl, tTxDl := ttiMod ttiTxDl
    tRx := ttiMod tti, tTxUl := ttiMod ttiTxUl, txWorkerCnt := txWorkerCnt }

/-- The counters of `txrx`. -/
structure Txrx where
  hfn : Nat
  tti : Nat
  txWorkerCnt : Nat
  deriving Repr, DecidableEq

namespace Txrx

/-- The counters in front of the main loop. -/
def start : Txrx := { hfn := 1023, tti := ttiSub 0 (fddHarqDelayUlMs + 1), txWorkerCnt := 0 }

/-- One turn of the loop, in which a worker is free. -/
def turn (nofWorkers : Nat) (t : Txrx) : Txrx × WorkerTime :=
  let txHfn := if t.tti ≥ 10240 - fddHarqDelayUlMs - 1 then (t.hfn + 1) % 1024 else t.hfn
  let hfn := if t.tti ≥ 10240 - 1 then txHfn else t.hfn
  let tti := ttiAdd t.tti 1
  ({ hfn := hfn, tti := tti, txWorkerCnt := (t.txWorkerCnt + 1) % nofWorkers },
    setTime txHfn tti t.txWorkerCnt)

/-- `run_thread`: `waits` says for every turn whether `wait_worker` answers a worker; when it does
    not, the pool is being closed and the loop ends. -/
def runThread (nofWorkers : Nat) : Txrx → List Bool → List WorkerTime
  | _, [] => []
  | _, false :: _ => []
  | t, true :: waits => (t.turn nofWorkers).2 :: runThread nofWorkers (t.turn nofWorkers).1 waits

/-- The counters after `n` turns. The TTI is that of the last receive subframe, five behind the next
    one to be sent, and the HFN counts its wraps. -/
structure After (n : Nat) (t : Txrx) : Prop where
  tti : t.tti = (n + 10235) % 10240
  hfn : t.hfn = (1023 + (n + 10235) / 10240) % 1024

theorem start_after : After 0 start := ⟨rfl, rfl⟩

variable {t : Txrx} {n : Nat}

theorem After.turn (after : After n t) (nofWorkers : Nat) : After (n + 1) (t.turn nofWorkers).1 := by
  obtain ⟨tti, hfn⟩ := after
  constructor
  · simp only [Txrx.turn, ttiAdd, tti]
    omega
  · simp only [Txrx.turn, fddHarqDelayUlMs, tti, hfn]
    split
    · rw [if_pos (by omega)]
      omega
    · omega

/-- The last five TTIs of a hyperframe received are the first five of the next one sent. -/
theorem After.time (after : After n t) (nofWorkers : Nat) :
    (t.turn nofWorkers).2.ttiTxDl = n % 10240 ∧ (t.turn nofWorkers).2.hfn = n / 10240 % 1024 := by
  obtain ⟨tti, hfn⟩ := after
  constructor
  · simp only [Txrx.turn, setTime, ttiAdd, fddHarqDelayUlMs, tti]
    omega
  · simp only [Txrx.turn, setTime, fddHarqDelayUlMs, tti, hfn]
    split <;> omega

theorem After.runThread (after : After n t) {nofWorkers i : Nat} {waits : List Bool} {time : WorkerTime}
    (here : (t.runThread nofWorkers waits)[i]? = some time) :
    time.ttiTxDl = (n + i) % 10240 ∧ time.hfn = (n + i) / 10240 % 1024 := by
  induction waits generalizing t n i with
  | nil => cases here
  | cons free rest ih =>
      cases free with
      | false => cases here
      | true =>
          cases i with
          | zero =>
              cases here
              exact after.time nofWorkers
          | succ i =>
              have later := ih (after.turn nofWorkers) here
              rwa [Nat.add_right_comm, Nat.add_assoc] at later

/-- There is a turn as long as there are workers. -/
theorem runThread_length (nofWorkers : Nat) (t : Txrx) (waits : List Bool) :
    (t.runThread nofWorkers waits).length = (waits.takeWhile id).length := by
  induction waits generalizing t with
  | nil => rfl
  | cons free rest ih =>
      cases free with
      | false => rfl
      | true => simp [runThread, ih]

theorem runThread_of_free (nofWorkers : Nat) (t : Txrx) {n m : Nat} (below : n < m) :
    ∃ time, (t.runThread nofWorkers (List.replicate m true))[n]? = some time := by
  have length : (t.runThread nofWorkers (List.replicate m true)).length = m := by
    rw [runThread_length, List.takeWhile_replicate]
    simp
  exact ⟨_, List.getElem?_eq_getElem (length.symm ▸ below)⟩

/-- In turn `n` of the loop, from 0, the worker is given the TTI that is sent and its HFN: `n` counts
    the subframes sent, in hyperframes of 10240. -/
theorem hfn_of_sent {nofWorkers n : Nat} {waits : List Bool} {time : WorkerTime}
    (here : (start.runThread nofWorkers waits)[n]? = some time) :
    time.ttiTxDl = n % 10240 ∧ time.hfn = n / 10240 % 1024 := by
  have counted := start_after.runThread here
  rwa [Nat.zero_add] at counted

/-- The last subframe before the HFN wraps, and the one after it. -/
theorem hfn_wraps : ∃ before after,
    (start.runThread 4 (List.replicate 10485761 true))[10485759]? = some before ∧
      (start.runThread 4 (List.replicate 10485761 true))[10485760]? = some after ∧
      (before.ttiTxDl = 10239 ∧ before.hfn = 1023) ∧ after.ttiTxDl = 0 ∧ after.hfn = 0 := by
  obtain ⟨before, here⟩ := runThread_of_free 4 start (n := 10485759) (m := 10485761) (by omega)
  obtain ⟨after, there⟩ := runThread_of_free 4 start (n := 10485760) (m := 10485761) (by omega)
  exact ⟨before, after, here, there, hfn_of_sent here, hfn_of_sent there⟩

end Txrx

end SonicaEnb
