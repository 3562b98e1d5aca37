import Mathlib.Algebra.Ring.Int.Defs
import SonicaEnb.Phy.Cell
import SonicaEnb.Phy.Npusch

/-! # The subframes of an NPUSCH (`nbiot_enb/enb_ul_nbiot.c`)

`sonica_enb_ul_nbiot_decode_npusch` keeps the grid and the channel estimate of
every subframe until the last one is there; then `sonica_npusch_decode` takes the
symbols out of what was kept. The one goes by the size of its own buffers, the
other by the cell it was given.
-/

namespace SonicaEnb

/-! ## The size of a subframe -/

/-- `SRSLTE_CP_NSYMB` -/
def Cp.nsymb : Cp → Nat
  | .norm => 7
  | .ext => 6

/-- `SRSLTE_SF_LEN_RE` -/
def sfLenRe (nofPrb : Nat) (cp : Cp) : Nat := 2 * (nofPrb * nre * cp.nsymb)

/-! ## The receiver -/

/-- `SONICA_NPUSCH_MAX_NOF_RU` -/
def npuschMaxNofRu : Nat := 10

/-- Set by `sonica_enb_ul_nbiot_init`, for the size of one subframe. -/
def ulNofRe : Nat := sfLenRe 1 .norm

variable {α : Type}

/-- What one call works on: the grid of its subframe and the estimate of the channel. -/
structure UlSubframe (α : Type) where
  sfSymbols : Nat → α
  ce : Nat → α

/-- `sonica_enb_ul_nbiot_t` with the buffers; the cell of its `npusch` stands for itself. -/
structure EnbUlNbiot (α : Type) where
  ul : EnbUl := {}
  cell : NbiotCell := {}
  npuschCell : NbiotCell := {}
  sfBuffer : Nat → α
  ceBuffer : Nat → α
  rxSyms : Nat → α
  npuschCe : Nat → α

/-- The loop of `sonica_npusch_decode` over `left` more subframes, from the `i`-th on. -/
def npuschDecodeLoop (grant : RaNbiotUlGrant) (sflen : Nat) (sfSymbols ce : Nat → α) :
    Nat → Nat → (Nat → α) → (Nat → α) → Option (UlSubframe α)
  | _, 0, rxSyms, npuschCe => some ⟨rxSyms, npuschCe⟩
  | i, left + 1, rxSyms, npuschCe =>
      let (rxSyms, n) :=
        Npusch.get (fun a => sfSymbols (i * sflen + a)) rxSyms (i * Npusch.numRePerSf grant) grant
      if n ≠ Npusch.numRePerSf grant then none
      else
        let (npuschCe, n) :=
          Npusch.get (fun a => ce (i * sflen + a)) npuschCe (i * Npusch.numRePerSf grant) grant
        if n ≠ Npusch.numRePerSf grant then none
        else npuschDecodeLoop grant sflen sfSymbols ce (i + 1) left rxSyms npuschCe

namespace EnbUlNbiot

/-- `sonica_enb_ul_nbiot_init`; the arrays of the decoder are not cleared. -/
def init [Zero α] (rxSyms npuschCe : Nat → α) : EnbUlNbiot α :=
  { sfBuffer := fun _ => 0, ceBuffer := fun _ => 0, rxSyms, npuschCe }

/-- `sonica_enb_ul_nbiot_set_cell`, with whether it succeeds. `sonica_npusch_set_cell` makes the same
check again. -/
def setCell (q : EnbUlNbiot α) (cell : NbiotCell) : Bool × EnbUlNbiot α :=
  if nbiotCellIsvalid cell then
    if q.cell.nIdNcell ≠ cell.nIdNcell ∨ q.cell.base.nofPrb = 0 then
      (true, { q with cell, npuschCell := cell })
    else (true, q)
  else (false, q)

/-- `sonica_enb_ul_nbiot_cfg_grant` -/
def cfgGrant (q : EnbUlNbiot α) (grant : RaNbiotUlGrant) (rnti : Nat) : EnbUlNbiot α :=
  { q with ul := EnbUl.cfgGrant grant rnti }

/-- What a call of `sonica_enb_ul_nbiot_decode_npusch` does: where in the buffers it keeps its
subframe, and the symbols that the decoder takes out of them. -/
structure Call (α : Type) where
  ret : DecodeRet
  q : EnbUlNbiot α
  stored : Option Nat := none
  read : Option (UlSubframe α) := none

/-- `sonica_npusch_decode` up to the symbols, for a call that has kept its subframe. What comes
behind (`decodes`) writes over `rx_syms`, which no later call reads before it is filled again. -/
def npuschDecode (q : EnbUlNbiot α) (cfg : NpuschCfg) (data : Option Nat) (decodes : Bool)
    (stored : Nat) : Call α :=
  let q := { q with ul := ⟨cfg, false⟩ }
  match data with
  | none => { ret := .error, q, stored }
  | some _ =>
      match npuschDecodeLoop cfg.grant (sfLenRe q.npuschCell.base.nofPrb q.npuschCell.base.cp)
          q.sfBuffer q.ceBuffer 0 (cfg.grant.nofSlots / 2) q.rxSyms q.npuschCe with
      | none => { ret := .error, q, stored }
      | some read =>
          { ret := if decodes then .success else .error
            q := { q with rxSyms := read.sfSymbols, npuschCe := read.ce }
            stored, read }

/-- `sonica_enb_ul_nbiot_decode_npusch` behind the FFT and the channel estimate. -/
def decodeNpusch (q : EnbUlNbiot α) (subframe : UlSubframe α) (data : Option Nat) (decodes : Bool) :
    Call α :=
  let cfg := q.ul.npuschCfg
  let cfgSf := cfg.grant.nofSlots / 2
  if !q.ul.hasUlGrant then { ret := .invalidInputs, q }
  else if cfg.numSf ≥ cfgSf then { ret := .invalidInputs, q }
  else
    let stored := cfg.sfIdx * ulNofRe
    let cfg := { cfg with numSf := cfg.numSf + 1, sfIdx := cfg.sfIdx + 1 }
    let q := { q with
      sfBuffer := Rows.copy q.sfBuffer stored subframe.sfSymbols 0 ulNofRe
      ceBuffer := Rows.copy q.ceBuffer stored subframe.ce 0 ulNofRe }
    if cfg.numSf = cfgSf * cfg.grant.nofRep then npuschDecode q cfg data decodes stored
    else { ret := .expectMoreSf, q := { q with ul := { q.ul with npuschCfg := cfg } }, stored }

/-- One call after the other. -/
def decodeCalls (data : Option Nat) (decodes : Bool) : EnbUlNbiot α → List (UlSubframe α) → List (Call α)
  | _, [] => []
  | q, subframe :: later =>
      let call := q.decodeNpusch subframe data decodes
      call :: decodeCalls data decodes call.q later

/-- The decoder has the symbols of the subframes that the calls brought. -/
def HasSymbols (grant : RaNbiotUlGrant) (subframes : List (UlSubframe α)) (read : UlSubframe α) : Prop :=
  ∀ j subframe, subframes[j]? = some subframe → ∀ k < Npusch.numRePerSf grant,
    read.sfSymbols (j * Npusch.numRePerSf grant + k) = Npusch.symbols grant subframe.sfSymbols k ∧
      read.ce (j * Npusch.numRePerSf grant + k) = Npusch.symbols grant subframe.ce k

/-- Every call keeps its subframe inside the buffers, the call for the last subframe decodes and no
other does, and what the decoder takes for a subframe are the symbols that the call for it kept. -/
def ReadsStored (q : EnbUlNbiot α) : Prop :=
  ∀ (len : Nat) (decodes : Bool) (subframes : List (UlSubframe α)),
    subframes.length = q.ul.npuschCfg.grant.nofSlots / 2 →
    ∀ (i : Nat) (call : Call α), (decodeCalls (some len) decodes q subframes)[i]? = some call →
      (∃ stored, call.stored = some stored ∧ stored + ulNofRe ≤ ulNofRe * npuschMaxNofRu) ∧
        (call.read.isSome ↔ i + 1 = subframes.length) ∧
        ∀ read, call.read = some read → HasSymbols q.ul.npuschCfg.grant subframes read

/-- The subframes of a buffer from the `i`-th on, `sflen` elements each. -/
def slices (sflen i left : Nat) (buffer : Nat → α) : List (Nat → α) :=
  (List.range' i left).map fun i a => buffer (i * sflen + a)

theorem npuschDecodeLoop_eq (grant : RaNbiotUlGrant) (sflen : Nat) (sfSymbols ce : Nat → α) (i left : Nat)
    (rxSyms npuschCe : Nat → α) :
    npuschDecodeLoop grant sflen sfSymbols ce i left rxSyms npuschCe =
      some ⟨Rows.stack (Npusch.numRePerSf grant) i
          ((slices sflen i left sfSymbols).map (Npusch.symbols grant)) rxSyms,
        Rows.stack (Npusch.numRePerSf grant) i
          ((slices sflen i left ce).map (Npusch.symbols grant)) npuschCe⟩ := by
  induction left generalizing i rxSyms npuschCe with
  | zero => rfl
  | succ left ih =>
      rw [npuschDecodeLoop, Npusch.get_eq, Npusch.get_eq, Rows.gather_eq_copy, Rows.gather_eq_copy]
      dsimp only
      rw [if_neg (not_not.mpr rfl), if_neg (not_not.mpr rfl), ih]
      rfl

/-- The symbols of the `j`-th subframe are those `sflen` elements further each time. -/
theorem stack_slices {grant : RaNbiotUlGrant} {sflen left j k : Nat} (inside : j < left)
    (below : k < Npusch.numRePerSf grant) (buffer out : Nat → α) :
    Rows.stack (Npusch.numRePerSf grant) 0 ((slices sflen 0 left buffer).map (Npusch.symbols grant)) out
        (j * Npusch.numRePerSf grant + k) =
      buffer (j * sflen + Rows.address grant.nofSc (Npusch.gridRows grant) k) := by
  have here : ((slices sflen 0 left buffer).map (Npusch.symbols grant))[j]? =
      some (Npusch.symbols grant fun a => buffer (j * sflen + a)) := by
    rw [slices, List.getElem?_map, List.getElem?_map, List.getElem?_range' inside, Option.map_some,
      Option.map_some, Nat.zero_add, Nat.one_mul]
  exact Rows.stack_at here below

/-- The buffers aside, it is the receiver of the subframe worker. -/
theorem decodeNpusch_ul (q : EnbUlNbiot α) (subframe : UlSubframe α) (data : Option Nat) (decodes : Bool) :
    ((q.decodeNpusch subframe data decodes).ret, (q.decodeNpusch subframe data decodes).q.ul) =
      q.ul.decodeNpusch data decodes := by
  unfold decodeNpusch EnbUl.decodeNpusch
  dsimp only
  split
  · rfl
  · split
    · rfl
    · split
      · unfold npuschDecode
        cases data with
        | none => rw [Option.isSome_none, Bool.and_false]; rfl
        | some len =>
            dsimp only
            rw [npuschDecodeLoop_eq, Option.isSome_some, Bool.and_true]
      · rfl

/-! ## The calls for one transport block -/

/-- The receiver has a grant and has kept the first `i` subframes of it. -/
structure Receiving (q : EnbUlNbiot α) (grant : RaNbiotUlGrant) (i : Nat) : Prop where
  has : q.ul.hasUlGrant = true
  cfg : q.ul.npuschCfg.grant = grant
  numSf : q.ul.npuschCfg.numSf = i
  sfIdx : q.ul.npuschCfg.sfIdx = i

theorem receiving_cfgGrant (q : EnbUlNbiot α) (grant : RaNbiotUlGrant) (rnti : Nat) :
    (q.cfgGrant grant rnti).Receiving grant 0 := ⟨rfl, rfl, rfl, rfl⟩

variable {q : EnbUlNbiot α} {grant : RaNbiotUlGrant} {rnti i : Nat} (len : Nat) (decodes : Bool)

/-- The buffers with the subframe in its place. -/
def keep (q : EnbUlNbiot α) (i : Nat) (subframe : UlSubframe α) : EnbUlNbiot α :=
  { q with
    sfBuffer := Rows.copy q.sfBuffer (i * ulNofRe) subframe.sfSymbols 0 ulNofRe
    ceBuffer := Rows.copy q.ceBuffer (i * ulNofRe) subframe.ce 0 ulNofRe }

/-- What the decoder takes out of the buffers. -/
def taken (q : EnbUlNbiot α) (grant : RaNbiotUlGrant) : Option (UlSubframe α) :=
  npuschDecodeLoop grant (sfLenRe q.npuschCell.base.nofPrb q.npuschCell.base.cp) q.sfBuffer q.ceBuffer 0
    (grant.nofSlots / 2) q.rxSyms q.npuschCe

theorem decodeNpusch_more (receiving : q.Receiving grant i) (rep : grant.nofRep = 1)
    (more : i + 1 < grant.nofSlots / 2) (subframe : UlSubframe α) :
    ∃ ul, q.decodeNpusch subframe (some len) decodes =
        { ret := .expectMoreSf, q := { q.keep i subframe with ul }, stored := some (i * ulNofRe) } ∧
      ul.hasUlGrant = true ∧ ul.npuschCfg.grant = grant ∧ ul.npuschCfg.numSf = i + 1 ∧
      ul.npuschCfg.sfIdx = i + 1 := by
  obtain ⟨has, cfg, numSf, sfIdx⟩ := receiving
  unfold decodeNpusch
  dsimp only
  rw [if_neg (by rw [has]; decide), if_neg (by rw [numSf, cfg]; omega),
    if_neg (by rw [numSf, cfg, rep]; omega), sfIdx]
  exact ⟨_, rfl, has, cfg, congrArg (· + 1) numSf, rfl⟩

theorem decodeNpusch_last (receiving : q.Receiving grant i) (rep : grant.nofRep = 1)
    (last : i + 1 = grant.nofSlots / 2) (subframe : UlSubframe α) :
    (q.decodeNpusch subframe (some len) decodes).stored = some (i * ulNofRe) ∧
      (q.decodeNpusch subframe (some len) decodes).read = (q.keep i subframe).taken grant := by
  obtain ⟨has, cfg, numSf, sfIdx⟩ := receiving
  unfold decodeNpusch
  dsimp only
  rw [if_neg (by rw [has]; decide), if_neg (by rw [numSf, cfg]; omega),
    if_pos (by rw [numSf, cfg, rep]; omega), sfIdx]
  unfold npuschDecode taken keep
  dsimp only
  rw [cfg]
  split
  · rename_i none_
    exact ⟨rfl, none_.symm⟩
  · rename_i read
    exact ⟨rfl, read.symm⟩

theorem decodeCalls_length (data : Option Nat) (decodes : Bool) (q : EnbUlNbiot α)
    (subframes : List (UlSubframe α)) : (decodeCalls data decodes q subframes).length = subframes.length := by
  induction subframes generalizing q with
  | nil => rfl
  | cons subframe later ih => exact congrArg (· + 1) (ih _)

theorem decodeCalls_index {data : Option Nat} {subframes : List (UlSubframe α)} {j : Nat} {call : Call α}
    (here : (decodeCalls data decodes q subframes)[j]? = some call) : j < subframes.length := by
  rw [← decodeCalls_length data decodes q subframes]
  exact (List.getElem?_eq_some_iff.mp here).1

/-- The buffers with all the subframes that are left. -/
def keepAll (q : EnbUlNbiot α) (i : Nat) (subframes : List (UlSubframe α)) : EnbUlNbiot α :=
  { q with
    sfBuffer := Rows.stack ulNofRe i (subframes.map UlSubframe.sfSymbols) q.sfBuffer
    ceBuffer := Rows.stack ulNofRe i (subframes.map UlSubframe.ce) q.ceBuffer }

/-- The calls for the subframes that are left: each keeps its own, and the last one decodes. -/
theorem decodeCalls_receiving (rep : grant.nofRep = 1) {subframes : List (UlSubframe α)}
    (receiving : q.Receiving grant i) (total : i + subframes.length = grant.nofSlots / 2) {j : Nat}
    {call : Call α} (here : (decodeCalls (some len) decodes q subframes)[j]? = some call) :
    call.stored = some ((i + j) * ulNofRe) ∧
      (j + 1 ≠ subframes.length → call.read = none) ∧
      (j + 1 = subframes.length → call.read = (q.keepAll i subframes).taken grant) := by
  induction subframes generalizing q i j with
  | nil => cases here
  | cons subframe later ih =>
      rw [List.length_cons] at total ⊢
      rw [decodeCalls] at here
      cases j with
      | zero =>
          cases here
          rw [Nat.add_zero, Nat.zero_add]
          by_cases more : i + 1 < grant.nofSlots / 2
          · obtain ⟨ul, returned, -⟩ := decodeNpusch_more len decodes receiving rep more subframe
            rw [returned]
            exact ⟨rfl, fun _ => rfl, fun last => by omega⟩
          · obtain ⟨stored, read⟩ := decodeNpusch_last len decodes receiving rep (by omega) subframe
            have none_ : later = [] := List.length_eq_zero_iff.mp (by omega)
            rw [none_]
            exact ⟨stored, fun other => absurd rfl other, fun _ => read⟩
      | succ j =>
          rw [List.getElem?_cons_succ] at here
          have behind := decodeCalls_index decodes here
          obtain ⟨ul, returned, has, cfg, numSf, sfIdx⟩ :=
            decodeNpusch_more len decodes receiving rep (by omega) subframe
          rw [returned] at here
          obtain ⟨stored, others, last⟩ := ih (q := { q.keep i subframe with ul }) (i := i + 1)
            ⟨has, cfg, numSf, sfIdx⟩ (by omega) here
          rw [show i + (j + 1) = i + 1 + j by omega]
          exact ⟨stored, fun notLast => others (by omega), fun isLast => last (by omega)⟩

/-! ## Where the decoder looks -/

theorem ulSubcarriers_fit {iSc scAlloc nofSc : Nat} (named : ulSubcarriers iSc = some (scAlloc, nofSc)) :
    0 < nofSc ∧ scAlloc + nofSc ≤ nre := by
  unfold ulSubcarriers at named
  unfold nre
  split_ifs at named
  all_goals (cases named; omega)

theorem accepted_grant {dci : RaNbiotUlDci} {rxTti : Nat} (accepted : raNbiotUlDciToGrant dci rxTti = some grant) :
    grant.nofRep = 1 ∧ 0 < grant.nofSc ∧ grant.scAlloc + grant.nofSc ≤ nre := by
  unfold raNbiotUlDciToGrant at accepted
  split at accepted
  · cases accepted
  · rename_i scAlloc nofSc named
    dsimp only at accepted
    split at accepted
    · cases accepted
    · rename_i once
      cases accepted
      exact ⟨not_not.mp once, ulSubcarriers_fit named⟩

/-- The symbols of a grant are inside the subframe that is kept. -/
theorem address_lt (fits : grant.scAlloc + grant.nofSc ≤ nre) {k : Nat} (below : k < Npusch.numRePerSf grant) :
    Rows.address grant.nofSc (Npusch.gridRows grant) k < ulNofRe := by
  obtain ⟨⟨symbol, -⟩, -⟩ := Npusch.allocated_of_covers fits (Rows.address_covers below)
  unfold nre at symbol
  change _ < 2 * (1 * 12 * 7)
  omega

theorem sfLenRe_eq_iff (nofPrb : Nat) (cp : Cp) : sfLenRe nofPrb cp = ulNofRe ↔ nofPrb = 1 ∧ cp = .norm := by
  cases cp with
  | norm =>
      change 2 * (nofPrb * 12 * 7) = 2 * (1 * 12 * 7) ↔ nofPrb = 1 ∧ Cp.norm = Cp.norm
      rw [eq_self, and_true]
      omega
  | ext =>
      change 2 * (nofPrb * 12 * 6) = 2 * (1 * 12 * 7) ↔ nofPrb = 1 ∧ Cp.ext = Cp.norm
      constructor
      · intro same
        omega
      · rintro ⟨-, other⟩
        cases other

/-- What the decoder takes for the `j`-th subframe. -/
theorem taken_keepAll (q : EnbUlNbiot α) (grant : RaNbiotUlGrant) (subframes : List (UlSubframe α)) :
    ∃ read, (q.keepAll 0 subframes).taken grant = some read ∧
      ∀ j < grant.nofSlots / 2, ∀ k < Npusch.numRePerSf grant,
        read.sfSymbols (j * Npusch.numRePerSf grant + k) =
            Rows.stack ulNofRe 0 (subframes.map UlSubframe.sfSymbols) q.sfBuffer
              (j * sfLenRe q.npuschCell.base.nofPrb q.npuschCell.base.cp +
                Rows.address grant.nofSc (Npusch.gridRows grant) k) ∧
          read.ce (j * Npusch.numRePerSf grant + k) =
            Rows.stack ulNofRe 0 (subframes.map UlSubframe.ce) q.ceBuffer
              (j * sfLenRe q.npuschCell.base.nofPrb q.npuschCell.base.cp +
                Rows.address grant.nofSc (Npusch.gridRows grant) k) := by
  rw [taken, npuschDecodeLoop_eq]
  refine ⟨_, rfl, fun j inside k below => ⟨?_, ?_⟩⟩
  · exact stack_slices inside below _ _
  · exact stack_slices inside below _ _

/-- The buffers hold the subframes of a transport block, and the decoder steps through them by the
size they were kept with. -/
def Fits (q : EnbUlNbiot α) (grant : RaNbiotUlGrant) : Prop :=
  grant.nofSlots / 2 ≤ npuschMaxNofRu ∧
    (grant.nofSlots / 2 ≤ 1 ∨ q.npuschCell.base.nofPrb = 1 ∧ q.npuschCell.base.cp = .norm)

theorem same_place (fits : q.Fits grant) {j : Nat} (inside : j < grant.nofSlots / 2) :
    j * sfLenRe q.npuschCell.base.nofPrb q.npuschCell.base.cp = j * ulNofRe := by
  rcases fits.2 with single | onePrb
  · rw [show j = 0 by omega, Nat.zero_mul, Nat.zero_mul]
  · rw [(sfLenRe_eq_iff _ _).mpr onePrb]

/-- A subframe that was kept, by the place of one of its elements. -/
theorem stack_kept {subframes : List (UlSubframe α)} {j a : Nat} {subframe : UlSubframe α}
    (here : subframes[j]? = some subframe) (inside : a < ulNofRe) (part : UlSubframe α → Nat → α)
    (out : Nat → α) : Rows.stack ulNofRe 0 (subframes.map part) out (j * ulNofRe + a) = part subframe a := by
  exact Rows.stack_at (by rw [List.getElem?_map, here, Option.map_some]) inside

theorem taken_of_fits (bound : grant.scAlloc + grant.nofSc ≤ nre) (fits : q.Fits grant)
    {subframes : List (UlSubframe α)} (total : subframes.length = grant.nofSlots / 2) :
    ∃ read, (q.keepAll 0 subframes).taken grant = some read ∧ HasSymbols grant subframes read := by
  obtain ⟨read, taken, values⟩ := taken_keepAll q grant subframes
  refine ⟨read, taken, fun j subframe member k below => ?_⟩
  have inside : j < grant.nofSlots / 2 := total ▸ (List.getElem?_eq_some_iff.mp member).1
  have within := address_lt bound below
  obtain ⟨symbols, ces⟩ := values j inside k below
  rw [same_place fits inside] at symbols ces
  exact ⟨symbols.trans (stack_kept member within UlSubframe.sfSymbols _),
    ces.trans (stack_kept member within UlSubframe.ce _)⟩

theorem readsStored_of_fits (rep : grant.nofRep = 1) (bound : grant.scAlloc + grant.nofSc ≤ nre)
    (fits : q.Fits grant) (rnti : Nat) : ReadsStored (q.cfgGrant grant rnti) := by
  intro len decodes subframes total i call here
  change subframes.length = grant.nofSlots / 2 at total
  obtain ⟨stored, others, last⟩ := decodeCalls_receiving len decodes rep
    (receiving_cfgGrant q grant rnti) (total ▸ Nat.zero_add _) here
  obtain ⟨read, taken, symbols⟩ := taken_of_fits (q := q.cfgGrant grant rnti) bound fits total
  have isLast : call.read.isSome → i + 1 = subframes.length := by
    intro decoded
    by_contra notLast
    rw [others notLast] at decoded
    cases decoded
  refine ⟨⟨_, stored, ?_⟩, ⟨isLast, fun isLast => ?_⟩, fun read' decoded => ?_⟩
  · have inside := decodeCalls_index decodes here
    have room := fits.1
    rw [Nat.zero_add, ← Nat.succ_mul, Nat.mul_comm]
    exact Nat.mul_le_mul_left _ (by omega)
  · rw [last isLast, taken]
    rfl
  · rw [last (isLast (Option.isSome_of_eq_some decoded)), taken] at decoded
    cases decoded
    exact symbols

/-- The call for the last subframe, with what it takes. -/
theorem last_call (rep : grant.nofRep = 1) (reads : ReadsStored (q.cfgGrant grant rnti))
    {subframes : List (UlSubframe α)} (total : subframes.length = grant.nofSlots / 2)
    (some_ : 0 < subframes.length) :
    (subframes.length - 1) * ulNofRe + ulNofRe ≤ ulNofRe * npuschMaxNofRu ∧
      ∀ read, ((q.cfgGrant grant rnti).keepAll 0 subframes).taken grant = some read →
        HasSymbols grant subframes read := by
  have inside : subframes.length - 1 < (decodeCalls (some 0) true (q.cfgGrant grant rnti) subframes).length := by
    rw [decodeCalls_length]
    omega
  have here := List.getElem?_eq_getElem inside
  obtain ⟨stored, -, last⟩ := decodeCalls_receiving 0 true rep
    (receiving_cfgGrant q grant rnti) (total ▸ Nat.zero_add _) here
  obtain ⟨⟨stored', keeps, room⟩, -, symbols⟩ := reads 0 true subframes total _ _ here
  rw [stored, Nat.zero_add] at keeps
  cases keeps
  refine ⟨room, fun read taken => symbols read ?_⟩
  rw [last (by omega), taken]

/-- Subframes that are the same everywhere. -/
def flat (n : Nat) (x : α) : List (UlSubframe α) := List.replicate n ⟨fun _ => x, fun _ => x⟩

/-- A subframe that differs in one element. -/
def spot (x : α) (e : Nat) (y : α) : UlSubframe α := ⟨fun a => if a = e then y else x, fun _ => x⟩

theorem flat_length (n : Nat) (x : α) : (flat n x).length = n := List.length_replicate

/-- The element of the second subframe is in one place of the buffer only. -/
theorem stack_spot {n a e : Nat} (x y : α) (out : Nat → α) (elsewhere : a ≠ ulNofRe + e) :
    Rows.stack ulNofRe 0 (((flat n x).set 1 (spot x e y)).map UlSubframe.sfSymbols) out a =
      Rows.stack ulNofRe 0 ((flat n x).map UlSubframe.sfSymbols) out a := by
  apply Rows.stack_congr (by decide) (by rw [List.length_map, List.length_map, List.length_set])
  intro block other here there
  rw [flat, List.map_replicate] at there
  rw [List.map_set, flat, List.map_replicate, List.getElem?_set] at here
  cases List.eq_of_mem_replicate (List.mem_of_getElem? there)
  split at here
  · rename_i second
    split at here
    · cases here
      have other : a % ulNofRe ≠ e := by
        rintro rfl
        apply elsewhere
        rw [← Nat.div_add_mod a ulNofRe, ← second, Nat.mul_one, Nat.add_mod_left, Nat.mod_mod]
      exact if_neg other
    · cases here
  · cases List.eq_of_mem_replicate (List.mem_of_getElem? here)
    rfl

theorem subframes_le (rep : grant.nofRep = 1) (reads : ReadsStored (q.cfgGrant grant rnti)) :
    grant.nofSlots / 2 ≤ npuschMaxNofRu := by
  by_contra full
  have size := flat_length (grant.nofSlots / 2) (q.sfBuffer 0)
  obtain ⟨room, -⟩ := last_call rep reads size (by rw [size]; omega)
  rw [size] at room
  change (grant.nofSlots / 2 - 1) * 168 + 168 ≤ 168 * 10 at room
  change ¬grant.nofSlots / 2 ≤ 10 at full
  omega

/-- Where the decoder steps by another size, a subframe that differs in one element is not read from
where it is. -/
theorem single_or_onePrb [Nontrivial α] (rep : grant.nofRep = 1) (tones : 0 < grant.nofSc)
    (reads : ReadsStored (q.cfgGrant grant rnti)) :
    grant.nofSlots / 2 ≤ 1 ∨ q.npuschCell.base.nofPrb = 1 ∧ q.npuschCell.base.cp = .norm := by
  by_contra wrong
  obtain ⟨several, notOnePrb⟩ := not_or.mp wrong
  have steps : sfLenRe q.npuschCell.base.nofPrb q.npuschCell.base.cp ≠ ulNofRe :=
    fun same => notOnePrb ((sfLenRe_eq_iff _ _).mp same)
  have first : 0 < Npusch.numRePerSf grant := Nat.mul_pos (by decide) tones
  let e := Rows.address grant.nofSc (Npusch.gridRows grant) 0
  let x := q.sfBuffer 0
  let a := sfLenRe q.npuschCell.base.nofPrb q.npuschCell.base.cp + e
  -- another value than the one that the decoder finds for the element of the second subframe
  obtain ⟨y, other⟩ := exists_ne (Rows.stack ulNofRe 0
    ((flat (grant.nofSlots / 2) x).map UlSubframe.sfSymbols) q.sfBuffer a)
  have size : ((flat (grant.nofSlots / 2) x).set 1 (spot x e y)).length = grant.nofSlots / 2 := by
    rw [List.length_set, flat_length]
  obtain ⟨-, symbols⟩ := last_call rep reads size (by rw [size]; omega)
  obtain ⟨read, taken, values⟩ :=
    taken_keepAll (q.cfgGrant grant rnti) grant ((flat (grant.nofSlots / 2) x).set 1 (spot x e y))
  have second : ((flat (grant.nofSlots / 2) x).set 1 (spot x e y))[1]? = some (spot x e y) :=
    List.getElem?_set_self (by rw [flat_length]; omega)
  obtain ⟨found, -⟩ := values 1 (by omega) 0 first
  obtain ⟨kept, -⟩ := symbols read taken 1 _ second 0 first
  have isY : Npusch.symbols grant (spot x e y).sfSymbols 0 = y := if_pos rfl
  have elsewhere : a ≠ ulNofRe + e := fun same => steps (Nat.add_right_cancel same)
  apply other
  calc y = Npusch.symbols grant (spot x e y).sfSymbols 0 := isY.symm
    _ = read.sfSymbols (1 * Npusch.numRePerSf grant + 0) := kept.symm
    _ = Rows.stack ulNofRe 0 (((flat (grant.nofSlots / 2) x).set 1 (spot x e y)).map
          UlSubframe.sfSymbols) q.sfBuffer a := by rw [found, Nat.one_mul]; rfl
    _ = _ := stack_spot x y q.sfBuffer elsewhere

/-- A receiver that reads what it stored has room for every subframe, and steps as it stored. -/
theorem fits_of_readsStored [Nontrivial α] (rep : grant.nofRep = 1) (tones : 0 < grant.nofSc)
    (reads : ReadsStored (q.cfgGrant grant rnti)) : q.Fits grant :=
  ⟨subframes_le rep reads, single_or_onePrb rep tones reads⟩

/-- Whatever cells it was given and whatever it has received, the receiver decodes the subframes of
an accepted grant from where it stored them if and only if there are at most ten, and there is one
only or the cell in force has one PRB and the normal cyclic prefix. -/
theorem readsStored_iff [Nontrivial α] (q : EnbUlNbiot α) (dci : RaNbiotUlDci) (rxTti : Nat)
    (accepted : raNbiotUlDciToGrant dci rxTti = some grant) (rnti : Nat) :
    ReadsStored (q.cfgGrant grant rnti) ↔
      grant.nofSlots / 2 ≤ npuschMaxNofRu ∧
        (grant.nofSlots / 2 ≤ 1 ∨ q.npuschCell.base.nofPrb = 1 ∧ q.npuschCell.base.cp = .norm) := by
  obtain ⟨rep, tones, bound⟩ := accepted_grant accepted
  exact ⟨fits_of_readsStored rep tones, fun fits => readsStored_of_fits rep bound fits rnti⟩

/-- A receiver that was just initialised is given a cell of this width. -/
def inCell (nofPrb : Nat) : Bool × EnbUlNbiot Int :=
  (init (fun _ => 0) (fun _ => 0)).setCell { base := { nofPrb } }

/-- Two subframes of twelve subcarriers, in a cell of one PRB. -/
theorem two_subframes_read :
    ∃ grant, raNbiotUlDciToGrant { iSc := 18, iRu := 1 } 0 = some grant ∧
      ReadsStored ((inCell 1).2.cfgGrant grant 61) :=
  ⟨_, rfl, (readsStored_iff (inCell 1).2 { iSc := 18, iRu := 1 } 0 rfl 61).mpr (by decide)⟩

/-- Ten resource units of one subcarrier are 80 subframes. In a cell of 25 PRBs the second subframe is
looked for where none was stored. -/
theorem eighty_subframes_and_wide_cell :
    (inCell 1).1 = true ∧ (inCell 25).1 = true ∧
      (∃ grant, raNbiotUlDciToGrant { iSc := 0, iRu := 7 } 0 = some grant ∧
        ¬ReadsStored ((inCell 1).2.cfgGrant grant 61)) ∧
      ∃ grant, raNbiotUlDciToGrant { iSc := 18, iRu := 1 } 0 = some grant ∧
        ¬ReadsStored ((inCell 25).2.cfgGrant grant 61) := by
  refine ⟨by decide, by decide, ⟨_, rfl, fun reads => ?_⟩, ⟨_, rfl, fun reads => ?_⟩⟩
  · have fits := fits_of_readsStored rfl (by decide) reads
    exact absurd fits.1 (by decide)
  · have fits := fits_of_readsStored rfl (by decide) reads
    exact absurd fits.2 (by decide)

end EnbUlNbiot

end SonicaEnb
