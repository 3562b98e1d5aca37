import SonicaEnb.Lib.Rows
import SonicaEnb.Phy.SfWorker

/-! # The resource elements of the NPUSCH (`nbiot_phch/npusch.c`)

`sonica_npusch_cp` moves the symbols of one subframe between a packed array and
the resource grid, for the encoder into the grid and for the decoder out of it.
A pointer into an array is the array from there on; only the array that is
written keeps its own addresses, with the place where the call writes beside it.
-/

namespace SonicaEnb

/-- `SRSLTE_NRE` -/
def nre : Nat := 12

namespace Npusch

variable {α : Type}

/-- The local variables of `sonica_npusch_cp`: the place read next, the place written next and the
array that is written. -/
structure Cp (α : Type) where
  inPtr : Nat
  outPtr : Nat
  output : Nat → α

/-- One turn of the inner loop, `l` the symbol of the slot. -/
def Cp.turn (input : Nat → α) (outAt : Nat) (grant : RaNbiotUlGrant) (advanceInput : Bool)
    (slot : Nat) (p : Cp α) (l : Nat) : Cp α :=
  if l ≠ 3 then
    let idx := (slot * 7 + l) * nre + grant.scAlloc
    let inPtr := if advanceInput then p.inPtr else idx
    let outPtr := if advanceInput then outAt + idx else p.outPtr
    let output := Rows.copy p.output outPtr input inPtr grant.nofSc
    if advanceInput then ⟨inPtr + grant.nofSc, outPtr, output⟩
    else ⟨inPtr, outPtr + grant.nofSc, output⟩
  else p

/-- `sonica_npusch_cp`: the array written from `outAt` on, and the symbols passed. -/
def cp (input output : Nat → α) (outAt : Nat) (grant : RaNbiotUlGrant) (advanceInput : Bool) :
    (Nat → α) × Nat :=
  let p := (List.range 2).foldl
    (fun p slot => (List.range 7).foldl (Cp.turn input outAt grant advanceInput slot) p)
    ⟨0, outAt, output⟩
  (p.output, if advanceInput then p.inPtr else p.outPtr - outAt)

/-- `npusch_get` -/
def get (input output : Nat → α) (outAt : Nat) (grant : RaNbiotUlGrant) : (Nat → α) × Nat :=
  cp input output outAt grant false

/-- `npusch_put` -/
def put (input output : Nat → α) (outAt : Nat) (grant : RaNbiotUlGrant) : (Nat → α) × Nat :=
  cp input output outAt grant true

/-- Symbols of one subframe, as both `sonica_npusch_encode` and `sonica_npusch_decode` count them. -/
def numRePerSf (grant : RaNbiotUlGrant) : Nat := 6 * 2 * grant.nofSc

/-- `npusch_put` for one subframe grid after the other, from the one at `sfIdx` on. -/
def putSubframes (txSyms : Nat → α) (grant : RaNbiotUlGrant) :
    Nat → List (Nat → α) → List ((Nat → α) × Nat)
  | _, [] => []
  | sfIdx, grid :: later =>
      put (fun k => txSyms (sfIdx * 6 * 2 * grant.nofSc + k)) grid 0 grant ::
        putSubframes txSyms grant (sfIdx + 1) later

/-- `npusch_get` for one subframe grid after the other, from the one at `i` on; `none` where a call
passes another number of symbols than expected. -/
def getSubframes (grant : RaNbiotUlGrant) : Nat → List (Nat → α) → (Nat → α) → Option (Nat → α)
  | _, [], rxSyms => some rxSyms
  | i, grid :: later, rxSyms =>
      let (rxSyms, n) := get grid rxSyms (i * numRePerSf grant) grant
      if n ≠ numRePerSf grant then none else getSubframes grant (i + 1) later rxSyms

/-- `sonica_npusch_t` and `sonica_npusch_cfg_t` as far as the encoder maps symbols. -/
structure Tx (α : Type) where
  cfg : NpuschCfg
  txSyms : Nat → α
  isEncoded : Bool := false

/-- `sonica_npusch_encode`; `none` is an error return. `modulated` are the symbols that the
transport block is coded, scrambled, modulated and precoded to, if that succeeds. -/
def encode (q : Tx α) (modulated : Option (Nat → α)) (sfSymbols : Nat → α) :
    Option (Tx α × (Nat → α)) :=
  if q.cfg.grant.tbs = 0 then none
  else
    match if q.isEncoded then some q.txSyms else modulated with
    | none => none
    | some txSyms =>
        let (sfSymbols, _) :=
          put (fun k => txSyms (q.cfg.sfIdx * 6 * 2 * q.cfg.grant.nofSc + k)) sfSymbols 0 q.cfg.grant
        some ({ txSyms, isEncoded := true
                cfg := { q.cfg with numSf := q.cfg.numSf + 1, sfIdx := q.cfg.sfIdx + 1 } }, sfSymbols)

/-- `sonica_npusch_encode` for one subframe grid after the other. -/
def encodeSubframes (modulated : Option (Nat → α)) : Tx α → List (Nat → α) → Option (List (Nat → α))
  | _, [] => some []
  | q, grid :: later =>
      match encode q modulated grid with
      | none => none
      | some (q', written) => (encodeSubframes modulated q' later).map (written :: ·)

/-! ## The rows of a grid -/

/-- The symbols of a subframe that carry data: one in each slot is the DMRS. -/
def dataSymbols : List Nat := [0, 1, 2, 4, 5, 6, 7, 8, 9, 11, 12, 13]

def gridRows (grant : RaNbiotUlGrant) : List Nat := dataSymbols.map fun s => s * nre + grant.scAlloc

/-- The resource elements that the grant is about: a data symbol and a subcarrier allocated. -/
def Allocated (grant : RaNbiotUlGrant) (a : Nat) : Prop :=
  (a / nre < 14 ∧ a / nre % 7 ≠ 3) ∧ grant.scAlloc ≤ a % nre ∧ a % nre < grant.scAlloc + grant.nofSc

variable {grant : RaNbiotUlGrant}

theorem gridRows_apart (fits : grant.scAlloc + grant.nofSc ≤ nre) :
    (gridRows grant).Pairwise (Rows.Apart grant.nofSc) := by
  have ascending : dataSymbols.Pairwise (· < ·) := by decide
  refine List.pairwise_map.mpr (ascending.imp fun {s s'} before => .inl ?_)
  unfold nre at *
  omega

theorem allocated_of_covers (fits : grant.scAlloc + grant.nofSc ≤ nre) {a : Nat}
    (covers : Rows.Covers grant.nofSc (gridRows grant) a) : Allocated grant a := by
  obtain ⟨row, member, above, below⟩ := covers
  obtain ⟨s, inside, rfl⟩ := List.mem_map.mp member
  have isData : ∀ s ∈ dataSymbols, s < 14 ∧ s % 7 ≠ 3 := by decide
  obtain ⟨inSubframe, notDmrs⟩ := isData s inside
  unfold nre at *
  have symbol : a / 12 = s := by omega
  refine ⟨by rw [nre, symbol]; exact ⟨inSubframe, notDmrs⟩, ?_⟩
  unfold nre
  omega

/-- The pointer that advances passes the width of every row. -/
theorem twelve_rows (w start : Nat) : (List.replicate 12 w).foldl (· + ·) start = start + 6 * 2 * w := by
  simp only [List.replicate, List.foldl_cons, List.foldl_nil]
  omega

/-- In both directions a call passes the symbols of one subframe. -/
theorem cp_passed (input output : Nat → α) (outAt : Nat) (grant : RaNbiotUlGrant)
    (advanceInput : Bool) : (cp input output outAt grant advanceInput).2 = numRePerSf grant := by
  cases advanceInput with
  | true =>
      have passed : (cp input output outAt grant true).2 =
          (List.replicate 12 grant.nofSc).foldl (· + ·) 0 := rfl
      rw [passed, twelve_rows, Nat.zero_add, numRePerSf]
  | false =>
      have passed : (cp input output outAt grant false).2 =
          (List.replicate 12 grant.nofSc).foldl (· + ·) outAt - outAt := rfl
      rw [passed, twelve_rows, Nat.add_sub_cancel_left, numRePerSf]

/-- The decoder's direction packs the rows. -/
theorem get_eq (input output : Nat → α) (outAt : Nat) (grant : RaNbiotUlGrant) :
    get input output outAt grant =
      (Rows.gather grant.nofSc (gridRows grant) output outAt input, numRePerSf grant) :=
  Prod.ext rfl (cp_passed input output outAt grant false)

/-- The encoder's direction fills the rows. -/
theorem put_eq (input output : Nat → α) (grant : RaNbiotUlGrant) :
    put input output 0 grant =
      (Rows.scatter grant.nofSc (gridRows grant) output input 0, numRePerSf grant) := by
  have rows : (gridRows grant).map (0 + ·) = gridRows grant := by simp only [Nat.zero_add, List.map_id']
  have filled : (put input output 0 grant).1 =
      Rows.scatter grant.nofSc ((gridRows grant).map (0 + ·)) output input 0 := rfl
  rw [rows] at filled
  exact Prod.ext filled (cp_passed input output 0 grant true)

/-! ## Subframe after subframe -/

theorem putSubframes_getElem? (txSyms : Nat → α) (grant : RaNbiotUlGrant) (sfIdx : Nat)
    (grids : List (Nat → α)) (j : Nat) :
    (putSubframes txSyms grant sfIdx grids)[j]? =
      grids[j]?.map fun grid => put (fun k => txSyms ((sfIdx + j) * numRePerSf grant + k)) grid 0 grant := by
  induction grids generalizing sfIdx j with
  | nil => rfl
  | cons grid later ih =>
      rw [putSubframes]
      cases j with
      | zero =>
          rw [List.getElem?_cons_zero, List.getElem?_cons_zero, Option.map_some, Nat.add_zero, numRePerSf,
            Nat.mul_assoc, Nat.mul_assoc, Nat.mul_assoc]
      | succ j =>
          rw [List.getElem?_cons_succ, List.getElem?_cons_succ, ih, Nat.add_right_comm sfIdx 1 j]
          rfl

/-- The symbols of a grid that the grant is about, one behind the other. -/
def symbols (grant : RaNbiotUlGrant) (grid : Nat → α) : Nat → α :=
  Rows.packed grant.nofSc (gridRows grant) grid

/-- The decoder has the symbols of the grids one grid behind the other. -/
theorem getSubframes_eq (grids : List (Nat → α)) (i : Nat) (rxSyms : Nat → α) :
    getSubframes grant i grids rxSyms =
      some (Rows.stack (numRePerSf grant) i (grids.map (symbols grant)) rxSyms) := by
  induction grids generalizing i rxSyms with
  | nil => rfl
  | cons grid later ih =>
      rw [getSubframes, get_eq, Rows.gather_eq_copy]
      dsimp only
      rw [if_neg (not_not.mpr rfl), ih]
      rfl

theorem putSubframes_length (txSyms : Nat → α) (grant : RaNbiotUlGrant) (sfIdx : Nat)
    (grids : List (Nat → α)) : (putSubframes txSyms grant sfIdx grids).length = grids.length := by
  induction grids generalizing sfIdx with
  | nil => rfl
  | cons grid later ih => exact congrArg (· + 1) (ih (sfIdx + 1))

/-- The rows of the `j`-th grid hold its part of the sequence. -/
theorem putSubframes_written (fits : grant.scAlloc + grant.nofSc ≤ nre) (txSyms : Nat → α)
    (grids : List (Nat → α)) {j k : Nat} (inside : j < grids.length) (below : k < numRePerSf grant) :
    ∃ grid, ((putSubframes txSyms grant 0 grids).map Prod.fst)[j]? = some grid ∧
      symbols grant grid k = txSyms (j * numRePerSf grant + k) := by
  rw [List.getElem?_map, putSubframes_getElem?, List.getElem?_eq_getElem inside, Option.map_some,
    Option.map_some, put_eq, Nat.zero_add]
  refine ⟨_, rfl, ?_⟩
  dsimp only
  rw [symbols, Rows.packed, Rows.scatter_inside (gridRows_apart fits) below, Nat.zero_add]

/-- Outside the allocation the grids stay as they are. -/
theorem putSubframes_frame (fits : grant.scAlloc + grant.nofSc ≤ nre) (txSyms : Nat → α) (sfIdx : Nat)
    (grids : List (Nat → α)) :
    List.Forall₂ (fun grid out => ∀ a, ¬Allocated grant a → out.1 a = grid a) grids
      (putSubframes txSyms grant sfIdx grids) := by
  induction grids generalizing sfIdx with
  | nil => exact .nil
  | cons grid later ih =>
      refine .cons (fun a other => ?_) (ih (sfIdx + 1))
      rw [put_eq]
      exact Rows.scatter_outside fun covers => other (allocated_of_covers fits covers)

/-- What is written into any number of subframe grids is read back from them. A call passes twelve
times the subcarriers of the grant, and nothing else is written. -/
theorem round_trip (grant : RaNbiotUlGrant) (fits : grant.scAlloc + grant.nofSc ≤ nre)
    (txSyms rxSyms : Nat → α) (grids : List (Nat → α)) :
    (∃ rxSyms', getSubframes grant 0 ((putSubframes txSyms grant 0 grids).map Prod.fst) rxSyms =
          some rxSyms' ∧
        (∀ k < 12 * grant.nofSc * grids.length, rxSyms' k = txSyms k) ∧
        ∀ k, 12 * grant.nofSc * grids.length ≤ k → rxSyms' k = rxSyms k) ∧
      (∀ (input output : Nat → α) (outAt : Nat) (advanceInput : Bool),
        (cp input output outAt grant advanceInput).2 = 12 * grant.nofSc) ∧
      List.Forall₂ (fun grid out => ∀ a, ¬Allocated grant a → out.1 a = grid a) grids
        (putSubframes txSyms grant 0 grids) := by
  have twelve : 12 * grant.nofSc = numRePerSf grant := rfl
  rw [twelve]
  refine ⟨?_, fun input output outAt advanceInput => cp_passed input output outAt grant advanceInput,
    putSubframes_frame fits txSyms 0 grids⟩
  rw [getSubframes_eq]
  refine ⟨_, rfl, fun k below => ?_, fun k behind => ?_⟩
  · have some_ : 0 < numRePerSf grant := Nat.pos_of_ne_zero fun none_ => by
      rw [none_, Nat.zero_mul] at below
      cases below
    have subframe : k / numRePerSf grant < grids.length := Nat.div_lt_of_lt_mul below
    obtain ⟨grid, here, written⟩ :=
      putSubframes_written fits txSyms grids subframe (Nat.mod_lt k some_)
    rw [Rows.stack_div some_ (by rw [List.getElem?_map, here, Option.map_some]), written,
      Nat.div_add_mod']
  · apply Rows.stack_outside
    rw [List.length_map, List.length_map, putSubframes_length, Nat.zero_add, Nat.mul_comm grids.length]
    exact .inr behind

/-- Two subframes of a grant for the last six subcarriers. -/
theorem six_tones_round_trip :
    ∃ rxSyms', getSubframes { nofSc := 6, scAlloc := 6 } 0
          ((putSubframes (fun k => (k : Int)) { nofSc := 6, scAlloc := 6 } 0
            [fun _ => -1, fun _ => -2]).map Prod.fst) (fun _ => 0) = some rxSyms' ∧
        (∀ k < 144, rxSyms' k = k) ∧ ∀ k, 144 ≤ k → rxSyms' k = 0 :=
  (round_trip { nofSc := 6, scAlloc := 6 } (by decide) (fun k => (k : Int)) (fun _ => 0)
    [fun _ => -1, fun _ => -2]).1

/-! ## The encoder -/

/-- Once the transport block is coded, `sonica_npusch_encode` writes one subframe after the other. -/
theorem encodeSubframes_eq {q : Tx α} {txSyms : Nat → α} {modulated : Option (Nat → α)}
    (sized : q.cfg.grant.tbs ≠ 0)
    (coded : (if q.isEncoded then some q.txSyms else modulated) = some txSyms) (grids : List (Nat → α)) :
    encodeSubframes modulated q grids =
      some ((putSubframes txSyms q.cfg.grant q.cfg.sfIdx grids).map Prod.fst) := by
  induction grids generalizing q with
  | nil => rfl
  | cons grid later ih =>
      rw [encodeSubframes, encode, if_neg sized, coded]
      dsimp only
      rw [ih (q := ⟨{ q.cfg with numSf := q.cfg.numSf + 1, sfIdx := q.cfg.sfIdx + 1 }, txSyms, true⟩) sized rfl]
      rfl

end Npusch

end SonicaEnb
