import SonicaEnb.Mac.Mac

/-! # The NPDSCH encoder

`srslte_npdsch_encode_seq` reduced to what decides which block of which codeword
is mapped: the two symbol buffers and the counters of a configuration. All
grants of a cell have the same number of resource elements per subframe, so a
buffer is a sequence of blocks of that size.
-/

namespace SonicaEnb

/-- One run of the coding chain. `encodedAt` is the absolute TTI of the run, which tells apart
    codewords whose other fields agree. -/
structure Codeword where
  data : TxBuffer
  rnti : Nat
  nofSf : Nat
  encodedAt : Nat
  deriving Repr, DecidableEq

/-- One subframe's worth of symbols of a codeword. -/
structure SymbolBlock where
  codeword : Codeword
  index : Nat
  deriving Repr, DecidableEq

/-- The symbol buffers of `srslte_npdsch_t`, block by block; `none` was never written. -/
structure Npdsch where
  symbols : Nat → Option SymbolBlock := fun _ => none
  sibSymbols : Nat → Option SymbolBlock := fun _ => none

/-- `srslte_npdsch_cfg_t` -/
structure NpdschCfg where
  grant : RaNbiotDlGrant := {}
  sfIdx : Nat := 0
  repIdx : Nat := 0
  numSf : Nat := 0
  isEncoded : Bool := false
  hasBcch : Bool := false
  deriving Repr, DecidableEq

/-- `srslte_npdsch_cfg` -/
def npdschCfg (grant : RaNbiotDlGrant) : NpdschCfg :=
  { grant := grant, hasBcch := grant.hasSib1 }

/-- What one call of the encoder maps: the block offset it reads at and what stands there. -/
structure MappedBlock where
  offset : Nat
  block : Option SymbolBlock
  deriving Repr, DecidableEq

namespace Npdsch

def buffer (q : Npdsch) (hasBcch : Bool) : Nat → Option SymbolBlock :=
  if hasBcch then q.sibSymbols else q.symbols

/-- The coding chain fills the first `nofSf` blocks of the buffer the configuration selects. -/
def encodeInto (q : Npdsch) (hasBcch : Bool) (codeword : Codeword) : Npdsch :=
  let fill := fun (old : Nat → Option SymbolBlock) i =>
    if i < codeword.nofSf then some ⟨codeword, i⟩ else old i
  if hasBcch then { q with sibSymbols := fill q.sibSymbols }
  else { q with symbols := fill q.symbols }

end Npdsch

namespace NpdschCfg

/-- The counters after a block is mapped. With BCCH the block index only grows; otherwise up to
    four repetitions of a block follow each other. -/
def advance (cfg : NpdschCfg) : NpdschCfg :=
  let cfg := { cfg with numSf := cfg.numSf + 1 }
  if cfg.hasBcch then
    { cfg with
      sfIdx := cfg.sfIdx + 1
      repIdx := if cfg.sfIdx + 1 = cfg.grant.nofSf then cfg.repIdx + 1 else cfg.repIdx }
  else
    let m := min cfg.grant.nofRep 4
    let repIdx := cfg.repIdx + 1
    if repIdx % m = 0 then
      if cfg.sfIdx + 1 = cfg.grant.nofSf then { cfg with sfIdx := 0, repIdx := repIdx }
      else { cfg with sfIdx := cfg.sfIdx + 1, repIdx := repIdx - m }
    else { cfg with repIdx := repIdx }

/-- All subframes of all repetitions, as the worker compares them. -/
def totalSf (cfg : NpdschCfg) : Nat := cfg.grant.nofSf * cfg.grant.nofRep

end NpdschCfg

/-- `srslte_npdsch_encode_rnti` at absolute TTI `now`; `none` is an error return, which leaves
    everything as it was. -/
def npdschEncodeRnti (q : Npdsch) (cfg : NpdschCfg) (data : Option TxBuffer) (rnti now : Nat) :
    Option (MappedBlock × Npdsch × NpdschCfg) :=
  match data with
  | none => none
  | some data =>
      if cfg.grant.tbs = 0 then none
      else
        let q := if cfg.isEncoded then q
          else q.encodeInto cfg.hasBcch ⟨data, rnti, cfg.grant.nofSf, now⟩
        some (⟨cfg.sfIdx, q.buffer cfg.hasBcch cfg.sfIdx⟩, q,
          { cfg with isEncoded := true }.advance)

end SonicaEnb
