import SonicaEnb.Phy.RaNbiot

/-! # The cell (`phy_common.c`) -/

namespace SonicaEnb

/-- `srslte_cp_t` -/
inductive Cp where
  | norm
  | ext
  deriving Repr, DecidableEq

/-- `srslte_cell_t` -/
structure Cell where
  nofPrb : Nat := 0
  nofPorts : Nat := 0
  id : Nat := 0
  cp : Cp := .norm
  deriving Repr, DecidableEq

/-- `srslte_nbiot_cell_t` -/
structure NbiotCell where
  base : Cell := {}
  nbiotPrb : Nat := 0
  nIdNcell : Nat := 0
  nofPorts : Nat := 0
  mode : NbiotMode := .inbandSamePci
  deriving Repr, DecidableEq

def cellidIsvalid (cellId : Nat) : Bool := cellId < 504

def nofprbIsvalid (nofPrb : Nat) : Bool := nofPrb = 1 || (6 ≤ nofPrb && nofPrb ≤ 110)

def cellIsvalid (cell : Cell) : Bool :=
  cellidIsvalid cell.id && cell.nofPorts ≤ 4 && nofprbIsvalid cell.nofPrb

/-- `srslte_nbiot_cell_isvalid` -/
def nbiotCellIsvalid (cell : NbiotCell) : Bool :=
  cellIsvalid cell.base && cell.nofPorts ≤ 2 && cell.nbiotPrb ≤ cell.base.nofPrb &&
    cellidIsvalid cell.nIdNcell

end SonicaEnb
