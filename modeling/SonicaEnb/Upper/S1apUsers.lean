import Mathlib.Algebra.Ring.Nat
import Mathlib.Order.Nat
import SonicaEnb.Lib.SortedMap

/-! # The UEs of S1AP

`s1ap::user_list` maps the identity the eNB gave a UE to its context. A UE is found
by that identity, by its RNTI or by the identity the MME gave it.
-/

namespace SonicaEnb

/-- `SRSLTE_INVALID_RNTI` -/
def invalidRnti : Nat := 0

/-- `ue_ctxt_t`; the eNB's identity is the key in the list. -/
structure UeCtxt where
  rnti : Nat
  mmeUeS1apIdPresent : Bool := false
  mmeUeS1apId : Nat := 0
  deriving Repr, DecidableEq

structure S1apUsers where
  users : SortedMap Nat UeCtxt := SortedMap.empty
  nextEnbUeS1apId : Nat := 1

namespace S1apUsers

/-- `find_ue_rnti`, of which the callers here only ask whether there is one. -/
def hasRnti (s : S1apUsers) (rnti : Nat) : Bool :=
  rnti ≠ invalidRnti && s.users.entries.any fun e => e.2.rnti = rnti

/-- A UE that `find_ue_mmeid` may return. -/
def matchesMmeId (mmeId : Nat) (ctxt : UeCtxt) : Bool :=
  ctxt.mmeUeS1apIdPresent && ctxt.mmeUeS1apId = mmeId

def hasMmeId (s : S1apUsers) (mmeId : Nat) : Bool :=
  s.users.entries.any fun e => matchesMmeId mmeId e.2

/-- `add_user`, which compares the MME identity although a new UE has none yet. -/
def addUser (s : S1apUsers) (enbId : Nat) (ctxt : UeCtxt) : S1apUsers :=
  if s.hasRnti ctxt.rnti then s
  else if (s.users.find? enbId).isSome then s
  else if s.hasMmeId ctxt.mmeUeS1apId then s
  else { s with users := s.users.insert enbId ctxt }

/-- The constructor of `ue` takes an identity, whether the UE enters the list or not. -/
def takeId (s : S1apUsers) : S1apUsers :=
  { s with nextEnbUeS1apId := (s.nextEnbUeS1apId + 1) % 2 ^ 32 }

/-- Both overloads of `initial_ue`: with a TMSI a UE that is in the list already is used again. -/
def initialUe (s : S1apUsers) (rnti : Nat) (hasTmsi : Bool) : S1apUsers :=
  let t := s.takeId
  if hasTmsi && t.hasRnti rnti then t else t.addUser s.nextEnbUeS1apId { rnti }

/-- `find_s1apmsg_user`: the identity of the MME is taken from the message. -/
def findS1apmsgUser (s : S1apUsers) (enbId mmeId : Nat) : Option UeCtxt × S1apUsers :=
  match s.users.find? enbId with
  | none => (none, s)
  | some ctxt =>
      let ctxt := { ctxt with mmeUeS1apIdPresent := true, mmeUeS1apId := mmeId }
      (some ctxt, { s with users := s.users.insert enbId ctxt })

def erase (s : S1apUsers) (enbId : Nat) : S1apUsers := { s with users := s.users.erase enbId }

end S1apUsers

end SonicaEnb
