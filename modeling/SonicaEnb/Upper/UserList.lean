import SonicaEnb.Lib.Events
import SonicaEnb.Lib.Search
import SonicaEnb.Upper.S1apUsers

/-! # The user list of S1AP in full

A UE object holds its own identity, and the list stores it under a key; that the two
are the same is something to prove. A pointer to a UE is the key of its entry. Two
of the three searches walk the hash table, in an order that is an argument.
-/

namespace SonicaEnb

/-- `s1ap::ue`, with the members of its `ctxt`. -/
structure S1apUe extends UeCtxt where
  enbUeS1apId : Nat
  releaseRequested : Bool := false
  deriving Repr, DecidableEq

/-- The messages about the life of a UE that go to the MME. -/
inductive S1apMsg where
  | initialUeMessage (enbId : Nat) (hasTmsi : Bool)
  | ueContextReleaseRequest (enbId mmeId : Nat)
  | ueContextReleaseComplete (enbId mmeId : Nat)
  deriving Repr, DecidableEq

/-- The members of `s1ap` that its UEs live in; `sent` lists what was sent, oldest first. -/
structure S1ap where
  users : SortedMap Nat S1apUe := SortedMap.empty
  nextEnbUeS1apId : Nat := 1
  mmeConnected : Bool := false
  sent : List S1apMsg := []

namespace S1ap

/-! ## `user_list` -/

def findUeRnti (s : S1ap) (walk : List Nat) (rnti : Nat) : Option Nat :=
  if rnti = invalidRnti then none else s.users.search walk fun ue => ue.rnti = rnti

def findUeEnbid (s : S1ap) (enbId : Nat) : Option Nat :=
  if (s.users.find? enbId).isSome then some enbId else none

def findUeMmeid (s : S1ap) (walk : List Nat) (mmeId : Nat) : Option Nat :=
  s.users.search walk fun ue => S1apUsers.matchesMmeId mmeId ue.toUeCtxt

def addUser (s : S1ap) (walk : List Nat) (user : S1apUe) : Option Nat × S1ap :=
  if (s.findUeRnti walk user.rnti).isSome then (none, s)
  else if (s.findUeEnbid user.enbUeS1apId).isSome then (none, s)
  else if (s.findUeMmeid walk user.mmeUeS1apId).isSome then (none, s)
  else (some user.enbUeS1apId, { s with users := s.users.insert user.enbUeS1apId user })

/-- `erase` looks the entry up by the identity in the UE it is given. -/
def erase (s : S1ap) (u : Nat) : S1ap :=
  match s.users.find? u with
  | none => s
  | some ue => { s with users := s.users.erase ue.enbUeS1apId }

/-! ## `ue` -/

/-- The constructor, with the RNTI the caller assigns. -/
def newUe (s : S1ap) (rnti : Nat) : S1apUe × S1ap :=
  ({ rnti := rnti, enbUeS1apId := s.nextEnbUeS1apId },
    { s with nextEnbUeS1apId := (s.nextEnbUeS1apId + 1) % 2 ^ 32 })

/-- Nothing is sent without an MME. -/
def send (s : S1ap) (u : Nat) (msg : S1apUe → S1apMsg) : S1ap :=
  if !s.mmeConnected then s
  else
    match s.users.find? u with
    | none => s
    | some ue => { s with sent := s.sent ++ [msg ue] }

def sendInitialuemessage (s : S1ap) (u : Nat) (hasTmsi : Bool) : S1ap :=
  s.send u fun ue => .initialUeMessage ue.enbUeS1apId hasTmsi

def sendUectxtreleasecomplete (s : S1ap) (u : Nat) : S1ap :=
  s.send u fun ue => .ueContextReleaseComplete ue.enbUeS1apId ue.mmeUeS1apId

def sendUectxtreleaserequest (s : S1ap) (u : Nat) : S1ap :=
  if !s.mmeConnected then s
  else
    match s.users.find? u with
    | none => s
    | some ue =>
        if !ue.mmeUeS1apIdPresent then s
        else
          { s with users := s.users.modify u fun ue => { ue with releaseRequested := true } }.send u
            fun ue => .ueContextReleaseRequest ue.enbUeS1apId ue.mmeUeS1apId

/-! ## The RRC interface -/

/-- What `initial_ue` does with the answer of `add_user`. -/
def announce (added : Option Nat × S1ap) (hasTmsi : Bool) : S1ap :=
  match added with
  | (none, s) => s
  | (some u, s) => s.sendInitialuemessage u hasTmsi

/-- Both overloads of `initial_ue`: the one with a TMSI looks for the UE first. -/
def initialUe (s : S1ap) (walk : List Nat) (rnti : Nat) (hasTmsi : Bool) : S1ap :=
  let (user, s) := s.newUe rnti
  match if hasTmsi then s.findUeRnti walk rnti else none with
  | some u => s.sendInitialuemessage u hasTmsi
  | none => announce (s.addUser walk user) hasTmsi

def userRelease (s : S1ap) (walk : List Nat) (rnti : Nat) : S1ap :=
  match s.findUeRnti walk rnti with
  | none => s
  | some u =>
      match s.users.find? u with
      | none => s
      | some ue =>
          if ue.releaseRequested then s.erase u
          else if ue.mmeUeS1apIdPresent then s.sendUectxtreleaserequest u
          else s

/-! ## Messages from the MME -/

/-- What `find_s1apmsg_user` writes into the UE it finds. -/
def setMmeId (mmeId : Nat) (ue : S1apUe) : S1apUe :=
  { ue with mmeUeS1apIdPresent := true, mmeUeS1apId := mmeId }

def findS1apmsgUser (s : S1ap) (enbId mmeId : Nat) : Option Nat × S1ap :=
  match s.findUeEnbid enbId with
  | none => (none, s)
  | some u => (some u, { s with users := s.users.modify u (setMmeId mmeId) })

/-- A message about one UE that is not a release. `csFallback`: it makes the eNB ask for one, as
    context setup and modification may. -/
def handleUeMsg (s : S1ap) (enbId mmeId : Nat) (csFallback : Bool) : S1ap :=
  match s.findS1apmsgUser enbId mmeId with
  | (none, s) => s
  | (some u, s) => if csFallback then s.sendUectxtreleaserequest u else s

/-- The end of `handle_uectxtreleasecommand`, for the UE it found. -/
def release (s : S1ap) (u : Nat) : S1ap := (s.sendUectxtreleasecomplete u).erase u

/-- `handle_uectxtreleasecommand` with a pair of identities. -/
def handleReleasePair (s : S1ap) (enbId mmeId : Nat) : S1ap :=
  match s.findS1apmsgUser enbId mmeId with
  | (none, s) => s
  | (some u, s) => s.release u

/-- `handle_uectxtreleasecommand` with the MME's identity alone. -/
def handleReleaseMmeId (s : S1ap) (walk : List Nat) (mmeId : Nat) : S1ap :=
  match s.findUeMmeid walk mmeId with
  | none => s
  | some u => s.release u

end S1ap

/-- What reaches S1AP about its UEs; `walk` is the order in which the hash table is walked. -/
inductive S1apEvent where
  | initialUe (walk : List Nat) (rnti : Nat) (hasTmsi : Bool)
  | userRelease (walk : List Nat) (rnti : Nat)
  | ueMsg (enbId mmeId : Nat) (csFallback : Bool)
  | releasePair (enbId mmeId : Nat)
  | releaseMmeId (walk : List Nat) (mmeId : Nat)
  | mmeConnected (up : Bool)
  deriving Repr, DecidableEq

namespace S1ap

/-- A walk visits every entry once. -/
def Walks (s : S1ap) (walk : List Nat) : Prop := walk.Perm s.users.keys

instance (s : S1ap) (walk : List Nat) : Decidable (s.Walks walk) := inferInstanceAs (Decidable (walk.Perm s.users.keys))

def handle (s : S1ap) : S1apEvent → Option S1ap
  | .initialUe walk rnti hasTmsi => if s.Walks walk then some (s.initialUe walk rnti hasTmsi) else none
  | .userRelease walk rnti => if s.Walks walk then some (s.userRelease walk rnti) else none
  | .ueMsg enbId mmeId csFallback => some (s.handleUeMsg enbId mmeId csFallback)
  | .releasePair enbId mmeId => some (s.handleReleasePair enbId mmeId)
  | .releaseMmeId walk mmeId => if s.Walks walk then some (s.handleReleaseMmeId walk mmeId) else none
  | .mmeConnected up => some { s with mmeConnected := up }

/-- A run from the empty list, with any value of the counter. -/
def run (first : Nat) (events : List S1apEvent) : Option (S1ap × List (Events.Step S1ap S1apEvent)) :=
  Events.run handle { nextEnbUeS1apId := first } events

end S1ap

end SonicaEnb
