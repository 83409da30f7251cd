import Monoize.ClaimStore
import Monoize.Transition

/-! The primary and one replica, exchanging messages that are never consumed: a message may be lost,
repeated, delayed and reordered. -/

namespace Monoize

open Fallible MachineInt Relational Transition

inductive Message
  | issued (admission : VerifiedAdmission)
  | confirm (admission : VerifiedAdmission)
  | confirmed (tokenId : String)
  | batch (terminals : List PlanTerminalWire)
  | acknowledged (acks : List PlanTerminalAcknowledgement)
  deriving DecidableEq

inductive LifecyclePhase
  | confirming (attempts : Nat) | confirmed | failed | active
  deriving DecidableEq

structure Lifecycle where
  admission : VerifiedAdmission
  phase : LifecyclePhase
  routedAt : Option Instant := none
  releasing : Bool := false
  deriving DecidableEq

/-- `published` remembers every record ever written to the terminal directory. -/
structure AdmissionState where
  db : Database
  store : ClaimStore := {}
  serving : Bool := true
  lifecycles : List Lifecycle := []
  network : List Message := []
  published : List TerminalSpoolRecord := []

def verifiedAdmission (t : AdmissionToken) : VerifiedAdmission :=
  ⟨t.audience, t.tokenId, t.reservationId, t.requestId, t.maximumNanoUsd, t.expiresAt⟩

def parseActual (kind : TerminalKind) : Option String → Except AdmissionRuntimeError (Option Int)
  | some value => do
    require (kind = .settlement) .inputInvalid
    let digits ← orError .inputInvalid (canonical? value.toList)
    some <$> orError .inputInvalid (checked 127 digits)
  | none => do
    require (kind = .release) .inputInvalid
    pure none

variable [Sha256] (s : AdmissionState)

def terminalApplyInput (w : PlanTerminalWire) : Except AdmissionRuntimeError TerminalApplyInput := do
  require (w.version = 1) .inputInvalid
  let actual ← parseActual w.kind w.actualNanoUsd
  let input : TerminalApplyInput :=
    ⟨w.tokenId, w.reservationId, w.requestId, w.audience, w.kind, actual, w.canonicalDigest, w.createdAt⟩
  let digest ← terminalDigest input
  require (digest = input.canonicalDigest) .terminalDigestInvalid
  pure input

def applyTerminals (db : Database) (violationId : String) :
    List TerminalApplyInput → Except AdmissionRuntimeError (List PlanTerminalAcknowledgement × Database)
  | [] => pure ([], db)
  | input :: inputs => do
    let (result, next) ← applyTerminalTx db input violationId
    let (acks, last) ← applyTerminals next violationId inputs
    pure (⟨input.tokenId, input.canonicalDigest, result⟩ :: acks, last)

def applyTerminalBatch (db : Database) (violationId : String) (terminals : List PlanTerminalWire) :
    Except AdmissionRuntimeError (List PlanTerminalAcknowledgement × Database) := do
  let inputs ← terminals.mapM (terminalApplyInput)
  applyTerminals db violationId inputs

def acknowledges (shipped : List PlanTerminalWire) (acks : List PlanTerminalAcknowledgement)
    (w : PlanTerminalWire) : Prop :=
  (∀ a ∈ acks, ∃ s ∈ shipped, a.tokenId = s.tokenId ∧ a.canonicalDigest = s.canonicalDigest) ∧
    acks.countP (fun a => a.tokenId = w.tokenId ∧ a.canonicalDigest = w.canonicalDigest) = 1
  deriving Decidable

inductive PrimaryEvent
  | issue (ring : Except AdmissionRuntimeError SigningRing) (input : IssueAdmissionInput)
      (reservationId tokenId : String)
  | confirm (admission : VerifiedAdmission) (confirmedAt : Instant)
  | recoverUnconfirmed (tokenId : String) (now : Instant) (violationId : String)
  | applyBatch (terminals : List PlanTerminalWire) (violationId : String)

inductive ReplicaEvent
  | claim (admission : VerifiedAdmission)
  | sendConfirm (l : Lifecycle)
  | confirmAnswered (l : Lifecycle)
  | confirmFailed (l : Lifecycle)
  | markConfirmed (l : Lifecycle)
  | markConfirmedFailed (l : Lifecycle)
  | markRouted (l : Lifecycle) (routedAt : Instant)
  | settle (l : Lifecycle) (actualNanoUsd : Int) (createdAt : Instant)
  | markReleasePending (l : Lifecycle)
  | release (l : Lifecycle) (createdAt : Instant)
  | publishReleasePending (m : ClaimMarker) (createdAt : Instant)
  | ship (records : List TerminalSpoolRecord)
  | acknowledge (shipped : List PlanTerminalWire) (acks : List PlanTerminalAcknowledgement)
      (w : PlanTerminalWire) (now : Instant)
  | acknowledgeCrash (shipped : List PlanTerminalWire) (acks : List PlanTerminalAcknowledgement)
      (w : PlanTerminalWire) (now : Instant)
  | crash
  | recover (m : ClaimMarker) (createdAt : Instant)
  | restart

def send (m : Message) : AdmissionState := { s with network := s.network ++ [m] }

def sendIssued (issued : IssuedAdmission) : AdmissionState :=
  match s.db.admissionTokens.find? (·.tokenId = issued.tokenId) with
  | some t => send s (.issued (verifiedAdmission t))
  | none => s

def PrimaryEvent.run : PrimaryEvent → AdmissionState
  | issue ring input reservationId tokenId =>
    match Monoize.issue ring s.db input reservationId tokenId with
    | .ok (.plan issued, db) => sendIssued { s with db := db } issued
    | .ok (.balance, db) => { s with db := db }
    | .error _ => s
  | confirm a confirmedAt =>
    if .confirm a ∈ s.network then
      match Monoize.confirm s.db ⟨a.audience, a.tokenId, a.reservationId, a.requestId, confirmedAt⟩ with
      | .ok (_, db) => send { s with db := db } (.confirmed a.tokenId)
      | .error _ => s
    else s
  | recoverUnconfirmed tokenId now violationId =>
    { s with db := commit s.db (recoverUnconfirmedTx s.db tokenId now violationId) }
  | applyBatch terminals violationId =>
    if .batch terminals ∈ s.network then
      match applyTerminalBatch s.db violationId terminals with
      | .ok (acks, db) => send { s with db := db } (.acknowledged acks)
      | .error _ => s
    else s

def advance (l l' : Lifecycle) : AdmissionState :=
  { s with lifecycles := l' :: s.lifecycles.erase l }

def publish (record : TerminalSpoolRecord) (store : ClaimStore) : AdmissionState :=
  { s with store := store, published := s.published ++ [record] }

def spool (input : TerminalSpoolInput) : AdmissionState :=
  match spoolTerminal s.store input with
  | .ok (record, store) => publish s record store
  | .error _ => s

def crashed : AdmissionState := { s with serving := false, lifecycles := [] }

/-- An entry of the active map stays usable by the calls that looked it up before its removal, so
removals are not modelled. Every durable write may fail and leave the files as they were. -/
def ReplicaEvent.run (replicaId : String) (s : AdmissionState) : ReplicaEvent → AdmissionState
  | claim a =>
    if s.serving ∧ .issued a ∈ s.network ∧ a.audience = replicaId then
      match Monoize.claim s.store a with
      | .ok store => { s with store := store, lifecycles := { admission := a, phase := .confirming 0 } :: s.lifecycles }
      | .error _ => s
    else s
  | sendConfirm l =>
    match l.phase with
    | .confirming n =>
      if l ∈ s.lifecycles ∧ n < 2 then
        send (advance s l { l with phase := .confirming (n + 1) }) (.confirm l.admission)
      else s
    | _ => s
  | confirmAnswered l =>
    match l.phase with
    | .confirming (_ + 1) =>
      if l ∈ s.lifecycles ∧ .confirmed l.admission.tokenId ∈ s.network then
        advance s l { l with phase := .confirmed }
      else s
    | _ => s
  | confirmFailed l =>
    match l.phase with
    | .confirming (_ + 1) => if l ∈ s.lifecycles then advance s l { l with phase := .failed } else s
    | _ => s
  | markConfirmed l =>
    if l ∈ s.lifecycles ∧ l.phase = .confirmed then
      match Monoize.markConfirmed s.store l.admission.tokenId with
      | .ok store => { advance s l { l with phase := .active } with store := store }
      | .error _ => advance s l { l with phase := .failed }
    else s
  | markConfirmedFailed l =>
    if l ∈ s.lifecycles ∧ l.phase = .confirmed then advance s l { l with phase := .failed } else s
  | markRouted l routedAt =>
    if l ∈ s.lifecycles ∧ l.phase = .active ∧ l.routedAt = none then
      match Monoize.markRouted s.store l.admission.tokenId routedAt with
      | .ok store => { advance s l { l with routedAt := some routedAt } with store := store }
      | .error _ => s
    else s
  | settle l actualNanoUsd createdAt =>
    if l ∈ s.lifecycles ∧ l.phase = .active ∧ l.routedAt ≠ none ∧ 0 ≤ actualNanoUsd then
      spool s (.settlement l.admission actualNanoUsd createdAt)
    else s
  | markReleasePending l =>
    if l ∈ s.lifecycles ∧ (l.phase = .failed ∨ l.phase = .active) then
      match Monoize.markReleasePending s.store l.admission.tokenId with
      | .ok store => { advance s l { l with releasing := true } with store := store }
      | .error _ => s
    else s
  | release l createdAt =>
    if l ∈ s.lifecycles ∧ l.releasing then spool s (.release l.admission createdAt) else s
  | publishReleasePending m createdAt =>
    if s.serving ∧ m ∈ s.store.claims.rows ∧ m.state = .releasePending then
      spool s (terminalFromClaim m .release createdAt)
    else s
  | ship records =>
    if s.serving ∧ ∀ r ∈ records, r ∈ s.store.terminals.rows ∧ r.input.audience = replicaId then
      send s (.batch (records.map TerminalSpoolRecord.wire))
    else s
  | acknowledge shipped acks w now =>
    if s.serving ∧ .batch shipped ∈ s.network ∧ .acknowledged acks ∈ s.network ∧ w ∈ shipped ∧
        acknowledges shipped acks w then
      match acknowledgeTerminal s.store w.tokenId w.canonicalDigest now with
      | .ok store => { s with store := store }
      | .error _ => s
    else s
  | acknowledgeCrash shipped acks w now =>
    if s.serving ∧ .batch shipped ∈ s.network ∧ .acknowledged acks ∈ s.network ∧ w ∈ shipped ∧
        acknowledges shipped acks w then
      match markAcknowledged s.store w.tokenId w.canonicalDigest now with
      | .ok store => crashed { s with store := store }
      | .error _ => s
    else s
  | crash => crashed s
  | recover m createdAt =>
    if s.serving = false ∧ m ∈ abandonedClaims s.store then
      match recoverClaim s.store m createdAt with
      | some (record, store) => publish s record store
      | none => s
    else s
  | restart => if abandonedClaims s.store = [] then { s with serving := true } else s

structure AdmissionFrame (db db' : Database) : Prop where
  reservations : db'.quotaReservations = db.quotaReservations
  tokens : db'.admissionTokens = db.admissionTokens
  receipts : db'.terminalReceipts = db.terminalReceipts

inductive AdmissionStep (replicaId : String) :
    AdmissionState → AdmissionState → Prop
  | primary (s : AdmissionState) (e : PrimaryEvent) : AdmissionStep replicaId s (e.run s)
  | replica (s : AdmissionState) (e : ReplicaEvent) :
      AdmissionStep replicaId s (e.run replicaId s)
  | other {s : AdmissionState} {db : Database} : AdmissionFrame s.db db →
      AdmissionStep replicaId s { s with db := db }

def AdmissionInitial : Prop :=
  ∃ db : Database, s = { db := db } ∧ db.quotaReservations = .empty ∧ db.admissionTokens = .empty ∧
    db.terminalReceipts = .empty

end Monoize
