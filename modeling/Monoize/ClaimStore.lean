import Monoize.AdmissionRuntime

/-! The replica's durable claim and terminal directories. A file is named by the digest of its token
id, so a directory is a table with one row per token; creating a file that exists is refused. -/

namespace Monoize

open Fallible MachineInt Relational

inductive AdmissionError
  | invalidInput | nonCanonicalToken | unknownKey | verifierSnapshotInvalid | invalidSignature | wrongIssuer
  | wrongAudience | bindingMismatch | notYetValid | expired | replay | terminalConflict
  | terminalAcknowledgementMismatch | terminalTooLarge | claimMissing | invalidClaimTransition | spoolCorrupt
  | spoolQuotaExhausted | keyRing | io
  deriving DecidableEq

structure VerifiedAdmission where
  (audience tokenId reservationId requestId : String)
  maximumNanoUsd : Int
  expiresAt : Instant
  deriving DecidableEq

inductive ClaimState
  | claimed | confirmed | routed | releasePending
  deriving DecidableEq

structure ClaimMarker where
  (tokenId reservationId requestId audience : String)
  maximumNanoUsd : Int
  expiresAt : Instant
  state : ClaimState
  (routedAt acknowledgedAt : Option Instant)
  deriving DecidableEq

structure TerminalSpoolInput where
  (tokenId reservationId requestId audience : String)
  kind : TerminalKind
  actualNanoUsd : Option Int
  createdAt : Instant
  deriving DecidableEq

structure TerminalSpoolRecord where
  input : TerminalSpoolInput
  canonicalDigest : String
  deriving DecidableEq

structure PlanTerminalWire where
  version : Nat
  (tokenId reservationId requestId audience : String)
  kind : TerminalKind
  actualNanoUsd : Option String
  canonicalDigest : String
  createdAt : Instant
  deriving DecidableEq

structure PlanTerminalAcknowledgement where
  (tokenId canonicalDigest : String)
  result : TerminalApplyResult
  deriving DecidableEq

instance : Keyed ClaimMarker := .on (·.tokenId)

instance : Keyed TerminalSpoolRecord := .on (·.input.tokenId)

structure ClaimStore where
  claims : Table ClaimMarker := .empty
  terminals : Table TerminalSpoolRecord := .empty

def TerminalSpoolRecord.wire (r : TerminalSpoolRecord) : PlanTerminalWire where
  version := 1
  tokenId := r.input.tokenId
  reservationId := r.input.reservationId
  requestId := r.input.requestId
  audience := r.input.audience
  kind := r.input.kind
  actualNanoUsd := r.input.actualNanoUsd.map toString
  canonicalDigest := r.canonicalDigest
  createdAt := r.input.createdAt

def TerminalSpoolInput.settlement (a : VerifiedAdmission) (actualNanoUsd : Int) (createdAt : Instant) :
    TerminalSpoolInput :=
  ⟨a.tokenId, a.reservationId, a.requestId, a.audience, .settlement, some actualNanoUsd, createdAt⟩

def TerminalSpoolInput.release (a : VerifiedAdmission) (createdAt : Instant) : TerminalSpoolInput :=
  ⟨a.tokenId, a.reservationId, a.requestId, a.audience, .release, none, createdAt⟩

def claimMarker (a : VerifiedAdmission) : ClaimMarker :=
  ⟨a.tokenId, a.reservationId, a.requestId, a.audience, a.maximumNanoUsd, a.expiresAt, .claimed, none, none⟩

def terminalFromClaim (m : ClaimMarker) (kind : TerminalKind) (createdAt : Instant) : TerminalSpoolInput where
  tokenId := m.tokenId
  reservationId := m.reservationId
  requestId := m.requestId
  audience := m.audience
  kind := kind
  actualNanoUsd := if kind = .settlement then some m.maximumNanoUsd else none
  createdAt := createdAt

def claimIsValid (m : ClaimMarker) : Prop :=
  identifierIsValid m.tokenId ∧ identifierIsValid m.reservationId ∧ identifierIsValid m.requestId ∧
    identifierIsValid m.audience ∧ 0 < m.maximumNanoUsd ∧ m.maximumNanoUsd < 2 ^ 127 ∧
    (m.state = .routed ↔ m.routedAt.isSome)
  deriving Decidable

def digestIsValid (value : String) : Prop :=
  value.length = 64 ∧ ∀ c ∈ value.toList, c.isDigit ∨ ('a' ≤ c ∧ c ≤ 'f')
  deriving Decidable

def spoolRecord [Sha256] (input : TerminalSpoolInput) : TerminalSpoolRecord :=
  ⟨input, sha256 (canonicalTerminal input.tokenId input.reservationId input.requestId input.audience
    input.kind input.actualNanoUsd)⟩

variable (store : ClaimStore) (tokenId : String)

def readClaim : Except AdmissionError ClaimMarker := do
  let m ← orError .claimMissing (store.claims.find? (·.tokenId = tokenId))
  require (claimIsValid m) .spoolCorrupt
  pure m

def findTerminal : Option TerminalSpoolRecord :=
  store.terminals.find? (·.input.tokenId = tokenId)

def claim (a : VerifiedAdmission) : Except AdmissionError ClaimStore := do
  require (claimIsValid (claimMarker a)) .invalidInput
  let claims ← orError .replay (store.claims.insert? (claimMarker a))
  pure { store with claims := claims }

def spoolTerminal [Sha256] (store : ClaimStore) (input : TerminalSpoolInput) :
    Except AdmissionError (TerminalSpoolRecord × ClaimStore) := do
  require (terminalIsValid input.tokenId input.reservationId input.requestId input.audience input.kind
    input.actualNanoUsd) .invalidInput
  let m ← readClaim store input.tokenId
  require (m.acknowledgedAt = none ∧ m.reservationId = input.reservationId ∧
    m.requestId = input.requestId ∧ m.audience = input.audience) .claimMissing
  match store.terminals.insert? (spoolRecord input) with
  | some terminals => pure (spoolRecord input, { store with terminals := terminals })
  | none =>
    let existing ← orError .claimMissing (findTerminal store input.tokenId)
    require (existing.input = input ∧ existing.canonicalDigest = (spoolRecord input).canonicalDigest)
      .terminalConflict
    pure (existing, store)

def acknowledgedMarker (now : Instant) (m : ClaimMarker) : ClaimMarker := { m with acknowledgedAt := some now }

theorem acknowledgedMarker_key (now : Instant) (m : ClaimMarker) : Keyed.key (acknowledgedMarker now m) = Keyed.key m := rfl

def markAcknowledged (tokenId digest : String) (now : Instant) : Except AdmissionError ClaimStore := do
  require (identifierIsValid tokenId) .invalidInput
  require (digestIsValid digest) .terminalAcknowledgementMismatch
  let m ← readClaim store tokenId
  match findTerminal store tokenId with
  | none =>
    require (m.acknowledgedAt ≠ none) .terminalAcknowledgementMismatch
    pure store
  | some terminal =>
    require (terminal.canonicalDigest = digest) .terminalAcknowledgementMismatch
    pure { store with
      claims := store.claims.update (fun m => m.tokenId = tokenId ∧ m.acknowledgedAt = none)
        (acknowledgedMarker now) }

def acknowledgeTerminal (tokenId digest : String) (now : Instant) : Except AdmissionError ClaimStore := do
  let marked ← markAcknowledged store tokenId digest now
  pure { marked with terminals := marked.terminals.remove (·.input.tokenId = tokenId) }

def markedAs (state : ClaimState) (routedAt : Option Instant) (m : ClaimMarker) : ClaimMarker :=
  { m with state := state, routedAt := routedAt }

theorem markedAs_key (state : ClaimState) (routedAt : Option Instant) (m : ClaimMarker) :
    Keyed.key (markedAs state routedAt m) = Keyed.key m := rfl

def replaceClaimState (mutate : ClaimMarker → Except AdmissionError (ClaimState × Option Instant)) :
    Except AdmissionError ClaimStore := do
  require (identifierIsValid tokenId) .invalidInput
  let m ← readClaim store tokenId
  let (state, routedAt) ← mutate m
  require (claimIsValid (markedAs state routedAt m)) .invalidInput
  pure { store with
    claims := store.claims.update (·.tokenId = tokenId) (markedAs state routedAt) }

def ClaimMarker.confirm (m : ClaimMarker) : Except AdmissionError (ClaimState × Option Instant) :=
  match m.state with
  | .claimed => .ok (.confirmed, m.routedAt)
  | .confirmed => .ok (m.state, m.routedAt)
  | .routed | .releasePending => .error .invalidClaimTransition

def ClaimMarker.route (routedAt : Instant) (m : ClaimMarker) : Except AdmissionError (ClaimState × Option Instant) :=
  match m.state with
  | .confirmed => .ok (.routed, some routedAt)
  | .routed => if m.routedAt = some routedAt then .ok (m.state, m.routedAt) else .error .invalidClaimTransition
  | .claimed | .releasePending => .error .invalidClaimTransition

def ClaimMarker.releaseLater (m : ClaimMarker) : Except AdmissionError (ClaimState × Option Instant) :=
  match m.state with
  | .releasePending => .ok (m.state, m.routedAt)
  | .claimed | .confirmed | .routed => .ok (.releasePending, none)

def markConfirmed : Except AdmissionError ClaimStore :=
  replaceClaimState store tokenId ClaimMarker.confirm

def markRouted (routedAt : Instant) : Except AdmissionError ClaimStore :=
  replaceClaimState store tokenId (ClaimMarker.route routedAt)

def markReleasePending : Except AdmissionError ClaimStore :=
  replaceClaimState store tokenId ClaimMarker.releaseLater

def abandonedClaims : List ClaimMarker :=
  store.claims.rows.filter fun m => m.acknowledgedAt = none ∧ findTerminal store m.tokenId = none

def recoverClaim [Sha256] (store : ClaimStore) (m : ClaimMarker) (createdAt : Instant) :
    Option (TerminalSpoolRecord × ClaimStore) := do
  let input := terminalFromClaim m (if m.state = .routed then .settlement else .release) createdAt
  guard (terminalIsValid input.tokenId input.reservationId input.requestId input.audience input.kind
    input.actualNanoUsd)
  let terminals ← store.terminals.insert? (spoolRecord input)
  pure (spoolRecord input, { store with terminals := terminals })

namespace SampleSpool

scoped instance digests : Sha256 :=
  ⟨fun _ => "0000000000000000000000000000000000000000000000000000000000000000", fun _ => "", fun _ => ""⟩

end SampleSpool

end Monoize
