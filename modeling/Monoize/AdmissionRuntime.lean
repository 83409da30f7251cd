import Mathlib.Data.List.Destutter
import Monoize.QuotaStore

/-! The primary's side of plan admission. Stored times keep nanoseconds. -/

namespace Monoize

open Fallible MachineInt Relational

def tokenTtlSeconds : Int := 30

def clockSkewSeconds : Int := 5

inductive AdmissionRuntimeError
  | inputInvalid | activeKeyMissing | wrapKeyMissing | keyInvalid | issuerInvalid | issueConflict
  | tokenNotFound | bindingMismatch | terminalDigestInvalid | terminalConflict | confirmationExpired
  | storage (message : String)
  | quota (error : QuotaError)
  deriving DecidableEq

def AdmissionRuntimeError.code : AdmissionRuntimeError → String
  | inputInvalid => "admission_input_invalid"
  | activeKeyMissing => "admission_active_key_missing"
  | wrapKeyMissing => "admission_wrap_key_missing"
  | keyInvalid => "admission_key_invalid"
  | issuerInvalid => "admission_issuer_invalid"
  | issueConflict => "admission_issue_conflict"
  | tokenNotFound => "admission_token_not_found"
  | bindingMismatch => "admission_binding_mismatch"
  | terminalDigestInvalid => "admission_terminal_digest_invalid"
  | terminalConflict => "admission_terminal_conflict"
  | confirmationExpired => "admission_confirmation_expired"
  | storage _ => "admission_storage_error"
  | quota error => error.errorCode

def AdmissionRuntimeError.message : AdmissionRuntimeError → String
  | inputInvalid => "admission input is invalid"
  | activeKeyMissing => "active admission key is missing"
  | wrapKeyMissing => "admission wrap key is missing"
  | keyInvalid => "admission key is invalid"
  | issuerInvalid => "admission issuer is invalid"
  | issueConflict => "admission issue conflicts with the stored request"
  | tokenNotFound => "admission token is not found"
  | bindingMismatch => "admission binding does not match"
  | terminalDigestInvalid => "admission terminal digest is invalid"
  | terminalConflict => "admission terminal conflicts with the stored receipt"
  | confirmationExpired => "admission confirmation is expired"
  | storage message => "admission storage failed: " ++ message
  | quota error => error.message

structure IssueAdmissionInput where
  (audience userId requestId : String)
  effectiveGroups : List String
  maximumNanoUsd : Int
  pricingRevision : String
  issuedAt : Instant

structure AdmissionTokenInput where
  (audience tokenId reservationId requestId entitlementId : String)
  (generation maximumNanoUsd reservedFenCny : Int)
  pricingRevision : String
  issuedAt : Instant

structure IssuedAdmission where
  (tokenId reservationId compactJws : String)
  (issuedAt expiresAt : Instant)
  duplicate : Bool

inductive AdmissionDecision
  | balance
  | plan (issued : IssuedAdmission)

structure ConfirmAdmissionInput where
  (audience tokenId reservationId requestId : String)
  confirmedAt : Instant

structure TerminalApplyInput where
  (tokenId reservationId requestId audience : String)
  kind : TerminalKind
  actualNanoUsd : Option Int
  canonicalDigest : String
  appliedAt : Instant

inductive TerminalApplyResult
  | applied | duplicate
  deriving DecidableEq

structure SigningRing where
  activeKeyId : String
  issue : AdmissionTokenInput → Option String

def identifierIsValid (value : String) : Prop :=
  value ≠ "" ∧ value.utf8ByteSize ≤ 256 ∧ ∀ c ∈ value.toList, 32 < c.toNat ∧ c.toNat ≠ 127
  deriving Decidable

def terminalKind : TerminalKind → String
  | .settlement => "settlement"
  | .release => "release"

def actualIsValid (kind : TerminalKind) (actualNanoUsd : Option Int) : Prop :=
  match kind, actualNanoUsd with
  | .settlement, some value => 0 ≤ value
  | .release, none => True
  | _, _ => False

instance (kind : TerminalKind) (actualNanoUsd : Option Int) : Decidable (actualIsValid kind actualNanoUsd) :=
  match kind, actualNanoUsd with
  | .settlement, some value => inferInstanceAs (Decidable (0 ≤ value))
  | .release, none => isTrue trivial
  | .settlement, none => isFalse id
  | .release, some _ => isFalse id

def terminalIsValid (tokenId reservationId requestId audience : String) (kind : TerminalKind)
    (actualNanoUsd : Option Int) : Prop :=
  identifierIsValid tokenId ∧ identifierIsValid reservationId ∧ identifierIsValid requestId ∧
    identifierIsValid audience ∧ actualIsValid kind actualNanoUsd
  deriving Decidable

def canonicalTerminal (tokenId reservationId requestId audience : String) (kind : TerminalKind)
    (actualNanoUsd : Option Int) : String :=
  "v=1\ntoken_id=" ++ tokenId ++ "\nreservation_id=" ++ reservationId ++ "\nrequest_id=" ++ requestId ++
    "\naudience=" ++ audience ++ "\nkind=" ++ terminalKind kind ++
    "\nactual_nano_usd=" ++ (actualNanoUsd.map toString).getD "" ++ "\n"

variable [Sha256]

def terminalDigest (input : TerminalApplyInput) : Except AdmissionRuntimeError String := do
  require (terminalIsValid input.tokenId input.reservationId input.requestId input.audience input.kind
    input.actualNanoUsd) .inputInvalid
  pure (sha256 (canonicalTerminal input.tokenId input.reservationId input.requestId input.audience
    input.kind input.actualNanoUsd))

def quotaRequestKey (audience requestId : String) : String :=
  "admission:" ++ sha256 ("v=1\naudience=" ++ audience ++ "\nrequest_id=" ++ requestId ++ "\n")

def parseAmount (value : String) : Except AdmissionRuntimeError Int :=
  orError (.storage "stored admission amount is not canonical")
    ((canonical? value.toList).bind fun digits => checked 127 digits)

def liftQuota {α : Type} : Except QuotaError α → Except AdmissionRuntimeError α
  | .ok value => .ok value
  | .error error => .error (.quota error)

def tokenConflict : AdmissionRuntimeError := .storage "UNIQUE constraint failed"

def planIsUsable (input : IssueAdmissionInput) (g : EntitlementGenerationRow) (l : EntitlementLifecycle) : Prop :=
  parseTimestamp g.startsAt ≤ input.issuedAt ∧ input.issuedAt < parseTimestamp g.endsAt ∧
    l.suspendedAt = none ∧ l.revokedAt = none ∧
    (g.groupIds = [] ∨ ∃ group ∈ g.groupIds, group ∈ input.effectiveGroups)
  deriving Decidable

def tokenRow (input : IssueAdmissionInput) (reservation : QuotaReservation)
    (keyId compactJws tokenId : String) : AdmissionToken where
  tokenId := tokenId
  audience := input.audience
  requestId := input.requestId
  userId := input.userId
  effectiveGroups := input.effectiveGroups
  reservationId := reservation.id
  entitlementId := reservation.entitlementId
  generation := reservation.generation
  maximumNanoUsd := reservation.maximumNanoUsd
  reservedFenCny := reservation.reservedFenCny
  pricingRevision := reservation.pricingRevision
  keyId := keyId
  compactJws := compactJws
  compactJwsDigest := sha256 compactJws
  issuedAt := input.issuedAt
  expiresAt := input.issuedAt + seconds tokenTtlSeconds
  expiresAtUnix := (input.issuedAt + seconds tokenTtlSeconds) / seconds 1
  confirmedAt := none

def issuedAdmission (t : AdmissionToken) (duplicate : Bool) : IssuedAdmission :=
  ⟨t.tokenId, t.reservationId, t.compactJws, t.issuedAt, t.expiresAt, duplicate⟩

/-- `ring` is what loading the key ring returns; `reservationId` and `tokenId` are fresh UUIDs. -/
def issueTx (ring : Except AdmissionRuntimeError SigningRing) (db : Database)
    (input : IssueAdmissionInput) (reservationId tokenId : String) :
    Except AdmissionRuntimeError (AdmissionDecision × Database) := do
  match db.admissionTokens.find? (fun t => t.audience = input.audience ∧ t.requestId = input.requestId) with
  | some t =>
    let maximum ← parseAmount (toString t.maximumNanoUsd)
    require (t.userId = input.userId ∧ t.effectiveGroups = input.effectiveGroups ∧
      maximum = input.maximumNanoUsd ∧ t.pricingRevision = input.pricingRevision) .issueConflict
    pure (.plan (issuedAdmission t true), db)
  | none =>
    match currentEntitlement db input.userId with
    | none => pure (.balance, db)
    | some (g, l) =>
      if planIsUsable input g l then
        let key ← ring
        let (reservation, reserved) ← liftQuota (reserveTx db
          { userId := input.userId
            requestId := quotaRequestKey input.audience input.requestId
            maximumNanoUsd := input.maximumNanoUsd
            pricingRevision := input.pricingRevision
            now := input.issuedAt }
          (some (g.id, g.generation)) reservationId)
        let jws ← orError .keyInvalid (key.issue
          ⟨input.audience, tokenId, reservation.id, input.requestId, reservation.entitlementId,
            reservation.generation, reservation.maximumNanoUsd, reservation.reservedFenCny,
            reservation.pricingRevision, input.issuedAt⟩)
        let row := tokenRow input reservation key.activeKeyId jws tokenId
        let tokens ← orError tokenConflict (reserved.admissionTokens.insert? row)
        pure (.plan (issuedAdmission row false), { reserved with admissionTokens := tokens })
      else pure (.balance, db)

def issue (ring : Except AdmissionRuntimeError SigningRing) (db : Database)
    (input : IssueAdmissionInput) (reservationId tokenId : String) :
    Except AdmissionRuntimeError (AdmissionDecision × Database) := do
  require ((∀ value ∈ [input.audience, input.userId, input.requestId, input.pricingRevision] ++
      input.effectiveGroups, identifierIsValid value) ∧ 0 < input.maximumNanoUsd) .inputInvalid
  issueTx ring db { input with
    effectiveGroups := (input.effectiveGroups.insertionSort (· ≤ ·)).destutter (· ≠ ·) }
    reservationId tokenId

def confirmedToken (confirmedAt : Instant) (t : AdmissionToken) : AdmissionToken :=
  { t with confirmedAt := some confirmedAt }

def confirmTx (db : Database) (input : ConfirmAdmissionInput) :
    Except AdmissionRuntimeError (Bool × Database) := do
  let t ← orError .tokenNotFound (db.admissionTokens.find? (·.tokenId = input.tokenId))
  require (t.audience = input.audience ∧ t.requestId = input.requestId ∧
    t.reservationId = input.reservationId) .bindingMismatch
  require (db.terminalReceipts.find? (·.tokenId = input.tokenId) = none) .confirmationExpired
  let reservation ← orError .confirmationExpired (db.quotaReservations.find? (·.id = input.reservationId))
  require (reservation.state = .reserved) .confirmationExpired
  if t.confirmedAt.isSome then pure (true, db)
  else
    require (input.confirmedAt < t.expiresAt + seconds clockSkewSeconds) .confirmationExpired
    pure (false, { db with
      admissionTokens := db.admissionTokens.update (fun t => t.tokenId = input.tokenId ∧ t.confirmedAt = none)
        (confirmedToken input.confirmedAt) })

def confirm (db : Database) (input : ConfirmAdmissionInput) :
    Except AdmissionRuntimeError (Bool × Database) := do
  require (∀ value ∈ [input.audience, input.tokenId, input.reservationId, input.requestId],
    identifierIsValid value) .inputInvalid
  confirmTx db input

def terminalFailure : QuotaError → AdmissionRuntimeError
  | .aborted => .quota .aborted
  | error => if error.errorCode = "quota_terminal_conflict" then .terminalConflict else .storage error.message

def runTerminal (db : Database) (input : TerminalApplyInput) (violationId : String) :
    Except AdmissionRuntimeError Database :=
  match terminalTx db input.reservationId input.actualNanoUsd input.appliedAt violationId with
  | .ok (_, next) => .ok next
  | .error error => .error (terminalFailure error)

def receiptRow (input : TerminalApplyInput) : TerminalReceipt :=
  ⟨input.tokenId, input.reservationId, input.requestId, input.audience, input.kind, input.actualNanoUsd,
    input.canonicalDigest, input.appliedAt⟩

def applyTerminalTx (db : Database) (input : TerminalApplyInput) (violationId : String) :
    Except AdmissionRuntimeError (TerminalApplyResult × Database) := do
  let t ← orError .tokenNotFound (db.admissionTokens.find? (·.tokenId = input.tokenId))
  match db.terminalReceipts.find? (·.tokenId = input.tokenId) with
  | some receipt =>
    require (receipt.canonicalDigest = input.canonicalDigest) .terminalConflict
    pure (.duplicate, db)
  | none =>
    require (t.reservationId = input.reservationId ∧ t.requestId = input.requestId ∧
      t.audience = input.audience) .bindingMismatch
    require (input.kind = .settlement → t.confirmedAt ≠ none) .terminalConflict
    let next ← runTerminal db input violationId
    let receipts ← orError tokenConflict (next.terminalReceipts.insert? (receiptRow input))
    pure (.applied, { next with terminalReceipts := receipts })

def storedExpiry (t : AdmissionToken) : Except AdmissionRuntimeError Instant := do
  require (t.expiresAt / seconds 1 = t.expiresAtUnix)
    (.storage "stored admission expiry mirror does not match expires_at")
  pure t.expiresAt

def releaseInput (t : AdmissionToken) (now : Instant) : TerminalApplyInput :=
  ⟨t.tokenId, t.reservationId, t.requestId, t.audience, .release, none, "", now⟩

def recoverUnconfirmedTx (db : Database) (tokenId : String) (now : Instant)
    (violationId : String) : Except AdmissionRuntimeError (Option TerminalApplyResult × Database) := do
  match db.admissionTokens.find? (·.tokenId = tokenId) with
  | none => pure (none, db)
  | some t =>
    if t.confirmedAt.isSome then pure (none, db)
    else
      let expiry ← storedExpiry t
      if now < expiry + seconds clockSkewSeconds then pure (none, db)
      else
        let digest ← terminalDigest (releaseInput t now)
        let (result, next) ← applyTerminalTx db { releaseInput t now with canonicalDigest := digest } violationId
        pure (some result, next)

end Monoize
