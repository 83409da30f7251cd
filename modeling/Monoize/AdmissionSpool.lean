import Monoize.CivilTime
import Monoize.ClaimStore

/-! The claim store with its files: what each operation writes, links, renames, removes and syncs, what it does when
one of these fails, and how it accounts for the bytes. -/

namespace Monoize

open CivilTime Fallible Relational

def jsonEscape (c : Char) : List Char :=
  if c = '"' then ['\\', '"'] else if c = '\\' then ['\\', '\\'] else [c]

def jsonText (value : String) : String := "\"" ++ String.ofList (value.toList.flatMap jsonEscape) ++ "\""

def jsonMembers : List (String × String) → String
  | [] => ""
  | [(name, value)] => jsonText name ++ ":" ++ value
  | (name, value) :: member :: members => jsonText name ++ ":" ++ value ++ "," ++ jsonMembers (member :: members)

def jsonObject (members : List (String × String)) : String := "\x7b" ++ jsonMembers members ++ "\x7d"

def jsonTime : Option Instant → String
  | none => "null"
  | some value => "\"" ++ rfc3339Auto value ++ "\""

def ClaimState.text : ClaimState → String
  | claimed => "claimed"
  | confirmed => "confirmed"
  | routed => "routed"
  | releasePending => "release_pending"

def terminalReservedBytes : Int := 4096

def claimJson (m : ClaimMarker) : String :=
  jsonObject [("version", "1"), ("token_id", jsonText m.tokenId), ("reservation_id", jsonText m.reservationId),
    ("request_id", jsonText m.requestId), ("audience", jsonText m.audience),
    ("maximum_nano_usd", jsonText (toString m.maximumNanoUsd)), ("expires_at", jsonTime (some m.expiresAt)),
    ("state", jsonText m.state.text), ("routed_at", jsonTime m.routedAt), ("acknowledged_at", jsonTime m.acknowledgedAt),
    ("terminal_reserved_bytes", "4096")]

def terminalJson (wire : PlanTerminalWire) : String :=
  jsonObject [("version", "1"), ("token_id", jsonText wire.tokenId), ("reservation_id", jsonText wire.reservationId),
    ("request_id", jsonText wire.requestId), ("audience", jsonText wire.audience),
    ("kind", jsonText (terminalKind wire.kind)), ("actual_nano_usd", (wire.actualNanoUsd.map jsonText).getD "null"),
    ("canonical_digest", jsonText wire.canonicalDigest), ("created_at", jsonTime (some wire.createdAt))]

def claimBytes (m : ClaimMarker) : Int := (claimJson m).utf8ByteSize

def terminalBytes (r : TerminalSpoolRecord) : Int := (terminalJson r.wire).utf8ByteSize

/-- The store on disk with the files that a failed removal left behind, its share of the accounted bytes, and the
share of the other users of the same capacity. -/
structure AdmissionSpool where
  store : ClaimStore := {}
  claimTemps : Nat := 0
  terminalTemps : Nat := 0
  accounted : Int := 0
  elsewhere : Int := 0
  maxBytes : Int

structure PublishFaults where
  write : Bool := false
  link : Bool := false
  discard : Bool := false
  sync : Bool := false

structure ReplaceFaults where
  write : Bool := false
  rename : Bool := false
  discard : Bool := false
  sync : Bool := false

structure AcknowledgeFaults where
  replace : ReplaceFaults := {}
  remove : Bool := false
  sync : Bool := false

structure CleanupFaults where
  remove : Nat → Bool := fun _ => false
  sync : Bool := false

structure OpenFaults where
  claimTemp : Nat → Bool := fun _ => false
  claimSync : Bool := false
  terminalTemp : Nat → Bool := fun _ => false
  terminalSync : Bool := false
  rootSync : Bool := false
  recover : Nat → PublishFaults := fun _ => {}

abbrev Outcome (α : Type) := Except AdmissionError α × AdmissionSpool

def leftover (discard : Bool) : Nat := if discard then 1 else 0

inductive Publication
  | published | present | failed
  deriving DecidableEq

def durablePublishNew (present : Bool) (faults : PublishFaults) : Publication :=
  if faults.write || faults.link then .failed else if present then .present else .published

def ReplaceFaults.replaces (faults : ReplaceFaults) : Bool := !faults.write && !faults.rename

namespace AdmissionSpool

variable [Sha256]

def inputIsValid (input : TerminalSpoolInput) : Prop :=
  terminalIsValid input.tokenId input.reservationId input.requestId input.audience input.kind input.actualNanoUsd
  deriving Decidable

def terminalIsReadable (r : TerminalSpoolRecord) : Prop :=
  terminalBytes r ≤ terminalReservedBytes ∧ inputIsValid r.input ∧ r = spoolRecord r.input
  deriving Decidable

variable (s : AdmissionSpool) (tokenId : String)

def claim (a : VerifiedAdmission) (faults : PublishFaults) : Outcome Unit :=
  let marker := claimMarker a
  let bytes := claimBytes marker + terminalReservedBytes
  if ¬ claimIsValid marker then (.error .invalidInput, s)
  else if s.maxBytes < s.accounted + s.elsewhere + bytes then (.error .spoolQuotaExhausted, s)
  else
    let s := { s with claimTemps := s.claimTemps + leftover faults.discard }
    match s.store.claims.insert? marker, durablePublishNew (s.store.claims.insert? marker).isNone faults with
    | some claims, .published =>
      (if faults.sync then .error .io else .ok (), { s with
        store := { s.store with claims := claims }
        accounted := s.accounted + bytes })
    | _, .present => (.error .replay, s)
    | _, _ => (.error .io, s)

def spoolTerminal (input : TerminalSpoolInput) (faults : PublishFaults) : Outcome TerminalSpoolRecord :=
  let record := spoolRecord input
  if ¬ inputIsValid input then (.error .invalidInput, s)
  else if terminalReservedBytes < terminalBytes record then (.error .terminalTooLarge, s)
  else
    match readClaim s.store input.tokenId with
    | .error e => (.error e, s)
    | .ok m =>
      if m.acknowledgedAt ≠ none ∨ m.reservationId ≠ input.reservationId ∨ m.requestId ≠ input.requestId ∨
          m.audience ≠ input.audience then (.error .claimMissing, s)
      else
        let s := { s with terminalTemps := s.terminalTemps + leftover faults.discard }
        match s.store.terminals.insert? record, durablePublishNew (s.store.terminals.insert? record).isNone faults with
        | some terminals, .published =>
          (if faults.sync then .error .io else .ok record, { s with
            store := { s.store with terminals := terminals }
            accounted := s.accounted + (terminalBytes record - terminalReservedBytes) })
        | _, .present =>
          match findTerminal s.store input.tokenId with
          | none => (.error .claimMissing, s)
          | some existing =>
            if ¬ terminalIsReadable existing then (.error .spoolCorrupt, s)
            else if existing.input ≠ input then (.error .terminalConflict, s)
            else if faults.sync then (.error .io, s)
            else if existing.canonicalDigest ≠ record.canonicalDigest then (.error .terminalConflict, s)
            else (.ok existing, s)
        | _, _ => (.error .io, s)

def rewrite (f : ClaimMarker → ClaimMarker)
    (hf : ∀ m, Keyed.key (f m) = Keyed.key m := by exact Relational.keyKept fun _ => rfl) : AdmissionSpool :=
  { s with
    store := { s.store with claims := s.store.claims.update (·.tokenId = tokenId) f hf } }

def removeTerminal : AdmissionSpool :=
  { s with
    store := { s.store with terminals := s.store.terminals.remove (·.input.tokenId = tokenId) } }

def retireTerminal (terminal : TerminalSpoolRecord) (faults : AcknowledgeFaults) : Outcome Unit :=
  if faults.remove then (.error .io, s)
  else
    (if faults.sync then .error .io else .ok (), { s.removeTerminal terminal.input.tokenId with
      accounted := s.accounted - terminalBytes terminal })

def acknowledgeTerminal (tokenId digest : String) (now : Instant) (faults : AcknowledgeFaults) : Outcome Unit :=
  if ¬ identifierIsValid tokenId then (.error .invalidInput, s)
  else if ¬ digestIsValid digest then (.error .terminalAcknowledgementMismatch, s)
  else
    match readClaim s.store tokenId with
    | .error e => (.error e, s)
    | .ok marker =>
      match findTerminal s.store tokenId with
      | none =>
        if marker.acknowledgedAt ≠ none then (if faults.sync then .error .io else .ok (), s)
        else (.error .terminalAcknowledgementMismatch, s)
      | some terminal =>
        if ¬ terminalIsReadable terminal then (.error .spoolCorrupt, s)
        else if terminal.canonicalDigest ≠ digest then (.error .terminalAcknowledgementMismatch, s)
        else if marker.acknowledgedAt ≠ none then s.retireTerminal terminal faults
        else
          let next := acknowledgedMarker now marker
          if faults.replace.replaces then
            let s := { s.rewrite tokenId (acknowledgedMarker now) (acknowledgedMarker_key now) with
              accounted := s.accounted + (claimBytes next - claimBytes marker) }
            if faults.replace.sync then (.error .io, s) else s.retireTerminal terminal faults
          else (.error .io, { s with claimTemps := s.claimTemps + leftover faults.replace.discard })

def finished (now : Instant) : List ClaimMarker :=
  s.store.claims.rows.filter fun m =>
    m.acknowledgedAt ≠ none ∧ m.expiresAt + seconds 300 ≤ now ∧ findTerminal s.store m.tokenId = none

def removeClaim (m : ClaimMarker) : AdmissionSpool :=
  { s with
    store := { s.store with claims := s.store.claims.remove (·.tokenId = m.tokenId) } }

def removeClaims (s : AdmissionSpool) (faults : Nat → Bool) : Nat → List ClaimMarker →
    Except AdmissionError Unit × AdmissionSpool
  | _, [] => (.ok (), s)
  | i, m :: rest => if faults i then (.error .io, s) else (s.removeClaim m).removeClaims faults (i + 1) rest

def totalBytes (claims : List ClaimMarker) : Int := (claims.map claimBytes).sum

def claimsReadable : Prop := ∀ m ∈ s.store.claims.rows, claimIsValid m
  deriving Decidable

def cleanupAcknowledged (now : Instant) (faults : CleanupFaults) : Outcome (List ClaimMarker) :=
  if ¬ s.claimsReadable then (.error .spoolCorrupt, s)
  else
    let removed := s.finished now
    match s.removeClaims faults.remove 0 removed with
    | (.error e, t) => (.error e, t)
    | (.ok (), t) =>
      if removed = [] then (.ok [], t)
      else if faults.sync then (.error .io, t)
      else (.ok removed, { t with accounted := t.accounted - totalBytes removed })

def replaceClaimState
    (mutate : ClaimMarker → Except AdmissionError (ClaimState × Option Instant)) (faults : ReplaceFaults) :
    Outcome Unit :=
  if ¬ identifierIsValid tokenId then (.error .invalidInput, s)
  else
    match readClaim s.store tokenId with
    | .error e => (.error e, s)
    | .ok marker =>
      match mutate marker with
      | .error e => (.error e, s)
      | .ok (state, routedAt) =>
        let next := markedAs state routedAt marker
        if ¬ claimIsValid next then (.error .invalidInput, s)
        else if next = marker then (.ok (), s)
        else if faults.replaces then
          let t := s.rewrite tokenId (markedAs state routedAt) (markedAs_key state routedAt)
          if faults.sync then (.error .io, t)
          else (.ok (), { t with accounted := s.accounted + (claimBytes next - claimBytes marker) })
        else (.error .io, { s with claimTemps := s.claimTemps + leftover faults.discard })

def markConfirmed (faults : ReplaceFaults) : Outcome Unit :=
  s.replaceClaimState tokenId ClaimMarker.confirm faults

def markRouted (routedAt : Instant) (faults : ReplaceFaults) : Outcome Unit :=
  s.replaceClaimState tokenId (ClaimMarker.route routedAt) faults

def markReleasePending (faults : ReplaceFaults) : Outcome Unit :=
  s.replaceClaimState tokenId ClaimMarker.releaseLater faults

def pendingReleases : List ClaimMarker :=
  s.store.claims.rows.filter fun m =>
    m.acknowledgedAt = none ∧ m.state = .releasePending ∧ findTerminal s.store m.tokenId = none

/-- The claims that a read found pending are terminated one by one; others may act in between. -/
def publishReleases (s : AdmissionSpool) (createdAt : Instant) (faults : Nat → PublishFaults) :
    Nat → List ClaimMarker → Except AdmissionError Unit × AdmissionSpool
  | _, [] => (.ok (), s)
  | i, m :: rest =>
    match s.spoolTerminal (terminalFromClaim m .release createdAt) (faults i) with
    | (.error e, t) => (.error e, t)
    | (.ok _, t) => t.publishReleases createdAt faults (i + 1) rest

def publishReleasePending (createdAt : Instant) (faults : Nat → PublishFaults) : Outcome Nat :=
  if ¬ s.claimsReadable then (.error .spoolCorrupt, s)
  else
    match s.publishReleases createdAt faults 0 s.pendingReleases with
    | (.error e, t) => (.error e, t)
    | (.ok (), t) => (.ok s.pendingReleases.length, t)

def recoveryRecord (createdAt : Instant) (m : ClaimMarker) : TerminalSpoolRecord :=
  spoolRecord (terminalFromClaim m (if m.state = .routed then .settlement else .release) createdAt)

def recoverClaim (m : ClaimMarker) (createdAt : Instant) (faults : PublishFaults) : Outcome Unit :=
  let record := recoveryRecord createdAt m
  if ¬ inputIsValid record.input then (.error .invalidInput, s)
  else if terminalReservedBytes < terminalBytes record then (.error .terminalTooLarge, s)
  else
    let s := { s with terminalTemps := s.terminalTemps + leftover faults.discard }
    match s.store.terminals.insert? record, durablePublishNew (s.store.terminals.insert? record).isNone faults with
    | some terminals, .published =>
      let t := { s with
        store := { s.store with terminals := terminals } }
      if faults.sync then (.error .io, t)
      else (.ok (), { t with accounted := s.accounted + (terminalBytes record - terminalReservedBytes) })
    | _, _ => (.error .io, s)

def recoverClaims (s : AdmissionSpool) (createdAt : Instant) (faults : Nat → PublishFaults) :
    Nat → List ClaimMarker → Except AdmissionError Unit × AdmissionSpool
  | _, [] => (.ok (), s)
  | i, m :: rest =>
    match s.recoverClaim m createdAt (faults i) with
    | (.error e, t) => (.error e, t)
    | (.ok (), t) => t.recoverClaims createdAt faults (i + 1) rest

def reservedBytes (store : ClaimStore) (m : ClaimMarker) : Int :=
  match findTerminal store m.tokenId with
  | some terminal => terminalBytes terminal
  | none => if m.acknowledgedAt = none then terminalReservedBytes else 0

def measuredBytes (store : ClaimStore) : Int := store.claims.total fun m => claimBytes m + reservedBytes store m

def TerminalClaimed (store : ClaimStore) (r : TerminalSpoolRecord) : Prop :=
  ∃ m ∈ store.claims.rows, m.tokenId = r.input.tokenId ∧ m.reservationId = r.input.reservationId ∧
    m.requestId = r.input.requestId ∧ m.audience = r.input.audience
  deriving Decidable

def validateAndMeasure : Except AdmissionError Int := do
  require s.claimsReadable .spoolCorrupt
  require (∀ r ∈ s.store.terminals.rows, terminalIsReadable r) .spoolCorrupt
  require (∀ r ∈ s.store.terminals.rows, TerminalClaimed s.store r) .spoolCorrupt
  require (measuredBytes s.store < 2 ^ 64) .spoolCorrupt
  pure (measuredBytes s.store)

def cleanupTemps (faults : Nat → Bool) (sync : Bool) (temps : Nat) : Bool × Nat :=
  match (List.range temps).find? faults with
  | some i => (false, temps - i)
  | none => (temps = 0 || !sync, 0)

def restarted (faults : OpenFaults) : Bool × AdmissionSpool :=
  let claims := cleanupTemps faults.claimTemp faults.claimSync s.claimTemps
  let s := { s with
    accounted := 0
    elsewhere := 0
    claimTemps := claims.2 }
  if !claims.1 then (false, s)
  else
    let terminals := cleanupTemps faults.terminalTemp faults.terminalSync s.terminalTemps
    (terminals.1 && !faults.rootSync, { s with terminalTemps := terminals.2 })

def openWithCapacity (createdAt : Instant) (faults : OpenFaults) : Outcome Unit :=
  match s.restarted faults with
  | (false, t) => (.error .io, t)
  | (true, t) =>
    match t.validateAndMeasure with
    | .error e => (.error e, t)
    | .ok reconstructed =>
      { t with accounted := reconstructed }.recoverClaims createdAt faults.recover 0 (abandonedClaims t.store)

end AdmissionSpool

end Monoize
