import Monoize.AdmissionSpool

/-! The keys that sign admission tokens, and the tokens they sign. -/

namespace Monoize

open Fallible Relational

structure SignatureScheme (Key Message Signature : Type) where
  sign : Key → Message → Signature
  verify : Key → Message → Signature → Bool
  verify_sign : ∀ key message, verify key message (sign key message) = true

structure TokenHeader where
  (alg kid typ : String)
  deriving DecidableEq

structure TokenClaims where
  v : Int
  (iss aud jti reservationId requestId entitlementId : String)
  generation : Int
  (maximumNanoUsd reservedFenCny pricingRevision : String)
  (iat nbf exp : Int)
  deriving DecidableEq

structure CompactToken (Signature : Type) where
  header : TokenHeader
  claims : TokenClaims
  signature : Signature

def headerJson (h : TokenHeader) : String :=
  jsonObject [("alg", jsonText h.alg), ("kid", jsonText h.kid), ("typ", jsonText h.typ)]

def claimsJson (c : TokenClaims) : String :=
  jsonObject [("v", toString c.v), ("iss", jsonText c.iss), ("aud", jsonText c.aud), ("jti", jsonText c.jti),
    ("reservation_id", jsonText c.reservationId), ("request_id", jsonText c.requestId),
    ("entitlement_id", jsonText c.entitlementId), ("generation", toString c.generation),
    ("maximum_nano_usd", jsonText c.maximumNanoUsd), ("reserved_fen_cny", jsonText c.reservedFenCny),
    ("pricing_revision", jsonText c.pricingRevision), ("iat", toString c.iat), ("nbf", toString c.nbf),
    ("exp", toString c.exp)]

def segmentBytes (bytes : Nat) : Nat := (4 * bytes + 2) / 3

def signatureBytes : Nat := 64

def CompactToken.bytes {Signature : Type} (token : CompactToken Signature) : Nat :=
  segmentBytes (headerJson token.header).utf8ByteSize + 1 + segmentBytes (claimsJson token.claims).utf8ByteSize + 1 +
    segmentBytes signatureBytes

def maxTokenBytes : Nat := 16 * 1024

/-- An input whose numbers and times their machine types can hold. -/
structure TokenInput extends AdmissionTokenInput where
  generation_lt : generation < 2 ^ 63
  maximum_lt : maximumNanoUsd < 2 ^ 127
  reserved_lt : reservedFenCny < 2 ^ 127
  issued_ge : minInstant ≤ issuedAt
  issued_le : issuedAt ≤ maxInstant

structure AdmissionBinding where
  (audience reservationId requestId entitlementId : String)
  (generation maximumNanoUsd reservedFenCny : Int)
  pricingRevision : String

def TokenInput.binding (input : TokenInput) : AdmissionBinding where
  audience := input.audience
  reservationId := input.reservationId
  requestId := input.requestId
  entitlementId := input.entitlementId
  generation := input.generation
  maximumNanoUsd := input.maximumNanoUsd
  reservedFenCny := input.reservedFenCny
  pricingRevision := input.pricingRevision

structure VerifiedToken where
  (issuer keyId audience tokenId reservationId requestId entitlementId : String)
  (generation maximumNanoUsd reservedFenCny : Int)
  pricingRevision : String
  (issuedAt expiresAt : Instant)
  deriving DecidableEq

def unixSeconds (value : Instant) : Int := value / 1000000000

def unixTime (value : Int) : Instant := seconds value

structure AdmissionSigningKey (Key : Type) where
  keyId : String
  signingKey : Key
  activatedAt : Instant
  valid : identifierIsValid keyId

structure PriorAdmissionSigningKey (Key : Type) where
  key : AdmissionSigningKey Key
  deactivatedAt : Instant
  (lastIssuedExpiresAt verifyUntil : Option Instant)

inductive KeyState
  | published | active | retired
  deriving DecidableEq

structure KeyEntry (Key : Type) where
  key : AdmissionSigningKey Key
  state : KeyState
  (lastIssuedExpiresAt verifyUntil : Option Instant)

instance (Key : Type) : Keyed (KeyEntry Key) := .on (·.key.keyId)

structure KeyRing (Key : Type) where
  (issuer activeKeyId : String)
  keys : Table (KeyEntry Key)
  valid : identifierIsValid issuer

def checkedAdd (value : Instant) (secs : Int) : Except AdmissionError Instant := do
  require (value + seconds secs ≤ maxInstant) .invalidInput
  pure (value + seconds secs)

def validateTokenInput (input : AdmissionTokenInput) : Prop :=
  identifierIsValid input.audience ∧ identifierIsValid input.tokenId ∧ identifierIsValid input.reservationId ∧
    identifierIsValid input.requestId ∧ identifierIsValid input.entitlementId ∧
    identifierIsValid input.pricingRevision ∧ 0 < input.generation ∧ 0 ≤ input.maximumNanoUsd ∧
    0 ≤ input.reservedFenCny
  deriving Decidable

def parseCanonicalAmount (value : String) : Except AdmissionError Int :=
  match parseCanonical value with
  | .ok amount => .ok amount
  | .error _ => .error .nonCanonicalToken

variable {Key Signature : Type} (scheme : SignatureScheme Key (TokenHeader × TokenClaims) Signature)

def signedHeader (keyId : String) : TokenHeader := ⟨"EdDSA", keyId, "lynshen-plan-admission"⟩

def signedClaims (issuer : String) (input : AdmissionTokenInput) : TokenClaims where
  v := 1
  iss := issuer
  aud := input.audience
  jti := input.tokenId
  reservationId := input.reservationId
  requestId := input.requestId
  entitlementId := input.entitlementId
  generation := input.generation
  maximumNanoUsd := toString input.maximumNanoUsd
  reservedFenCny := toString input.reservedFenCny
  pricingRevision := input.pricingRevision
  iat := unixSeconds input.issuedAt
  nbf := unixSeconds input.issuedAt
  exp := unixSeconds (input.issuedAt + seconds 30)

def verifySigned (key : Key) (issuer audience : String) (token : CompactToken Signature) (now : Instant) :
    Except AdmissionError (Int × Int) := do
  let claims := token.claims
  require (scheme.verify key (token.header, claims) token.signature) .invalidSignature
  require (claims.v = 1 ∧ claims.nbf = claims.iat ∧ claims.exp = claims.iat + 30) .nonCanonicalToken
  require (claims.iss = issuer) .wrongIssuer
  require (claims.aud = audience) .wrongAudience
  require (claims.nbf - 5 ≤ unixSeconds now) .notYetValid
  require (unixSeconds now < claims.exp + 5) .expired
  let maximumNanoUsd ← parseCanonicalAmount claims.maximumNanoUsd
  let reservedFenCny ← parseCanonicalAmount claims.reservedFenCny
  pure (maximumNanoUsd, reservedFenCny)

def verifyHeader (token : CompactToken Signature) : Except AdmissionError String := do
  require (token.bytes ≤ maxTokenBytes) .nonCanonicalToken
  require (token.header.alg = "EdDSA" ∧ token.header.typ = "lynshen-plan-admission") .nonCanonicalToken
  require (identifierIsValid token.header.kid) .invalidInput
  pure token.header.kid

def verifiedToken (token : CompactToken Signature) (maximumNanoUsd reservedFenCny : Int) : VerifiedToken where
  issuer := token.claims.iss
  keyId := token.header.kid
  audience := token.claims.aud
  tokenId := token.claims.jti
  reservationId := token.claims.reservationId
  requestId := token.claims.requestId
  entitlementId := token.claims.entitlementId
  generation := token.claims.generation
  maximumNanoUsd := maximumNanoUsd
  reservedFenCny := reservedFenCny
  pricingRevision := token.claims.pricingRevision
  issuedAt := unixTime token.claims.iat
  expiresAt := unixTime token.claims.exp

namespace KeyRing

def addPrior (keys : Table (KeyEntry Key)) (prior : PriorAdmissionSigningKey Key) :
    Except AdmissionError (Table (KeyEntry Key)) := do
  require (prior.key.activatedAt ≤ prior.deactivatedAt) .invalidInput
  let minimum ← checkedAdd prior.deactivatedAt 300
  let issuedLimit ← prior.lastIssuedExpiresAt.mapM fun expires => checkedAdd expires 5
  let verifyUntil := (prior.verifyUntil.toList ++ issuedLimit.toList).foldl max minimum
  orError .invalidInput (keys.insert? ⟨prior.key, .retired, prior.lastIssuedExpiresAt, some verifyUntil⟩)

def activeEntry (key : AdmissionSigningKey Key) : KeyEntry Key := ⟨key, .active, none, none⟩

def new (issuer : String) (active : AdmissionSigningKey Key) (prior : List (PriorAdmissionSigningKey Key)) :
    Except AdmissionError (KeyRing Key) :=
  if valid : identifierIsValid issuer then do
    let keys ← prior.foldlM addPrior (.single (activeEntry active))
    pure ⟨issuer, active.keyId, keys, valid⟩
  else .error .invalidInput

def entry? (ring : KeyRing Key) (keyId : String) : Option (KeyEntry Key) :=
  ring.keys.find? (·.key.keyId = keyId)

def issuedUntil (expiresAt : Instant) (e : KeyEntry Key) : KeyEntry Key :=
  { e with lastIssuedExpiresAt := some ((e.lastIssuedExpiresAt.map (max · expiresAt)).getD expiresAt) }

def issue (ring : KeyRing Key) (input : AdmissionTokenInput) :
    Except AdmissionError (CompactToken Signature × KeyRing Key) := do
  require (validateTokenInput input) .invalidInput
  let entry ← orError .unknownKey (ring.entry? ring.activeKeyId)
  require (entry.state = .active ∧ entry.key.activatedAt ≤ input.issuedAt) .unknownKey
  let header := signedHeader entry.key.keyId
  let claims := signedClaims ring.issuer input
  pure (⟨header, claims, scheme.sign entry.key.signingKey (header, claims)⟩, { ring with
    keys := ring.keys.update (·.key.keyId = ring.activeKeyId) (issuedUntil (input.issuedAt + seconds 30)) })

def verify (ring : KeyRing Key) (token : CompactToken Signature) (binding : AdmissionBinding) (now : Instant) :
    Except AdmissionError VerifiedToken := do
  let keyId ← verifyHeader token
  let entry ← orError .unknownKey (ring.entry? keyId)
  require (¬ (entry.state = .published ∨ entry.state = .retired ∧ ∃ t ∈ entry.verifyUntil, t ≤ now)) .unknownKey
  let (maximumNanoUsd, reservedFenCny) ← verifySigned scheme entry.key.signingKey ring.issuer binding.audience token now
  require (token.claims.reservationId = binding.reservationId ∧ token.claims.requestId = binding.requestId ∧
    token.claims.entitlementId = binding.entitlementId ∧ token.claims.generation = binding.generation ∧
    maximumNanoUsd = binding.maximumNanoUsd ∧ reservedFenCny = binding.reservedFenCny ∧
    token.claims.pricingRevision = binding.pricingRevision) .bindingMismatch
  pure (verifiedToken token maximumNanoUsd reservedFenCny)

def publish (ring : KeyRing Key) (key : AdmissionSigningKey Key) : Except AdmissionError (KeyRing Key) := do
  let keys ← orError .invalidInput (ring.keys.insert? ⟨key, .published, none, none⟩)
  pure { ring with keys := keys }

def retire (now : Instant) (e : KeyEntry Key) : KeyEntry Key :=
  let minimum := now + seconds 300
  { e with
    state := .retired
    verifyUntil := some ((e.lastIssuedExpiresAt.map fun expires => max (expires + seconds 5) minimum).getD minimum) }

def promote (e : KeyEntry Key) : KeyEntry Key := { e with state := .active }

def activate (ring : KeyRing Key) (keyId : String) (now : Instant) : Except AdmissionError (KeyRing Key) := do
  let next ← orError .unknownKey (ring.entry? keyId)
  require (next.state = .published ∧ next.key.activatedAt ≤ now) .invalidInput
  let _ ← orError .unknownKey (ring.entry? ring.activeKeyId)
  let retired := ring.keys.update (·.key.keyId = ring.activeKeyId) (retire now)
  pure { ring with
    activeKeyId := keyId
    keys := retired.update (·.key.keyId = keyId) promote }

def pruneRetired (ring : KeyRing Key) (now : Instant) : KeyRing Key :=
  { ring with
    keys := ring.keys.remove fun e => e.state = .retired ∧ ∃ t ∈ e.verifyUntil, t ≤ now }

end KeyRing

end Monoize
