import Monoize.Table

namespace Monoize

open Relational

inductive TerminalKind
  | settlement | release
  deriving DecidableEq

structure AdmissionToken where
  (tokenId audience requestId userId : String)
  effectiveGroups : List String
  (reservationId entitlementId : String)
  (generation maximumNanoUsd reservedFenCny : Int)
  (pricingRevision keyId compactJws compactJwsDigest : String)
  (issuedAt expiresAt expiresAtUnix : Int)
  confirmedAt : Option Int

structure TerminalReceipt where
  (tokenId reservationId requestId audience : String)
  terminalKind : TerminalKind
  actualNanoUsd : Option Int
  canonicalDigest : String
  appliedAt : Int

instance : Keyed AdmissionToken where
  Key := String × (String × String) × String × String
  key t := (t.tokenId, (t.audience, t.requestId), t.reservationId, t.compactJwsDigest)
  Clash k l := k.1 = l.1 ∨ k.2.1 = l.2.1 ∨ k.2.2.1 = l.2.2.1 ∨ k.2.2.2 = l.2.2.2
  clash_symm := Or.imp Eq.symm (Or.imp Eq.symm (Or.imp Eq.symm Eq.symm))

instance : Keyed TerminalReceipt := .on (·.tokenId)

theorem AdmissionToken.clashes_of_tokenId {a b : AdmissionToken} (h : a.tokenId = b.tokenId) :
    Clashes a b := .inl h

theorem AdmissionToken.clashes_of_reservationId {a b : AdmissionToken}
    (h : a.reservationId = b.reservationId) : Clashes a b := .inr (.inr (.inl h))

end Monoize
