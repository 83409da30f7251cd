import Monoize.AccountSchema
import Monoize.AdmissionSchema
import Monoize.StoreSchema

namespace Monoize

open Relational

/-- The SHA-256 digests that the code takes, in lowercase hexadecimal: of a text, of several parts and of a JSON object. -/
class Sha256 where
  sha256 : String → String
  digest : List String → String
  sha256Json : List (String × String) → String

export Sha256 (sha256 digest sha256Json)

namespace SampleDigests

scoped instance plain : Sha256 := ⟨id, fun _ => "", fun _ => ""⟩

end SampleDigests

inductive Backend
  | sqlite | postgres
  deriving DecidableEq

/-- The primary's database. A transaction is a function that returns the next database or an error;
an error leaves the database as it was. -/
structure Database where
  backend : Backend := .sqlite
  planFeaturesEnabled : Bool := false
  users : Table User := .empty
  balanceHolds : Table BalanceHold := .empty
  apiKeys : Table ApiKey := .empty
  billingLedger : Table BillingLedgerRow := .empty
  entitlementGenerations : Table EntitlementGenerationRow := .empty
  entitlementLifecycle : Table EntitlementLifecycle := .empty
  entitlementCurrent : Table EntitlementCurrent := .empty
  quotaBuckets : Table QuotaBucket := .empty
  quotaReservations : Table QuotaReservationRow := .empty
  quotaReservationBuckets : Table QuotaReservationBucket := .empty
  quotaViolations : Table QuotaViolation := .empty
  quotaAdmissionBlocks : Table QuotaAdmissionBlock := .empty
  admissionTokens : Table AdmissionToken := .empty
  terminalReceipts : Table TerminalReceipt := .empty
  storeOrders : Table StoreOrder := .empty
  paymentAttempts : Table PaymentAttempt := .empty
  providerEvents : Table ProviderEvent := .empty
  orderEventApplications : Table OrderEventApplication := .empty
  reconciliationLeases : Table ReconciliationLease := .empty
  reconciliationCases : Table ReconciliationCase := .empty
  refunds : Table Refund := .empty
  rewardRecoveries : Table RewardRecovery := .empty
  recoveryClaims : Table RecoveryClaim := .empty
  salesAgents : Table SalesAgent := .empty
  commissionEntries : Table CommissionEntry := .empty
  systemSettings : Table SystemSetting := .empty

def commit {ε α : Type} (db : Database) : Except ε (α × Database) → Database
  | .ok (_, db') => db'
  | .error _ => db

end Monoize
