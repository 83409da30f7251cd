import Monoize.Database

/-! Sales codes: the amounts an order carries, the commission rate and the agents' rows. -/

namespace Monoize

open Fallible MachineInt Relational

def maxCommissionRateBp : Int := 2000

def defaultCommissionRateBp : Int := 500

def minCodedOrderMinor : Int := 100

def bpDenominator : Int := 10000

inductive SalesError
  | rateOutOfRange | discountAboveRate | invalidAmount | amountTooSmall
  deriving DecidableEq

def SalesError.debug : SalesError → String
  | rateOutOfRange => "RateOutOfRange"
  | discountAboveRate => "DiscountAboveRate"
  | invalidAmount => "InvalidAmount"
  | amountTooSmall => "AmountTooSmall"

structure SalesAmounts where
  (baseMinor discountMinor paymentMinor commissionMinor : Int)
  deriving DecidableEq

def computeAmounts (baseMinor commissionRateBp discountBp : Int) : Except SalesError SalesAmounts := do
  require (0 ≤ commissionRateBp ∧ commissionRateBp ≤ maxCommissionRateBp) .rateOutOfRange
  require (0 ≤ discountBp ∧ discountBp ≤ commissionRateBp) .discountAboveRate
  require (0 < baseMinor) .invalidAmount
  require (minCodedOrderMinor ≤ baseMinor) .amountTooSmall
  let discounted ← orError .invalidAmount (checked 127 (baseMinor * discountBp))
  let discountMinor := discounted / bpDenominator
  let paymentMinor ← orError .invalidAmount (checked 127 (baseMinor - discountMinor))
  let earned ← orError .invalidAmount (checked 127 (baseMinor * (commissionRateBp - discountBp)))
  require (0 < paymentMinor) .invalidAmount
  pure ⟨baseMinor, discountMinor, paymentMinor, earned / bpDenominator⟩

def FundedByAgent (base rate : Int) (amounts : SalesAmounts) : Prop :=
  amounts.paymentMinor + amounts.discountMinor = base ∧ 0 < amounts.paymentMinor ∧ 0 ≤ amounts.commissionMinor ∧
    (amounts.paymentMinor - amounts.commissionMinor = base - base * rate / bpDenominator ∨
      amounts.paymentMinor - amounts.commissionMinor = base - base * rate / bpDenominator + 1)

theorem computeAmounts_funded {base rate discount : Int} {amounts : SalesAmounts}
    (h : computeAmounts base rate discount = .ok amounts) : FundedByAgent base rate amounts := by
  simp only [computeAmounts, ok_iff, checked_eq_some] at h
  obtain ⟨_, -, _, ⟨-, hdiscount⟩, _, hbase, _, -, _, ⟨rfl, -⟩, _, ⟨rfl, -⟩, _, ⟨rfl, -⟩, _, hpay, rfl⟩ := h
  have hearned : 0 ≤ base * (rate - discount) := Int.mul_nonneg (by omega) (by omega)
  have hsplit : base * rate = base * discount + base * (rate - discount) := by
    rw [← Int.mul_add, Int.add_comm, Int.sub_add_cancel]
  simp only [FundedByAgent, bpDenominator] at hpay ⊢
  rw [hsplit]
  omega

/-- What the platform keeps moves by at most one fen with the discount. -/
theorem discount_funded_by_agent (base rate discount other : Int) (amounts others : SalesAmounts)
    (h : computeAmounts base rate discount = .ok amounts) (hother : computeAmounts base rate other = .ok others) :
    FundedByAgent base rate amounts ∧
      ((amounts.paymentMinor - amounts.commissionMinor) - (others.paymentMinor - others.commissionMinor)).natAbs ≤ 1 := by
  have hshares := computeAmounts_funded h
  have hothers := computeAmounts_funded hother
  refine ⟨hshares, ?_⟩
  unfold FundedByAgent at hshares hothers
  omega

theorem discount_funded_by_agent_sample : computeAmounts 1999 500 100 = .ok ⟨1999, 19, 1980, 79⟩ ∧
    computeAmounts 1999 500 0 = .ok ⟨1999, 0, 1999, 99⟩ ∧ (((1980 : Int) - 79) - (1999 - 99)).natAbs ≤ 1 :=
  ⟨by decide, by decide, (discount_funded_by_agent 1999 500 100 0 _ _ rfl rfl).2⟩

inductive SalesStoreError
  | invalidInput | codeInvalid | selfReferral | discountAboveRate | amountTooSmall | notAgent | claimMismatch
  | claimAlreadyCredited | claimRateLimited | withdrawalPending | withdrawalNotPending | withdrawalNotFound
  | insufficientBalance
  | storage (message : String)
  deriving DecidableEq

def SalesStoreError.message : SalesStoreError → String
  | invalidInput => "sales input is invalid"
  | codeInvalid => "sales code is invalid"
  | selfReferral => "an agent may not use their own code"
  | discountAboveRate => "discount exceeds the commission rate"
  | amountTooSmall => "order amount is below the sales-code minimum"
  | notAgent => "the caller is not a sales agent"
  | claimMismatch => "the order and user do not correspond"
  | claimAlreadyCredited => "this order already has commission"
  | claimRateLimited => "claim rate limit exceeded"
  | withdrawalPending => "a withdrawal is already pending"
  | withdrawalNotPending => "withdrawal is not pending"
  | withdrawalNotFound => "withdrawal was not found"
  | insufficientBalance => "insufficient commission balance"
  | storage message => "sales storage failure: " ++ message

def salesParseSignedMinor (value : String) : Except SalesStoreError Int := do
  let v ← orError .invalidInput ((signed? value.toList).bind (checked 127))
  require (toString v = value) .invalidInput
  pure v

def salesParseMinor (value : String) : Except SalesStoreError Int := do
  let v ← salesParseSignedMinor value
  require (0 ≤ v) .invalidInput
  pure v

def commissionRateKey : String := "store.sales_commission_rate_bp"

variable (db : Database)

def commissionRateForEntry : Except SalesStoreError Int :=
  match db.systemSettings.find? (·.key = commissionRateKey) with
  | none => pure defaultCommissionRateBp
  | some row => do
    let rate ← orError .invalidInput ((signed? row.value.toList).bind (checked 63))
    require (0 ≤ rate ∧ rate ≤ maxCommissionRateBp) .invalidInput
    pure rate

def commissionRateBp : Except SalesStoreError Int := commissionRateForEntry db

def withValue (value : String) (s : SystemSetting) : SystemSetting := { s with value := value }

/-- `INSERT … ON CONFLICT (key) DO UPDATE`. -/
def putSetting (settings : Table SystemSetting) (key value : String) : Table SystemSetting :=
  (settings.insert? ⟨key, value⟩).getD (settings.update (·.key = key) (withValue value))

def setCommissionRateBp (rateBp : Int) : Except SalesStoreError (Int × Database) := do
  require (0 ≤ rateBp ∧ rateBp ≤ maxCommissionRateBp) .invalidInput
  require (db.salesAgents.count (fun a => a.enabled ∧ rateBp < a.discountBp) = 0) .discountAboveRate
  pure (rateBp, { db with
    systemSettings := putSetting db.systemSettings commissionRateKey (toString rateBp) })

def codeAlphabet : List Char := "0123456789ABCDEFGHJKMNPQRSTVWXYZ".toList

def codeLength : Nat := 8

def normalizeCode (input : String) : Option String :=
  let normalized := (input.toList.filter fun c => c ≠ '-' ∧ c ≠ ' ').map Char.toUpper
  if normalized.length = codeLength ∧ ∀ c ∈ normalized, c ∈ codeAlphabet then some (String.ofList normalized)
  else none

structure ResolvedSalesCode where
  (agentUserId code : String)
  (discountBp commissionRateBp : Int)

def resolveCode (input : String) : Except SalesStoreError ResolvedSalesCode := do
  let normalized ← orError .codeInvalid (normalizeCode input)
  let rateBp ← commissionRateBp db
  let agent ← orError .codeInvalid (db.salesAgents.find? fun a => a.code = normalized ∧ a.enabled)
  require (agent.discountBp ≤ rateBp) .discountAboveRate
  pure ⟨agent.userId, agent.code, agent.discountBp, rateBp⟩

def insertAgent (userId code : String) (discountBp : Int) : Except SalesStoreError (SalesAgent × Database) := do
  let rateBp ← commissionRateBp db
  require (0 ≤ discountBp ∧ discountBp ≤ rateBp) .discountAboveRate
  let agent : SalesAgent := ⟨userId, code, discountBp, 0, true⟩
  let agents ← orError (.storage "UNIQUE constraint failed") (db.salesAgents.insert? agent)
  pure (agent, { db with salesAgents := agents })

def withEnabled (enabled : Bool) (a : SalesAgent) : SalesAgent := { a with enabled := enabled }

def withDiscount (discountBp : Int) (a : SalesAgent) : SalesAgent := { a with discountBp := discountBp }

def withCommissionBalance (balance : Int) (a : SalesAgent) : SalesAgent := { a with commissionBalanceFen := balance }

def updateAgent (userId : String) (f : SalesAgent → SalesAgent)
    (hf : ∀ a, Keyed.key (f a) = Keyed.key a := by exact Relational.keyKept fun _ => rfl) :
    Except SalesStoreError (SalesAgent × Database) := do
  let agents := db.salesAgents.update (·.userId = userId) f hf
  let agent ← orError .notAgent (agents.find? (·.userId = userId))
  pure (agent, { db with salesAgents := agents })

def setAgentEnabled (userId : String) (enabled : Bool) : Except SalesStoreError (SalesAgent × Database) :=
  updateAgent db userId (withEnabled enabled)

def setOwnDiscount (userId : String) (discountBp : Int) : Except SalesStoreError (SalesAgent × Database) := do
  let rateBp ← commissionRateBp db
  require (0 ≤ discountBp ∧ discountBp ≤ rateBp) .discountAboveRate
  updateAgent db userId (withDiscount discountBp)

def faceValueMinor (quote : Option OrderQuote) : Except SalesStoreError Int := do
  let balance ← orError .invalidInput (quote.bind fun q => q.product.balance)
  salesParseMinor balance.rechargeMinor

def withReversedAt (now : Int) (e : CommissionEntry) : CommissionEntry := { e with reversedAt := some now }

def creditAgent (agentUserId : String) (delta : Int) : Except SalesStoreError Database := do
  let agent ← orError .notAgent (db.salesAgents.find? (·.userId = agentUserId))
  let balance ← orError .invalidInput (checked 127 agent.commissionBalanceFen)
  pure { db with
    salesAgents := db.salesAgents.update (·.userId = agentUserId)
      (withCommissionBalance (wrapping 127 (balance + delta))) }

def reverseCommissionForOrder (orderId : String) (now : Int) : Except SalesStoreError (Option Int × Database) :=
  match db.commissionEntries.find? fun e => e.orderId = orderId ∧ e.reversedAt = none with
  | none => pure (none, db)
  | some entry => do
    let commission ← salesParseMinor (toString entry.commissionFen)
    let next ← creditAgent { db with
      commissionEntries := db.commissionEntries.update (fun e => e.id = entry.id ∧ e.reversedAt = none)
        (withReversedAt now) } entry.agentUserId (-commission)
    pure (some commission, next)

end Monoize
