import Monoize.BatchUpdate
import Monoize.Metering

/-! Sub-accounts of API keys: charges, transfers, and the settlements that close a sub-account. -/

namespace Monoize

open Fallible MachineInt Relational

structure LockedUserBalance where
  balance : Int
  unlimited : Bool

structure LockedApiKeyBalance where
  userId : String
  balance : Int
  subAccountEnabled : Bool

variable (db : Database) (call : UpdateApiKeyCall)

def lockUserBalanceTx (userId : String) : Except BillingError LockedUserBalance := do
  let user ← orError ⟨.notFound, "user not found"⟩ (db.users.find? (·.id = userId))
  let balance ← orError ⟨.invalidStoredBalance, "invalid_nano_usd"⟩ (trimmed? 127 user.balanceNanoUsd)
  pure ⟨balance, user.balanceUnlimited⟩

def lockApiKeyBalanceTx (apiKeyId expectedUserId : String) : Except BillingError LockedApiKeyBalance := do
  let key ← orError ⟨.notFound, "api key not found"⟩ (db.apiKeys.find? (·.id = apiKeyId))
  require (key.userId = expectedUserId) ⟨.notFound, "api key owner does not match user"⟩
  let raw ← orError ⟨.internal, "unexpected null column"⟩ key.subAccountBalanceNano
  let balance ← orError ⟨.invalidStoredBalance, "invalid_nano_usd"⟩ (trimmed? 127 raw)
  pure ⟨key.userId, balance, key.subAccountEnabled⟩

def setUserBalance (userId : String) (next : Int) : Database :=
  { db with users := db.users.update (·.id = userId) (withBalance next) (withBalance_key next) }

def setSubAccountBalance (apiKeyId : String) (next : Int) : Database :=
  { db with
    apiKeys := db.apiKeys.update (·.id = apiKeyId) (withSubAccountBalance next) (withSubAccountBalance_key next) }

def insertBillingLedgerTx (row : BillingLedgerRow) : Except BillingError Database := do
  let ledger ← orError ⟨.internal, "UNIQUE constraint failed"⟩ (db.billingLedger.insert? row)
  pure { db with billingLedger := ledger }

def presentKey : Except BillingError LockedApiKeyBalance → Except BillingError (Option LockedApiKeyBalance)
  | .ok key => .ok (some key)
  | .error e => if e.kind = .notFound then .ok none else .error e

def apiKeyChargeRow (charge : RequestCharge) (next : Int) (id : String) : BillingLedgerRow :=
  { requestChargeRow charge next id with kind := "api_key_charge" }

/-- The charge of a request that was admitted on a sub-account. The owner pays when the key is gone or its
sub-account has been closed since. -/
def chargeSubAccountBalanceNano (apiKeyId : String) (charge : RequestCharge) (ledgerId : String) :
    Except BillingError (Unit × Database) :=
  if charge.amountNanoUsd ≤ 0 then pure ((), db)
  else do
    require (∃ id ∈ charge.requestId, trim id.toList ≠ [])
      ⟨.internal, "request charge metadata is missing request_id"⟩
    let user ← lockUserBalanceTx db charge.userId
    let key ← presentKey (lockApiKeyBalanceTx db apiKeyId charge.userId)
    match key.filter (·.subAccountEnabled) with
    | none =>
      if user.unlimited then pure ((), db)
      else do
        let next ← orError ⟨.overflow, "balance subtraction overflow"⟩
          (checked 127 (user.balance - charge.amountNanoUsd))
        let db ← insertBillingLedgerTx (setUserBalance db charge.userId next) (requestChargeRow charge next ledgerId)
        pure ((), db)
    | some key => do
      let next ← orError ⟨.overflow, "sub-account balance subtraction overflow"⟩
        (checked 127 (key.balance - charge.amountNanoUsd))
      let db ← insertBillingLedgerTx (setSubAccountBalance db apiKeyId next) (apiKeyChargeRow charge next ledgerId)
      pure ((), db)

def apiKeyMeta (apiKeyId : String) : String := "\x7b\"api_key_id\":" ++ apiKeyId.quote ++ "\x7d"

def adjustmentMeta (apiKeyId : String) (before after : Int) : String :=
  "\x7b\"api_key_id\":" ++ apiKeyId.quote ++ ",\"balance_after_nano_usd\":" ++ (toString after).quote
    ++ ",\"balance_before_nano_usd\":" ++ (toString before).quote ++ "\x7d"

def settlementRow (id userId kind : String) (delta : Int) (balanceAfter : Option Int) (metaJson now : String) :
    BillingLedgerRow where
  id := id
  userId := userId
  kind := kind
  deltaNanoUsd := delta
  balanceAfterNanoUsd := balanceAfter
  metaJson := metaJson
  createdAt := now
  idempotencyKey := none

structure TransferCall where
  (apiKeyId userId : String)
  amountNanoUsd : Int
  (outId inId now : String)

def transferOut (call : TransferCall) (user : LockedUserBalance) : Except BillingError (Int × Database) :=
  if user.unlimited then pure (user.balance, db)
  else do
    let next ← orError ⟨.overflow, "user balance overflow"⟩ (checked 127 (user.balance - call.amountNanoUsd))
    require (0 ≤ next) ⟨.insufficientBalance, "insufficient balance for transfer"⟩
    pure (next, setUserBalance db call.userId next)

def transferRow (call : TransferCall) (id kind : String) (delta balanceAfter : Int) : BillingLedgerRow :=
  settlementRow id call.userId kind delta (some balanceAfter) (apiKeyMeta call.apiKeyId) call.now

def transferToSubAccount (call : TransferCall) : Except BillingError ((Int × Int) × Database) := do
  require (0 < call.amountNanoUsd) ⟨.internal, "transfer amount must be positive"⟩
  let user ← lockUserBalanceTx db call.userId
  let key ← lockApiKeyBalanceTx db call.apiKeyId call.userId
  require key.subAccountEnabled ⟨.internal, "sub-account not enabled on this key"⟩
  let (newUserBalance, db) ← transferOut db call user
  let newKeyBalance ← orError ⟨.overflow, "sub-account balance overflow"⟩
    (checked 127 (key.balance + call.amountNanoUsd))
  let db := setSubAccountBalance db call.apiKeyId newKeyBalance
  let db ← (if user.unlimited then pure db
    else insertBillingLedgerTx db (transferRow call call.outId "sub_account_transfer_out" (-call.amountNanoUsd)
      newUserBalance) : Except BillingError Database)
  let db ← insertBillingLedgerTx db (transferRow call call.inId "sub_account_transfer_in" call.amountNanoUsd
    newKeyBalance)
  pure ((newKeyBalance, newUserBalance), db)

/-- The sub-account columns of an update; `existing` is the key as it was read before the transaction. -/
structure UpdateApiKeyCall where
  keyId : String
  existing : Option ApiKey
  subAccountEnabled : Option Bool
  subAccountBalanceNanoUsd : Option String
  isAdmin : Bool
  (ledgerId now : String)

def billingMessage {α : Type} : Except BillingError α → Except String α
  | .ok a => .ok a
  | .error e => .error e.message

def parseRequested : Option String → Except String (Option Int)
  | none => pure none
  | some raw => some <$> orError "invalid_nano_usd" (trimmed? 127 raw)

def creditOwner (userId : String) (user : LockedUserBalance) (amount : Int) (overflow : String) :
    Except String (Option Int × Database) :=
  if user.unlimited then pure (none, db)
  else do
    let next ← orError overflow (checked 127 (user.balance + amount))
    pure (some next, setUserBalance db userId next)

def closeSubAccount (user : LockedUserBalance) (key : LockedApiKeyBalance) : Except String Database := do
  let (balanceAfter, db) ← creditOwner db key.userId user key.balance "sub-account disable settlement overflow"
  let db := setSubAccountBalance db call.keyId 0
  if key.balance ≠ 0 then
    billingMessage (insertBillingLedgerTx db (settlementRow call.ledgerId key.userId
      (if 0 < key.balance then "sub_account_refund" else "sub_account_debt_transfer") key.balance balanceAfter
      (apiKeyMeta call.keyId) call.now))
  else pure db

def adjustSubAccount (user : LockedUserBalance) (key : LockedApiKeyBalance) (newBalance : Int) : Except String Database :=
  if newBalance < key.balance then do
    let refund ← orError "sub-account refund overflow" (checked 127 (key.balance - newBalance))
    let (balanceAfter, db) ← creditOwner db key.userId user refund "sub-account refund overflow"
    billingMessage (insertBillingLedgerTx db (settlementRow call.ledgerId key.userId "sub_account_refund" refund
      balanceAfter (adjustmentMeta call.keyId key.balance newBalance) call.now))
  else if key.balance < newBalance then do
    let increase ← orError "sub-account adjustment overflow" (checked 127 (newBalance - key.balance))
    billingMessage (insertBillingLedgerTx db (settlementRow call.ledgerId key.userId "admin_sub_account_adjustment"
      increase (some newBalance) (adjustmentMeta call.keyId key.balance newBalance) call.now))
  else pure db

def settleUpdate (user : LockedUserBalance) (key : LockedApiKeyBalance)
    (requested : Option Int) : Except String Database :=
  if call.subAccountEnabled = some false ∧ (key.subAccountEnabled ∨ key.balance ≠ 0) then
    closeSubAccount db call user key
  else
    match requested with
    | none => pure db
    | some newBalance => adjustSubAccount db call user key newBalance

def withSubAccountColumns (enabled : Option Bool) (requested : Option Int) (k : ApiKey) : ApiKey :=
  { k with
    subAccountEnabled := enabled.getD k.subAccountEnabled
    subAccountBalanceNano := (requested.map fun balance : Int => toString balance).or k.subAccountBalanceNano }

def setSubAccountColumns (requested : Option Int) : Database :=
  { db with
    apiKeys := db.apiKeys.update (·.id = call.keyId) (withSubAccountColumns call.subAccountEnabled requested) }

/-- The other columns of the statement are left out. -/
def updateApiKey : Except String (Unit × Database) := do
  require (call.subAccountBalanceNanoUsd.isSome → call.isAdmin) "only admins may set a sub-account balance"
  require (call.subAccountEnabled = some false → call.subAccountBalanceNanoUsd = none)
    "sub-account balance cannot be supplied while disabling sub-account billing"
  let requested ← parseRequested call.subAccountBalanceNanoUsd
  let existing ← orError "API key not found" call.existing
  require ((∃ balance ∈ requested, balance ≠ 0) → call.subAccountEnabled.getD existing.subAccountEnabled)
    "a non-zero sub-account balance requires sub-account billing to be enabled"
  if call.subAccountEnabled = some false ∨ requested.isSome then do
    let user ← billingMessage (lockUserBalanceTx db existing.userId)
    let key ← billingMessage (lockApiKeyBalanceTx db call.keyId existing.userId)
    let db ← settleUpdate db call user key requested
    pure ((), setSubAccountColumns db call requested)
  else pure ((), setSubAccountColumns db call requested)

structure DeleteApiKeysCall where
  ids : List String
  maxIds : Nat
  newId : Nat → String
  now : String

/-- The keys of a deletion in the order of `ORDER BY user_id, id`. A repeated id selects its key once. -/
def selectedKeys (ids : List String) : List ApiKey :=
  (db.apiKeys.rows.filter fun k => k.id ∈ ids).mergeSort fun a b =>
    a.userId < b.userId ∨ a.userId = b.userId ∧ a.id ≤ b.id

def lockOwner (balances : Std.TreeMap String LockedUserBalance) (user : User) :
    Except String (Std.TreeMap String LockedUserBalance) := do
  let balance ← orError "invalid persisted user balance: invalid_nano_usd" (trimmed? 127 user.balanceNanoUsd)
  pure (balances.insert user.id ⟨balance, user.balanceUnlimited⟩)

def lockOwners (keys : List ApiKey) : Except String (Std.TreeMap String LockedUserBalance) := do
  let userIds := (keys.map ApiKey.userId).dedup
  let balances ← (db.users.rows.filter fun u => u.id ∈ userIds).foldlM lockOwner ∅
  require (balances.size = userIds.length) "api key owner was not found"
  pure balances

def lockKey (key : ApiKey) : Except String (String × LockedApiKeyBalance) := do
  let raw ← orError "unexpected null column" key.subAccountBalanceNano
  let balance ← orError "invalid persisted sub-account balance: invalid_nano_usd" (trimmed? 127 raw)
  pure (key.id, ⟨key.userId, balance, key.subAccountEnabled⟩)

structure Settlement where
  userBalances : Std.TreeMap String LockedUserBalance
  userUpdates : Std.TreeMap String Int := ∅
  rows : List BillingLedgerRow := []

def settleKey (call : DeleteApiKeysCall) (s : Settlement) (entry : String × LockedApiKeyBalance) :
    Except String Settlement := do
  let (keyId, key) := entry
  if key.balance = 0 then pure s
  else
    let user ← orError "locked user balance missing" s.userBalances[key.userId]?
    let row := fun balanceAfter => settlementRow (call.newId s.rows.length) key.userId "sub_account_delete_settlement"
      key.balance balanceAfter (apiKeyMeta keyId) call.now
    if user.unlimited then pure { s with rows := s.rows ++ [row none] }
    else do
      let next ← orError "sub-account delete settlement overflow" (checked 127 (user.balance + key.balance))
      pure
        { userBalances := s.userBalances.insert key.userId { user with balance := next }
          userUpdates := s.userUpdates.insert key.userId next
          rows := s.rows ++ [row (some next)] }

def userUpdateChunkSize : Nat := 199

def ledgerInsertChunkSize : Nat := 57

def updateUsers (updates : List (String × Int)) : Database :=
  { db with users := db.users.updateChunks User.id withBalance (fun _ _ => rfl) (updates.toChunks userUpdateChunkSize) }

def insertRows (rows : List BillingLedgerRow) : Except BillingError Database :=
  (rows.toChunks ledgerInsertChunkSize).foldlM (fun db chunk => chunk.foldlM insertBillingLedgerTx db) db

def deleteApiKeysTransactional (call : DeleteApiKeysCall) : Except String (Nat × Database) := do
  require (call.ids.length ≤ call.maxIds) ("batch delete accepts at most " ++ toString call.maxIds ++ " ids")
  if call.ids = [] then pure (0, db)
  else
    let keys := selectedKeys db call.ids
    let userBalances ← lockOwners db keys
    let lockedKeys ← keys.mapM lockKey
    let settled ← lockedKeys.foldlM (settleKey call) { userBalances }
    let db ← billingMessage (insertRows (updateUsers db settled.userUpdates.toList) settled.rows)
    let deleted := lockedKeys.map Prod.fst
    pure (deleted.length, { db with apiKeys := db.apiKeys.remove fun k => k.id ∈ deleted })

end Monoize
