import Monoize.MeteringOnce
import Monoize.SubAccounts

namespace Monoize

open Fallible MachineInt Relational Option Table

variable {db next : Database} {u : User} {userId keyId : String} {k : ApiKey} {user : LockedUserBalance}
  {key : LockedApiKeyBalance} {amount : Int} {call : UpdateApiKeyCall}

variable {f g : String → Int} {id ledgerId : String} {charge : RequestCharge} {newBalance : Int}

def balanceValue (u : User) : Int := (trimmed? 127 u.balanceNanoUsd).getD 0

def ownBalance (db : Database) (userId : String) : Int :=
  db.users.total fun u => if u.id = userId then balanceValue u else 0

def keyBalances (db : Database) (userId : String) : Int :=
  db.apiKeys.total fun k => if k.userId = userId then subAccountBalance k else 0

/-- The balance of a user and of all the sub-accounts of the user's keys, closed ones included. -/
def wealth (db : Database) (userId : String) : Int := ownBalance db userId + keyBalances db userId

def Limited (db : Database) (userId : String) : Prop :=
  ∃ u ∈ db.users.rows, u.id = userId ∧ u.balanceUnlimited = false
  deriving Decidable

structure WealthMoved (db next : Database) (change : String → Int) : Prop where
  limited : ∀ id, Limited next id ↔ Limited db id
  wealth : ∀ id, Limited db id → wealth next id = wealth db id + change id

def movedBy (owner : String) (amount : Int) (id : String) : Int := if owner = id then amount else 0

theorem WealthMoved.of_same (husers : next.users = db.users) (hkeys : next.apiKeys = db.apiKeys) :
    WealthMoved db next fun _ => 0 := by
  refine ⟨fun id => ?_, fun id _ => ?_⟩
  · rw [Limited, Limited, husers]
  · rw [Monoize.wealth, Monoize.wealth, ownBalance, ownBalance, keyBalances, keyBalances, husers, hkeys, Int.add_zero]

theorem WealthMoved.trans {a b c : Database} (h : WealthMoved a b f) (h' : WealthMoved b c g) :
    WealthMoved a c fun id => f id + g id := by
  refine ⟨fun id => (h'.limited id).trans (h.limited id), fun id hid => ?_⟩
  rw [h'.wealth id ((h.limited id).2 hid), h.wealth id hid, Int.add_assoc]

theorem WealthMoved.congr (h : WealthMoved db next f) (hfg : ∀ id, Limited db id → f id = g id) : WealthMoved db next g :=
  ⟨h.limited, fun id hid => by rw [h.wealth id hid, hfg id hid]⟩

theorem WealthMoved.same {last : Database} (h : WealthMoved db next f)
    (husers : last.users = next.users) (hkeys : last.apiKeys = next.apiKeys) : WealthMoved db last f :=
  (h.trans (WealthMoved.of_same husers hkeys)).congr fun id _ => Int.add_zero (f id)

theorem User.clashes_of_id {a b : User} (ha : a.id = id) (hb : b.id = id) : Clashes a b :=
  ha.trans hb.symm

theorem ApiKey.clashes_of_id {a b : ApiKey} (ha : a.id = id) (hb : b.id = id) : Clashes a b :=
  ha.trans hb.symm

theorem not_limited (hu : u ∈ db.users.rows) (hunlimited : u.balanceUnlimited = true) : ¬ Limited db u.id := by
  rintro ⟨v, hv, hid, hlimited⟩
  rw [eq_of_clashes hv hu (User.clashes_of_id hid rfl), hunlimited] at hlimited
  cases hlimited

theorem ownBalance_of_mem (hu : u ∈ db.users.rows) : ownBalance db u.id = balanceValue u := by
  have h := total_single (p := fun v => v.id = u.id) hu (decide_eq_true rfl)
    (fun v _ hv => User.clashes_of_id (of_decide_eq_true hv) rfl) balanceValue
  rw [ownBalance]
  simpa only [decide_eq_true_eq] using h

theorem limited_of_map {f : User → User} (hrows : next.users.rows = db.users.rows.map f)
    (hf : ∀ u, (f u).id = u.id ∧ (f u).balanceUnlimited = u.balanceUnlimited) (id : String) :
    Limited next id ↔ Limited db id := by
  simp only [Limited, hrows, List.mem_map, exists_exists_and_eq_and, (hf _).1, (hf _).2]

theorem balanceValue_withBalance {next : Int} (hnext : checked 127 next = some next) (u : User) :
    balanceValue (withBalance next u) = next := by
  rw [balanceValue, withBalance, trimmed?_toString, hnext, getD_some]

theorem setUserBalance_moved {next : Int} (hu : db.users.find? (·.id = userId) = some u)
    (hnext : checked 127 next = some next) :
    WealthMoved db (setUserBalance db userId next) (movedBy userId (next - balanceValue u)) := by
  have hid := of_find?_decide hu
  refine ⟨limited_of_map rfl fun v => ?_, fun id _ => ?_⟩
  · split <;> exact ⟨rfl, rfl⟩
  · have htotal (w : User → Int) : (db.users.update (·.id = userId) (withBalance next)).total w
        = db.users.total w - w u + w (withBalance next u) :=
      total_update (mem_of_find? hu) (of_find? hu)
        (fun v _ hv => User.clashes_of_id (of_decide_eq_true hv) hid) w
    simp only [wealth, ownBalance, keyBalances, setUserBalance, movedBy, htotal]
    have hsame : (withBalance next u).id = u.id := rfl
    rw [hsame, hid, balanceValue_withBalance hnext]
    split <;> omega

theorem subAccountBalance_with {next : Int} (hnext : checked 127 next = some next) (k : ApiKey) :
    subAccountBalance (withSubAccountBalance next k) = next := by
  rw [subAccountBalance, withSubAccountBalance, bind_some, trimmed?_toString, hnext, getD_some]

theorem updateKey_moved {f : ApiKey → ApiKey} (hf : ∀ k, Keyed.key (f k) = Keyed.key k)
    (hk : db.apiKeys.find? (·.id = keyId) = some k) (howner : (f k).userId = k.userId) :
    WealthMoved db { db with apiKeys := db.apiKeys.update (·.id = keyId) f hf }
      (movedBy k.userId (subAccountBalance (f k) - subAccountBalance k)) := by
  have hid := of_find?_decide hk
  refine ⟨fun id => Iff.rfl, fun id _ => ?_⟩
  have htotal (w : ApiKey → Int) : (db.apiKeys.update (·.id = keyId) f hf).total w
      = db.apiKeys.total w - w k + w (f k) :=
    total_update (mem_of_find? hk) (of_find? hk)
      (fun v _ hv => ApiKey.clashes_of_id (of_decide_eq_true hv) hid) w
  simp only [wealth, ownBalance, keyBalances, movedBy, htotal, howner]
  split <;> omega

theorem setSubAccountBalance_moved {next : Int} (hk : db.apiKeys.find? (·.id = keyId) = some k)
    (hnext : checked 127 next = some next) :
    WealthMoved db (setSubAccountBalance db keyId next) (movedBy k.userId (next - subAccountBalance k)) := by
  have h := updateKey_moved (f := withSubAccountBalance next) (fun _ => rfl) hk rfl
  rwa [subAccountBalance_with hnext] at h

theorem insertBillingLedgerTx_same {row : BillingLedgerRow} (h : insertBillingLedgerTx db row = .ok next) :
    next.users = db.users ∧ next.apiKeys = db.apiKeys := by
  simp only [insertBillingLedgerTx, ok_iff] at h
  obtain ⟨ledger, -, rfl⟩ := h
  exact ⟨rfl, rfl⟩

theorem lockUserBalanceTx_ok (h : lockUserBalanceTx db userId = .ok user) :
    ∃ u, db.users.find? (·.id = userId) = some u ∧ u.balanceUnlimited = user.unlimited
      ∧ balanceValue u = user.balance := by
  simp only [lockUserBalanceTx, ok_iff] at h
  obtain ⟨u, hu, balance, hbalance, rfl⟩ := h
  exact ⟨u, hu, rfl, by rw [balanceValue, hbalance, getD_some]⟩

theorem lockApiKeyBalanceTx_ok (h : lockApiKeyBalanceTx db keyId userId = .ok key) :
    ∃ k, db.apiKeys.find? (·.id = keyId) = some k ∧ k.userId = userId ∧ key.userId = userId
      ∧ subAccountBalance k = key.balance := by
  simp only [lockApiKeyBalanceTx, ok_iff] at h
  obtain ⟨k, hk, -, howner, raw, hraw, balance, hbalance, rfl⟩ := h
  refine ⟨k, hk, howner, howner, ?_⟩
  rw [subAccountBalance, hraw, bind_some, hbalance, getD_some]

theorem WealthMoved.unlimited (hlimited : ¬ Limited db userId) : WealthMoved db db (movedBy userId amount) := by
  refine (WealthMoved.of_same rfl rfl).congr fun id hid => ?_
  have hne : userId ≠ id := by
    rintro rfl
    exact hlimited hid
  rw [movedBy, if_neg hne]

theorem movedBy_zero (owner : String) : movedBy owner 0 = fun _ => 0 := by
  funext id
  rw [movedBy, ite_self]

theorem movedBy_add (owner : String) (x y : Int) (id : String) :
    movedBy owner x id + movedBy owner y id = movedBy owner (x + y) id := by
  unfold movedBy
  split <;> omega

theorem setUserBalance_by {next : Int} (huser : lockUserBalanceTx db userId = .ok user)
    (hnext : checked 127 (user.balance + amount) = some next) :
    WealthMoved db (setUserBalance db userId next) (movedBy userId amount) := by
  obtain ⟨u, hu, -, hbalance⟩ := lockUserBalanceTx_ok huser
  have hmoved := setUserBalance_moved hu (checked_self hnext)
  have hdiff : next - balanceValue u = amount := by
    rw [hbalance, ← (checked_eq_some.1 hnext).1]
    omega
  rwa [hdiff] at hmoved

theorem setSubAccountBalance_by {balance next : Int} (hk : db.apiKeys.find? (·.id = keyId) = some k)
    (hbalance : subAccountBalance k = balance) (hnext : checked 127 (balance + amount) = some next) :
    WealthMoved db (setSubAccountBalance db keyId next) (movedBy k.userId amount) := by
  have hmoved := setSubAccountBalance_moved hk (checked_self hnext)
  have hdiff : next - subAccountBalance k = amount := by
    rw [hbalance, ← (checked_eq_some.1 hnext).1]
    omega
  rwa [hdiff] at hmoved

theorem WealthMoved.of_unlimited (huser : lockUserBalanceTx db userId = .ok user) (hunlimited : user.unlimited = true) :
    WealthMoved db db (movedBy userId amount) := by
  obtain ⟨u, hu, hul, -⟩ := lockUserBalanceTx_ok huser
  rw [← of_find?_decide hu]
  exact .unlimited (not_limited (mem_of_find? hu) (hul.trans hunlimited))

def chargedAmount (charge : RequestCharge) : Int := if charge.amountNanoUsd ≤ 0 then 0 else charge.amountNanoUsd

theorem WealthMoved.of_not_charged (h : charge.amountNanoUsd ≤ 0) :
    WealthMoved db db (movedBy userId (-chargedAmount charge)) := by
  rw [chargedAmount, if_pos h, Int.neg_zero, movedBy_zero]
  exact .of_same rfl rfl

theorem chargeUserBalanceNano_moved (h : chargeUserBalanceNano db charge ledgerId = .ok ((), next)) :
    WealthMoved db next (movedBy charge.userId (-chargedAmount charge)) := by
  unfold chargeUserBalanceNano at h
  split at h
  · rename_i hle
    cases h
    exact .of_not_charged hle
  rename_i hle
  rw [chargedAmount, if_neg hle]
  simp only [bind_eq_ok, chargeUserBalanceNanoInner, orError_eq_ok] at h
  obtain ⟨-, -, u, hu, balance, hbalance, h⟩ := h
  have huser : lockUserBalanceTx db charge.userId = .ok ⟨balance, u.balanceUnlimited⟩ := by
    simp only [lockUserBalanceTx, bind_eq_ok, orError_eq_ok, pure_eq_ok]
    exact ⟨u, hu, balance, hbalance, rfl⟩
  split at h
  · rename_i hunlimited
    cases h
    exact .of_unlimited huser hunlimited
  · simp only [bind_eq_ok, orError_eq_ok, pair_eq_ok, true_and] at h
    obtain ⟨after, hafter, ledger, -, rfl⟩ := h
    exact (setUserBalance_by huser hafter).same rfl rfl

theorem presentKey_ok {x : Except BillingError LockedApiKeyBalance} (h : presentKey x = .ok (some key)) : x = .ok key := by
  unfold presentKey at h
  split at h
  · cases h
    rfl
  · split at h <;> cases h

theorem chargeSubAccountBalanceNano_moved {apiKeyId : String}
    (h : chargeSubAccountBalanceNano db apiKeyId charge ledgerId = .ok ((), next)) :
    WealthMoved db next (movedBy charge.userId (-chargedAmount charge)) := by
  unfold chargeSubAccountBalanceNano at h
  split at h
  · rename_i hle
    cases h
    exact .of_not_charged hle
  rename_i hle
  rw [chargedAmount, if_neg hle]
  simp only [bind_eq_ok] at h
  obtain ⟨-, -, user, huser, key, hkey, h⟩ := h
  split at h
  -- The key is gone, belongs to another user or has its sub-account closed: the owner pays.
  · split at h
    · rename_i hunlimited
      cases h
      exact .of_unlimited huser hunlimited
    · simp only [bind_eq_ok, orError_eq_ok, pair_eq_ok, true_and] at h
      obtain ⟨after, hafter, last, hlast, rfl⟩ := h
      obtain ⟨husers, hkeys⟩ := insertBillingLedgerTx_same hlast
      exact (setUserBalance_by huser hafter).same husers hkeys
  · rename_i locked hlocked
    obtain ⟨rfl, -⟩ := filter_eq_some_iff.1 hlocked
    obtain ⟨k, hk, howner, -, hbalance⟩ := lockApiKeyBalanceTx_ok (presentKey_ok hkey)
    simp only [bind_eq_ok, orError_eq_ok, pair_eq_ok, true_and] at h
    obtain ⟨after, hafter, last, hlast, rfl⟩ := h
    obtain ⟨husers, hkeys⟩ := insertBillingLedgerTx_same hlast
    rw [← howner]
    exact (setSubAccountBalance_by hk hbalance hafter).same husers hkeys

theorem transferOut_ok {call : TransferCall} {after : Int} (huser : lockUserBalanceTx db call.userId = .ok user)
    (h : transferOut db call user = .ok (after, next)) :
    WealthMoved db next (movedBy call.userId (-call.amountNanoUsd)) ∧ next.apiKeys = db.apiKeys := by
  unfold transferOut at h
  split at h
  · rename_i hunlimited
    cases h
    exact ⟨.of_unlimited huser hunlimited, rfl⟩
  · simp only [ok_iff] at h
    obtain ⟨after, hafter, -, -, -, rfl⟩ := h
    exact ⟨setUserBalance_by huser hafter, rfl⟩

theorem transferToSubAccount_moved {call : TransferCall} {balances : Int × Int}
    (h : transferToSubAccount db call = .ok (balances, next)) : WealthMoved db next fun _ => 0 := by
  simp only [transferToSubAccount, ok_iff] at h
  obtain ⟨-, -, user, huser, key, hkey, -, -, ⟨after, paid⟩, hpaid, keyAfter, hkeyAfter, booked, hbooked, last, hlast, -,
    rfl⟩ := h
  obtain ⟨k, hk, howner, -, hbalance⟩ := lockApiKeyBalanceTx_ok hkey
  obtain ⟨hout, hkeys⟩ := transferOut_ok huser hpaid
  have hsame : booked.users = paid.users ∧
      booked.apiKeys = (setSubAccountBalance paid call.apiKeyId keyAfter).apiKeys := by
    split at hbooked
    · cases hbooked
      exact ⟨rfl, rfl⟩
    · exact insertBillingLedgerTx_same hbooked
  have hin := setSubAccountBalance_by (hkeys ▸ hk) hbalance hkeyAfter
  have hlast := insertBillingLedgerTx_same hlast
  refine ((hout.trans hin).congr fun id _ => ?_).same (hlast.1.trans hsame.1) (hlast.2.trans hsame.2)
  rw [howner, movedBy_add, Int.add_left_neg, movedBy_zero]

theorem billingMessage_eq_ok {α : Type} {x : Except BillingError α} {a : α} : billingMessage x = .ok a ↔ x = .ok a := by
  cases x <;> simp [billingMessage]

theorem creditOwner_ok {message : String} {after : Option Int} (huser : lockUserBalanceTx db userId = .ok user)
    (h : creditOwner db userId user amount message = .ok (after, next)) :
    WealthMoved db next (movedBy userId amount) ∧ next.apiKeys = db.apiKeys := by
  unfold creditOwner at h
  split at h
  · rename_i hunlimited
    cases h
    exact ⟨.of_unlimited huser hunlimited, rfl⟩
  · simp only [ok_iff] at h
    obtain ⟨next, hnext, -, rfl⟩ := h
    exact ⟨setUserBalance_by huser hnext, rfl⟩

theorem setSubAccountColumns_none (db : Database) (call : UpdateApiKeyCall) :
    WealthMoved db (setSubAccountColumns db call none) fun _ => 0 := by
  refine ⟨fun id => Iff.rfl, fun id _ => ?_⟩
  rw [Int.add_zero, wealth, wealth, keyBalances, setSubAccountColumns, total, map_update]
  · rfl
  · intro k
    rfl

theorem setSubAccountColumns_some (call : UpdateApiKeyCall)
    (hk : db.apiKeys.find? (·.id = call.keyId) = some k) (hnew : checked 127 newBalance = some newBalance) :
    WealthMoved db (setSubAccountColumns db call (some newBalance))
      (movedBy k.userId (newBalance - subAccountBalance k)) := by
  have h := updateKey_moved (f := withSubAccountColumns call.subAccountEnabled (some newBalance)) (fun _ => rfl) hk rfl
  have hset : subAccountBalance (withSubAccountColumns call.subAccountEnabled (some newBalance) k) = newBalance := by
    rw [subAccountBalance, withSubAccountColumns, map_some, some_or, bind_some, trimmed?_toString,
      hnew, getD_some]
  rwa [hset] at h

theorem closeSubAccount_moved (huser : lockUserBalanceTx db userId = .ok user)
    (hkey : lockApiKeyBalanceTx db call.keyId userId = .ok key) (h : closeSubAccount db call user key = .ok next) :
    WealthMoved db next fun _ => 0 := by
  obtain ⟨k, hk, howner, hlocked, hbalance⟩ := lockApiKeyBalanceTx_ok hkey
  simp only [closeSubAccount, ok_iff] at h
  obtain ⟨⟨after, paid⟩, hpaid, h⟩ := h
  rw [hlocked] at hpaid
  obtain ⟨hcredit, hkeys⟩ := creditOwner_ok huser hpaid
  have hzero : checked 127 (key.balance + -key.balance) = some 0 := by
    rw [Int.add_right_neg]
    rfl
  have hclosed := hcredit.trans (setSubAccountBalance_by (hkeys ▸ hk) hbalance hzero)
  have hsame : next.users = paid.users ∧ next.apiKeys = (setSubAccountBalance paid call.keyId 0).apiKeys := by
    split at h
    · exact insertBillingLedgerTx_same (billingMessage_eq_ok.1 h)
    · cases h
      exact ⟨rfl, rfl⟩
  refine (hclosed.congr fun id _ => ?_).same hsame.1 hsame.2
  rw [howner, movedBy_add, Int.add_right_neg, movedBy_zero]

def raise (old new : Int) : Int := if old < new then new - old else 0

theorem adjustSubAccount_moved (huser : lockUserBalanceTx db userId = .ok user)
    (hkey : lockApiKeyBalanceTx db call.keyId userId = .ok key) (hnew : checked 127 newBalance = some newBalance)
    (h : adjustSubAccount db call user key newBalance = .ok next) :
    WealthMoved db (setSubAccountColumns next call (some newBalance)) (movedBy userId (raise key.balance newBalance)) := by
  obtain ⟨k, hk, howner, hlocked, hbalance⟩ := lockApiKeyBalanceTx_ok hkey
  -- The owner first gets back what the sub-account is about to lose.
  have hrefund : WealthMoved db next (movedBy userId (raise newBalance key.balance)) ∧ next.apiKeys = db.apiKeys := by
    unfold adjustSubAccount at h
    unfold raise
    split at h
    · rename_i hlt
      simp only [ok_iff] at h
      obtain ⟨refund, hrefund, ⟨after, paid⟩, hpaid, h⟩ := h
      rw [hlocked] at hpaid
      obtain ⟨hcredit, hkeys⟩ := creditOwner_ok huser hpaid
      obtain ⟨husers', hkeys'⟩ := insertBillingLedgerTx_same (billingMessage_eq_ok.1 h)
      rw [if_pos hlt, (checked_eq_some.1 hrefund).1]
      exact ⟨hcredit.same husers' hkeys', hkeys'.trans hkeys⟩
    · rename_i hge
      rw [if_neg hge, movedBy_zero]
      split at h
      · simp only [ok_iff] at h
        obtain ⟨increase, -, h⟩ := h
        obtain ⟨husers', hkeys'⟩ := insertBillingLedgerTx_same (billingMessage_eq_ok.1 h)
        exact ⟨WealthMoved.of_same husers' hkeys', hkeys'⟩
      · cases h
        exact ⟨WealthMoved.of_same rfl rfl, rfl⟩
  have hset := setSubAccountColumns_some call (hrefund.2 ▸ hk) hnew
  refine (hrefund.1.trans hset).congr fun id _ => ?_
  have hsum : raise newBalance key.balance + (newBalance - key.balance) = raise key.balance newBalance := by
    unfold raise
    split <;> split <;> omega
  rw [howner, hbalance, movedBy_add, hsum]

def granted (db : Database) (call : UpdateApiKeyCall) (userId : String) : Int :=
  match call.subAccountBalanceNanoUsd.bind (trimmed? 127) with
  | none => 0
  | some newBalance =>
    match db.apiKeys.find? (·.id = call.keyId) with
    | none => 0
    | some key => movedBy key.userId (raise (subAccountBalance key) newBalance) userId

theorem parseRequested_ok {text : Option String} {requested : Option Int} (h : parseRequested text = .ok requested) :
    text.bind (trimmed? 127) = requested := by
  cases text with
  | none =>
    rw [parseRequested, pure_eq_ok] at h
    exact h
  | some raw =>
    simp only [parseRequested, map_eq_ok, ok_iff] at h
    obtain ⟨v, hv, rfl⟩ := h
    exact hv

theorem updateApiKey_moved (h : updateApiKey db call = .ok ((), next)) : WealthMoved db next (granted db call) := by
  simp only [updateApiKey, bind_eq_ok, require_eq_ok, orError_eq_ok] at h
  obtain ⟨-, -, -, hdisabling, requested, hrequested, existing, -, -, -, h⟩ := h
  have hparsed := parseRequested_ok hrequested
  cases requested with
  | none =>
    have hgranted : granted db call = fun _ => 0 := by
      funext id
      simp only [granted, hparsed]
    rw [hgranted]
    split at h
    · simp only [bind_eq_ok, billingMessage_eq_ok, pair_eq_ok, true_and] at h
      obtain ⟨user, huser, key, hkey, settled, hsettled, rfl⟩ := h
      have hclosed : WealthMoved db settled fun _ => 0 := by
        unfold settleUpdate at hsettled
        split at hsettled
        · exact closeSubAccount_moved huser hkey hsettled
        · cases hsettled
          exact WealthMoved.of_same rfl rfl
      exact hclosed.trans (setSubAccountColumns_none settled call)
    · cases h
      exact setSubAccountColumns_none db call
  | some newBalance =>
    obtain ⟨raw, hraw, hnew⟩ := bind_eq_some_iff.1 hparsed
    have henabled : call.subAccountEnabled ≠ some false := by
      intro hfalse
      rw [hdisabling hfalse] at hraw
      cases hraw
    rw [if_pos (.inr isSome_some)] at h
    simp only [bind_eq_ok, billingMessage_eq_ok, pair_eq_ok, true_and] at h
    obtain ⟨user, huser, key, hkey, settled, hsettled, rfl⟩ := h
    rw [settleUpdate, if_neg (fun hc => henabled hc.1)] at hsettled
    have hmoved := adjustSubAccount_moved huser hkey (checked_of_trimmed? hnew) hsettled
    obtain ⟨k, hk, howner, -, hbalance⟩ := lockApiKeyBalanceTx_ok hkey
    refine hmoved.congr fun id _ => ?_
    simp only [granted, hk, hparsed, howner, hbalance]

end Monoize
