import Monoize.KeyDeletion

/-! Money moves between a user and the sub-accounts of the user's keys; only charges and grants change the sum. -/

namespace Monoize

open Fallible MachineInt Relational

variable {db next : Database} {amount : Int}

variable {userId : String} {d : BalanceDelta} {e : AccountEvent}

theorem subtractUserBalanceTx_moved (h : subtractUserBalanceTx db userId amount = .ok next) :
    WealthMoved db next (movedBy userId (-amount)) := by
  unfold subtractUserBalanceTx at h
  split at h
  · rename_i hnone
    cases h
    apply WealthMoved.unlimited
    rintro ⟨u, hu, hid, -⟩
    exact List.find?_eq_none.1 hnone u hu (decide_eq_true hid)
  · rename_i u hu
    have hid := Table.of_find?_decide hu
    split at h
    · rename_i hunlimited
      cases h
      exact .unlimited (hid ▸ not_limited (Table.mem_of_find? hu) hunlimited)
    simp only [ok_iff, checkedSubAllowNegative] at h
    obtain ⟨current, hcurrent, after, hafter, rfl⟩ := h
    have huser : lockUserBalanceTx db userId = .ok ⟨current, u.balanceUnlimited⟩ := by
      simp only [lockUserBalanceTx, ok_iff]
      exact ⟨u, hu, current, hcurrent, rfl⟩
    exact setUserBalance_by huser hafter

def chargedOwner (db : Database) (d : BalanceDelta) : Option String :=
  if d.kind = "request_charge" then some d.userId
  else (db.apiKeys.find? (·.id = d.apiKeyId.getD "")).map ApiKey.userId

def movedFrom (owner : Option String) (amount : Int) (id : String) : Int := if owner = some id then -amount else 0

theorem movedBy_eq_movedFrom (owner : String) (amount : Int) : movedBy owner (-amount) = movedFrom (some owner) amount := by
  funext id
  simp only [movedBy, movedFrom, Option.some.injEq]

theorem chargeApiKey_moved {apiKeyId : String} (h : chargeApiKey db apiKeyId amount = .ok next) :
    WealthMoved db next (movedFrom ((db.apiKeys.find? (·.id = apiKeyId)).map ApiKey.userId) amount) := by
  unfold chargeApiKey at h
  split at h
  · rename_i hnone
    rw [pure_eq_ok] at h
    rw [← h, hnone]
    refine (WealthMoved.of_same rfl rfl).congr fun id _ => ?_
    rw [movedFrom, if_neg (by simp)]
  · rename_i k hk
    rw [hk, Option.map_some, ← movedBy_eq_movedFrom]
    split at h
    · simp only [ok_iff, checkedSubAllowNegative] at h
      obtain ⟨after, hafter, rfl⟩ := h
      exact setSubAccountBalance_by hk rfl hafter
    · exact subtractUserBalanceTx_moved h

theorem applyCharge_moved (h : applyCharge db d amount = .ok next) :
    WealthMoved db next (movedFrom (chargedOwner db d) amount) := by
  unfold applyCharge at h
  unfold chargedOwner
  split at h
  · rename_i hkind
    rw [if_pos hkind, ← movedBy_eq_movedFrom]
    exact subtractUserBalanceTx_moved h
  rename_i hkind
  rw [if_neg hkind]
  split at h
  · exact chargeApiKey_moved h
  · cases h

theorem applyBalanceDelta_moved {n : Nat} (h : applyBalanceDelta db d = .ok (n, next)) :
    WealthMoved db next (if d.deltaId ∈ ledgerKeys db then fun _ => 0 else movedFrom (chargedOwner db d) (amountOf d)) := by
  simp only [applyBalanceDelta, ok_iff] at h
  obtain ⟨amount, hamount, h⟩ := h
  split at h
  · rename_i hseen
    rw [pair_eq_ok] at h
    rw [if_pos (mem_ledgerKeys.2 hseen), ← h.2]
    exact WealthMoved.of_same rfl rfl
  · rename_i hnew
    simp only [ok_iff] at h
    obtain ⟨ledger, -, last, hlast, -, rfl⟩ := h
    have hamountOf : amountOf d = amount := by rw [amountOf, hamount, Option.getD_some]
    rw [if_neg (fun hmem => hnew (mem_ledgerKeys.1 hmem)), hamountOf]
    have hrow : WealthMoved db { db with billingLedger := ledger } fun _ => 0 := WealthMoved.of_same rfl rfl
    exact (hrow.trans (applyCharge_moved hlast)).congr fun id _ => Int.zero_add _

inductive AccountEvent
  | charge (c : RequestCharge) (ledgerId : String)
  | chargeSubAccount (apiKeyId : String) (c : RequestCharge) (ledgerId : String)
  | transfer (call : TransferCall)
  | update (call : UpdateApiKeyCall)
  | delete (call : DeleteApiKeysCall)
  | delta (d : BalanceDelta)

def AccountEvent.run (db : Database) : AccountEvent → Except String (Unit × Database)
  | .charge c ledgerId => billingMessage (chargeUserBalanceNano db c ledgerId)
  | .chargeSubAccount apiKeyId c ledgerId => billingMessage (chargeSubAccountBalanceNano db apiKeyId c ledgerId)
  | .transfer call => do
    let (_, next) ← billingMessage (transferToSubAccount db call)
    pure ((), next)
  | .update call => updateApiKey db call
  | .delete call => do
    let (_, next) ← deleteApiKeysTransactional db call
    pure ((), next)
  | .delta d => do
    let (_, next) ← applyBalanceDelta db d
    pure ((), next)

def applyAccountEvent (db : Database) (e : AccountEvent) : Database := commit db (e.run db)

/-- What a successful call is meant to add to the wealth of a user. A delta is a charge of the user it names. -/
def AccountEvent.change (db : Database) (userId : String) : AccountEvent → Int
  | .charge c _ => movedBy c.userId (-chargedAmount c) userId
  | .chargeSubAccount _ c _ => movedBy c.userId (-chargedAmount c) userId
  | .transfer _ => 0
  | .update call => granted db call userId
  | .delete _ => 0
  | .delta d => if d.deltaId ∈ ledgerKeys db then 0 else movedBy d.userId (-amountOf d) userId

def meantChange (db : Database) (e : AccountEvent) (userId : String) : Int :=
  match e.run db with
  | .ok _ => e.change db userId
  | .error _ => 0

def AccountEvent.moves (db : Database) (userId : String) : AccountEvent → Int
  | .delta d => if d.deltaId ∈ ledgerKeys db then 0 else movedFrom (chargedOwner db d) (amountOf d) userId
  | e => e.change db userId

theorem AccountEvent.run_moved (h : e.run db = .ok ((), next)) : WealthMoved db next fun id => e.moves db id := by
  cases e with
  | charge c ledgerId => exact chargeUserBalanceNano_moved (billingMessage_eq_ok.1 h)
  | chargeSubAccount apiKeyId c ledgerId => exact chargeSubAccountBalanceNano_moved (billingMessage_eq_ok.1 h)
  | transfer call =>
    simp only [AccountEvent.run, bind_eq_ok, billingMessage_eq_ok, pair_eq_ok, true_and] at h
    obtain ⟨⟨balances, next⟩, hcall, rfl⟩ := h
    exact transferToSubAccount_moved hcall
  | update call => exact updateApiKey_moved h
  | delete call =>
    simp only [AccountEvent.run, bind_eq_ok, pair_eq_ok, true_and] at h
    obtain ⟨⟨n, next⟩, hcall, rfl⟩ := h
    exact deleteApiKeysTransactional_moved hcall
  | delta d =>
    simp only [AccountEvent.run, bind_eq_ok, pair_eq_ok, true_and] at h
    obtain ⟨⟨n, next⟩, hcall, rfl⟩ := h
    refine (applyBalanceDelta_moved hcall).congr fun id _ => ?_
    rw [AccountEvent.moves]
    split <;> rfl

theorem applyAccountEvent_limited (db : Database) (e : AccountEvent) (id : String) :
    Limited (applyAccountEvent db e) id ↔ Limited db id := by
  unfold applyAccountEvent
  cases h : e.run db with
  | error message => exact Iff.rfl
  | ok result => exact (AccountEvent.run_moved h).limited id

def AccountEvent.ChargesItsUser (db : Database) : AccountEvent → Prop
  | .delta d => ((AccountEvent.delta d).run db).isOk → d.deltaId ∉ ledgerKeys db → amountOf d ≠ 0 →
      ∀ u ∈ db.users.rows, u.balanceUnlimited = false → (chargedOwner db d = some u.id ↔ d.userId = u.id)
  | _ => True

instance (db : Database) : (e : AccountEvent) → Decidable (e.ChargesItsUser db)
  | .delta _ => inferInstanceAs (Decidable (_ → _ → _ → ∀ u ∈ db.users.rows, _ → _))
  | .charge .. | .chargeSubAccount .. | .transfer _ | .update _ | .delete _ => isTrue trivial

theorem moves_eq_change_iff (hok : (e.run db).isOk = true) :
    (∀ id, Limited db id → e.moves db id = e.change db id) ↔ e.ChargesItsUser db := by
  cases e with
  | delta d =>
    simp only [AccountEvent.moves, AccountEvent.change, AccountEvent.ChargesItsUser, hok, forall_const]
    by_cases hseen : d.deltaId ∈ ledgerKeys db
    · simp only [hseen, if_true, implies_true, not_true_eq_false, false_implies]
    simp only [hseen, if_false, not_false_eq_true, forall_const, movedFrom, movedBy]
    constructor
    · intro h hamount u hu hlimited
      have hmoved := h u.id ⟨u, hu, rfl, hlimited⟩
      by_cases howner : chargedOwner db d = some u.id <;> by_cases huser : d.userId = u.id
        <;> simp only [howner, huser, if_true, if_false] at hmoved ⊢ <;> omega
    · rintro h id ⟨u, hu, rfl, hlimited⟩
      by_cases hamount : amountOf d = 0
      · rw [hamount, Int.neg_zero, ite_self, ite_self]
      · simp only [h hamount u hu hlimited]
  | charge _ _ | chargeSubAccount _ _ _ | transfer _ | update _ | delete _ => exact iff_of_true (fun _ _ => rfl) trivial

def Conserves (db : Database) (e : AccountEvent) : Prop :=
  ∀ id, Limited db id → wealth (applyAccountEvent db e) id = wealth db id + meantChange db e id

theorem conserves_iff (db : Database) (e : AccountEvent) : Conserves db e ↔ e.ChargesItsUser db := by
  unfold Conserves applyAccountEvent meantChange
  cases h : e.run db with
  | error message =>
    refine iff_of_true (fun id _ => (Int.add_zero _).symm) ?_
    cases e with
    | delta d =>
      intro hok
      rw [h] at hok
      cases hok
    | _ => trivial
  | ok result =>
    obtain ⟨⟨⟩, next⟩ := result
    have hmoved := AccountEvent.run_moved h
    rw [← moves_eq_change_iff (by rw [h]; rfl)]
    apply forall₂_congr
    intro id hid
    have hnext : wealth next id = wealth db id + e.moves db id := hmoved.wealth id hid
    simp only [commit, hnext]
    omega

def runAccounts (db : Database) (events : List AccountEvent) : Database := events.foldl applyAccountEvent db

def meantChanges (userId : String) : Database → List AccountEvent → Int
  | _, [] => 0
  | db, e :: events => meantChange db e userId + meantChanges userId (applyAccountEvent db e) events

def EachChargesItsUser : Database → List AccountEvent → Prop
  | _, [] => True
  | db, e :: events => e.ChargesItsUser db ∧ EachChargesItsUser (applyAccountEvent db e) events

def decideEachChargesItsUser : (db : Database) → (events : List AccountEvent) → Decidable (EachChargesItsUser db events)
  | _, [] => isTrue trivial
  | db, e :: events =>
    have := decideEachChargesItsUser (applyAccountEvent db e) events
    inferInstanceAs (Decidable (_ ∧ _))

instance (db : Database) (events : List AccountEvent) : Decidable (EachChargesItsUser db events) :=
  decideEachChargesItsUser db events

theorem runAccounts_conserves {events : List AccountEvent} (hlimited : Limited db userId)
    (h : EachChargesItsUser db events) :
    wealth (runAccounts db events) userId = wealth db userId + meantChanges userId db events := by
  induction events generalizing db with
  | nil => exact (Int.add_zero _).symm
  | cons e events ih =>
    have hstep := (conserves_iff db e).2 h.1 userId hlimited
    have hrest := ih ((applyAccountEvent_limited db e userId).2 hlimited) h.2
    rw [hstep] at hrest
    rw [meantChanges, ← Int.add_assoc]
    exact hrest

/-- A call changes the wealth of the limited users as it is meant to exactly if it is not a delta that charges
another user than it names, or nobody; a run of calls that are all of this kind adds up their changes. -/
theorem wealth_conserved (db : Database) :
    (∀ e, Conserves db e ↔ e.ChargesItsUser db) ∧
    ∀ events, EachChargesItsUser db events → ∀ userId, Limited db userId →
      wealth (runAccounts db events) userId = wealth db userId + meantChanges userId db events :=
  ⟨conserves_iff db, fun _ h _ hlimited => runAccounts_conserves hlimited h⟩

def sampleWallet : Database where
  users := .single ⟨"user", "100", false, "buyer"⟩
  apiKeys := ⟨[⟨"key", "user", true, some "50"⟩, ⟨"spare", "user", false, some "0"⟩], by decide⟩

def sampleKeyCharge (apiKeyId : String) : BalanceDelta :=
  ⟨"delta", "api_key_charge", "user", some apiKeyId, "30", "\x7b\x7d", "2026-01-01T00:00:00Z"⟩

def sampleKeyDeletion : DeleteApiKeysCall := ⟨["key", "key"], 1000, fun n => toString n, "2026-01-01T00:00:00Z"⟩

def sampleWalletRun : List AccountEvent :=
  [.charge ⟨"user", 7, some "request", "\x7b\x7d", "2026-01-01T00:00:00Z"⟩ "charge",
    .transfer ⟨"key", "user", 20, "out", "in", "2026-01-01T00:00:00Z"⟩,
    .delta (sampleKeyCharge "key"),
    .update ⟨"spare", some ⟨"spare", "user", false, some "0"⟩, some true, some "5", true, "grant", "2026-01-01T00:00:00Z"⟩,
    .delete sampleKeyDeletion]

theorem wealth_conserved_sample :
    EachChargesItsUser sampleWallet sampleWalletRun ∧ Limited sampleWallet "user" ∧
    meantChanges "user" sampleWallet sampleWalletRun = -7 - 30 + 5 ∧
    wealth (runAccounts sampleWallet sampleWalletRun) "user"
      = wealth sampleWallet "user" + meantChanges "user" sampleWallet sampleWalletRun := by
  have hrun : EachChargesItsUser sampleWallet sampleWalletRun := by decide +kernel
  have hlimited : Limited sampleWallet "user" := by decide
  exact ⟨hrun, hlimited, by decide +kernel, (wealth_conserved _).2 _ hrun _ hlimited⟩

/-- The key of a delta is deleted before the delta arrives: the deletion pays the whole sub-account out to the user,
and the charge is recorded but taken from nobody. -/
theorem wealth_not_conserved :
    ¬ Conserves (applyAccountEvent sampleWallet (.delete sampleKeyDeletion)) (.delta (sampleKeyCharge "key")) ∧
    ledgerKeys (runAccounts sampleWallet [.delete sampleKeyDeletion, .delta (sampleKeyCharge "key")]) = ["delta"] ∧
    wealth (runAccounts sampleWallet [.delete sampleKeyDeletion, .delta (sampleKeyCharge "key")]) "user" = 150 ∧
    meantChanges "user" sampleWallet [.delete sampleKeyDeletion, .delta (sampleKeyCharge "key")] = -30 := by
  refine ⟨?_, by decide +kernel, by decide +kernel, by decide +kernel⟩
  rw [conserves_iff]
  decide +kernel

end Monoize
