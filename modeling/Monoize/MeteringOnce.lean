import Monoize.AdmissionSteps
import Monoize.FirstOccurrence
import Monoize.Metering

namespace Monoize

open Fallible FirstOccurrence MachineInt Relational List Option Table

variable {amount : Int} {db db' : Database}

variable {d : BalanceDelta} {ds : List BalanceDelta} {key : String} {n : Nat}

inductive Account
  | user (id : String)
  | subAccount (apiKeyId : String)
  deriving DecidableEq

def balanceOf (db : Database) : Account → Option Int
  | .user id => (db.users.find? (·.id = id)).bind fun u =>
      if u.balanceUnlimited then none else trimmed? 127 u.balanceNanoUsd
  | .subAccount id => (db.apiKeys.find? (·.id = id)).bind fun k =>
      if k.subAccountEnabled then some (subAccountBalance k) else none

def amountOf (d : BalanceDelta) : Int := (trimmed? 127 d.amountNanoUsd).getD 0

/-- The account a delta is charged to: a disabled sub-account falls back to the owner of its key. -/
def chargedAccount (db : Database) (d : BalanceDelta) : Option Account :=
  if d.kind = "request_charge" then some (.user d.userId)
  else (db.apiKeys.find? (·.id = d.apiKeyId.getD "")).map fun k =>
    if k.subAccountEnabled then .subAccount k.id else .user k.userId

def chargeTo (db : Database) (a : Account) (d : BalanceDelta) : Int :=
  if chargedAccount db d = some a then amountOf d else 0

def ledgerKeys (db : Database) : List String := db.billingLedger.rows.filterMap (·.idempotencyKey)

structure SameAccounts (db db' : Database) : Prop where
  users : db'.users = db.users
  apiKeys : db'.apiKeys = db.apiKeys
  ledger : db'.billingLedger = db.billingLedger

/-- One charge: only the balance of account `a` changes, and no key is moved or switched. -/
structure Charge (db db' : Database) (a : Option Account) (amount : Int) : Prop where
  balances : ∀ b, balanceOf db' b = (balanceOf db b).map fun v => v - if a = some b then amount else 0
  accounts : ∀ d, chargedAccount db' d = chargedAccount db d
  ledger : db'.billingLedger = db.billingLedger

theorem sub_ite_zero {p : Prop} [Decidable p] {v : Int} (h : ¬ p) : (v - if p then amount else 0) = v := by
  rw [if_neg h, Int.sub_zero]

theorem charge_none (h : SameAccounts db db') {a : Option Account} (ha : ∀ b, a = some b → balanceOf db b = none) :
    Charge db db' a amount := by
  have hbalance : ∀ b, balanceOf db' b = balanceOf db b := by
    intro b
    cases b <;> simp only [balanceOf, h.users, h.apiKeys]
  refine ⟨fun b => ?_, fun d => ?_, h.ledger⟩
  · rw [hbalance]
    by_cases hb : a = some b
    · rw [ha b hb]
      rfl
    · simp only [sub_ite_zero hb, Option.map_id']
  · simp only [chargedAccount, h.apiKeys]

theorem subtractUserBalanceTx_inv {userId : String} (h : subtractUserBalanceTx db userId amount = .ok db') :
    Charge db db' (some (.user userId)) amount := by
  unfold subtractUserBalanceTx at h
  split at h
  · rename_i hnone
    simp only [pure_eq_ok] at h
    subst h
    apply charge_none ⟨rfl, rfl, rfl⟩
    intro b hb
    cases hb
    simp only [balanceOf, hnone, bind_none]
  · rename_i u hu
    split at h
    · rename_i hunlimited
      simp only [pure_eq_ok] at h
      subst h
      apply charge_none ⟨rfl, rfl, rfl⟩
      intro b hb
      cases hb
      simp only [balanceOf, hu, bind_some, hunlimited, if_true]
    · rename_i hlimited
      simp only [ok_iff, checkedSubAllowNegative] at h
      obtain ⟨current, hcurrent, next, hnext, rfl⟩ := h
      have hval := checked_eq_some.1 hnext
      have hfind (id : String) : (db.users.update (·.id = userId) (withBalance next)).find?
          (·.id = id) = (db.users.find? (·.id = id)).map fun u => if u.id = userId then withBalance next u else u := by
        rw [find?_update]
        · simp only [decide_eq_true_eq]
        · intro a
          rfl
      refine ⟨fun b => ?_, fun d => rfl, rfl⟩
      cases b with
      | subAccount id =>
        have hne : (some (Account.user userId)) ≠ some (.subAccount id) := by simp
        simp only [balanceOf, sub_ite_zero hne, Option.map_id']
      | user id =>
        by_cases hid : id = userId
        · subst hid
          have huid : u.id = id := by simpa using Table.of_find? hu
          simp only [balanceOf, hfind, hu, map_some, bind_some, huid, if_true, withBalance, hlimited,
            trimmed?_toString, hcurrent]
          rw [← hval.1] at hnext ⊢
          exact hnext
        · have hne : (some (Account.user userId)) ≠ some (.user id) := by simp [Ne.symm hid]
          simp only [balanceOf, hfind, sub_ite_zero hne, Option.map_id']
          cases hv : db.users.find? (·.id = id) with
          | none => rfl
          | some v =>
            have hvid : v.id = id := by simpa using Table.of_find? hv
            simp only [map_some, hvid, hid, if_false]

theorem chargeApiKey_inv {apiKeyId : String} (h : chargeApiKey db apiKeyId amount = .ok db') :
    Charge db db' ((db.apiKeys.find? (·.id = apiKeyId)).map fun k =>
      if k.subAccountEnabled then .subAccount k.id else .user k.userId) amount := by
  unfold chargeApiKey at h
  split at h
  · rename_i hnone
    simp only [pure_eq_ok] at h
    subst h
    apply charge_none ⟨rfl, rfl, rfl⟩
    intro b hb
    simp [hnone] at hb
  · rename_i k hk
    have hkid : k.id = apiKeyId := by simpa using Table.of_find? hk
    rw [hk, map_some]
    split at h
    · rename_i henabled
      simp only [ok_iff, checkedSubAllowNegative] at h
      obtain ⟨next, hnext, rfl⟩ := h
      have hval := checked_eq_some.1 hnext
      have hfind (id : String) :
          (db.apiKeys.update (·.id = apiKeyId) (withSubAccountBalance next)).find? (·.id = id) =
            (db.apiKeys.find? (·.id = id)).map fun k => if k.id = apiKeyId then withSubAccountBalance next k else k := by
        rw [find?_update]
        · simp only [decide_eq_true_eq]
        · intro a
          rfl
      rw [if_pos henabled, hkid]
      refine ⟨fun b => ?_, fun d => ?_, rfl⟩
      · cases b with
        | user id =>
          have hne : (some (Account.subAccount apiKeyId)) ≠ some (.user id) := by simp
          simp only [balanceOf, sub_ite_zero hne, Option.map_id']
        | subAccount id =>
          by_cases hid : id = apiKeyId
          · subst hid
            simp only [balanceOf, hfind, hk, map_some, bind_some, hkid, if_true, henabled,
              withSubAccountBalance, subAccountBalance, trimmed?_toString]
            rw [← hval.1] at hnext ⊢
            rw [hnext]
            rfl
          · have hne : (some (Account.subAccount apiKeyId)) ≠ some (.subAccount id) := by simp [Ne.symm hid]
            simp only [balanceOf, hfind, sub_ite_zero hne, Option.map_id']
            cases hv : db.apiKeys.find? (·.id = id) with
            | none => rfl
            | some v =>
              have hvid : v.id = id := by simpa using Table.of_find? hv
              simp only [map_some, hvid, hid, if_false]
      · simp only [chargedAccount, hfind, Option.map_map]
        congr 2
        funext k
        simp only [Function.comp_apply]
        split <;> rfl
    · rename_i hdisabled
      rw [if_neg hdisabled]
      exact subtractUserBalanceTx_inv h

theorem applyCharge_inv (h : applyCharge db d amount = .ok db') : Charge db db' (chargedAccount db d) amount := by
  unfold applyCharge at h
  unfold chargedAccount
  split at h
  · rename_i hkind
    rw [if_pos hkind]
    exact subtractUserBalanceTx_inv h
  rename_i hkind
  rw [if_neg hkind]
  split at h
  · exact chargeApiKey_inv h
  · cases h

structure Applied (db db' : Database) (ds : List BalanceDelta) : Prop where
  ledger : db'.billingLedger.rows = db.billingLedger.rows ++ ds.map fun d => ledgerRow d (amountOf d)
  balances : ∀ a, balanceOf db' a = (balanceOf db a).map fun v => v - (ds.map (chargeTo db a)).sum
  accounts : ∀ d, chargedAccount db' d = chargedAccount db d

theorem applied_nil (h : SameAccounts db db') : Applied db db' [] := by
  refine ⟨by simp [h.ledger], fun a => ?_, fun d => ?_⟩
  · simp only [List.map_nil, List.sum_nil, Int.sub_zero, Option.map_id']
    cases a <;> simp only [balanceOf, h.users, h.apiKeys]
  · simp only [chargedAccount, h.apiKeys]

theorem Applied.trans {a b c : Database} {ds' : List BalanceDelta} (h : Applied a b ds)
    (h' : Applied b c ds') : Applied a c (ds ++ ds') := by
  have hcharge (acc : Account) : chargeTo b acc = chargeTo a acc := by
    funext d
    simp only [chargeTo, h.accounts]
  refine ⟨?_, fun acc => ?_, fun d => (h'.accounts d).trans (h.accounts d)⟩
  · rw [h'.ledger, h.ledger, map_append, append_assoc]
  · rw [h'.balances, h.balances, Option.map_map, hcharge, List.map_append, List.sum_append]
    congr 1
    funext v
    simp only [Function.comp_apply]
    omega

theorem Applied.keys (h : Applied db db' ds) : ledgerKeys db' = ledgerKeys db ++ ds.map BalanceDelta.deltaId := by
  rw [ledgerKeys, h.ledger, filterMap_append]
  simp [ledgerRow, filterMap_map, ledgerKeys]

theorem mem_ledgerKeys : key ∈ ledgerKeys db ↔ (db.billingLedger.find? (·.idempotencyKey = some key)).isSome := by
  simp only [ledgerKeys, List.mem_filterMap, Table.find?, List.find?_isSome, decide_eq_true_eq]

theorem applyBalanceDelta_inv (h : applyBalanceDelta db d = .ok (n, db')) :
    Applied db db' (firstNew BalanceDelta.deltaId (ledgerKeys db) [d]) := by
  simp only [applyBalanceDelta, bind_eq_ok, orError_eq_ok] at h
  obtain ⟨amount, hamount, h⟩ := h
  split at h
  · rename_i hseen
    simp only [pair_eq_ok] at h
    rw [firstNew_cons_of_mem (mem_ledgerKeys.2 hseen), ← h.2]
    exact applied_nil ⟨rfl, rfl, rfl⟩
  · rename_i hnew
    simp only [bind_eq_ok, orError_eq_ok, pair_eq_ok] at h
    obtain ⟨ledger, hledger, next, hnext, -, rfl⟩ := h
    rw [firstNew_cons_of_not_mem (fun hmem => hnew (mem_ledgerKeys.1 hmem)), firstNew]
    have hc := applyCharge_inv hnext
    have hamountOf : amountOf d = amount := by rw [amountOf, hamount, getD_some]
    refine ⟨?_, fun a => ?_, fun e => ?_⟩
    · rw [hc.ledger, map_singleton, hamountOf]
      exact (insert?_eq_some.1 hledger).2
    · rw [hc.balances, map_singleton, sum_singleton, chargeTo, hamountOf]
      rfl
    · exact hc.accounts e

theorem applyDeltas_inv (h : applyDeltas db ds = .ok (n, db')) :
    Applied db db' (firstNew BalanceDelta.deltaId (ledgerKeys db) ds) := by
  induction ds generalizing db n with
  | nil =>
    simp only [applyDeltas, pair_eq_ok] at h
    rw [← h.2]
    exact applied_nil ⟨rfl, rfl, rfl⟩
  | cons d ds ih =>
    simp only [applyDeltas, bind_eq_ok, pair_eq_ok] at h
    obtain ⟨⟨n₁, next⟩, hnext, ⟨n₂, last⟩, hlast, -, rfl⟩ := h
    have hhead := applyBalanceDelta_inv hnext
    have htail := ih hlast
    rw [hhead.keys] at htail
    have happ : d :: ds = [d] ++ ds := rfl
    rw [happ, firstNew_append]
    exact hhead.trans htail

theorem deliverBatches_inv [Sha256] {batches : List (MeteringBatch × String)}
    (h : deliverBatches db batches = .ok db') : Applied db db' (firstNew BalanceDelta.deltaId (ledgerKeys db)
      (batches.flatMap fun b => b.1.balanceDeltas)) := by
  induction batches generalizing db with
  | nil =>
    simp only [deliverBatches, pure_eq_ok] at h
    rw [← h]
    exact applied_nil ⟨rfl, rfl, rfl⟩
  | cons b batches ih =>
    obtain ⟨batch, vid⟩ := b
    simp only [deliverBatches, applyMeteringBatch, ok_iff] at h
    obtain ⟨⟨ack, next⟩, ⟨⟨acks, settled⟩, hsettled, ⟨applied, last⟩, hlast, hnext⟩, h⟩ := h
    cases hnext
    have hsame : Applied db settled [] := by
      simp only [applyTerminalBatch, ok_iff] at hsettled
      obtain ⟨inputs, -, hsettled⟩ := hsettled
      apply applied_nil
      apply applyTerminals_invariant hsettled _ ⟨rfl, rfl, rfl⟩
      intro _ _ _ ha hsame
      rw [ha.frame]
      exact ⟨hsame.users, hsame.apiKeys, hsame.ledger⟩
    have hdeltas : applyDeltas settled batch.balanceDeltas = .ok (applied, last) := by
      unfold liftStorage at hlast
      split at hlast
      · cases hlast
        assumption
      · cases hlast
    have hhead := hsame.trans (applyDeltas_inv hdeltas)
    have hkeys : ledgerKeys settled = ledgerKeys db := by simpa using hsame.keys
    rw [nil_append, hkeys] at hhead
    have htail := ih h
    rw [hhead.keys] at htail
    rw [flatMap_cons, firstNew_append]
    exact hhead.trans htail

theorem applyMeteringBatch_keys [Sha256] {next : Database} {batch : MeteringBatch}
    {violationId : String} {ack : MeteringAck} (h : applyMeteringBatch db batch violationId = .ok (ack, next)) :
    (∀ key ∈ ledgerKeys db, key ∈ ledgerKeys next) ∧ ∀ d ∈ batch.balanceDeltas, d.deltaId ∈ ledgerKeys next := by
  have hrun : deliverBatches db [(batch, violationId)] = .ok next := by
    simp only [deliverBatches, ok_iff]
    exact ⟨_, h, rfl⟩
  have hkeys := (deliverBatches_inv hrun).keys
  simp only [flatMap_cons, flatMap_nil, append_nil] at hkeys
  rw [hkeys]
  exact ⟨fun key hkey => mem_append_left _ hkey, fun d hd => key_mem_firstNew hd⟩

def unrecorded (db : Database) (deltas : List BalanceDelta) : List BalanceDelta :=
  deltas.filter fun d => d.deltaId ∉ ledgerKeys db

theorem count_ledger_eq_one (h : key ∈ ledgerKeys db) : db.billingLedger.count (·.idempotencyKey = some key) = 1 := by
  obtain ⟨row, hrow, hkey⟩ := List.mem_filterMap.1 h
  have hunique : ∀ r ∈ db.billingLedger.rows, decide (r.idempotencyKey = some key) = true → Clashes r row :=
    fun r _ hr => BillingLedgerRow.clashes_of_idempotencyKey (of_decide_eq_true hr) hkey
  obtain ⟨l₁, l₂, hl, hne⟩ := exists_split hrow hunique
  have hzero : (l₁ ++ l₂).countP (fun r => r.idempotencyKey = some key) = 0 :=
    countP_eq_zero.2 fun r hr => by simp [hne r hr]
  rw [List.countP_append] at hzero
  rw [Table.count, hl, List.countP_append, List.countP_cons_of_pos (by simp [hkey])]
  omega

theorem metering_applied_once [Sha256] (db db' : Database) (deltas : List BalanceDelta)
    (batches : List (MeteringBatch × String)) (hdistinct : (deltas.map BalanceDelta.deltaId).Nodup)
    (hunion : ∀ d, (∃ b ∈ batches, d ∈ b.1.balanceDeltas) ↔ d ∈ deltas) (hrun : deliverBatches db batches = .ok db') :
    (∀ d ∈ deltas, db'.billingLedger.count (·.idempotencyKey = some d.deltaId) = 1) ∧
    db'.billingLedger.rows.Perm (db.billingLedger.rows ++
      (unrecorded db deltas).map fun d => ledgerRow d (amountOf d)) ∧
    (∀ a, balanceOf db' a = (balanceOf db a).map fun v => v - ((unrecorded db deltas).map (chargeTo db a)).sum) ∧
    ∀ batch violationId e, applyMeteringBatch db batch violationId = .error e →
      commit db (applyMeteringBatch db batch violationId) = db := by
  have happlied := deliverBatches_inv hrun
  have hstream : ∀ d, d ∈ batches.flatMap (fun b => b.1.balanceDeltas) ↔ d ∈ deltas := by
    intro d
    rw [mem_flatMap]
    exact hunion d
  have hperm : (firstNew BalanceDelta.deltaId (ledgerKeys db) (batches.flatMap fun b => b.1.balanceDeltas)).Perm
      (unrecorded db deltas) := firstNew_perm hdistinct hstream
  refine ⟨?_, ?_, ?_, ?_⟩
  · intro d hd
    apply count_ledger_eq_one
    rw [happlied.keys]
    exact key_mem_firstNew ((hstream d).2 hd)
  · rw [happlied.ledger]
    exact (hperm.map _).append_left _
  · intro a
    rw [happlied.balances, (hperm.map (chargeTo db a)).sum_eq]
  · intro batch violationId e he
    rw [he]
    rfl

def sampleDelta (id kind amount : String) : BalanceDelta where
  deltaId := id
  kind := kind
  userId := "user"
  apiKeyId := some "key"
  amountNanoUsd := amount
  metaJson := "null"
  createdAt := "2026-01-01T00:00:00Z"

def sampleAccounts : Database where
  users := .single ⟨"user", "100", false, "buyer"⟩
  apiKeys := .single ⟨"key", "user", true, some "40"⟩

def sampleDeliveries : List (MeteringBatch × String) :=
  [({ balanceDeltas := [sampleDelta "d2" "api_key_charge" "7", sampleDelta "d1" "request_charge" "5"] }, "v"),
   ({ balanceDeltas := [sampleDelta "d1" "request_charge" "5", sampleDelta "d1" "request_charge" "5"] }, "v")]

open SampleDigests

theorem metering_applied_once_sample : ∃ db', deliverBatches sampleAccounts sampleDeliveries = .ok db' ∧
    balanceOf db' (.user "user") = some 95 ∧ balanceOf db' (.subAccount "key") = some 33 := by
  obtain ⟨db', hrun⟩ : ∃ db', deliverBatches sampleAccounts sampleDeliveries = .ok db' :=
    exists_eq_ok (by decide +kernel)
  have honce := metering_applied_once sampleAccounts db'
    [sampleDelta "d1" "request_charge" "5", sampleDelta "d2" "api_key_charge" "7"] sampleDeliveries
    (by decide) (by simp [sampleDeliveries, or_comm]) hrun
  refine ⟨db', hrun, ?_, ?_⟩
  · rw [honce.2.2.1]
    decide +kernel
  · rw [honce.2.2.1]
    decide +kernel

def sampleRecordedAccounts : Database :=
  { sampleAccounts with
    billingLedger := .single (ledgerRow (sampleDelta "d1" "request_charge" "5") 5) }

/-- A delta whose ledger row exists already is skipped, so its amount is not charged. -/
theorem metering_skips_recorded_delta :
    validateDelta (sampleDelta "d1" "request_charge" "5") = .ok () ∧
    balanceOf sampleRecordedAccounts (.user "user") = some 100 ∧
    chargeTo sampleRecordedAccounts (.user "user") (sampleDelta "d1" "request_charge" "5") = 5 ∧
    ∃ db', deliverBatches sampleRecordedAccounts
        [({ balanceDeltas := [sampleDelta "d1" "request_charge" "5"] }, "v")] = .ok db' ∧
      balanceOf db' (.user "user") = some 100 ∧ db'.billingLedger = sampleRecordedAccounts.billingLedger := by
  refine ⟨by rfl, by decide +kernel, by decide +kernel, sampleRecordedAccounts, by rfl, by decide +kernel, rfl⟩

end Monoize
