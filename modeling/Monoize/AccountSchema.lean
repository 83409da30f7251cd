import Monoize.Table

namespace Monoize

open Relational

structure User where
  (id balanceNanoUsd : String)
  balanceUnlimited : Bool
  username : String

structure BalanceHold where
  userId : String
  active : Bool
  reason : String
  openedAt : Int
  clearedAt : Option Int

structure ApiKey where
  (id userId : String)
  subAccountEnabled : Bool
  subAccountBalanceNano : Option String

structure BillingLedgerRow where
  (id userId kind : String)
  deltaNanoUsd : Int
  balanceAfterNanoUsd : Option Int
  (metaJson createdAt : String)
  idempotencyKey : Option String
  deriving DecidableEq

instance : Keyed User := .on (·.id)

instance : Keyed BalanceHold := .on (·.userId)

instance : Keyed ApiKey := .on (·.id)

instance : Keyed BillingLedgerRow where
  Key := String × Option String
  key r := (r.id, r.idempotencyKey)
  Clash k l := k.1 = l.1 ∨ SameIndex k.2 l.2
  clash_symm := Or.imp Eq.symm SameIndex.symm

theorem BillingLedgerRow.clashes_of_idempotencyKey {a b : BillingLedgerRow} {key : String}
    (ha : a.idempotencyKey = some key) (hb : b.idempotencyKey = some key) : Clashes a b :=
  .inr ⟨by simp [Keyed.key, ha], by simp [Keyed.key, ha, hb]⟩

def withBalance (next : Int) (u : User) : User := { u with balanceNanoUsd := toString next }

theorem withBalance_key (next : Int) (u : User) : Keyed.key (withBalance next u) = Keyed.key u := rfl

end Monoize
