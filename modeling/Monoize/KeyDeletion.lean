import Monoize.AccountWealth

namespace Monoize

open Fallible MachineInt Relational List Option Table

variable {entry : String × LockedApiKeyBalance} {db : Database}

variable {s s' : Settlement} {call : DeleteApiKeysCall} {k : ApiKey} {next : Database}

def owedBy (userId : String) (keys : List (String × LockedApiKeyBalance)) : Int :=
  (keys.map fun entry => movedBy entry.2.userId entry.2.balance userId).sum

theorem owedBy_append (userId : String) (keys : List (String × LockedApiKeyBalance))
    (entry : String × LockedApiKeyBalance) :
    owedBy userId (keys ++ [entry]) = owedBy userId keys + movedBy entry.2.userId entry.2.balance userId := by
  simp [owedBy]

structure Settled (start : Std.TreeMap String LockedUserBalance) (done : List (String × LockedApiKeyBalance))
    (s : Settlement) : Prop where
  limits : ∀ id : String, s.userBalances[id]?.map LockedUserBalance.unlimited = start[id]?.map LockedUserBalance.unlimited
  balances : ∀ (id : String) (user : LockedUserBalance), start[id]? = some user → user.unlimited = false →
    s.userBalances[id]? = some ⟨user.balance + owedBy id done, false⟩
  updates : ∀ (id : String) (next : Int), s.userUpdates[id]? = some next → checked 127 next = some next ∧
    ∃ user, start[id]? = some user ∧ user.unlimited = false ∧ next = user.balance + owedBy id done
  untouched : ∀ (id : String) (user : LockedUserBalance), start[id]? = some user → user.unlimited = false →
    s.userUpdates[id]? = none → owedBy id done = 0

theorem Settled.start (start : Std.TreeMap String LockedUserBalance) : Settled start [] { userBalances := start } := by
  refine ⟨fun id => rfl, fun id user huser hlimited => ?_, fun id next hnext => ?_, fun id user _ _ _ => rfl⟩
  · obtain ⟨balance, unlimited⟩ := user
    cases hlimited
    rw [huser, owedBy, map_nil, sum_nil, Int.add_zero]
  · simp at hnext

variable {start balances : Std.TreeMap String LockedUserBalance} {done : List (String × LockedApiKeyBalance)}

theorem Settled.skip (h : Settled start done s) (hbalances : s'.userBalances = s.userBalances)
    (hupdates : s'.userUpdates = s.userUpdates)
    (hentry : ∀ (id : String) (user : LockedUserBalance), start[id]? = some user → user.unlimited = false →
      movedBy entry.2.userId entry.2.balance id = 0) : Settled start (done ++ [entry]) s' := by
  have howed (id : String) (user : LockedUserBalance) (huser : start[id]? = some user)
      (hlimited : user.unlimited = false) : owedBy id (done ++ [entry]) = owedBy id done := by
    rw [owedBy_append, hentry id user huser hlimited, Int.add_zero]
  refine ⟨fun id => hbalances ▸ h.limits id, fun id user huser hlimited => ?_, fun id next hnext => ?_,
    fun id user huser hlimited hnone => ?_⟩
  · rw [howed id user huser hlimited, hbalances]
    exact h.balances id user huser hlimited
  · obtain ⟨hchecked, user, huser, hlimited, hvalue⟩ := h.updates id next (hupdates ▸ hnext)
    exact ⟨hchecked, user, huser, hlimited, by rw [howed id user huser hlimited, hvalue]⟩
  · rw [howed id user huser hlimited]
    exact h.untouched id user huser hlimited (hupdates ▸ hnone)

theorem settleKey_settled (h : Settled start done s)
    (hs' : settleKey call s entry = .ok s') : Settled start (done ++ [entry]) s' := by
  obtain ⟨keyId, key⟩ := entry
  unfold settleKey at hs'
  dsimp only at hs'
  split at hs'
  · rename_i hzero
    cases hs'
    exact h.skip rfl rfl fun id user _ _ => by rw [hzero, movedBy_zero]
  simp only [ok_iff] at hs'
  obtain ⟨user, huser, hs'⟩ := hs'
  have hlimit := h.limits key.userId
  rw [huser, map_some] at hlimit
  obtain ⟨first, hfirst, hfirstLimit⟩ := map_eq_some_iff.1 hlimit.symm
  split at hs'
  · rename_i hunlimited
    cases hs'
    refine h.skip rfl rfl fun id other hother hlimited => ?_
    have hne : key.userId ≠ id := by
      rintro rfl
      rw [hfirst, some.injEq] at hother
      rw [← hother, hfirstLimit, hunlimited] at hlimited
      cases hlimited
    exact if_neg hne
  · rename_i hlimited
    rw [Bool.not_eq_true] at hlimited
    simp only [ok_iff] at hs'
    obtain ⟨next, hnext, rfl⟩ := hs'
    have hbefore := h.balances key.userId first hfirst (hfirstLimit.trans hlimited)
    rw [huser, some.injEq] at hbefore
    have hvalue : next = first.balance + owedBy key.userId (done ++ [(keyId, key)]) := by
      rw [owedBy_append, movedBy, if_pos rfl, ← (checked_eq_some.1 hnext).1, hbefore, Int.add_assoc]
    have hother {id : String} (hne : key.userId ≠ id) : owedBy id (done ++ [(keyId, key)]) = owedBy id done := by
      rw [owedBy_append, movedBy, if_neg hne, Int.add_zero]
    refine ⟨fun id => ?_, fun id other hstart hl => ?_, fun id after hafter => ?_, fun id other hstart hl hnone => ?_⟩
    · simp only [getElem?_insert_eq]
      split
      · rename_i heq
        subst heq
        rw [map_some, hfirst, map_some, hfirstLimit]
      · exact h.limits id
    · simp only [getElem?_insert_eq]
      split
      · rename_i heq
        subst heq
        rw [hfirst, some.injEq] at hstart
        rw [← hstart, ← hvalue, hlimited]
      · rename_i hne
        rw [hother hne]
        exact h.balances id other hstart hl
    · simp only [getElem?_insert_eq] at hafter
      split at hafter
      · rename_i heq
        subst heq
        cases hafter
        exact ⟨checked_self hnext, first, hfirst, hfirstLimit.trans hlimited, hvalue⟩
      · rename_i hne
        rw [hother hne]
        exact h.updates id after hafter
    · simp only [getElem?_insert_eq] at hnone
      split at hnone
      · cases hnone
      · rename_i hne
        rw [hother hne]
        exact h.untouched id other hstart hl hnone

structure OwnersLocked (rows : List User) (balances : Std.TreeMap String LockedUserBalance) : Prop where
  known : ∀ (id : String) (user : LockedUserBalance), balances[id]? = some user →
    ∃ u ∈ rows, u.id = id ∧ u.balanceUnlimited = user.unlimited ∧ balanceValue u = user.balance
  present : ∀ u ∈ rows, balances[u.id]? ≠ none

theorem lockOwner_locked {done : List User} {u : User} {next : Std.TreeMap String LockedUserBalance}
    (h : OwnersLocked done balances) (hnext : lockOwner balances u = .ok next) : OwnersLocked (done ++ [u]) next := by
  simp only [lockOwner, ok_iff] at hnext
  obtain ⟨balance, hbalance, rfl⟩ := hnext
  constructor
  · intro id user hid
    rw [getElem?_insert_eq] at hid
    split at hid
    · rename_i heq
      cases hid
      exact ⟨u, by simp, heq, rfl, by rw [balanceValue, hbalance, getD_some]⟩
    · obtain ⟨v, hv, hrest⟩ := h.known id user hid
      exact ⟨v, mem_append_left _ hv, hrest⟩
  · intro v hv
    rw [getElem?_insert_eq]
    split
    · exact some_ne_none _
    rename_i hne
    rcases mem_append.1 hv with hv | hv
    · exact h.present v hv
    · rw [mem_singleton.1 hv] at hne
      exact absurd rfl hne

theorem lockOwners_ok {keys : List ApiKey} (h : lockOwners db keys = .ok balances) :
    OwnersLocked (db.users.rows.filter fun u => u.id ∈ (keys.map ApiKey.userId).dedup) balances := by
  simp only [lockOwners, ok_iff] at h
  obtain ⟨balances, hbalances, -, -, rfl⟩ := h
  apply foldlM_eq_ok (motive := OwnersLocked) hbalances
  · refine ⟨fun id user hid => by simp at hid, ?_⟩
    intro u hu
    cases hu
  · intro done u balances next hdone hnext
    exact lockOwner_locked hdone hnext

def locked (k : ApiKey) : String × LockedApiKeyBalance := (k.id, ⟨k.userId, subAccountBalance k, k.subAccountEnabled⟩)

theorem lockKey_ok (h : lockKey k = .ok entry) : entry = locked k := by
  simp only [lockKey, ok_iff] at h
  obtain ⟨raw, hraw, balance, hbalance, rfl⟩ := h
  rw [locked, subAccountBalance, hraw, bind_some, hbalance, getD_some]

theorem insertRows_same {rows : List BillingLedgerRow} (h : insertRows db rows = .ok next) :
    next.users = db.users ∧ next.apiKeys = db.apiKeys := by
  apply foldlM_eq_ok (motive := fun _ next => next.users = db.users ∧ next.apiKeys = db.apiKeys) h ⟨rfl, rfl⟩
  intro _ chunk mid mid' hmid hchunk
  apply foldlM_eq_ok (motive := fun _ next => next.users = db.users ∧ next.apiKeys = db.apiKeys) hchunk hmid
  intro _ row mid mid' hmid hrow
  have hsame := insertBillingLedgerTx_same hrow
  exact ⟨hsame.1.trans hmid.1, hsame.2.trans hmid.2⟩

theorem mem_selectedKeys {ids : List String} : k ∈ selectedKeys db ids ↔ k ∈ db.apiKeys.rows ∧ k.id ∈ ids := by
  rw [selectedKeys, (mergeSort_perm _ _).mem_iff, mem_filter, decide_eq_true_eq]

theorem owedBy_selectedKeys (db : Database) (ids : List String) (userId : String) :
    owedBy userId ((selectedKeys db ids).map locked)
      = db.apiKeys.total fun k => if k.id ∈ ids then if k.userId = userId then subAccountBalance k else 0 else 0 := by
  rw [owedBy, List.map_map, selectedKeys, ((List.mergeSort_perm _ _).map _).sum_eq, Table.total]
  induction db.apiKeys.rows with
  | nil => rfl
  | cons k rows ih =>
    rw [filter_cons, map_cons, sum_cons, ← ih]
    by_cases hid : k.id ∈ ids
    · rw [if_pos (decide_eq_true hid), map_cons, sum_cons, if_pos hid]
      rfl
    · rw [if_neg (by simpa using hid), if_neg hid, Int.zero_add]

theorem updateUsers_rows (db : Database) (updates : Std.TreeMap String Int) :
    (updateUsers db updates.toList).users.rows = db.users.rows.map fun u =>
      match updates[u.id]? with
      | some next => withBalance next u
      | none => u := by
  have hflat := flatten_toChunks userUpdateChunkSize updates.toList
  have hrows : (updateUsers db updates.toList).users.rows = db.users.rows.map
      (caseOf User.id withBalance (updates.toList.toChunks userUpdateChunkSize).flatten) := by
    apply updateChunks_rows
    · intro next u
      rfl
    · rw [hflat]
      exact toList_distinct updates
  rw [hrows, hflat]
  apply map_congr_left
  intro u _
  rw [caseOf, lookup_toList]
  cases updates[u.id]? <;> rfl

theorem updateUsers_moved {updates : Std.TreeMap String Int} {change : String → Int}
    (h : ∀ u ∈ db.users.rows, u.balanceUnlimited = false →
      match updates[u.id]? with
      | some next => checked 127 next = some next ∧ next = balanceValue u + change u.id
      | none => change u.id = 0) : WealthMoved db (updateUsers db updates.toList) change := by
  have hrows := updateUsers_rows db updates
  refine ⟨limited_of_map hrows fun u => ?_, fun id hid => ?_⟩
  · split <;> exact ⟨rfl, rfl⟩
  · obtain ⟨u, hu, rfl, hlimited⟩ := hid
    have hchange := h u hu hlimited
    have hmem : (match updates[u.id]? with
        | some next => withBalance next u
        | none => u) ∈ (updateUsers db updates.toList).users.rows := by
      rw [hrows]
      exact mem_map_of_mem hu
    rw [wealth, wealth, ownBalance_of_mem hu]
    have hkeys : keyBalances (updateUsers db updates.toList) u.id = keyBalances db u.id := rfl
    rw [hkeys]
    split at hchange
    · rename_i next hnext
      simp only [hnext] at hmem
      have hafter := ownBalance_of_mem hmem
      rw [balanceValue_withBalance hchange.1, hchange.2] at hafter
      have hid : (withBalance next u).id = u.id := rfl
      rw [← hchange.2, hid] at hafter
      rw [hafter, hchange.2]
      omega
    · rename_i hnone
      simp only [hnone] at hmem
      rw [ownBalance_of_mem hmem, hchange]
      omega

theorem removeKeys_moved (db : Database) (p : ApiKey → Bool) :
    WealthMoved db { db with apiKeys := db.apiKeys.remove p }
      fun id => -db.apiKeys.total fun k => if p k then if k.userId = id then subAccountBalance k else 0 else 0 := by
  refine ⟨fun id => Iff.rfl, fun id _ => ?_⟩
  simp only [wealth, ownBalance, keyBalances, total_remove]
  omega

theorem deleteApiKeysTransactional_moved {n : Nat}
    (h : deleteApiKeysTransactional db call = .ok (n, next)) : WealthMoved db next fun _ => 0 := by
  simp only [deleteApiKeysTransactional, ok_iff] at h
  obtain ⟨-, -, h⟩ := h
  split at h
  · cases h
    exact WealthMoved.of_same rfl rfl
  simp only [ok_iff, billingMessage_eq_ok] at h
  obtain ⟨balances, hbalances, lockedKeys, hlocked, settled, hsettled, booked, hbooked, -, rfl⟩ := h
  have hlockedOwners := lockOwners_ok hbalances
  rw [mapM_eq_ok (g := locked) (fun k entry => lockKey_ok) hlocked] at hsettled ⊢
  have hs := foldlM_eq_ok (motive := Settled balances) hsettled (Settled.start balances)
    fun done entry s s' hs hs' => settleKey_settled hs hs'
  have hcredit : WealthMoved db (updateUsers db settled.userUpdates.toList)
      fun id => owedBy id ((selectedKeys db call.ids).map locked) := by
    apply updateUsers_moved
    intro u hu hlimited
    split
    · rename_i after hafter
      obtain ⟨hchecked, user, huser, -, hvalue⟩ := hs.updates u.id after hafter
      obtain ⟨v, hv, hid, -, hbalance⟩ := hlockedOwners.known u.id user huser
      rw [eq_of_clashes (mem_filter.1 hv).1 hu (User.clashes_of_id hid rfl)] at hbalance
      exact ⟨hchecked, by rw [hvalue, hbalance]⟩
    · rename_i hnone
      cases huser : balances[u.id]? with
      | some user =>
        obtain ⟨v, hv, hid, hsame, -⟩ := hlockedOwners.known u.id user huser
        rw [eq_of_clashes (mem_filter.1 hv).1 hu (User.clashes_of_id hid rfl), hlimited] at hsame
        exact hs.untouched u.id user huser hsame.symm hnone
      | none =>
        -- No selected key belongs to a user that was not locked.
        rw [owedBy_selectedKeys]
        apply total_eq_zero
        intro k hk
        split
        · rename_i hid
          rw [if_neg]
          intro howner
          have howned : u.id ∈ ((selectedKeys db call.ids).map ApiKey.userId).dedup :=
            mem_dedup.2 (mem_map.2 ⟨k, mem_selectedKeys.2 ⟨hk, hid⟩, howner⟩)
          exact hlockedOwners.present u (mem_filter.2 ⟨hu, decide_eq_true howned⟩) huser
        · rfl
  obtain ⟨husers, hkeys⟩ := insertRows_same hbooked
  have hbookedMoved := hcredit.same husers hkeys
  have hkeys' : booked.apiKeys = db.apiKeys := hkeys
  refine (hbookedMoved.trans (removeKeys_moved booked _)).congr fun id _ => ?_
  rw [owedBy_selectedKeys, hkeys']
  have hdeleted : ∀ k ∈ db.apiKeys.rows,
      (k.id ∈ ((selectedKeys db call.ids).map locked).map Prod.fst ↔ k.id ∈ call.ids) := by
    intro k hk
    simp only [List.mem_map, List.map_map, Function.comp_apply]
    constructor
    · rintro ⟨k', hk', hid⟩
      rw [← hid]
      exact (mem_selectedKeys.1 hk').2
    · intro hid
      exact ⟨k, mem_selectedKeys.2 ⟨hk, hid⟩, rfl⟩
  have htotal : (db.apiKeys.total fun k => if k.id ∈ call.ids then
        if k.userId = id then subAccountBalance k else 0 else 0)
      = db.apiKeys.total fun k => if decide (k.id ∈ ((selectedKeys db call.ids).map locked).map Prod.fst) then
        if k.userId = id then subAccountBalance k else 0 else 0 := by
    apply total_congr
    intro k hk
    simp only [decide_eq_true_eq, hdeleted k hk]
  rw [htotal]
  omega

end Monoize
