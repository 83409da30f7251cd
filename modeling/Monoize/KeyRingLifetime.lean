import Mathlib.Data.String.Basic
import Monoize.KeyRing
import Monoize.Transition

/-! Rotation never cuts a token short: a token verifies for its whole lifetime and not after it. -/

namespace Monoize

open Fallible Relational Transition List Table

variable {keyId : String} {input : TokenInput} {now : Instant}

section Sizes

theorem utf8Len_flatMap_jsonEscape (l : List Char) : String.utf8Len (l.flatMap jsonEscape) ≤ 2 * String.utf8Len l := by
  induction l with
  | nil => exact le_rfl
  | cons c l ih =>
    have hc : String.utf8Len (jsonEscape c) ≤ 2 * c.utf8Size := by
      unfold jsonEscape
      split
      · rename_i h
        rw [h]
        decide
      split
      · rename_i h
        rw [h]
        decide
      · rw [String.utf8Len_cons, String.utf8Len_nil]
        omega
    rw [flatMap_cons, String.utf8Len_append, String.utf8Len_cons]
    omega

theorem jsonText_bytes (value : String) : (jsonText value).utf8ByteSize ≤ 2 * value.utf8ByteSize + 2 := by
  have hquote : ("\"" : String).utf8ByteSize = 1 := by decide
  have hbody := utf8Len_flatMap_jsonEscape value.toList
  rw [String.utf8Len_toList] at hbody
  rw [jsonText, String.utf8ByteSize_append, String.utf8ByteSize_append, hquote, String.utf8ByteSize_ofList]
  omega

theorem utf8Len_toDigits (n : Nat) : String.utf8Len (Nat.toDigits 10 n) = (Nat.toDigits 10 n).length := by
  have hsize (l : List Char) (h : ∀ c ∈ l, c.isDigit = true) : String.utf8Len l = l.length := by
    induction l with
    | nil => rfl
    | cons c l ih =>
      have hc : c.utf8Size = 1 := by
        have hd := h c mem_cons_self
        simp only [Char.isDigit, Bool.and_eq_true, decide_eq_true_eq] at hd
        rw [Char.utf8Size_eq_one_iff]
        exact UInt32.le_trans hd.2 (by decide)
      rw [String.utf8Len_cons, length_cons, ih fun d hd => h d (mem_cons_of_mem _ hd), hc]
  exact hsize _ fun c hc => Nat.isDigit_of_mem_toDigits (by decide) (by decide) hc

theorem toString_nat_bytes {n k : Nat} (hk : 0 < k) (h : n < 10 ^ k) : (toString n).utf8ByteSize ≤ k := by
  rw [Nat.toString_eq_ofList_toDigits, String.utf8ByteSize_ofList, utf8Len_toDigits]
  exact (Nat.length_toDigits_le_iff (by decide) hk).2 h

theorem toString_int_bytes {n : Int} {k : Nat} (hk : 0 < k) (h : n.natAbs < 10 ^ k) :
    (toString n).utf8ByteSize ≤ k + 1 := by
  cases n with
  | ofNat n =>
    have := toString_nat_bytes hk h
    exact le_trans this (Nat.le_succ k)
  | negSucc n =>
    have := toString_nat_bytes hk h
    have htext : toString (Int.negSucc n) = "-" ++ toString (n + 1) := rfl
    rw [htext, String.utf8ByteSize_append]
    exact (Nat.add_comm _ _).trans_le (Nat.succ_le_succ this)

theorem jsonText_identifier_bytes {value : String} (h : identifierIsValid value) :
    (jsonText value).utf8ByteSize ≤ 514 := by
  have := jsonText_bytes value
  have := h.2.1
  omega

theorem jsonMembers_bytes {members : List (String × String)} :
    (∀ m ∈ members, (jsonText m.1).utf8ByteSize ≤ 18 ∧ m.2.utf8ByteSize ≤ 514) →
      (jsonMembers members).utf8ByteSize ≤ 534 * members.length := by
  have hcolon : (":" : String).utf8ByteSize = 1 := by decide
  have hcomma : ("," : String).utf8ByteSize = 1 := by decide
  intro h
  fun_induction jsonMembers members with
  | case1 => exact Nat.zero_le _
  | case2 name value =>
    obtain ⟨hname, hvalue⟩ := h (name, value) mem_cons_self
    rw [String.utf8ByteSize_append, String.utf8ByteSize_append, length_singleton]
    dsimp only at hname hvalue
    omega
  | case3 name value member members ih =>
    obtain ⟨hname, hvalue⟩ := h (name, value) mem_cons_self
    have := ih fun m hm => h m (mem_cons_of_mem _ hm)
    rw [String.utf8ByteSize_append, String.utf8ByteSize_append, String.utf8ByteSize_append,
      String.utf8ByteSize_append, length_cons]
    dsimp only at hname hvalue
    omega

theorem jsonObject_bytes {members : List (String × String)}
    (hnames : ∀ name ∈ members.map Prod.fst, (jsonText name).utf8ByteSize ≤ 18)
    (hvalues : ∀ value ∈ members.map Prod.snd, value.utf8ByteSize ≤ 514) :
    (jsonObject members).utf8ByteSize ≤ 534 * members.length + 2 := by
  have hopen : ("\x7b" : String).utf8ByteSize = 1 := by decide
  have hclose : ("\x7d" : String).utf8ByteSize = 1 := by decide
  have := jsonMembers_bytes fun m hm => ⟨hnames _ (mem_map.2 ⟨m, hm, rfl⟩), hvalues _ (mem_map.2 ⟨m, hm, rfl⟩)⟩
  rw [jsonObject, String.utf8ByteSize_append, String.utf8ByteSize_append]
  omega

theorem unixSeconds_natAbs {t : Int} (hge : -8334601228800 * 1000000000 ≤ t)
    (hle : t ≤ 8210266876799 * 1000000000 + 999999999 + 30 * 1000000000) : (unixSeconds t).natAbs < 10 ^ 19 := by
  unfold unixSeconds
  omega

theorem unixSeconds_bounds (input : TokenInput) :
    (unixSeconds input.issuedAt).natAbs < 10 ^ 19 ∧ (unixSeconds (input.issuedAt + seconds 30)).natAbs < 10 ^ 19 := by
  have hge := input.issued_ge
  have hle := input.issued_le
  refine ⟨unixSeconds_natAbs hge (le_trans hle ?_), unixSeconds_natAbs (le_trans hge ?_) (Int.add_le_add_right hle _)⟩
  · decide
  · exact Int.le_add_of_nonneg_right (by decide)

theorem headerJson_bytes (h : identifierIsValid keyId) :
    (headerJson (signedHeader keyId)).utf8ByteSize ≤ 534 * 3 + 2 := by
  apply jsonObject_bytes
  · show ∀ name ∈ ["alg", "kid", "typ"], _
    decide +kernel
  · show ∀ value ∈ [jsonText "EdDSA", jsonText keyId, jsonText "lynshen-plan-admission"], _
    simp only [forall_mem_cons]
    exact ⟨by decide +kernel, jsonText_identifier_bytes h, by decide +kernel, forall_mem_nil _⟩

theorem claimsJson_bytes {issuer : String} (hissuer : identifierIsValid issuer)
    (hinput : validateTokenInput input.toAdmissionTokenInput) :
    (claimsJson (signedClaims issuer input.toAdmissionTokenInput)).utf8ByteSize ≤ 534 * 14 + 2 := by
  obtain ⟨haud, hjti, hreservation, hrequest, hentitlement, hpricing, hgeneration, hmaximum, hreserved⟩ := hinput
  have number {n : Int} (h : n.natAbs < 10 ^ 39) : (toString n).utf8ByteSize ≤ 40 := toString_int_bytes (by decide) h
  have amount {n : Int} (h : n.natAbs < 10 ^ 39) : (jsonText (toString n)).utf8ByteSize ≤ 514 := by
    have hnumber := number h
    have := jsonText_bytes (toString n)
    omega
  have small {n : Int} (h : n.natAbs < 10 ^ 39) : (toString n).utf8ByteSize ≤ 514 := le_trans (number h) (by decide)
  have hgen := input.generation_lt
  have hmax := input.maximum_lt
  have hres := input.reserved_lt
  obtain ⟨hiat, hexp⟩ := unixSeconds_bounds input
  apply jsonObject_bytes
  · show ∀ name ∈ ["v", "iss", "aud", "jti", "reservation_id", "request_id", "entitlement_id", "generation",
      "maximum_nano_usd", "reserved_fen_cny", "pricing_revision", "iat", "nbf", "exp"], _
    decide +kernel
  · show ∀ value ∈ [toString (1 : Int), jsonText issuer, jsonText input.audience, jsonText input.tokenId,
      jsonText input.reservationId, jsonText input.requestId, jsonText input.entitlementId, toString input.generation,
      jsonText (toString input.maximumNanoUsd), jsonText (toString input.reservedFenCny),
      jsonText input.pricingRevision, toString (unixSeconds input.issuedAt), toString (unixSeconds input.issuedAt),
      toString (unixSeconds (input.issuedAt + seconds 30))], _
    simp only [forall_mem_cons]
    exact ⟨small (by decide), jsonText_identifier_bytes hissuer, jsonText_identifier_bytes haud,
      jsonText_identifier_bytes hjti, jsonText_identifier_bytes hreservation, jsonText_identifier_bytes hrequest,
      jsonText_identifier_bytes hentitlement, small (by omega), amount (by omega), amount (by omega),
      jsonText_identifier_bytes hpricing, small (by omega), small (by omega), small (by omega),
      forall_mem_nil _⟩

theorem signedToken_bytes {Signature : Type} {issuer : String} (signature : Signature)
    (hissuer : identifierIsValid issuer) (hkey : identifierIsValid keyId)
    (hinput : validateTokenInput input.toAdmissionTokenInput) :
    CompactToken.bytes ⟨signedHeader keyId, signedClaims issuer input.toAdmissionTokenInput, signature⟩ ≤
      maxTokenBytes := by
  have hheader := headerJson_bytes hkey
  have hclaims := claimsJson_bytes hissuer hinput
  unfold CompactToken.bytes segmentBytes signatureBytes maxTokenBytes
  dsimp only
  omega

end Sizes

variable {Key Signature : Type} {scheme : SignatureScheme Key (TokenHeader × TokenClaims) Signature}

variable {issuedAt : Instant} {e : KeyEntry Key} {keys : Table (KeyEntry Key)} {token : CompactToken Signature}
  {key : Key}

theorem unixSeconds_add (value : Instant) (n : Int) : unixSeconds (value + seconds n) = unixSeconds value + n :=
  Int.add_mul_ediv_right value n (by decide)

theorem unixSeconds_lt_iff (value : Instant) (n : Int) : unixSeconds value < n ↔ value < seconds n :=
  Int.ediv_lt_iff_lt_mul (by decide)

theorem seconds_unixSeconds_le (value : Instant) : seconds (unixSeconds value) ≤ value :=
  Int.ediv_mul_le value (by decide)

theorem seconds_add (m n : Int) : seconds (m + n) = seconds m + seconds n := Int.add_mul m n _

def tokenLimit (issuedAt : Instant) : Instant := seconds (unixSeconds issuedAt + 35)

theorem tokenLimit_le (h : issuedAt ≤ now) : tokenLimit issuedAt ≤ now + seconds 300 := by
  have hfloor := seconds_unixSeconds_le issuedAt
  rw [tokenLimit, seconds_add]
  exact Int.add_le_add (le_trans hfloor h) (by decide)

namespace KeyRing

variable {ring ring' : KeyRing Key}

theorem entry?_ok (h : ring.entry? keyId = some e) : e ∈ ring.keys.rows ∧ e.key.keyId = keyId := by
  have hid := of_find?_decide h
  exact ⟨mem_of_find? h, hid⟩

theorem entries_unique {e' : KeyEntry Key} (h : e ∈ keys.rows) (h' : e' ∈ keys.rows)
    (hid : e.key.keyId = e'.key.keyId) : e = e' :=
  eq_of_clashes h h' hid

theorem entry?_of_mem (h : e ∈ ring.keys.rows) : ring.entry? e.key.keyId = some e :=
  find?_eq_some_of_mem h (decide_eq_true rfl) fun b hb =>
    show b.key.keyId = e.key.keyId from of_decide_eq_true hb

structure Named (ring : KeyRing Key) : Prop where
  active : ∃ e ∈ ring.keys.rows, e.state = .active ∧ e.key.keyId = ring.activeKeyId
  only : ∀ e ∈ ring.keys.rows, e.state = .active → e.key.keyId = ring.activeKeyId

def OneActive (ring : KeyRing Key) : Prop :=
  ∃ e ∈ ring.keys.rows, e.state = .active ∧ e.key.keyId = ring.activeKeyId ∧
    ∀ e' ∈ ring.keys.rows, e'.state = .active → e' = e

theorem Named.oneActive (h : Named ring) : OneActive ring := by
  obtain ⟨e, he, hactive, hid⟩ := h.active
  refine ⟨e, he, hactive, hid, ?_⟩
  intro e' he' hactive'
  exact entries_unique he' he ((h.only e' he' hactive').trans hid.symm)

def Serves (ring : KeyRing Key) (keyId : String) (key : Key) (limit : Instant) : Prop :=
  ∃ e ∈ ring.keys.rows, e.key.keyId = keyId ∧ e.key.signingKey = key ∧
    (e.state = .active ∨ e.state = .retired ∧ ∃ t, e.verifyUntil = some t ∧ limit ≤ t)

theorem addPrior_rows {keys' : Table (KeyEntry Key)} {prior : PriorAdmissionSigningKey Key}
    (h : addPrior keys prior = .ok keys') : ∃ e, e.state = .retired ∧ keys'.rows = keys.rows ++ [e] := by
  simp only [addPrior, ok_iff] at h
  obtain ⟨-, -, minimum, -, limit, -, hins⟩ := h
  exact ⟨_, rfl, (insert?_eq_some.1 hins).2⟩

theorem new_named {issuer : String} {active : AdmissionSigningKey Key} {prior : List (PriorAdmissionSigningKey Key)}
    (h : new issuer active prior = .ok ring) : Named ring := by
  unfold new at h
  split at h
  · simp only [ok_iff] at h
    obtain ⟨keys, hkeys, rfl⟩ := h
    have hinv : activeEntry active ∈ keys.rows ∧ ∀ e ∈ keys.rows, e.state = .active → e = activeEntry active := by
      apply foldlM_eq_ok (motive := fun _ keys => activeEntry active ∈ keys.rows ∧
        ∀ e ∈ keys.rows, e.state = .active → e = activeEntry active) hkeys
      · refine ⟨mem_singleton_self _, ?_⟩
        intro e he _
        exact mem_singleton.1 he
      · rintro _ p keys keys' ⟨hmem, honly⟩ hadd
        obtain ⟨e, hstate, hrows⟩ := addPrior_rows hadd
        rw [hrows]
        refine ⟨mem_append_left _ hmem, ?_⟩
        intro e' he' hactive
        rcases mem_append.1 he' with he' | he'
        · exact honly e' he' hactive
        · rw [mem_singleton.1 he', hstate] at hactive
          cases hactive
    exact ⟨⟨_, hinv.1, rfl, rfl⟩, fun e he hactive => by rw [hinv.2 e he hactive]; rfl⟩
  · cases h

theorem publish_rows {key : AdmissionSigningKey Key} (h : ring.publish key = .ok ring') :
    ring'.issuer = ring.issuer ∧ ring'.activeKeyId = ring.activeKeyId ∧
      ring'.keys.rows = ring.keys.rows ++ [⟨key, .published, none, none⟩] := by
  simp only [publish, ok_iff] at h
  obtain ⟨keys, hins, rfl⟩ := h
  exact ⟨rfl, rfl, (insert?_eq_some.1 hins).2⟩

structure Issued (scheme : SignatureScheme Key (TokenHeader × TokenClaims) Signature) (ring ring' : KeyRing Key)
    (input : AdmissionTokenInput) (token : CompactToken Signature) (e : KeyEntry Key) : Prop where
  valid : validateTokenInput input
  mem : e ∈ ring.keys.rows
  named : e.key.keyId = ring.activeKeyId
  active : e.state = .active
  token : token = ⟨signedHeader ring.activeKeyId, signedClaims ring.issuer input,
    scheme.sign e.key.signingKey (signedHeader ring.activeKeyId, signedClaims ring.issuer input)⟩
  issuer : ring'.issuer = ring.issuer
  activeKeyId : ring'.activeKeyId = ring.activeKeyId
  rows : ∀ e', e' ∈ ring'.keys.rows ↔ ∃ d ∈ ring.keys.rows,
    (if d.key.keyId = ring.activeKeyId then issuedUntil (input.issuedAt + seconds 30) d else d) = e'

theorem issue_inv {input : AdmissionTokenInput}
    (h : ring.issue scheme input = .ok (token, ring')) : ∃ e, Issued scheme ring ring' input token e := by
  simp only [issue, ok_iff] at h
  obtain ⟨-, hvalid, e, he, -, ⟨hactive, -⟩, rfl, rfl⟩ := h
  obtain ⟨hmem, hid⟩ := entry?_ok he
  refine ⟨e, hvalid, hmem, hid, hactive, by rw [hid], rfl, rfl, ?_⟩
  intro e'
  rw [mem_update]
  simp only [decide_eq_true_eq]

def rotated (keyId activeKeyId : String) (now : Instant) (e : KeyEntry Key) : KeyEntry Key :=
  if e.key.keyId = keyId then promote e else if e.key.keyId = activeKeyId then retire now e else e

theorem activate_inv (hnamed : Named ring) (h : ring.activate keyId now = .ok ring') :
    keyId ≠ ring.activeKeyId ∧ ring'.issuer = ring.issuer ∧ ring'.activeKeyId = keyId ∧
      (∃ e ∈ ring.keys.rows, e.key.keyId = keyId) ∧
      ∀ e', e' ∈ ring'.keys.rows ↔ ∃ e ∈ ring.keys.rows, e' = rotated keyId ring.activeKeyId now e := by
  simp only [activate, ok_iff] at h
  obtain ⟨next, hnext, -, ⟨hstate, -⟩, -, -, rfl⟩ := h
  obtain ⟨hmem, hid⟩ := entry?_ok hnext
  have hne : keyId ≠ ring.activeKeyId := by
    intro e
    obtain ⟨a, ha, hactive, haid⟩ := hnamed.active
    rw [entries_unique ha hmem (haid.trans (e.symm.trans hid.symm)), hstate] at hactive
    cases hactive
  refine ⟨hne, rfl, rfl, ⟨next, hmem, hid⟩, ?_⟩
  intro e'
  simp only [mem_update, exists_exists_and_eq_and]
  refine exists_congr fun e => and_congr_right fun _ => ?_
  rw [eq_comm]
  by_cases hactive : e.key.keyId = ring.activeKeyId
  · have hother : e.key.keyId ≠ keyId := fun h => hne (h.symm.trans hactive)
    have hretired : (retire now e).key.keyId ≠ keyId := hother
    simp [rotated, hactive, hretired, hne.symm]
  · simp [rotated, hactive]

theorem mem_pruneRetired : e ∈ (ring.pruneRetired now).keys.rows ↔
      e ∈ ring.keys.rows ∧ ¬ (e.state = .retired ∧ ∃ t ∈ e.verifyUntil, t ≤ now) := by
  rw [pruneRetired, remove_rows, mem_filter, Bool.not_eq_true', decide_eq_false_iff_not]

end KeyRing

structure RingClock (Key : Type) where
  ring : KeyRing Key
  now : Instant

/-- The operations of a ring, at times that never go back; verifying and failing change nothing. -/
inductive RingStep (scheme : SignatureScheme Key (TokenHeader × TokenClaims) Signature) (s : RingClock Key) :
    RingClock Key → Prop
  | publish (now : Instant) (key : AdmissionSigningKey Key) (ring : KeyRing Key) (later : s.now ≤ now)
      (call : s.ring.publish key = .ok ring) : RingStep scheme s ⟨ring, now⟩
  | activate (now : Instant) (keyId : String) (ring : KeyRing Key) (later : s.now ≤ now)
      (call : s.ring.activate keyId now = .ok ring) : RingStep scheme s ⟨ring, now⟩
  | issue (input : TokenInput) (token : CompactToken Signature) (ring : KeyRing Key) (later : s.now ≤ input.issuedAt)
      (call : s.ring.issue scheme input.toAdmissionTokenInput = .ok (token, ring)) :
      RingStep scheme s ⟨ring, input.issuedAt⟩
  | pruneRetired (now : Instant) (later : s.now ≤ now) : RingStep scheme s ⟨s.ring.pruneRetired now, now⟩
  | unchanged (now : Instant) (later : s.now ≤ now) : RingStep scheme s ⟨s.ring, now⟩

namespace RingStep

open KeyRing

variable {s t : RingClock Key}

theorem later (h : RingStep scheme s t) : s.now ≤ t.now := by
  cases h <;> assumption

theorem issuer (h : RingStep scheme s t) (hnamed : Named s.ring) : t.ring.issuer = s.ring.issuer := by
  cases h with
  | publish _ _ _ _ call => exact (publish_rows call).1
  | activate _ _ _ _ call => exact (activate_inv hnamed call).2.1
  | issue _ _ _ _ call =>
    obtain ⟨e, hissued⟩ := issue_inv call
    exact hissued.issuer
  | pruneRetired => rfl
  | unchanged => rfl

theorem named (h : RingStep scheme s t) (hnamed : Named s.ring) : Named t.ring := by
  cases h with
  | publish now key ring _ call =>
    obtain ⟨-, hid, hrows⟩ := publish_rows call
    obtain ⟨e, he, hactive, hname⟩ := hnamed.active
    refine ⟨⟨e, ?_, hactive, hname.trans hid.symm⟩, ?_⟩
    · rw [hrows]
      exact mem_append_left _ he
    · intro e he hactive
      rw [hrows] at he
      rcases mem_append.1 he with he | he
      · exact (hnamed.only e he hactive).trans hid.symm
      · rw [mem_singleton.1 he] at hactive
        cases hactive
  | activate now keyId ring _ call =>
    obtain ⟨hne, -, hid, ⟨n, hn, hnid⟩, hrows⟩ := activate_inv hnamed call
    refine ⟨⟨promote n, (hrows _).2 ⟨n, hn, ?_⟩, rfl, hnid.trans hid.symm⟩, ?_⟩
    · rw [rotated, if_pos hnid]
    · intro e he hactive
      obtain ⟨d, hd, rfl⟩ := (hrows e).1 he
      unfold rotated at hactive ⊢
      split
      · rename_i hkey
        exact hkey.trans hid.symm
      rename_i hkey
      rw [if_neg hkey] at hactive
      split at hactive
      · cases hactive
      · rename_i hother
        exact absurd (hnamed.only d hd hactive) hother
  | issue input token ring _ call =>
    obtain ⟨e, hissued⟩ := issue_inv call
    refine ⟨⟨issuedUntil (input.issuedAt + seconds 30) e, (hissued.rows _).2 ⟨e, hissued.mem, ?_⟩, hissued.active,
      hissued.named.trans hissued.activeKeyId.symm⟩, ?_⟩
    · rw [if_pos hissued.named]
    · intro e' he' hactive
      obtain ⟨d, hd, rfl⟩ := (hissued.rows e').1 he'
      rw [hissued.activeKeyId]
      split
      · rename_i hkey
        exact hkey
      · rename_i hkey
        rw [if_neg hkey] at hactive
        exact hnamed.only d hd hactive
  | pruneRetired now _ =>
    obtain ⟨e, he, hactive, hname⟩ := hnamed.active
    refine ⟨⟨e, mem_pruneRetired.2 ⟨he, ?_⟩, hactive, hname⟩, ?_⟩
    · rw [hactive]
      exact fun h => KeyState.noConfusion h.1
    · intro e he hactive
      exact hnamed.only e (mem_pruneRetired.1 he).1 hactive
  | unchanged => exact hnamed

theorem serves (h : RingStep scheme s t) (hnamed : Named s.ring)
    (hissued : issuedAt ≤ s.now) (hserves : tokenLimit issuedAt ≤ s.now ∨ s.ring.Serves keyId key (tokenLimit issuedAt)) :
    tokenLimit issuedAt ≤ t.now ∨ t.ring.Serves keyId key (tokenLimit issuedAt) := by
  rcases hserves with hover | ⟨e, he, hid, hkey, hstate⟩
  · exact .inl (le_trans hover h.later)
  cases h with
  | publish now key ring _ call =>
    obtain ⟨-, -, hrows⟩ := publish_rows call
    refine .inr ⟨e, ?_, hid, hkey, hstate⟩
    rw [hrows]
    exact mem_append_left _ he
  | activate now nextId ring later call =>
    obtain ⟨hne, -, -, -, hrows⟩ := activate_inv hnamed call
    refine .inr ⟨rotated nextId s.ring.activeKeyId now e, (hrows _).2 ⟨e, he, rfl⟩, ?_⟩
    have hlimit : tokenLimit issuedAt ≤ now + seconds 300 := tokenLimit_le (le_trans hissued later)
    unfold rotated
    split
    · exact ⟨hid, hkey, .inl rfl⟩
    split
    · refine ⟨hid, hkey, .inr ⟨rfl, _, rfl, ?_⟩⟩
      cases e.lastIssuedExpiresAt with
      | none => exact hlimit
      | some expires => exact le_trans hlimit (le_max_right _ _)
    · exact ⟨hid, hkey, hstate⟩
  | issue input token ring _ call =>
    obtain ⟨d, hissue⟩ := issue_inv call
    refine .inr ⟨_, (hissue.rows _).2 ⟨e, he, rfl⟩, ?_⟩
    split
    · exact ⟨hid, hkey, hstate⟩
    · exact ⟨hid, hkey, hstate⟩
  | pruneRetired now _ =>
    rcases hstate with hactive | ⟨hretired, until_, huntil, hle⟩
    · refine .inr ⟨e, mem_pruneRetired.2 ⟨he, ?_⟩, hid, hkey, .inl hactive⟩
      rw [hactive]
      exact fun h => KeyState.noConfusion h.1
    by_cases hover : until_ ≤ now
    · exact .inl (le_trans hle hover)
    refine .inr ⟨e, mem_pruneRetired.2 ⟨he, ?_⟩, hid, hkey, .inr ⟨hretired, until_, huntil, hle⟩⟩
    rintro ⟨-, t, ht, hnow⟩
    rw [huntil] at ht
    cases ht
    exact hover hnow
  | unchanged => exact .inr ⟨e, he, hid, hkey, hstate⟩

end RingStep

def TokenInput.verified (input : TokenInput) (issuer keyId : String) : VerifiedToken where
  issuer := issuer
  keyId := keyId
  audience := input.audience
  tokenId := input.tokenId
  reservationId := input.reservationId
  requestId := input.requestId
  entitlementId := input.entitlementId
  generation := input.generation
  maximumNanoUsd := input.maximumNanoUsd
  reservedFenCny := input.reservedFenCny
  pricingRevision := input.pricingRevision
  issuedAt := unixTime (unixSeconds input.issuedAt)
  expiresAt := unixTime (unixSeconds input.issuedAt + 30)

theorem parseCanonicalAmount_toString {n : Int} (h : 0 ≤ n) (hlt : n < 2 ^ 127) :
    parseCanonicalAmount (toString n) = .ok n := by
  rw [parseCanonicalAmount, parseCanonical_toString.2 ⟨rfl, h, hlt⟩]

namespace KeyRing

variable {ring : KeyRing Key}

theorem verify_expired {binding : AdmissionBinding} {admission : VerifiedToken}
    (h : seconds (token.claims.exp + 5) ≤ now) : ring.verify scheme token binding now ≠ .ok admission := by
  intro hok
  simp only [verify, verifySigned, ok_iff] at hok
  obtain ⟨-, -, -, -, -, -, amounts, ⟨-, -, -, -, -, -, -, -, -, -, -, hlt, -⟩, -⟩ := hok
  exact absurd ((unixSeconds_lt_iff _ _).1 hlt) (not_lt.2 h)

theorem verify_served {issuer : String} (hissuer : ring.issuer = issuer)
    (hinput : validateTokenInput input.toAdmissionTokenInput)
    (hserves : ring.Serves keyId key (tokenLimit input.issuedAt)) (hlater : input.issuedAt ≤ now)
    (hnow : now < tokenLimit input.issuedAt) :
    ring.verify scheme ⟨signedHeader keyId, signedClaims issuer input.toAdmissionTokenInput,
      scheme.sign key (signedHeader keyId, signedClaims issuer input.toAdmissionTokenInput)⟩ input.binding now =
        .ok (input.verified issuer keyId) := by
  obtain ⟨e, he, rfl, rfl, hstate⟩ := hserves
  subst hissuer
  have hbytes := signedToken_bytes (scheme.sign e.key.signingKey
    (signedHeader e.key.keyId, signedClaims ring.issuer input.toAdmissionTokenInput)) ring.valid e.key.valid hinput
  have hexp := unixSeconds_add input.issuedAt 30
  have hstart : unixSeconds input.issuedAt - 5 ≤ unixSeconds now := by
    have : unixSeconds input.issuedAt ≤ unixSeconds now := Int.ediv_le_ediv (by decide) hlater
    omega
  have hend : unixSeconds now < unixSeconds (input.issuedAt + seconds 30) + 5 := by
    rw [unixSeconds_lt_iff, hexp, Int.add_assoc]
    exact hnow
  have husable : ¬ (e.state = .published ∨ e.state = .retired ∧ ∃ t ∈ e.verifyUntil, t ≤ now) := by
    rcases hstate with h | ⟨h, until_, huntil, hle⟩
    · rw [h]
      rintro (h | ⟨h, -⟩) <;> cases h
    rw [h]
    rintro (h | ⟨-, t, ht, hover⟩)
    · cases h
    · rw [huntil] at ht
      cases ht
      exact absurd (lt_of_lt_of_le hnow hle) (not_lt.2 hover)
  have hmaximum := parseCanonicalAmount_toString hinput.2.2.2.2.2.2.2.1 input.maximum_lt
  have hreserved := parseCanonicalAmount_toString hinput.2.2.2.2.2.2.2.2 input.reserved_lt
  have hheader : verifyHeader (⟨signedHeader e.key.keyId, signedClaims ring.issuer input.toAdmissionTokenInput,
      scheme.sign e.key.signingKey (signedHeader e.key.keyId, signedClaims ring.issuer input.toAdmissionTokenInput)⟩ :
        CompactToken Signature) = .ok e.key.keyId := by
    simp only [verifyHeader, ok_iff]
    exact ⟨(), hbytes, (), ⟨rfl, rfl⟩, (), e.key.valid, rfl⟩
  have hsigned : verifySigned scheme e.key.signingKey ring.issuer input.audience
      ⟨signedHeader e.key.keyId, signedClaims ring.issuer input.toAdmissionTokenInput,
        scheme.sign e.key.signingKey (signedHeader e.key.keyId, signedClaims ring.issuer input.toAdmissionTokenInput)⟩
      now = .ok (input.maximumNanoUsd, input.reservedFenCny) := by
    simp only [verifySigned, ok_iff]
    exact ⟨(), scheme.verify_sign _ _, (), ⟨rfl, rfl, hexp⟩, (), rfl, (), rfl, (), hstart, (), hend, _, hmaximum, _,
      hreserved, rfl⟩
  simp only [verify, ok_iff]
  refine ⟨_, hheader, e, entry?_of_mem he, (), husable, _, hsigned, (), ⟨rfl, rfl, rfl, rfl, rfl, rfl, rfl⟩, ?_⟩
  simp only [verifiedToken, TokenInput.verified, signedClaims, signedHeader, hexp]

end KeyRing

/-- One key is active in every state of a ring, and every token it issues verifies until its end and not after. -/
theorem keyRing_lifetime (scheme : SignatureScheme Key (TokenHeader × TokenClaims) Signature) {issuer : String}
    {active : AdmissionSigningKey Key} {prior : List (PriorAdmissionSigningKey Key)} {first : KeyRing Key}
    (hnew : KeyRing.new issuer active prior = .ok first) (opened : Instant) {s : RingClock Key}
    (hs : Reachable (· = ⟨first, opened⟩) (RingStep scheme) s) :
    s.ring.OneActive ∧
      ∀ (input : TokenInput) (token : CompactToken Signature) (ring : KeyRing Key), s.now ≤ input.issuedAt →
        s.ring.issue scheme input.toAdmissionTokenInput = .ok (token, ring) →
        ∀ u : RingClock Key, Reachable (· = ⟨ring, input.issuedAt⟩) (RingStep scheme) u → ∀ now, u.now ≤ now →
          (now < seconds (unixSeconds input.issuedAt + 35) →
            u.ring.verify scheme token input.binding now = .ok (input.verified s.ring.issuer s.ring.activeKeyId)) ∧
          (seconds (unixSeconds input.issuedAt + 35) ≤ now → ∀ binding admission,
            u.ring.verify scheme token binding now ≠ .ok admission) := by
  have hnamed : s.ring.Named := hs.invariant (fun s h => h ▸ KeyRing.new_named hnew) fun s t h hstep => hstep.named h
  refine ⟨hnamed.oneActive, ?_⟩
  intro input token ring hlater hissue u hu now hnow
  obtain ⟨e, hissued⟩ := KeyRing.issue_inv hissue
  have hinv : u.ring.Named ∧ u.ring.issuer = s.ring.issuer ∧ input.issuedAt ≤ u.now ∧
      (tokenLimit input.issuedAt ≤ u.now ∨
        u.ring.Serves s.ring.activeKeyId e.key.signingKey (tokenLimit input.issuedAt)) := by
    clear hnow
    induction hu with
    | start h =>
      rw [h]
      refine ⟨(RingStep.issue input token ring hlater hissue).named hnamed, hissued.issuer, le_rfl, .inr ?_⟩
      refine ⟨_, (hissued.rows _).2 ⟨e, hissued.mem, rfl⟩, ?_⟩
      rw [if_pos hissued.named]
      exact ⟨hissued.named, rfl, .inl hissued.active⟩
    | next _ hstep ih =>
      obtain ⟨hn, hi, ht, hserves⟩ := ih
      exact ⟨hstep.named hn, (hstep.issuer hn).trans hi, le_trans ht hstep.later, hstep.serves hn ht hserves⟩
  obtain ⟨-, hissuer, hissuedAt, hserves⟩ := hinv
  rw [hissued.token]
  refine ⟨?_, ?_⟩
  · intro hbefore
    rcases hserves with hover | hserves
    · exact absurd (lt_of_le_of_lt (le_trans hover hnow) hbefore) (lt_irrefl _)
    · exact KeyRing.verify_served hissuer hissued.valid hserves (le_trans hissuedAt hnow) hbefore
  · intro hover binding admission
    apply KeyRing.verify_expired
    show seconds (unixSeconds (input.issuedAt + seconds 30) + 5) ≤ now
    rw [unixSeconds_add, Int.add_assoc]
    exact hover

def sampleScheme : SignatureScheme String (TokenHeader × TokenClaims) (String × TokenHeader × TokenClaims) where
  sign key message := (key, message)
  verify key message signature := decide (signature = (key, message))
  verify_sign _ _ := decide_eq_true rfl

def sampleSigningKey : AdmissionSigningKey String := ⟨"k", "s", 0, by decide +kernel⟩

def sampleTokenInput : TokenInput :=
  ⟨⟨"a", "t", "r", "q", "e", 1, 5, 7, "p", 500000000⟩, by decide, by decide, by decide, by decide, by decide⟩

def sampleNextKey : AdmissionSigningKey String := ⟨"l", "t", 0, by decide +kernel⟩

/-- The key that signed the token is retired after a second. -/
theorem keyRing_lifetime_first :
    ∃ first token ring published rotated, KeyRing.new "i" sampleSigningKey [] = .ok first ∧
      first.issue sampleScheme sampleTokenInput.toAdmissionTokenInput = .ok (token, ring) ∧
      ring.publish sampleNextKey = .ok published ∧ published.activate "l" (seconds 1) = .ok rotated ∧
      rotated.verify sampleScheme token sampleTokenInput.binding (seconds 34) = .ok (sampleTokenInput.verified "i" "k") ∧
      ∀ admission, rotated.verify sampleScheme token sampleTokenInput.binding (seconds 35) ≠ .ok admission := by
  obtain ⟨first, hnew, hcalls, hissuer, hactive⟩ : ∃ first, KeyRing.new "i" sampleSigningKey [] = .ok first ∧
      (do
        let (_, ring) ← first.issue sampleScheme sampleTokenInput.toAdmissionTokenInput
        let published ← ring.publish sampleNextKey
        published.activate "l" (seconds 1)).isOk = true ∧ first.issuer = "i" ∧ first.activeKeyId = "k" :=
    ⟨_, rfl, by decide +kernel, rfl, rfl⟩
  obtain ⟨rotated, hcalls⟩ := exists_eq_ok hcalls
  simp only [ok_iff, Prod.exists] at hcalls
  obtain ⟨token, ring, hissue, published, hpublish, hactivate⟩ := hcalls
  have hlater : (0 : Int) ≤ sampleTokenInput.issuedAt := by decide
  have hnext : sampleTokenInput.issuedAt ≤ seconds 1 := by decide
  have h := (keyRing_lifetime sampleScheme hnew 0 (.start rfl)).2 sampleTokenInput token ring hlater hissue ⟨rotated, seconds 1⟩
    (.next (.next (.start rfl) (RingStep.publish (seconds 1) sampleNextKey published hnext hpublish))
      (RingStep.activate (seconds 1) "l" rotated le_rfl hactivate))
  refine ⟨first, token, ring, published, rotated, hnew, hissue, hpublish, hactivate, ?_, ?_⟩
  · rw [← hissuer, ← hactive]
    exact (h (seconds 34) (by decide : seconds 1 ≤ seconds 34)).1 (by decide)
  · exact (h (seconds 35) (by decide : seconds 1 ≤ seconds 35)).2 (by decide) sampleTokenInput.binding

end Monoize
