import Mathlib.Logic.Equiv.Basic
import Mathlib.Tactic.Linarith
import Monoize.Fallible
import Monoize.IpText
import Monoize.MachineInt
import Monoize.TextFields

namespace Monoize

open Fallible MachineInt IpText TextFields List Option

variable {value name : String}

inductive EpayMethod
  | alipay
  | wxpay
deriving DecidableEq

def EpayMethod.fromStr (value : String) : Option EpayMethod :=
  if value = "alipay" then some .alipay
  else if value = "wxpay" then some .wxpay
  else none

structure EpayCredential where
  (gatewayBaseUrl merchantId merchantKey : String)
  (alipayEnabled wxpayEnabled : Bool)

def EpayCredential.methodEnabled (credential : EpayCredential) : EpayMethod → Bool
  | .alipay => credential.alipayEnabled
  | .wxpay => credential.wxpayEnabled

inductive Host
  | domain (name : String)
  | ip (address : IpAddr)

structure Url where
  (scheme username : String)
  (password query fragment : Option String)
  path : String
  host : Option Host

def reservedV4 : List IpNet :=
  [.v4 0x7F000000 8, .v4 0x0A000000 8, .v4 0xAC100000 12, .v4 0xC0A80000 16, .v4 0xA9FE0000 16, .v4 0 32,
    .v4 0xE0000000 4, .v4 0xFFFFFFFF 32, .v4 0xC0000200 24, .v4 0xC6336400 24, .v4 0xCB007100 24,
    .v4 0x64400000 10, .v4 0xC0000000 24, .v4 0xC6120000 15, .v4 0xF0000000 4]

def reservedV6 : List IpNet :=
  [.v6 1 128, .v6 0 128, .v6 0xFF000000000000000000000000000000 8, .v6 0xFE800000000000000000000000000000 10,
    .v6 0xFC000000000000000000000000000000 7]

def isPublicAddress : IpAddr → Bool
  | .v4 bits => !reservedV4.any (·.contains (.v4 bits))
  | .v6 bits =>
    let mapped := (IpNet.v6 0x00000000000000000000FFFF00000000 96).contains (.v6 bits)
    !(reservedV6.any (·.contains (.v6 bits)) ||
      (mapped && reservedV4.any (·.contains (.v4 (bits.setWidth 32)))))

inductive AdapterError
  | invalidConfiguration | invalidRequest | ambiguous | rejected | verification | unsupported
deriving DecidableEq

inductive EpayCallbackError
  | invalidEncoding
  | authentication
  | invalidPaymentEvent
deriving DecidableEq

structure VerifiedEpayPayment where
  (providerEventId providerTransactionId orderNumber amountMinor : String)
  method : EpayMethod
deriving DecidableEq

/-- A `BTreeMap` of texts; it runs over its keys in the order of their bytes. -/
abbrev Parameters := Std.TreeMap String String

def trimmed (value : String) : Bool := trim value.toList = value.toList

def isAsciiAlphanumeric (c : Char) : Bool := c.isDigit || ('a' ≤ c && c ≤ 'z') || ('A' ≤ c && c ≤ 'Z')

def isAsciiGraphic (c : Char) : Bool := 33 ≤ c.toNat && c.toNat ≤ 126

section

-- `Url::parse`, `form_urlencoded::parse` and MD5 are taken from their libraries.
variable (parseUrl : String → Option Url) (parseForm : String → List (String × String)) (md5 : List UInt8 → List UInt8)

def validateGatewayUrl (raw : String) : Except AdapterError Url := do
  let url ← orError .invalidConfiguration (parseUrl raw)
  require (url.scheme = "https" ∧ url.username = "" ∧ url.password = none ∧ url.query = none ∧ url.fragment = none ∧
    url.path.toList.getLast? = some '/') .invalidConfiguration
  let host ← orError .invalidConfiguration url.host
  match host with
  | .domain name =>
    require (name ≠ "" ∧ ¬ eqIgnoreAsciiCase name.toList "localhost".toList) .invalidConfiguration
  | .ip address => require (isPublicAddress address) .invalidConfiguration
  pure url

def EpayCredential.validate (credential : EpayCredential) : Except AdapterError Unit := do
  require ((∀ value ∈ [credential.gatewayBaseUrl, credential.merchantId, credential.merchantKey],
      trim value.toList ≠ [] ∧ trimmed value) ∧
    credential.merchantId.utf8ByteSize ≤ 64 ∧ credential.merchantKey.utf8ByteSize ≤ 256 ∧
    credential.merchantId.toList.all isAsciiAlphanumeric ∧ credential.merchantKey.toList.all isAsciiGraphic ∧
    (credential.alipayEnabled ∨ credential.wxpayEnabled)) .invalidConfiguration
  let _ ← validateGatewayUrl parseUrl credential.gatewayBaseUrl

def isSigned (field : String × String) : Bool := field.2 ≠ "" && field.1 ≠ "sign" && field.1 ≠ "sign_type"

def canonicalEpayParameters (parameters : Parameters) : String :=
  String.ofList (joinFields '&' '=' (parameters.toList.filter isSigned))

def signEpayParameters (parameters : Parameters) (merchantKey : String) : String :=
  String.ofList (hexText (md5 (utf8Bytes (canonicalEpayParameters parameters) ++ utf8Bytes merchantKey)))

def verifyEpaySignature (parameters : Parameters) (merchantKey provided : String) : Bool :=
  signEpayParameters md5 parameters merchantKey = String.ofList (provided.toList.map asciiLower)

def u64? (n : Nat) : Option Nat := if n < 2 ^ 64 then some n else none

def parseYuanAsFen (value : String) : Option Nat :=
  let (whole, fraction) := (splitAt? '.' value.toList).getD (value.toList, [])
  if whole = [] ∨ 16 < whole.length ∨ ¬ whole.all Char.isDigit ∨ 2 < fraction.length ∨
      ('.' ∈ value.toList ∧ fraction = []) ∨ ¬ fraction.all Char.isDigit then none
  else
    -- one fractional digit is tenths of a yuan
    let fenFraction := Nat.ofDigitChars 10 fraction 0 * if fraction.length = 1 then 10 else 1
    (u64? (Nat.ofDigitChars 10 whole 0 * 100)).bind fun scaled => (u64? (scaled + fenFraction)).filter (0 < ·)

def validProtocolValue (value : String) : Bool := value ≠ "" && value.utf8ByteSize ≤ 512 && trimmed value

def requiredField (parameters : Parameters) (name : String) : Except EpayCallbackError String :=
  orError .invalidPaymentEvent (parameters[name]?.filter validProtocolValue)

def callbackParameters (query : String) : Except EpayCallbackError Parameters :=
  (parseForm query).foldlM (fun parameters (key, value) => do
    require (key ≠ "" ∧ parameters[key]? = none) .invalidEncoding
    pure (parameters.insert key value)) ∅

def verifyPaymentCallback (credential : EpayCredential) (query : String) :
    Except EpayCallbackError VerifiedEpayPayment := do
  require ((credential.validate parseUrl).isOk) .authentication
  let parameters ← callbackParameters parseForm query
  let signature ← requiredField parameters "sign"
  require (∃ value ∈ parameters["sign_type"]?, eqIgnoreAsciiCase value.toList "MD5".toList) .invalidPaymentEvent
  require (verifyEpaySignature md5 parameters credential.merchantKey signature) .authentication
  let pid ← requiredField parameters "pid"
  require (pid = credential.merchantId) .invalidPaymentEvent
  let tradeStatus ← requiredField parameters "trade_status"
  require (tradeStatus = "TRADE_SUCCESS") .invalidPaymentEvent
  let type ← requiredField parameters "type"
  let method ← orError .invalidPaymentEvent ((EpayMethod.fromStr type).filter credential.methodEnabled)
  let tradeNo ← requiredField parameters "trade_no"
  let money ← requiredField parameters "money"
  let amount ← orError .invalidPaymentEvent (parseYuanAsFen money)
  let outTradeNo ← requiredField parameters "out_trade_no"
  pure ⟨tradeNo, tradeNo, outTradeNo, toString amount, method⟩

end

theorem amp_not_mem_digits {cs : List Char} (h : cs.all Char.isDigit = true) : '&' ∉ cs := by
  intro hmem
  exact absurd (all_eq_true.1 h '&' hmem) (by decide)

theorem amp_not_mem_of_parseYuanAsFen {fen : Nat} (h : parseYuanAsFen value = some fen) : '&' ∉ value.toList := by
  unfold parseYuanAsFen at h
  cases hsplit : splitAt? '.' value.toList with
  | none =>
    rw [hsplit] at h
    dsimp only [getD_none] at h
    split at h
    · cases h
    · rename_i hvalid
      simp only [not_or, not_not] at hvalid
      exact amp_not_mem_digits hvalid.2.2.1
  | some parts =>
    obtain ⟨whole, fraction⟩ := parts
    rw [hsplit] at h
    dsimp only [getD_some] at h
    split at h
    · cases h
    rename_i hvalid
    simp only [not_or, not_not] at hvalid
    rw [(splitAt?_eq_some.1 hsplit).1, mem_append, mem_cons]
    rintro (hmem | hdot | hmem)
    · exact amp_not_mem_digits hvalid.2.2.1 hmem
    · exact absurd hdot (by decide)
    · exact amp_not_mem_digits hvalid.2.2.2.2.2 hmem

theorem amp_not_mem_of_fromStr {method : EpayMethod} (h : EpayMethod.fromStr value = some method) :
    '&' ∉ value.toList := by
  unfold EpayMethod.fromStr at h
  split at h
  · rename_i hvalue
    subst hvalue
    decide
  split at h
  · rename_i hvalue
    subst hvalue
    decide
  · cases h

def gatewayKeys : List String :=
  ["money", "name", "out_trade_no", "param", "pid", "trade_no", "trade_status", "type"]

/-- What the gateway signs: the documented keys, with values that hold no `&`. -/
def GatewayMap (m : Parameters) : Prop :=
  ∀ key value, m[key]? = some value →
    key ∈ gatewayKeys ∧ '&' ∉ value.toList ∨ key = "sign" ∨ key = "sign_type"

section Signed

variable {m parameters : Parameters}

theorem mem_signed {e : String × String} :
    e ∈ m.toList.filter isSigned ↔ m[e.1]? = some e.2 ∧ e.2 ≠ "" ∧ e.1 ≠ "sign" ∧ e.1 ≠ "sign_type" := by
  rw [mem_filter, Std.TreeMap.mem_toList_iff_getElem?_eq_some]
  simp [isSigned, and_assoc]

theorem GatewayMap.signed (hm : GatewayMap m) {e : String × String} (he : e ∈ m.toList.filter isSigned) :
    e.1 ∈ gatewayKeys ∧ '&' ∉ e.2.toList := by
  obtain ⟨hget, -, hsign, htype⟩ := mem_signed.1 he
  rcases hm e.1 e.2 hget with hkey | hkey | hkey
  · exact hkey
  · exact absurd hkey hsign
  · exact absurd hkey htype

theorem gatewayKeys_plain : ∀ key ∈ gatewayKeys, '&' ∉ key.toList ∧ '=' ∉ key.toList := by decide

theorem signed_ordered : (m.toList.filter isSigned).Pairwise fun a b => compare a.1 b.1 = .lt :=
  Std.TreeMap.ordered_keys_toList.filter _

theorem mem_signed_of_requiredField (hname : name ∈ gatewayKeys) (h : requiredField parameters name = .ok value) :
    (name, value) ∈ parameters.toList.filter isSigned := by
  have hplain : ∀ key ∈ gatewayKeys, key ≠ "sign" ∧ key ≠ "sign_type" := by decide
  rw [requiredField, orError_eq_ok, filter_eq_some_iff] at h
  obtain ⟨hget, hvalid⟩ := h
  refine mem_signed.2 ⟨hget, ?_, hplain name hname⟩
  simp only [validProtocolValue, Bool.and_eq_true, decide_eq_true_eq] at hvalid
  exact hvalid.1.1

variable (hm : GatewayMap m) (htext : canonicalEpayParameters m = canonicalEpayParameters parameters)

include hm htext

theorem GatewayMap.regrouped :
    Regrouped '&' '=' (m.toList.filter isSigned) (parameters.toList.filter isSigned) where
  keys := by
    apply signed_ordered.imp
    intro a b hlt hsame
    have hrefl : compare b.1 b.1 = .eq := Std.ReflCmp.compare_self
    rw [hsame, hrefl] at hlt
    cases hlt
  noSep := by
    intro e he
    obtain ⟨hkey, hvalue⟩ := hm.signed he
    exact ⟨(gatewayKeys_plain e.1 hkey).1, hvalue⟩
  noEq := by
    intro e he
    exact (gatewayKeys_plain e.1 (hm.signed he).1).2
  sepNe := by decide
  text := String.ofList_injective htext

theorem GatewayMap.received (hname : name ∈ gatewayKeys) (h : requiredField parameters name = .ok value) :
    ∃ signed, m[name]? = some signed ∧ (value = signed ∨ ∃ more, value = signed ++ "&" ++ more) := by
  obtain ⟨signed, tail, hsub, -, hvalue⟩ :=
    (hm.regrouped htext).field (mem_signed_of_requiredField hname h) (gatewayKeys_plain name hname).2
  refine ⟨signed, (mem_signed.1 (hsub.subset mem_cons_self)).1, ?_⟩
  rcases hvalue with ⟨-, rfl⟩ | ⟨-, more, hmore⟩
  · exact .inl rfl
  · refine .inr ⟨String.ofList more, ?_⟩
    apply String.toList_inj.1
    simp [hmore]

theorem GatewayMap.received_plain (hname : name ∈ gatewayKeys) (h : requiredField parameters name = .ok value)
    (hplain : '&' ∉ value.toList) : m[name]? = some value := by
  obtain ⟨signed, hsigned, rfl | ⟨more, rfl⟩⟩ := hm.received htext hname h
  · exact hsigned
  · exact absurd (by simp) hplain

/-- Only the status and the type follow the trade number in the signed text, and both are received
under their own keys. -/
theorem GatewayMap.received_tradeNo {tradeNo tradeStatus type : String}
    (htradeNo : requiredField parameters "trade_no" = .ok tradeNo)
    (hstatus : requiredField parameters "trade_status" = .ok tradeStatus)
    (htype : requiredField parameters "type" = .ok type) : m["trade_no"]? = some tradeNo := by
  have hafter : ∀ key ∈ gatewayKeys, compare "trade_no" key = .lt → key = "trade_status" ∨ key = "type" := by decide
  have hregrouped := hm.regrouped htext
  have hmem := mem_signed_of_requiredField (by decide) htradeNo
  obtain ⟨signed, tail, hsub, hgroup, hvalue⟩ := hregrouped.field hmem (by decide)
  have hsigned := (mem_signed.1 (hsub.subset mem_cons_self)).1
  rcases hvalue with ⟨-, rfl⟩ | ⟨hne, -⟩
  · exact hsigned
  obtain ⟨t, ht⟩ := exists_mem_of_ne_nil tail hne
  have hlt := rel_of_pairwise_cons (signed_ordered.sublist hsub) ht
  rcases hafter t.1 (hm.signed (hsub.subset (mem_cons_of_mem _ ht))).1 hlt with hkey | hkey
  · exact absurd hkey
      (hregrouped.tail_ne hmem (mem_signed_of_requiredField (by decide) hstatus) (by decide) hsub hgroup t ht)
  · exact absurd hkey
      (hregrouped.tail_ne hmem (mem_signed_of_requiredField (by decide) htype) (by decide) hsub hgroup t ht)

end Signed

section Callback

variable {parseUrl : String → Option Url} {md5 : List UInt8 → List UInt8} {credential : EpayCredential}

def KeyedInjective (md5 : List UInt8 → List UInt8) (merchantKey : String) : Prop :=
  ∀ x y, md5 (x ++ utf8Bytes merchantKey) = md5 (y ++ utf8Bytes merchantKey) → x = y

theorem canonical_of_signature {m parameters : Parameters} {signature merchantKey : String}
    (hmd5 : KeyedInjective md5 merchantKey)
    (hsame : eqIgnoreAsciiCase signature.toList (signEpayParameters md5 m merchantKey).toList = true)
    (h : verifyEpaySignature md5 parameters merchantKey signature = true) :
    canonicalEpayParameters m = canonicalEpayParameters parameters := by
  have hsignature : signature.toList.map asciiLower = (signEpayParameters md5 m merchantKey).toList := by
    rw [of_decide_eq_true hsame, signEpayParameters, String.toList_ofList, asciiLower_hexText]
  have hverify := of_decide_eq_true h
  rw [hsignature, String.ofList_toList] at hverify
  apply utf8Bytes_injective
  apply hmd5
  exact (hexText_injective (String.ofList_injective hverify)).symm

/-- The payment says what the gateway signed, but for what may follow the order number. -/
structure SignedPayment (m : Parameters) (payment : VerifiedEpayPayment) : Prop where
  amount : ∃ money fen, m["money"]? = some money ∧ parseYuanAsFen money = some fen ∧ payment.amountMinor = toString fen
  method : ∃ type, m["type"]? = some type ∧ EpayMethod.fromStr type = some payment.method
  transaction : m["trade_no"]? = some payment.providerTransactionId
  order : ∃ number, m["out_trade_no"]? = some number ∧
    (payment.orderNumber = number ∨ ∃ more, payment.orderNumber = number ++ "&" ++ more) ∧
    ∀ other : String, '&' ∉ other.toList → payment.orderNumber = other → other = number

def callbackSignature (parseForm : String → List (String × String)) (query : String) : Option String :=
  (callbackParameters parseForm query).toOption.bind fun parameters => parameters["sign"]?

theorem signed_callback_not_reinterpreted (hmd5 : KeyedInjective md5 credential.merchantKey) {m : Parameters}
    (hm : GatewayMap m) {query signature : String} (hquery : callbackSignature parseForm query = some signature)
    (hsame : eqIgnoreAsciiCase signature.toList (signEpayParameters md5 m credential.merchantKey).toList = true)
    {payment : VerifiedEpayPayment} (h : verifyPaymentCallback parseUrl parseForm md5 credential query = .ok payment) :
    SignedPayment m payment := by
  simp only [verifyPaymentCallback, bind_eq_ok, require_eq_ok, pure_eq_ok] at h
  obtain ⟨-, -, parameters, hparameters, provided, hprovided, -, -, -, hverify, pid, -, -, -, tradeStatus, hstatus, -, -,
    type, htype, method, hmethod, tradeNo, htradeNo, money, hmoney, fen, hfen, number, hnumber, rfl⟩ := h
  have hprovided' : provided = signature := by
    rw [callbackSignature, hparameters] at hquery
    rw [requiredField, orError_eq_ok, filter_eq_some_iff] at hprovided
    exact some.inj (hprovided.1.symm.trans hquery)
  subst hprovided'
  have htext := canonical_of_signature hmd5 hsame hverify
  have hfromStr := (filter_eq_some_iff.1 (orError_eq_ok.1 hmethod)).1
  have hfen := orError_eq_ok.1 hfen
  refine ⟨⟨money, fen, ?_, hfen, rfl⟩, ⟨type, ?_, hfromStr⟩, ?_, ?_⟩
  · exact hm.received_plain htext (by decide) hmoney (amp_not_mem_of_parseYuanAsFen hfen)
  · exact hm.received_plain htext (by decide) htype (amp_not_mem_of_fromStr hfromStr)
  · exact hm.received_tradeNo htext htradeNo hstatus htype
  · obtain ⟨signed, hsigned, hcases⟩ := hm.received htext (by decide) hnumber
    refine ⟨signed, hsigned, hcases, ?_⟩
    rintro other hplain rfl
    rcases hcases with hequal | ⟨more, hmore⟩
    · exact hequal
    · exact absurd (by simp [hmore]) hplain

end Callback

def sampleCredential : EpayCredential := ⟨"https://pay.example/", "1001", "secret", true, false⟩

def sampleUrl : Url := ⟨"https", "", none, none, none, "/", some (.domain "pay.example")⟩

def sampleGatewayMap : Parameters :=
  .ofList [("money", "1000"), ("out_trade_no", "LS-1"), ("param", "x"), ("pid", "1001"), ("trade_no", "T1"),
    ("trade_status", "TRADE_SUCCESS"), ("type", "alipay")]

def sampleSigned : List UInt8 :=
  utf8Bytes "money=1000&out_trade_no=LS-1&param=x&pid=1001&trade_no=T1&trade_status=TRADE_SUCCESS&type=alipaysecret"

-- A permutation of texts with the true digest of the signed text.
def sampleMd5 : Equiv.Perm (List UInt8) := Equiv.swap sampleSigned
  [0x3B, 0x7B, 0xEA, 0xCC, 0x52, 0x80, 0x77, 0xC0, 0x19, 0x24, 0xFB, 0x6B, 0xD9, 0x83, 0x11, 0xEE]

def sampleCallback : String :=
  "pid=1001&trade_no=T1&type=alipay&money=1000&trade_status=TRADE_SUCCESS&sign_type=md5&note=" ++
    "&out_trade_no=LS-1%26param%3Dx&sign=3B7BEACC528077C01924FB6BD98311EE"

def sampleForm (query : String) : List (String × String) :=
  if query = sampleCallback then
    [("pid", "1001"), ("trade_no", "T1"), ("type", "alipay"), ("money", "1000"), ("trade_status", "TRADE_SUCCESS"),
      ("sign_type", "md5"), ("note", ""), ("out_trade_no", "LS-1&param=x"), ("sign", "3B7BEACC528077C01924FB6BD98311EE")]
  else []

theorem signed_callback_not_reinterpreted_sample :
    SignedPayment sampleGatewayMap ⟨"T1", "T1", "LS-1&param=x", "100000", .alipay⟩ := by
  have hm : GatewayMap sampleGatewayMap := by
    intro key value hget
    have hmem : (key, value) ∈ sampleGatewayMap.toList := Std.TreeMap.mem_toList_iff_getElem?_eq_some.2 hget
    have hall : ∀ e ∈ sampleGatewayMap.toList, e.1 ∈ gatewayKeys ∧ '&' ∉ e.2.toList := by decide +kernel
    exact .inl (hall _ hmem)
  have hmd5 : KeyedInjective sampleMd5 sampleCredential.merchantKey :=
    fun x y h => append_cancel_right (sampleMd5.injective h)
  have hcallback : verifyPaymentCallback (fun _ => some sampleUrl) sampleForm sampleMd5 sampleCredential sampleCallback =
      .ok ⟨"T1", "T1", "LS-1&param=x", "100000", .alipay⟩ := by
    decide +kernel
  have hquery : callbackSignature sampleForm sampleCallback = some "3B7BEACC528077C01924FB6BD98311EE" := by decide +kernel
  exact signed_callback_not_reinterpreted hmd5 hm hquery (by decide +kernel) hcallback

end Monoize
