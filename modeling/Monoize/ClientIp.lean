import Monoize.IpText
import Monoize.MachineInt
import Monoize.TextFields

namespace Monoize

open MachineInt IpText TextFields List Option

def parseForwardedAddress (raw : List Char) : Option IpAddr :=
  let raw := trimMatches '"' raw
  if eqIgnoreAsciiCase raw "unknown".toList ∨ raw.head? = some '_' then none
  else
    parseIpAddr raw <|> parseSocketIp raw <|>
      match raw with
      | '[' :: value => (splitAt? ']' value).bind fun (address, _) => parseIpAddr address
      | _ => none

def forParameter (element : List Char) : Option (List Char) :=
  (element.splitOn ';').findSome? fun part =>
    (splitAt? '=' (trim part)).bind fun (name, value) =>
      if eqIgnoreAsciiCase name "for".toList then some (trim value) else none

def forwardedElements (value : List Char) : Option (List IpAddr) :=
  (value.splitOn ',').mapM fun element => (forParameter element).bind parseForwardedAddress

def forwardedForElements (value : List Char) : Option (List IpAddr) :=
  (value.splitOn ',').mapM fun element => parseIpAddr (trim element)

theorem forwardedForElements_append (s t : List Char) {A : List IpAddr} (ht : forwardedForElements t = some A) :
    forwardedForElements (s ++ ',' :: t) = (forwardedForElements s).map (· ++ A) := by
  unfold forwardedForElements at *
  have hsplit : (s ++ ',' :: t).splitOn ',' = s.splitOn ',' ++ t.splitOn ',' :=
    splitOnP_append_cons s t (beq_self_eq_true ',')
  rw [hsplit, mapM_append, ht]
  cases (s.splitOn ',').mapM fun element => parseIpAddr (trim element) <;> rfl

abbrev HeaderValue := List Char

/-- `HeaderValue::to_str` and `IpNet::contains`, which are taken from their libraries. -/
class HeaderLibrary where
  toStr : HeaderValue → Option (List Char)
  netContains : IpNet → IpAddr → Bool

export HeaderLibrary (toStr netContains)

def isVisibleAscii (c : Char) : Bool := (32 ≤ c.toNat && c.toNat < 127) || c = '\t'

class LawfulHeaderLibrary [HeaderLibrary] : Prop where
  toStr_append : ∀ (s t : HeaderValue) (c : Char), isVisibleAscii c = true → toStr t = some t →
    toStr (s ++ c :: t) = (toStr s).map fun s => s ++ c :: t

structure TrustedProxyConfig where
  networks : List IpNet

section Library

variable [HeaderLibrary]

def TrustedProxyConfig.contains (config : TrustedProxyConfig) (address : IpAddr) : Bool :=
  config.networks.any fun network => netContains network address

structure HeaderMap where
  (forwarded xForwardedFor xRealIp : Option HeaderValue)

def forwardedChain (headers : HeaderMap) : Option (List IpAddr) :=
  match headers.forwarded.bind toStr with
  | some value => (forwardedElements value).filter (· ≠ [])
  | none =>
    match headers.xForwardedFor.bind toStr with
    | some value => (forwardedForElements value).filter (· ≠ [])
    | none => (headers.xRealIp.bind toStr).bind fun value => (parseIpAddr (trim value)).map fun a => [a]

def canonicalClientIp (peer : IpAddr) (headers : HeaderMap) (trustedProxies : TrustedProxyConfig) : IpAddr :=
  if trustedProxies.contains peer then
    let chain := (forwardedChain headers).getD [] ++ [peer]
    -- the loop pops trusted addresses from the end of the chain
    (chain.reverse.dropWhile trustedProxies.contains).head?.getD peer
  else peer

section Chain

variable {trustedProxies : TrustedProxyConfig} {peer u : IpAddr} {headers : HeaderMap}

variable (hpeer : trustedProxies.contains peer = true)

include hpeer

theorem canonicalClientIp_of_chain {front back : List IpAddr}
    (hu : trustedProxies.contains u = false) (hback : ∀ a ∈ back, trustedProxies.contains a = true)
    (hchain : forwardedChain headers = some (front ++ u :: back)) :
    canonicalClientIp peer headers trustedProxies = u := by
  have hreverse : (front ++ u :: back ++ [peer]).reverse = (peer :: back.reverse) ++ u :: front.reverse := by simp
  have htrusted : ∀ a ∈ peer :: back.reverse, trustedProxies.contains a = true := by
    intro a ha
    rcases mem_cons.1 ha with rfl | ha
    · exact hpeer
    · exact hback a (mem_reverse.1 ha)
  rw [canonicalClientIp, if_pos hpeer, hchain]
  dsimp only [getD_some]
  rw [hreverse, dropWhile_append_of_pos htrusted, dropWhile_cons_of_neg (by simp [hu])]
  rfl

theorem canonicalClientIp_of_none (hchain : forwardedChain headers = none) :
    canonicalClientIp peer headers trustedProxies = peer := by
  rw [canonicalClientIp, if_pos hpeer, hchain]
  simp [hpeer]

theorem canonicalClientIp_of_single {a : IpAddr}
    (hu : trustedProxies.contains u = false) (hchain : forwardedChain headers = some [a]) :
    canonicalClientIp peer headers trustedProxies = u ↔ a = u := by
  have hne : peer ≠ u := by
    rintro rfl
    exact Bool.noConfusion (hpeer.symm.trans hu)
  cases ha : trustedProxies.contains a with
  | false =>
    have hchain' : forwardedChain headers = some ([] ++ a :: []) := hchain
    rw [canonicalClientIp_of_chain hpeer ha (by simp) hchain']
  | true =>
    have hresult : canonicalClientIp peer headers trustedProxies = peer := by
      rw [canonicalClientIp, if_pos hpeer, hchain]
      simp [hpeer, ha]
    rw [hresult]
    constructor
    · intro h
      exact absurd h hne
    · rintro rfl
      exact Bool.noConfusion (ha.symm.trans hu)

end Chain

/-- What the client sent leaves the proxies' part of the value readable: every element it sent is an
address. A value that is not visible ASCII is skipped for `X-Real-IP`. -/
def Unforged (headers : HeaderMap) (u : IpAddr) (s : HeaderValue) : Prop :=
  (∃ text ∈ toStr s, (forwardedForElements text).isSome) ∨
    (toStr s = none ∧ (headers.xRealIp.bind toStr).bind (fun value => parseIpAddr (trim value)) = some u)
  deriving Decidable

def HeaderMap.withForwardedFor (headers : HeaderMap) (value : HeaderValue) : HeaderMap :=
  { headers with xForwardedFor := some value }

section Appended

variable [LawfulHeaderLibrary] {trustedProxies : TrustedProxyConfig} {peer u : IpAddr} {headers : HeaderMap}
  {appended : HeaderValue} {front back : List IpAddr} (hpeer : trustedProxies.contains peer = true)
  (hforwarded : headers.forwarded.bind toStr = none) (happended : toStr appended = some appended)
  (haddresses : forwardedForElements appended = some (front ++ u :: back))
  (hu : trustedProxies.contains u = false) (hback : ∀ a ∈ back, trustedProxies.contains a = true)

include hpeer hforwarded happended haddresses hu hback

theorem canonicalClientIp_eq_iff (s : HeaderValue) :
    canonicalClientIp peer (headers.withForwardedFor (s ++ ',' :: appended)) trustedProxies = u ↔
      Unforged headers u s := by
  have hne : peer ≠ u := by
    rintro rfl
    exact Bool.noConfusion (hpeer.symm.trans hu)
  have hread : ((headers.withForwardedFor (s ++ ',' :: appended)).xForwardedFor.bind toStr) =
      (toStr s).map fun s => s ++ ',' :: appended :=
    LawfulHeaderLibrary.toStr_append s appended ',' rfl happended
  have hchain : forwardedChain (headers.withForwardedFor (s ++ ',' :: appended)) =
      match toStr s with
      | some text => (forwardedForElements text).map (· ++ (front ++ u :: back))
      | none => ((headers.xRealIp.bind toStr).bind fun value => parseIpAddr (trim value)).map fun a => [a] := by
    rw [forwardedChain, hread]
    dsimp only [HeaderMap.withForwardedFor]
    rw [hforwarded]
    cases toStr s with
    | none =>
      dsimp only [map_none]
      rw [map_bind]
      rfl
    | some text =>
      dsimp only [map_some]
      rw [forwardedForElements_append text appended haddresses]
      cases forwardedForElements text <;> simp
  cases hs : toStr s with
  | some text =>
    rw [hs] at hchain
    dsimp only at hchain
    cases helements : forwardedForElements text with
    | none =>
      rw [helements] at hchain
      rw [canonicalClientIp_of_none hpeer hchain]
      simp [Unforged, hs, helements, hne]
    | some sent =>
      rw [helements, map_some, ← append_assoc] at hchain
      rw [canonicalClientIp_of_chain hpeer hu hback hchain]
      simp [Unforged, hs, helements]
  | none =>
    rw [hs] at hchain
    dsimp only at hchain
    cases hreal : (headers.xRealIp.bind toStr).bind fun value => parseIpAddr (trim value) with
    | none =>
      rw [hreal] at hchain
      rw [canonicalClientIp_of_none hpeer hchain]
      simp [Unforged, hs, hreal, hne]
    | some a =>
      rw [hreal, map_some] at hchain
      rw [canonicalClientIp_of_single hpeer hu hchain]
      simp [Unforged, hs, hreal]

/-- The canonical address is the one the proxies saw, for both of two values the client may send, exactly
when neither of them breaks the reading of the whole value. -/
theorem canonicalClientIp_same_iff (s s' : HeaderValue) :
    (canonicalClientIp peer (headers.withForwardedFor (s ++ ',' :: appended)) trustedProxies =
        canonicalClientIp peer (headers.withForwardedFor (s' ++ ',' :: appended)) trustedProxies ∧
      canonicalClientIp peer (headers.withForwardedFor (s ++ ',' :: appended)) trustedProxies = u) ↔
      Unforged headers u s ∧ Unforged headers u s' := by
  rw [← canonicalClientIp_eq_iff hpeer hforwarded happended haddresses hu hback s,
    ← canonicalClientIp_eq_iff hpeer hforwarded happended haddresses hu hback s']
  constructor
  · rintro ⟨hsame, hs⟩
    exact ⟨hs, hsame.symm.trans hs⟩
  · rintro ⟨hs, hs'⟩
    exact ⟨hs.trans hs'.symm, hs⟩

end Appended

end Library

instance sampleHeaders : HeaderLibrary where
  toStr value := if value.all isVisibleAscii then some value else none
  netContains := IpNet.contains

instance : LawfulHeaderLibrary where
  toStr_append s t c hc ht := by
    have hall : t.all isVisibleAscii = true := by
      by_contra h
      cases (if_neg h).symm.trans ht
    simp only [toStr]
    rw [all_append, all_cons, hc, hall, Bool.true_and, Bool.and_true]
    split <;> rfl

def sampleProxies : TrustedProxyConfig := ⟨[.v4 0x0A000000 8, .v4 0xC0000200 24]⟩

def sampleRequest (sent : String) : HeaderMap :=
  HeaderMap.withForwardedFor ⟨none, none, none⟩ (sent.toList ++ ',' :: " 198.51.100.8, 10.2.0.3".toList)

theorem canonicalClientIp_same_sample :
    canonicalClientIp (.v4 0xC000020A) (sampleRequest "203.0.113.9") sampleProxies =
        canonicalClientIp (.v4 0xC000020A) (sampleRequest "::1") sampleProxies ∧
      canonicalClientIp (.v4 0xC000020A) (sampleRequest "203.0.113.9") sampleProxies = .v4 0xC6336408 := by
  have haddresses : forwardedForElements " 198.51.100.8, 10.2.0.3".toList =
      some ([] ++ .v4 0xC6336408 :: [.v4 0x0A020003]) := by
    decide +kernel
  exact (canonicalClientIp_same_iff (by decide) rfl (by decide +kernel) haddresses (by decide) (by decide) _ _).2
    (by decide +kernel)

theorem canonicalClientIp_forged :
    canonicalClientIp (.v4 0xC000020A) (sampleRequest "unknown") sampleProxies = .v4 0xC000020A ∧
      canonicalClientIp (.v4 0xC000020A) (sampleRequest "203.0.113.9") sampleProxies = .v4 0xC6336408 := by
  decide +kernel

end Monoize
