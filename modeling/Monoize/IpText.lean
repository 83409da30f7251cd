import Mathlib.Algebra.Ring.Nat
import Mathlib.Data.List.Basic

/-! Internet addresses and their textual forms, as the standard library reads them. -/

namespace IpText

inductive IpAddr
  | v4 (bits : BitVec 32)
  | v6 (bits : BitVec 128)
deriving DecidableEq

abbrev Reader := StateT (List Char) Option

def readChar (expected : Char) : Reader Unit
  | c :: cs => if c = expected then some ((), cs) else none
  | [] => none

def digit? (radix : Nat) (c : Char) : Option Nat :=
  let value :=
    if c.isDigit then some (c.toNat - '0'.toNat)
    else if 'a' ≤ c ∧ c ≤ 'z' then some (c.toNat - 'a'.toNat + 10)
    else if 'A' ≤ c ∧ c ≤ 'Z' then some (c.toNat - 'A'.toNat + 10)
    else none
  value.filter (· < radix)

def readNumber (radix limit : Nat) (maxDigits : Option Nat) (zeroPrefix : Bool) : Reader Nat := fun cs =>
  let digits := cs.takeWhile fun c => (digit? radix c).isSome
  let value := digits.foldl (fun n c => n * radix + (digit? radix c).getD 0) 0
  if digits = [] ∨ (∃ n ∈ maxDigits, n < digits.length) ∨ limit ≤ value ∨
      (zeroPrefix = false ∧ digits.head? = some '0' ∧ 1 < digits.length) then none
  else some (value, cs.drop digits.length)

def readSeparator {α : Type} (separator : Char) (index : Nat) (inner : Reader α) : Reader α := do
  if 0 < index then readChar separator
  inner

def readOctet (index : Nat) : Reader (BitVec 8) :=
  BitVec.ofNat 8 <$> readSeparator '.' index (readNumber 10 (2 ^ 8) (some 3) false)

def readIpv4Addr : Reader (BitVec 32) := do
  let a ← readOctet 0
  let b ← readOctet 1
  let c ← readOctet 2
  let d ← readOctet 3
  pure (a ++ b ++ c ++ d)

/-- The groups up to the first place where none stands, whether an IPv4 address closed them, and the
rest. Such an address stands for two groups, so the last one is never its place. -/
def readGroups (limit : Nat) : Nat → List Char → List (BitVec 16) × Bool × List Char
  | 0, cs => ([], false, cs)
  | left + 1, cs =>
    let index := limit - (left + 1)
    match if 0 < left then readSeparator ':' index readIpv4Addr cs else none with
    | some (address, rest) => ([address.extractLsb' 16 16, address.extractLsb' 0 16], true, rest)
    | none =>
      match readSeparator ':' index (readNumber 16 (2 ^ 16) (some 4) true) cs with
      | some (group, rest) =>
        let (groups, closed, rest) := readGroups limit left rest
        (BitVec.ofNat 16 group :: groups, closed, rest)
      | none => ([], false, cs)

def ofGroups (groups : List (BitVec 16)) : BitVec 128 :=
  groups.foldl (fun address group => address <<< 16 ||| group.setWidth 128) 0

def readIpv6Addr : Reader (BitVec 128) := fun cs =>
  let (head, headIpv4, rest) := readGroups 8 8 cs
  if head.length = 8 then some (ofGroups head, rest)
  else if headIpv4 then none
  else
    match rest with
    | ':' :: ':' :: rest =>
      let limit := 7 - head.length
      let (tail, _, rest) := readGroups limit limit rest
      some (ofGroups (head ++ List.replicate (8 - head.length - tail.length) 0 ++ tail), rest)
    | _ => none

def readIpAddr : Reader IpAddr :=
  (IpAddr.v4 <$> readIpv4Addr) <|> (IpAddr.v6 <$> readIpv6Addr)

def readPort : Reader Nat := do
  readChar ':'
  readNumber 10 (2 ^ 16) none true

def readScopeId : Reader Unit := do
  readChar '%'
  let _ ← readNumber 10 (2 ^ 32) none true

def readSocketAddrV4 : Reader IpAddr := do
  let ip ← readIpv4Addr
  let _ ← readPort
  pure (.v4 ip)

def readSocketAddrV6 : Reader IpAddr := do
  readChar '['
  let ip ← readIpv6Addr
  readScopeId <|> pure ()
  readChar ']'
  let _ ← readPort
  pure (.v6 ip)

def parseWith {α : Type} (reader : Reader α) (text : List Char) : Option α :=
  match reader text with
  | some (value, []) => some value
  | _ => none

def parseIpAddr (text : List Char) : Option IpAddr := parseWith readIpAddr text

def parseSocketIp (text : List Char) : Option IpAddr := parseWith (readSocketAddrV4 <|> readSocketAddrV6) text

example : parseIpAddr "203.0.113.7".toList = some (.v4 0xCB007107) := by decide +kernel
example : parseIpAddr "203.0.113.07".toList = none := by decide +kernel
example : parseIpAddr "2001:db8::ffff:192.0.2.1".toList = some (.v6 0x20010DB8000000000000FFFFC0000201) := by
  decide +kernel
example : parseIpAddr "1:2:3:4:5:6:7:8:9".toList = none := by decide +kernel

instance prefixLengthsV4 : NeZero 33 := ⟨by decide⟩

instance prefixLengthsV6 : NeZero 129 := ⟨by decide⟩

inductive IpNet
  | v4 (addr : BitVec 32) (prefixLen : Fin 33)
  | v6 (addr : BitVec 128) (prefixLen : Fin 129)
deriving DecidableEq

/-- The addresses from the network's first to its last, the bits after the leading ones being free. -/
def inNetwork {w : Nat} (addr : BitVec w) (prefixLen : Nat) (other : BitVec w) : Prop :=
  addr &&& (BitVec.allOnes w <<< (w - prefixLen)) ≤ other ∧ other ≤ addr ||| (BitVec.allOnes w >>> prefixLen)
  deriving Decidable

def IpNet.contains : IpNet → IpAddr → Bool
  | .v4 addr prefixLen, .v4 other => inNetwork addr prefixLen other
  | .v6 addr prefixLen, .v6 other => inNetwork addr prefixLen other
  | _, _ => false

end IpText
