import Mathlib.Algebra.Group.Int.Defs
import Mathlib.Algebra.Group.Nat.Defs
import Mathlib.Data.List.Basic
import Mathlib.Data.String.Basic

/-! JSON values. An object is the list of its members in key order; `member` reads the first member
of a name, so a list with a repeated name behaves as the object of its first occurrences. Numbers
are kept as integers where their text is one and as text otherwise. -/

inductive JsonValue
  | null
  | bool (value : Bool)
  | int (value : Int)
  | decimal (text : String)
  | string (value : String)
  | array (items : List JsonValue)
  | object (members : List (String × JsonValue))

abbrev JsonMap : Type := List (String × JsonValue)

namespace JsonValue

mutual

def same : JsonValue → JsonValue → Bool
  | .null, .null => true
  | .bool a, .bool b => a == b
  | .int a, .int b => a == b
  | .decimal a, .decimal b => a == b
  | .string a, .string b => a == b
  | .array a, .array b => sameItems a b
  | .object a, .object b => sameMembers a b
  | _, _ => false

def sameItems : List JsonValue → List JsonValue → Bool
  | [], [] => true
  | a :: as, b :: bs => same a b && sameItems as bs
  | _, _ => false

def sameMembers : List (String × JsonValue) → List (String × JsonValue) → Bool
  | [], [] => true
  | (k, a) :: as, (l, b) :: bs => k == l && same a b && sameMembers as bs
  | _, _ => false

end

mutual

theorem same_iff : ∀ a b, same a b = true ↔ a = b
  | .null, b => by cases b <;> simp [same]
  | .bool _, b => by cases b <;> simp [same]
  | .int _, b => by cases b <;> simp [same]
  | .decimal _, b => by cases b <;> simp [same]
  | .string _, b => by cases b <;> simp [same]
  | .array as, b => by
    cases b with
    | array bs => simp [same, sameItems_iff as bs]
    | _ => simp [same]
  | .object as, b => by
    cases b with
    | object bs => simp [same, sameMembers_iff as bs]
    | _ => simp [same]

theorem sameItems_iff : ∀ as bs, sameItems as bs = true ↔ as = bs
  | [], bs => by cases bs <;> simp [sameItems]
  | a :: as, bs => by
    cases bs with
    | nil => simp [sameItems]
    | cons b bs => simp [sameItems, same_iff a b, sameItems_iff as bs]

theorem sameMembers_iff : ∀ as bs, sameMembers as bs = true ↔ as = bs
  | [], bs => by cases bs <;> simp [sameMembers]
  | (k, a) :: as, bs => by
    cases bs with
    | nil => simp [sameMembers]
    | cons b bs =>
      obtain ⟨l, b⟩ := b
      simp [sameMembers, same_iff a b, sameMembers_iff as bs]

end

instance : DecidableEq JsonValue := fun a b => decidable_of_iff (same a b = true) (same_iff a b)

def asStr : JsonValue → Option String
  | .string s => some s
  | _ => none

def asArray : JsonValue → Option (List JsonValue)
  | .array items => some items
  | _ => none

def asObject : JsonValue → Option JsonMap
  | .object members => some members
  | _ => none

def asU64 : JsonValue → Option Nat
  | .int n => if 0 ≤ n ∧ n < 2 ^ 64 then some n.toNat else none
  | _ => none

def isNull : JsonValue → Bool
  | .null => true
  | _ => false

end JsonValue

namespace JsonMap

def member (m : JsonMap) (key : String) : Option JsonValue := (m.find? (·.1 == key)).map (·.2)

def strMember (m : JsonMap) (key : String) : Option String := (m.member key).bind JsonValue.asStr

def insert (m : JsonMap) (key : String) (value : JsonValue) : JsonMap :=
  match m with
  | [] => [(key, value)]
  | (k, v) :: rest =>
    if k = key then (key, value) :: rest
    else if key < k then (key, value) :: (k, v) :: rest
    else (k, v) :: insert rest key value

def remove (m : JsonMap) (key : String) : JsonMap := m.filter (·.1 != key)

def extend (m n : JsonMap) : JsonMap := n.foldl (fun m e => m.insert e.1 e.2) m

@[simp] theorem member_nil (key : String) : member [] key = none := rfl

theorem member_cons (e : String × JsonValue) (m : JsonMap) (key : String) :
    member (e :: m) key = if e.1 = key then some e.2 else member m key := by
  unfold member
  by_cases h : e.1 = key <;> simp [h]

theorem member_insert (m : JsonMap) (key other : String) (value : JsonValue) :
    (m.insert key value).member other = if key = other then some value else m.member other := by
  induction m with
  | nil => simp only [insert, member_cons, member_nil]
  | cons e rest ih =>
    obtain ⟨k, v⟩ := e
    unfold insert
    split
    · rename_i hk
      subst hk
      simp only [member_cons]
      split <;> rfl
    · split
      · simp only [member_cons]
      simp only [member_cons, ih]
      split
      · rename_i hne _ hk
        rw [if_neg (by rintro rfl; exact hne hk)]
      · rfl

theorem member_filter (m : JsonMap) {p : String × JsonValue → Bool} {key : String} (h : ∀ v, p (key, v) = true) :
    member (m.filter p) key = member m key := by
  induction m with
  | nil => rfl
  | cons e rest ih =>
    obtain ⟨k, v⟩ := e
    by_cases hk : k = key
    · subst hk
      rw [List.filter_cons_of_pos (h v), member_cons, member_cons, if_pos rfl, if_pos rfl]
    · rw [List.filter_cons]
      split <;> simp only [member_cons, if_neg hk, ih]

theorem member_extend (m n : JsonMap) (hnodup : (n.map (·.1)).Nodup) (key : String) :
    member (extend m n) key = (member n key <|> member m key) := by
  unfold extend
  induction n generalizing m with
  | nil => rfl
  | cons e n ih =>
    rw [List.map_cons, List.nodup_cons] at hnodup
    rw [List.foldl_cons, ih _ hnodup.2, member_insert, member_cons]
    split
    · rename_i hkey
      have hnone : member n key = none := by
        unfold member
        rw [Option.map_eq_none_iff, List.find?_eq_none]
        intro f hf hfk
        exact hnodup.1 (hkey ▸ List.mem_map.mpr ⟨f, hf, by simpa using hfk⟩)
      rw [hnone]
      rfl
    · rfl

end JsonMap

namespace JsonValue

def get (v : JsonValue) (key : String) : Option JsonValue := v.asObject.bind (·.member key)

def getStr (v : JsonValue) (key : String) : Option String := (v.get key).bind asStr

def hexDigits (n : Nat) : String :=
  String.ofList [Nat.digitChar (n / 16), Nat.digitChar (n % 16)]

def escapeChar (c : Char) : String :=
  if c = '"' then "\\\""
  else if c = '\\' then "\\\\"
  else if c.toNat = 8 then "\\b"
  else if c.toNat = 9 then "\\t"
  else if c.toNat = 10 then "\\n"
  else if c.toNat = 12 then "\\f"
  else if c.toNat = 13 then "\\r"
  else if c.toNat < 32 then "\\u00" ++ hexDigits c.toNat
  else c.toString

def quote (s : String) : String := "\"" ++ String.join (s.toList.map escapeChar) ++ "\""

mutual

def render : JsonValue → String
  | .null => "null"
  | .bool b => if b then "true" else "false"
  | .int n => toString n
  | .decimal text => text
  | .string s => quote s
  | .array items => "[" ++ renderItems items ++ "]"
  | .object members => "\x7b" ++ renderMembers members ++ "\x7d"

def renderItems : List JsonValue → String
  | [] => ""
  | [v] => render v
  | v :: w :: rest => render v ++ "," ++ renderItems (w :: rest)

def renderMembers : List (String × JsonValue) → String
  | [] => ""
  | [(k, v)] => quote k ++ ":" ++ render v
  | (k, v) :: e :: rest => quote k ++ ":" ++ render v ++ "," ++ renderMembers (e :: rest)

end

def plainText (v : JsonValue) : String := v.asStr.getD v.render

@[simp] theorem plainText_string (s : String) : (JsonValue.string s).plainText = s := rfl

end JsonValue
