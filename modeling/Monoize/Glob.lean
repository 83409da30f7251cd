import Mathlib.Data.List.Basic
import Monoize.TextFields

/-! Glob matching of model patterns: a scan that keeps only the last star as its way back. -/

namespace Monoize

open TextFields List Option

variable {α β : Type} {isStar : α → Bool} {accepts : α → α → Bool}

/-- The values of a pattern: a star stands for any sequence, every other item for one item it accepts. -/
inductive GlobLanguage (isStar : α → Bool) (accepts : α → α → Bool) : List α → List α → Prop
  | nil : GlobLanguage isStar accepts [] []
  | star {a pattern value} (skipped : List α) (ha : isStar a = true) (h : GlobLanguage isStar accepts pattern value) :
    GlobLanguage isStar accepts (a :: pattern) (skipped ++ value)
  | one {a c pattern value} (ha : isStar a = false) (hc : accepts a c = true)
    (h : GlobLanguage isStar accepts pattern value) : GlobLanguage isStar accepts (a :: pattern) (c :: value)

/-- A state of the scan: the pattern and the value from their indices on, and both from the last star on. -/
structure GlobScan (isStar : α → Bool) where
  (pattern value : List α)
  lastStar : Option (List α × List α)
  behind : ∀ after start, lastStar = some (after, start) → ∃ read matched, after = read ++ pattern ∧
    start = matched ++ value ∧ read.length = matched.length ∧ ∀ a ∈ read, isStar a = false

namespace GlobScan

def marked (after start : List α) : GlobScan isStar where
  pattern := after
  value := start
  lastStar := some (after, start)
  behind := by
    rintro _ _ ⟨⟩
    exact ⟨[], [], rfl, rfl, rfl, nofun⟩

def advance (s : GlobScan isStar) {a c : α} {pattern value : List α} (hp : s.pattern = a :: pattern)
    (hv : s.value = c :: value) (ha : isStar a = false) : GlobScan isStar where
  pattern := pattern
  value := value
  lastStar := s.lastStar
  behind := by
    intro after start h
    obtain ⟨read, matched, rfl, rfl, hlength, hread⟩ := s.behind after start h
    refine ⟨read ++ [a], matched ++ [c], by simp [hp], by simp [hv], by simp [hlength], ?_⟩
    simpa [or_imp, forall_and, ha] using hread

/-- One more item for the last star. -/
def retry (s : GlobScan isStar) : Option (GlobScan isStar) :=
  s.lastStar.map fun mark => marked mark.1 mark.2.tail

/-- One turn of the loop, while the value lasts; without a result the scan has failed. -/
def step (accepts : α → α → Bool) (s : GlobScan isStar) {c : α} {value : List α} (hv : s.value = c :: value) :
    Option (GlobScan isStar) :=
  match hp : s.pattern with
  | [] => s.retry
  | a :: pattern =>
    if ha : isStar a = false ∧ accepts a c = true then some (s.advance hp hv ha.1)
    else if isStar a then some (marked pattern (c :: value))
    else s.retry

def budget (s : GlobScan isStar) : Nat × Nat :=
  (s.lastStar.elim (s.value.length + 1) fun mark => mark.2.length, s.pattern.length)

variable {s t : GlobScan isStar} {c : α} {value : List α}

theorem retry_eq_some (h : s.retry = some t) (hv : s.value = c :: value) :
    ∃ after d start, s.lastStar = some (after, d :: start) ∧ t = marked after start := by
  simp only [retry, map_eq_some_iff] at h
  obtain ⟨⟨after, start⟩, hstar, rfl⟩ := h
  obtain ⟨_, matched, -, rfl, -⟩ := s.behind after start hstar
  cases matched with
  | nil => exact ⟨after, c, value, by rw [hstar, hv, nil_append], by rw [hv]; rfl⟩
  | cons d matched => exact ⟨after, d, matched ++ s.value, hstar, rfl⟩

theorem retry_decreases (h : s.retry = some t) (hv : s.value = c :: value) :
    Prod.Lex (· < ·) (· < ·) t.budget s.budget := by
  obtain ⟨after, d, start, hstar, rfl⟩ := retry_eq_some h hv
  left
  simp [marked, hstar]

theorem step_decreases (hv : s.value = c :: value) (h : s.step accepts hv = some t) :
    Prod.Lex (· < ·) (· < ·) t.budget s.budget := by
  unfold step at h
  split at h
  · exact retry_decreases h hv
  rename_i a pattern hp
  split at h
  · cases h
    cases hstar : s.lastStar with
    | none =>
      left
      simp [advance, hstar, hv]
    | some mark =>
      have hsame : (s.advance hp hv (by tauto)).budget = (mark.2.length, pattern.length) := by
        simp [budget, advance, hstar]
      rw [hsame, budget, hstar, hp]
      exact .right _ (Nat.lt_succ_self _)
  · split at h
    · cases h
      cases hstar : s.lastStar with
      | none =>
        left
        simp [marked, hstar, hv]
      | some mark =>
        obtain ⟨_, matched, -, hstart, -⟩ := s.behind mark.1 mark.2 hstar
        have hlength : mark.2.length = matched.length + (c :: value).length := by rw [hstart, hv, length_append]
        rw [budget, budget, hstar, hp, elim_some, hlength]
        rcases Nat.eq_zero_or_pos matched.length with hzero | hpos
        · rw [hzero, Nat.zero_add]
          exact .right _ (Nat.lt_succ_self _)
        · exact .left _ _ (Nat.lt_add_of_pos_left hpos)
    · exact retry_decreases h hv

end GlobScan

def globLoop (accepts : α → α → Bool) (s : GlobScan isStar) : Bool :=
  match hv : s.value with
  | [] => (s.pattern.dropWhile isStar).isEmpty
  | _ :: _ =>
    match _h : s.step accepts hv with
    | some t => globLoop accepts t
    | none => false
termination_by s.budget
decreasing_by exact GlobScan.step_decreases hv _h

def globStart (pattern value : List α) : GlobScan isStar := ⟨pattern, value, none, nofun⟩

section

variable {a : α} {pattern value : List α}

theorem globLanguage_star (ha : isStar a = true) :
    GlobLanguage isStar accepts (a :: pattern) value ↔ ∃ n, GlobLanguage isStar accepts pattern (value.drop n) := by
  constructor
  · intro h
    cases h with
    | star skipped _ h => exact ⟨skipped.length, by rwa [drop_left]⟩
    | one ha' => rw [ha] at ha'; cases ha'
  · rintro ⟨n, h⟩
    rw [← take_append_drop n value]
    exact .star _ ha h

theorem globLanguage_one (ha : isStar a = false) : GlobLanguage isStar accepts (a :: pattern) value ↔
    ∃ c rest, value = c :: rest ∧ accepts a c = true ∧ GlobLanguage isStar accepts pattern rest := by
  constructor
  · intro h
    cases h with
    | star skipped ha' => rw [ha] at ha'; cases ha'
    | one _ hc h => exact ⟨_, _, rfl, hc, h⟩
  · rintro ⟨c, rest, rfl, hc, h⟩
    exact .one ha hc h

theorem globLanguage_nil : GlobLanguage isStar accepts pattern [] ↔ (pattern.dropWhile isStar).isEmpty = true := by
  induction pattern with
  | nil => exact ⟨fun _ => rfl, fun _ => .nil⟩
  | cons a pattern ih =>
    cases ha : isStar a with
    | false => simp [globLanguage_one ha, ha]
    | true => simpa [globLanguage_star ha, ha] using ih

/-- Items without a star use up as many items of the value. -/
theorem globLanguage_append {read : List α} (hread : ∀ a ∈ read, isStar a = false)
    (h : GlobLanguage isStar accepts (read ++ pattern) value) :
    GlobLanguage isStar accepts pattern (value.drop read.length) := by
  induction read generalizing value with
  | nil => exact h
  | cons a read ih =>
    rw [forall_mem_cons] at hread
    obtain ⟨c, rest, rfl, -, h⟩ := (globLanguage_one hread.1).1 h
    exact ih hread.2 h

end

/-- The scan accepts when the rest of the value matches, or when a longer sequence for the last star would do. -/
def GlobScan.Accepts (accepts : α → α → Bool) (s : GlobScan isStar) : Prop :=
  GlobLanguage isStar accepts s.pattern s.value ∨ ∃ after start, s.lastStar = some (after, start) ∧
    ∃ n, GlobLanguage isStar accepts after (start.drop (n + 1))

namespace GlobScan

variable {s t : GlobScan isStar} {c : α} {value : List α}

/-- What a longer sequence for the last star would match is matched later from the rest of the value. -/
theorem later {after start : List α} {n : Nat} (hstar : s.lastStar = some (after, start))
    (h : GlobLanguage isStar accepts after (start.drop (n + 1))) :
    GlobLanguage isStar accepts s.pattern (s.value.drop (n + 1)) := by
  obtain ⟨read, matched, rfl, rfl, hlength, hread⟩ := s.behind after start hstar
  have h := globLanguage_append hread h
  rwa [drop_drop, hlength, Nat.add_comm, drop_length_add_append] at h

theorem accepts_marked {after start : List α} :
    (marked after start : GlobScan isStar).Accepts accepts ↔ ∃ n, GlobLanguage isStar accepts after (start.drop n) := by
  constructor
  · rintro (h | ⟨_, _, ⟨⟩, n, h⟩)
    · exact ⟨0, h⟩
    · exact ⟨n + 1, h⟩
  · rintro ⟨_ | n, h⟩
    · exact .inl h
    · exact .inr ⟨_, _, rfl, n, h⟩

theorem accepts_retry (hv : s.value = c :: value) (hno : ¬ GlobLanguage isStar accepts s.pattern s.value) :
    s.Accepts accepts ↔ ∃ t, s.retry = some t ∧ t.Accepts accepts := by
  constructor
  · rintro (h | ⟨after, start, hstar, n, h⟩)
    · exact absurd h hno
    · refine ⟨marked after start.tail, by rw [retry, hstar]; rfl, accepts_marked.2 ⟨n, ?_⟩⟩
      rwa [drop_tail]
  · rintro ⟨t, ht, h⟩
    obtain ⟨after, d, start, hstar, rfl⟩ := retry_eq_some ht hv
    obtain ⟨n, h⟩ := accepts_marked.1 h
    exact .inr ⟨after, d :: start, hstar, n, h⟩

theorem accepts_step (hv : s.value = c :: value) :
    s.Accepts accepts ↔ ∃ t, s.step accepts hv = some t ∧ t.Accepts accepts := by
  unfold step
  split
  · rename_i hp
    refine accepts_retry hv ?_
    rw [hp, hv]
    exact nofun
  · rename_i a pattern hp
    split
    · rename_i ha
      simp only [some.injEq, exists_eq_left']
      refine or_congr_left ?_
      dsimp only [advance]
      rw [hp, hv, globLanguage_one ha.1]
      simp [ha.2]
    · rename_i hone
      split
      · rename_i ha
        simp only [some.injEq, exists_eq_left', accepts_marked]
        unfold Accepts
        rw [hp, hv, globLanguage_star ha]
        refine or_iff_left_of_imp ?_
        rintro ⟨after, start, hstar, n, h⟩
        have hlater := later hstar h
        rw [hp, hv, globLanguage_star ha] at hlater
        obtain ⟨m, h⟩ := hlater
        exact ⟨_, by rwa [drop_drop] at h⟩
      · rename_i ha
        refine accepts_retry hv ?_
        rw [hp, hv, globLanguage_one (Bool.not_eq_true _ ▸ ha)]
        rintro ⟨_, _, ⟨⟩, hc, -⟩
        exact hone ⟨Bool.not_eq_true _ ▸ ha, hc⟩

end GlobScan

theorem globLoop_iff (s : GlobScan isStar) : globLoop accepts s = true ↔ s.Accepts accepts := by
  fun_induction globLoop accepts s with
  | case1 s hv =>
    rw [GlobScan.Accepts, hv, globLanguage_nil]
    refine (or_iff_left_of_imp ?_).symm
    rintro ⟨after, start, hstar, n, h⟩
    have hlater := GlobScan.later hstar h
    rwa [hv, drop_nil, globLanguage_nil] at hlater
  | case2 s c value hv t h ih => simp [ih, GlobScan.accepts_step hv, h]
  | case3 s c value hv h => simp [GlobScan.accepts_step hv, h]

theorem globLoop_globStart (pattern value : List α) :
    globLoop accepts (globStart pattern value : GlobScan isStar) = true ↔ GlobLanguage isStar accepts pattern value := by
  rw [globLoop_iff]
  exact or_iff_left fun ⟨_, _, h, _⟩ => by cases h

def caseSensitiveGlobMatch (pattern value : String) : Bool :=
  if pattern = "*" then true
  else globLoop (fun p c => p = '?' || p = c) (globStart pattern.toList value.toList : GlobScan (· = '*'))

def asciiLowerByte (b : UInt8) : UInt8 := if 65 ≤ b ∧ b ≤ 90 then b + 32 else b

def globMatches (pattern value : String) : Bool :=
  globLoop (fun p c => p = 63 || asciiLowerByte p = asciiLowerByte c)
    (globStart (utf8Bytes pattern) (utf8Bytes value) : GlobScan fun b : UInt8 => b = 42)

def InGlob (pattern value : List Char) : Prop := GlobLanguage (· = '*') (fun p c => p = '?' || p = c) pattern value

theorem caseSensitiveGlobMatch_iff (pattern value : String) :
    caseSensitiveGlobMatch pattern value = true ↔ InGlob pattern.toList value.toList := by
  unfold caseSensitiveGlobMatch
  split
  · rename_i h
    refine iff_of_true rfl ?_
    rw [h]
    exact (globLanguage_star rfl).2 ⟨value.toList.length, by rw [drop_length]; exact .nil⟩
  · exact globLoop_globStart _ _

theorem globLanguage_map (isStar : α → Bool) (accepts : α → α → Bool) {star : β → Bool} {takes : β → β → Bool}
    {f : α → β} {pattern value : List α}
    (hstar : ∀ a ∈ pattern, star (f a) = isStar a)
    (htakes : ∀ a ∈ pattern, ∀ c ∈ value, takes (f a) (f c) = accepts a c) :
    GlobLanguage star takes (pattern.map f) (value.map f) ↔ GlobLanguage isStar accepts pattern value := by
  induction pattern generalizing value with
  | nil =>
    cases value with
    | nil => exact iff_of_true .nil .nil
    | cons => exact iff_of_false nofun nofun
  | cons a pattern ih =>
    rw [forall_mem_cons] at hstar htakes
    cases ha : isStar a with
    | true =>
      rw [map_cons, globLanguage_star (hstar.1.trans ha), globLanguage_star ha]
      refine exists_congr fun n => ?_
      rw [← map_drop]
      exact ih hstar.2 fun b hb c hc => htakes.2 b hb c (mem_of_mem_drop hc)
    | false =>
      rw [map_cons, globLanguage_one (hstar.1.trans ha), globLanguage_one ha]
      cases value with
      | nil => simp
      | cons c value =>
        have htail := ih hstar.2 fun b hb d hd => htakes.2 b hb d (mem_cons_of_mem c hd)
        simp [htakes.1 c (mem_cons_self ..), htail]

def IsAscii (text : String) : Prop := ∀ c ∈ text.toList, c.toNat < 128
  deriving Decidable

def toAsciiLowercase (text : String) : String := String.ofList (text.toList.map asciiLower)

theorem utf8Bytes_of_ascii {text : String} (h : IsAscii text) : utf8Bytes text = text.toList.map Char.toUInt8 := by
  have hbytes : utf8Bytes text = text.toList.flatMap String.utf8EncodeChar := by
    rw [utf8Bytes, ← String.utf8Encode_toList, utf8Encode]
    simp
  rw [hbytes, map_eq_flatMap]
  refine flatMap_congr fun c hc => String.utf8EncodeChar_eq_singleton ?_
  rw [Char.utf8Size_eq_one_iff, UInt32.le_iff_toNat_le]
  exact Nat.le_of_lt_succ (h c hc)

theorem ascii_lower {c : Char} (h : c.toNat < 128) : asciiLowerByte c.toUInt8 = (asciiLower c).toUInt8 ∧
    (asciiLower c).toNat < 128 ∧ (c.toUInt8 = 42 ↔ c = '*') ∧ (c.toUInt8 = 63 ↔ c = '?') ∧
    (asciiLower c = '*' ↔ c = '*') ∧ (asciiLower c = '?' ↔ c = '?') := by
  obtain ⟨n, rfl⟩ : ∃ n : Fin 128, Char.ofNat n = c := ⟨⟨c.toNat, h⟩, by simp⟩
  clear h
  revert n
  decide

theorem toUInt8_inj {a c : Char} (ha : a.toNat < 128) (hc : c.toNat < 128) : a.toUInt8 = c.toUInt8 ↔ a = c := by
  refine ⟨fun h => ?_, congrArg _⟩
  have hnat := congrArg UInt8.toNat h
  simp only [Char.toUInt8, UInt32.toNat_toUInt8] at hnat
  apply Char.toNat_inj.1
  simp only [Char.toNat] at ha hc ⊢
  omega

/-- The scan decides the language of the pattern, and ignoring case on ASCII text is matching its lower case. -/
theorem globScan_decides :
    (∀ pattern value, caseSensitiveGlobMatch pattern value = true ↔ InGlob pattern.toList value.toList) ∧
      ∀ pattern value, IsAscii pattern → IsAscii value →
        globMatches pattern value = caseSensitiveGlobMatch (toAsciiLowercase pattern) (toAsciiLowercase value) := by
  refine ⟨caseSensitiveGlobMatch_iff, fun pattern value hp hv => ?_⟩
  rw [Bool.eq_iff_iff, globMatches, globLoop_globStart, utf8Bytes_of_ascii hp, utf8Bytes_of_ascii hv,
    caseSensitiveGlobMatch_iff, InGlob, toAsciiLowercase, toAsciiLowercase, String.toList_ofList, String.toList_ofList]
  rw [globLanguage_map (· = '*') fun p c => p = '?' || asciiLower p = asciiLower c,
    globLanguage_map (· = '*') fun p c => p = '?' || asciiLower p = asciiLower c]
  · intro a ha
    simp [(ascii_lower (hp a ha)).2.2.2.2.1]
  · intro a ha c _
    simp [(ascii_lower (hp a ha)).2.2.2.2.2]
  · intro a ha
    simp [(ascii_lower (hp a ha)).2.2.1]
  · intro a ha c hc
    obtain ⟨hlower, hascii, -, hany, -⟩ := ascii_lower (hp a ha)
    obtain ⟨hlower', hascii', -⟩ := ascii_lower (hv c hc)
    simp [hany, hlower, hlower', toUInt8_inj hascii hascii']

theorem globScan_decides_model :
    globMatches "GPT-?*o" "gpt-4o" = caseSensitiveGlobMatch (toAsciiLowercase "GPT-?*o") (toAsciiLowercase "gpt-4o") :=
  globScan_decides.2 _ _ (by decide) (by decide)

end Monoize
