import Monoize.ExactDecimal
import Monoize.JsonValue

/-! The maximum a plan reserves for a request over all its attempts. -/

namespace Monoize

open MachineInt

structure BillingRate where
  (id rateKind usageClass unitPriceNano unitPriceCurrency : String)
  matchJson : JsonValue
  enabled : Bool
  updatedAt : Int

/-- `fromCny` is the division of a CNY charge by the exchange-rate snapshot, where there is one. -/
structure BillingRateResolution where
  (pricingProfile pricingModel : String)
  rates : List BillingRate
  fromCny : Int → Option Int
  fits : ∀ {x y}, fromCny x = some y → Fits 127 y

/-- Which rates bill a part of a request, and how many units of each. -/
structure BilledPart where
  billed : BillingRate → Bool
  units : BillingRate → Option Nat

theorem mapM_eq_some_iff {α β : Type} {f : α → Option β} {l : List α} {bs : List β} :
    l.mapM f = some bs ↔ l.map f = bs.map some := by
  induction l generalizing bs with
  | nil => cases bs <;> simp
  | cons a l ih =>
    simp only [List.mapM_cons, Option.bind_eq_bind, Option.bind_eq_some_iff, ih, Option.pure_def, Option.some.injEq]
    cases bs <;> simp

/-- The greatest value of a partial function over a list, where it is defined everywhere. -/
theorem maximum_mapM_iff {α : Type} {f : α → Option Int} {l : List α} {m : Int} :
    (l.mapM f).bind List.max? = some m ↔ (∃ a ∈ l, f a = some m) ∧ ∀ a ∈ l, ∃ b, f a = some b ∧ b ≤ m := by
  simp only [Option.bind_eq_some_iff, mapM_eq_some_iff, List.max?_eq_some_iff]
  constructor
  · rintro ⟨bs, hbs, hm, hle⟩
    refine ⟨List.mem_map.1 (hbs ▸ List.mem_map_of_mem hm), fun a ha => ?_⟩
    obtain ⟨b, hb, hab⟩ := List.mem_map.1 (hbs ▸ List.mem_map_of_mem ha)
    exact ⟨b, hab.symm, hle b hb⟩
  · rintro ⟨⟨a, ha, hm⟩, h⟩
    have hdefined : ∀ a ∈ l, f a = some ((f a).getD 0) ∧ (f a).getD 0 ≤ m := fun a ha => by
      obtain ⟨b, hb, hle⟩ := h a ha
      simp [hb, hle]
    refine ⟨l.map fun a => (f a).getD 0, ?_, List.mem_map.2 ⟨a, ha, by simp [hm]⟩, fun b hb => ?_⟩
    · rw [List.map_map]
      exact List.map_congr_left fun a ha => (hdefined a ha).1
    · obtain ⟨a, ha, rfl⟩ := List.mem_map.1 hb
      exact (hdefined a ha).2

namespace BillingRateResolution

def chargeInUsd (r : BillingRateResolution) (rate : BillingRate) (charge : Int) : Option Int :=
  if rate.unitPriceCurrency = "CNY" then r.fromCny charge else some charge

def rateCharge (r : BillingRateResolution) (units : BillingRate → Option Nat) (rate : BillingRate) : Option Int := do
  let quantity ← units rate
  let price ← (signed? rate.unitPriceNano.toList).bind (checked 127)
  let charge ← checked 127 (quantity * price)
  r.chargeInUsd rate charge

def maximumCharge (r : BillingRateResolution) (part : BilledPart) : Option Int :=
  ((r.rates.filter fun rate => rate.enabled && part.billed rate).mapM (r.rateCharge part.units)).bind List.max?

def startsWith (text start : String) : Bool := start.toList.isPrefixOf text.toList

def isTokenRate (output : Bool) (rate : BillingRate) : Bool :=
  rate.rateKind = "token" &&
    if output then rate.usageClass = "output" || rate.usageClass = "reasoning_output"
    else startsWith rate.usageClass "input_" || startsWith rate.usageClass "cache_"

def tokenPart (output : Bool) (tokens : Nat) : BilledPart := ⟨isTokenRate output, fun _ => some tokens⟩

/-- Numbers that fit i64 but are no u64 are negative and refused by the conversion as well. -/
def parseU64Value (value : JsonValue) : Option Nat :=
  value.asU64 <|> do
    let text ← value.asStr
    let n ← digits? (if text.toList.head? = some '+' then text.toList.tail else text.toList)
    if n < 2 ^ 64 then some n else none

def meterPart (usageClass : String) : BilledPart :=
  ⟨fun rate => rate.rateKind = "meter" && rate.usageClass = usageClass,
    fun rate => (rate.matchJson.get "maximum_units").bind parseU64Value⟩

/-- What is added to the input: the output where it is bounded, then each server tool. -/
def addedParts (maxOutputTokens : Option Nat) (serverToolUsageClasses : List String) : List BilledPart :=
  maxOutputTokens.toList.map (tokenPart true) ++ serverToolUsageClasses.map meterPart

def planMaximumChargeNano (r : BillingRateResolution) (maxInputTokens : Nat) (maxOutputTokens : Option Nat)
    (serverToolUsageClasses : List String) (providerMultiplier : Multiplier) : Option Int :=
  if maxInputTokens = 0 ∨ maxOutputTokens = some 0 then none
  else do
    let input ← r.maximumCharge (tokenPart false maxInputTokens)
    let maximum ← (addedParts maxOutputTokens serverToolUsageClasses).foldlM (fun maximum part => do
      checked 127 (maximum + (← r.maximumCharge part))) input
    providerMultiplier.checkedScaleI128 maximum

/-- `charge` is the price of so many units of a rate: price and product fit i128, and the conversion is defined. -/
def Charge (r : BillingRateResolution) (rate : BillingRate) (units : Nat) (charge : Int) : Prop :=
  ∃ price, signed? rate.unitPriceNano.toList = some price ∧ Fits 127 price ∧ Fits 127 (units * price) ∧
    r.chargeInUsd rate (units * price) = some charge

/-- Every enabled rate that bills the part has a charge, and the greatest is `m`. -/
structure IsMaximum (r : BillingRateResolution) (part : BilledPart) (m : Int) : Prop where
  attained : ∃ rate ∈ r.rates, (rate.enabled = true ∧ part.billed rate = true) ∧
    ∃ n, part.units rate = some n ∧ r.Charge rate n m
  above : ∀ rate ∈ r.rates, rate.enabled = true ∧ part.billed rate = true →
    ∃ charge, (∃ n, part.units rate = some n ∧ r.Charge rate n charge) ∧ charge ≤ m

/-- The greatest charges of the parts add up from `start` to `total`, and no sum on the way leaves i128. -/
def AddUp (r : BillingRateResolution) : Int → List BilledPart → Int → Prop
  | start, [], total => start = total
  | start, part :: parts, total => ∃ m, r.IsMaximum part m ∧ Fits 127 (start + m) ∧ r.AddUp (start + m) parts total

variable {r : BillingRateResolution} {part : BilledPart} {start total m : Int}

theorem maximumCharge_iff : r.maximumCharge part = some m ↔ r.IsMaximum part m := by
  have hrate (rate : BillingRate) (charge : Int) : r.rateCharge part.units rate = some charge ↔
      ∃ n, part.units rate = some n ∧ r.Charge rate n charge := by
    simp only [rateCharge, Option.bind_eq_bind, Option.bind_eq_some_iff, checked_eq_some, Charge, Fits]
    refine exists_congr fun n => and_congr_right fun _ => ⟨?_, ?_⟩
    · rintro ⟨_, ⟨price, hprice, rfl, hfits⟩, _, ⟨rfl, hproduct⟩, h⟩
      exact ⟨price, hprice, hfits, hproduct, h⟩
    · rintro ⟨price, hprice, hfits, hproduct, h⟩
      exact ⟨price, ⟨price, hprice, rfl, hfits⟩, _, ⟨rfl, hproduct⟩, h⟩
  simp only [maximumCharge, maximum_mapM_iff, List.mem_filter, Bool.and_eq_true, and_imp, hrate]
  exact ⟨fun h => ⟨by simpa only [and_assoc] using h.1, fun rate hmem hon => h.2 rate hmem hon.1 hon.2⟩,
    fun h => ⟨by simpa only [and_assoc] using h.attained, fun rate hmem hon hbilled => h.above rate hmem ⟨hon, hbilled⟩⟩⟩

theorem IsMaximum.fits (h : r.IsMaximum part m) : Fits 127 m := by
  obtain ⟨rate, -, -, n, -, price, -, -, hproduct, hcharge⟩ := h.attained
  unfold chargeInUsd at hcharge
  split at hcharge
  · exact r.fits hcharge
  · exact Option.some.inj hcharge ▸ hproduct

theorem addUp_iff {parts : List BilledPart} : r.AddUp start parts total ↔
    parts.foldlM (fun maximum part => do checked 127 (maximum + (← r.maximumCharge part))) start = some total := by
  induction parts generalizing start with
  | nil => simp [AddUp]
  | cons part parts ih =>
    simp only [AddUp, List.foldlM_cons, Option.bind_eq_bind, Option.bind_eq_some_iff, maximumCharge_iff, checked_eq_some, ih]
    constructor
    · rintro ⟨m, hm, hfits, h⟩
      exact ⟨_, ⟨m, hm, rfl, hfits⟩, h⟩
    · rintro ⟨_, ⟨m, hm, rfl, hfits⟩, h⟩
      exact ⟨m, hm, hfits, h⟩

theorem AddUp.fits {parts : List BilledPart} (hstart : Fits 127 start) (h : r.AddUp start parts total) : Fits 127 total := by
  induction parts generalizing start with
  | nil => exact h ▸ hstart
  | cons part parts ih =>
    obtain ⟨m, -, hfits, h⟩ := h
    exact ih hfits h

end BillingRateResolution

structure ModelMetadata where
  (maxInputTokens maxTokens maxOutputTokens : Option Int)

/-- The registry's answers; a failed read and a missing row are one. -/
structure ModelRegistry where
  getModelByLogicalAndProvider : String → String → Option String
  getModelMetadata : String → Option ModelMetadata

structure PlanAttempt where
  (providerId logicalModel routingConfigRevision : String)
  billablePricingAvailable : Bool
  billingRateResolution : Option BillingRateResolution
  serverToolUsageClasses : List String
  modelMultiplier : Multiplier

def nat? (value : Int) : Option Nat := if 0 ≤ value then some value.toNat else none

namespace PlanAttempt

open BillingRateResolution

variable (registry : ModelRegistry) (request : Option (Option Nat)) (attempt : PlanAttempt)

def metadata : Option ModelMetadata :=
  (registry.getModelByLogicalAndProvider attempt.logicalModel attempt.providerId).bind registry.getModelMetadata

def maxOutput (metadata : ModelMetadata) : Option Nat :=
  request.bind fun maxOutputTokens => maxOutputTokens <|> metadata.maxOutputTokens.bind nat?

/-- What the loop does for one billable attempt: its maximum and its parts of the revision. -/
def bound : Option (Int × List String) := do
  let resolution ← attempt.billingRateResolution
  let metadata ← attempt.metadata registry
  let maxInput ← (metadata.maxInputTokens <|> metadata.maxTokens).bind nat?
  let maximum ← resolution.planMaximumChargeNano maxInput (maxOutput request metadata) attempt.serverToolUsageClasses
    attempt.modelMultiplier
  pure (maximum, ":".intercalate [attempt.providerId, attempt.routingConfigRevision, resolution.pricingProfile,
      resolution.pricingModel] ::
    resolution.rates.map fun rate => ":".intercalate [rate.id, toString rate.updatedAt])

/-- `m` is what the attempt can cost at most by its rates, its model's metadata and the request's bound, where an output
that nothing bounds is not counted. -/
def Costs (m : Int) : Prop :=
  ∃ r metadata, ∃ (maxInput : Nat) (input total : Int), attempt.billingRateResolution = some r ∧
    attempt.metadata registry = some metadata ∧ (metadata.maxInputTokens <|> metadata.maxTokens) = some (maxInput : Int) ∧
    maxInput ≠ 0 ∧ maxOutput request metadata ≠ some 0 ∧ r.IsMaximum (tokenPart false maxInput) input ∧
    r.AddUp input (addedParts (maxOutput request metadata) attempt.serverToolUsageClasses) total ∧
    m = (total * attempt.modelMultiplier.coefficient).tdiv (10 ^ attempt.modelMultiplier.scale) ∧ Fits 127 m

theorem nat?_eq_some {value : Int} {n : Nat} : nat? value = some n ↔ value = n := by
  unfold nat?
  split <;> simp <;> omega

theorem bound_iff {m : Int} : (∃ b, attempt.bound registry request = some b ∧ b.1 = m) ↔ attempt.Costs registry request m := by
  simp only [bound, planMaximumChargeNano, Option.bind_eq_bind, Option.bind_eq_some_iff, Option.pure_def,
    Option.some.injEq, nat?_eq_some, maximumCharge_iff, Option.ite_none_left_eq_some, not_or]
  constructor
  · rintro ⟨_, ⟨r, hr, metadata, hmetadata, n, ⟨_, hn, rfl⟩, m, ⟨hpos, input, hinput, total, htotal, hscaled⟩, rfl⟩, rfl⟩
    have htotal := addUp_iff.2 htotal
    obtain ⟨hlo, hhi⟩ := htotal.fits hinput.fits
    rw [attempt.modelMultiplier.checkedScaleI128_eq hlo hhi, checked_eq_some] at hscaled
    exact ⟨r, metadata, n, input, total, hr, hmetadata, hn, hpos.1, hpos.2, hinput, htotal, hscaled.1.symm,
      hscaled.1 ▸ hscaled.2⟩
  · rintro ⟨r, metadata, n, input, total, hr, hmetadata, hn, hin, hout, hinput, htotal, rfl, hfits⟩
    obtain ⟨hlo, hhi⟩ := htotal.fits hinput.fits
    refine ⟨_, ⟨r, hr, metadata, hmetadata, n, ⟨_, hn, rfl⟩, _,
      ⟨⟨hin, hout⟩, input, hinput, total, addUp_iff.1 htotal, ?_⟩, rfl⟩,
      rfl⟩
    rw [attempt.modelMultiplier.checkedScaleI128_eq hlo hhi, checked_eq_some]
    exact ⟨rfl, hfits⟩

/-- A billable attempt with a positive output-side rate whose output nothing bounds. -/
def Unbounded : Prop :=
  attempt.billablePricingAvailable = true ∧
    (∃ resolution, attempt.billingRateResolution = some resolution ∧ ∃ rate ∈ resolution.rates, rate.enabled = true ∧
      isTokenRate true rate = true ∧ ∃ price, signed? rate.unitPriceNano.toList = some price ∧ 0 < price) ∧
    ∀ metadata, attempt.metadata registry = some metadata → maxOutput request metadata = none

/-- The loop: the greatest maximum so far and the parts of the revision. -/
def bounds : Int × List String → List PlanAttempt → Option (Int × List String)
  | acc, [] => some acc
  | acc, attempt :: rest =>
    (attempt.bound registry request).bind fun b => bounds (max acc.1 b.1, acc.2 ++ b.2) rest

theorem bounds_pos (billable : List PlanAttempt) (acc : Int × List String) :
    (∃ r, bounds registry request acc billable = some r ∧ 0 < r.1) ↔
      (∀ a ∈ billable, ∃ m, a.Costs registry request m) ∧
        (0 < acc.1 ∨ ∃ a ∈ billable, ∃ m, a.Costs registry request m ∧ 0 < m) := by
  induction billable generalizing acc with
  | nil => simp [bounds]
  | cons a rest ih =>
    have hbound (m : Int) := bound_iff registry request a (m := m)
    cases hb : a.bound registry request with
    | none => simp_all [bounds]
    | some b =>
      rw [bounds, hb, Option.bind_some, ih]
      simp only [hb, Option.some.injEq, exists_eq_left'] at hbound
      simp only [lt_max_iff, List.forall_mem_cons, List.exists_mem_cons_iff, ← hbound, exists_eq', exists_eq_left',
        true_and, or_assoc]

end PlanAttempt

def planMaximumForAttempts (sha256 : String → String) (registry : ModelRegistry) (request : Option (Option Nat))
    (attempts : List PlanAttempt) : Option (Int × String) := do
  let billable := attempts.filter (·.billablePricingAvailable)
  let (maximum, revisionParts) ← PlanAttempt.bounds registry request (0, []) billable
  if billable = [] ∨ maximum ≤ 0 then none
  else some (maximum, sha256 ("\n".intercalate (revisionParts.mergeSort (· ≤ ·))))

/-- A request with an unbounded output is refused only where some attempt has no maximum for another reason, or none is
positive. -/
theorem planMaximumForAttempts_none_iff (sha256 : String → String) (registry : ModelRegistry) (limit : Option Nat)
    (attempts : List PlanAttempt) (hunbounded : ∃ a ∈ attempts, a.Unbounded registry (some limit)) :
    planMaximumForAttempts sha256 registry (some limit) attempts = none ↔
      ¬ ((∀ a ∈ attempts, a.billablePricingAvailable = true → ∃ m, a.Costs registry (some limit) m) ∧
        ∃ a ∈ attempts, a.billablePricingAvailable = true ∧ ∃ m, a.Costs registry (some limit) m ∧ 0 < m) := by
  obtain ⟨a, ha, hbillable, -⟩ := hunbounded
  have hne : attempts.filter (·.billablePricingAvailable) ≠ [] :=
    List.ne_nil_of_mem (List.mem_filter.2 ⟨ha, hbillable⟩)
  have hpos := PlanAttempt.bounds_pos registry (some limit) (attempts.filter (·.billablePricingAvailable)) (0, [])
  simp only [List.mem_filter, and_imp, and_assoc, lt_irrefl, false_or] at hpos
  rw [← hpos, planMaximumForAttempts]
  cases PlanAttempt.bounds registry (some limit) (0, []) (attempts.filter (·.billablePricingAvailable)) <;> simp [hne]

def sampleRate (usageClass price : String) : BillingRate :=
  ⟨usageClass, "token", usageClass, price, "USD", .object [], true, 0⟩

def sampleRoute (rates : List BillingRate) : PlanAttempt :=
  ⟨"p", "m", "1", true, some ⟨"default", "m", rates, fun _ => none, nofun⟩, [], .whole 1 (by decide)⟩

def sampleRegistry : ModelRegistry := ⟨fun _ _ => some "m", fun _ => some ⟨some 10, none, none⟩⟩

theorem sampleRoute_unbounded {rates : List BillingRate} (h : sampleRate "output" "5" ∈ rates) :
    (sampleRoute rates).Unbounded sampleRegistry (some none) := by
  refine ⟨rfl, ⟨_, rfl, _, h, rfl, by decide +kernel, 5, by decide +kernel, by decide⟩, ?_⟩
  rintro _ ⟨⟩
  rfl

theorem planMaximumForAttempts_none_sample :
    planMaximumForAttempts id sampleRegistry (some none) [sampleRoute [sampleRate "output" "5"]] = none := by
  refine (planMaximumForAttempts_none_iff _ _ _ _
    ⟨_, List.mem_singleton_self _, sampleRoute_unbounded (List.mem_singleton_self _)⟩).2 fun h => ?_
  obtain ⟨m, r, -, n, input, -, hr, -, -, -, -, ⟨⟨rate, hrate, ⟨-, hbilled⟩, -⟩, -⟩, -⟩ := h.1 _ (List.mem_singleton_self _) rfl
  cases hr
  cases List.mem_singleton.1 hrate
  exact absurd hbilled (show ¬ BillingRateResolution.isTokenRate false (sampleRate "output" "5") = true by decide +kernel)

/-- Ten tokens of input cost ten; an output rate of five is left out of the maximum. -/
theorem unboundedOutput_admitted : ∃ a : PlanAttempt, a.Unbounded sampleRegistry (some none) ∧
    (planMaximumForAttempts id sampleRegistry (some none) [a]).map (·.1) = some 10 :=
  ⟨sampleRoute [sampleRate "output" "5", sampleRate "input_text" "1"], sampleRoute_unbounded List.mem_cons_self,
    by decide +kernel⟩

end Monoize
