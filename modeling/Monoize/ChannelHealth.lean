import Monoize.MachineInt

/-! Passive channel health: the bounded failure queue of the circuit breaker against the true sliding window. -/

namespace Monoize

open MachineInt List Option

variable {e : HealthEvent} {t : Int} {entry : ChannelHealthState}

inductive RetryableFailureClass where
  | rateLimited
  | transient
  | persistent
  deriving DecidableEq

structure ChannelHealthState where
  healthy : Bool := true
  lastSuccessAt : Option Int := none
  cooldownUntil : Option Int := none
  probeSuccessCount : Nat := 0
  lastProbeAt : Option Int := none
  passiveFailureTimestamps : List Int := []

/-- The breaker fields of a routing attempt, with the process limit on failure samples. -/
structure PassiveBreaker where
  (passiveFailureCountThreshold passiveWindowSeconds passiveCooldownSeconds : Nat)
  (passiveRateLimitCooldownSeconds sampleMaxEntries : Nat)

def effectivePassiveFailureThreshold (resolvedThreshold limit : Nat) : Nat :=
  min (max resolvedThreshold 1) (max limit 1)

def passiveFailureCutoff (nowTs : Int) (windowSeconds : Nat) : Int :=
  max (nowTs - min windowSeconds (2 ^ 63 - 1)) (-2 ^ 63)

def prunePassiveFailureTimestamps (failureTimestamps : List Int) (nowTs : Int) (windowSeconds : Nat) : List Int :=
  failureTimestamps.dropWhile (· < passiveFailureCutoff nowTs windowSeconds)

def markChannelSuccess (attempt : PassiveBreaker) (entry : ChannelHealthState) (now : Int) : ChannelHealthState :=
  { healthy := true
    cooldownUntil := none
    lastSuccessAt := some now
    probeSuccessCount := 0
    lastProbeAt := none
    passiveFailureTimestamps :=
      prunePassiveFailureTimestamps entry.passiveFailureTimestamps now attempt.passiveWindowSeconds }

namespace PassiveBreaker

variable (attempt : PassiveBreaker)

def failureThreshold : Nat :=
  effectivePassiveFailureThreshold attempt.passiveFailureCountThreshold attempt.sampleMaxEntries

def kept (entry : ChannelHealthState) (now : Int) : List Int :=
  prunePassiveFailureTimestamps entry.passiveFailureTimestamps now attempt.passiveWindowSeconds

end PassiveBreaker

def applyRetryableFailureToChannel (attempt : PassiveBreaker) (entry : ChannelHealthState) (now : Int)
    (failureClass : RetryableFailureClass) : ChannelHealthState :=
  let kept := attempt.kept entry now
  let samples := if kept.length < attempt.failureThreshold then kept ++ [now] else kept
  if failureClass = .persistent ∨ attempt.failureThreshold ≤ samples.length then
    let cooldownSeconds := if failureClass = .rateLimited then attempt.passiveRateLimitCooldownSeconds
      else attempt.passiveCooldownSeconds
    { entry with
      healthy := false
      cooldownUntil := some (wrapping 63 (now + wrapping 63 cooldownSeconds))
      probeSuccessCount := 0
      lastProbeAt := none
      passiveFailureTimestamps := samples }
  else { entry with passiveFailureTimestamps := samples }

inductive HealthEvent where
  | success (now : Int)
  | failure (now : Int) (failureClass : RetryableFailureClass)

namespace HealthEvent

def time : HealthEvent → Int
  | success now => now
  | failure now _ => now

/-- The time of a failure that the window counts. -/
def failureTime? : HealthEvent → Option Int
  | success _ => none
  | failure now failureClass => if failureClass = .persistent then none else some now

def apply (attempt : PassiveBreaker) (entry : ChannelHealthState) : HealthEvent → ChannelHealthState
  | success now => markChannelSuccess attempt entry now
  | failure now failureClass => applyRetryableFailureToChannel attempt entry now failureClass

/-- The event is no failure, or one that counts and finds room in the pruned queue. -/
def Recorded (attempt : PassiveBreaker) (entry : ChannelHealthState) : HealthEvent → Prop
  | success _ => True
  | failure now failureClass =>
    failureClass ≠ .persistent ∧ (attempt.kept entry now).length < attempt.failureThreshold

end HealthEvent

def runHealth (attempt : PassiveBreaker) (events : List HealthEvent) : ChannelHealthState :=
  events.foldl (HealthEvent.apply attempt) {}

def windowFailures (events : List HealthEvent) (start stop : Int) : Nat :=
  (events.filterMap HealthEvent.failureTime?).countP fun t => start ≤ t ∧ t ≤ stop

/-- A clock that never goes back and stays within the range of calendar timestamps. -/
structure Clock (times : List Int) : Prop where
  nondecreasing : times.Pairwise (· ≤ ·)
  inRange : ∀ t ∈ times, -2 ^ 62 ≤ t ∧ t < 2 ^ 62

variable {attempt : PassiveBreaker} {events : List HealthEvent} {now : Int}

theorem dropWhile_eq_filter {times : List Int} (h : times.Pairwise (· ≤ ·)) (start : Int) :
    times.dropWhile (· < start) = times.filter (start ≤ ·) := by
  induction times with
  | nil => rfl
  | cons t times ih =>
    rw [pairwise_cons] at h
    by_cases ht : t < start
    · rw [dropWhile_cons_of_pos (by simpa using ht), filter_cons_of_neg (by simpa using ht), ih h.2]
    rw [dropWhile_cons_of_neg (by simpa using ht), filter_eq_self.2]
    intro s hs
    rcases mem_cons.1 hs with rfl | hs
    · simpa using ht
    · simpa using (not_lt.1 ht).trans (h.1 s hs)

theorem failureTime?_eq_some (h : e.failureTime? = some t) : e.time = t := by
  cases e with
  | success => cases h
  | failure now failureClass =>
    simp only [HealthEvent.failureTime?, ite_none_left_eq_some, some.injEq] at h
    exact h.2

theorem failureTimes_sublist (events : List HealthEvent) :
    (events.filterMap HealthEvent.failureTime?).Sublist (events.map HealthEvent.time) := by
  induction events with
  | nil => exact .refl _
  | cons e events ih =>
    cases h : e.failureTime? with
    | none =>
      rw [filterMap_cons_none h]
      exact ih.cons _
    | some t =>
      rw [filterMap_cons_some h, map_cons, failureTime?_eq_some h]
      exact ih.cons_cons _

theorem Clock.sublist {xs ys : List Int} (h : Clock ys) (hs : xs.Sublist ys) : Clock xs :=
  ⟨h.nondecreasing.sublist hs, fun t ht => h.inRange t (hs.subset ht)⟩

/-- The queue after an event holds the pruned queue and, for a recorded failure, its time. -/
theorem apply_passiveFailureTimestamps (h : e.Recorded attempt entry) :
    (e.apply attempt entry).passiveFailureTimestamps = attempt.kept entry e.time ++ e.failureTime?.toList := by
  cases e with
  | success now => exact (append_nil _).symm
  | failure now failureClass =>
    simp only [HealthEvent.apply, applyRetryableFailureToChannel, HealthEvent.failureTime?, h.1, h.2, if_true, if_false]
    split <;> rfl

theorem passiveFailureCutoff_mono {earlier later : Int} (h : earlier ≤ later) (windowSeconds : Nat) :
    passiveFailureCutoff earlier windowSeconds ≤ passiveFailureCutoff later windowSeconds := by
  unfold passiveFailureCutoff
  omega

theorem passiveFailureCutoff_le_iff (hnow : -2 ^ 62 ≤ now ∧ now < 2 ^ 62) (ht : -2 ^ 62 ≤ t ∧ t < 2 ^ 62)
    (windowSeconds : Nat) : passiveFailureCutoff now windowSeconds ≤ t ↔ now - windowSeconds ≤ t := by
  unfold passiveFailureCutoff
  omega

/-- While every event is recorded, pruning the queue leaves exactly the failures of the window. -/
theorem kept_runHealth (hclock : Clock (events.map HealthEvent.time ++ [now]))
    (hrec : ∀ past e rest, events = past ++ e :: rest → e.Recorded attempt (runHealth attempt past)) :
    attempt.kept (runHealth attempt events) now =
      (events.filterMap HealthEvent.failureTime?).filter (passiveFailureCutoff now attempt.passiveWindowSeconds ≤ ·) := by
  induction events using reverseRecOn generalizing now with
  | nil => rfl
  | append_singleton events e ih =>
    have hpast : Clock (events.map HealthEvent.time ++ [e.time]) := by
      refine hclock.sublist ?_
      rw [map_append]
      exact sublist_append_left _ _
    have hle : e.time ≤ now := (pairwise_append.1 hclock.nondecreasing).2.2 _ (by simp) _ (by simp)
    have hrange := hpast.inRange e.time (by simp)
    have hself := (passiveFailureCutoff_le_iff hrange hrange attempt.passiveWindowSeconds).2 (by omega)
    have hlast : [e].filterMap HealthEvent.failureTime? = e.failureTime?.toList := by
      cases h : e.failureTime? <;> simp [h]
    have hqueue : (runHealth attempt (events ++ [e])).passiveFailureTimestamps =
        ((events ++ [e]).filterMap HealthEvent.failureTime?).filter
          (passiveFailureCutoff e.time attempt.passiveWindowSeconds ≤ ·) := by
      rw [runHealth, foldl_append, filterMap_append, filter_append, hlast]
      refine (apply_passiveFailureTimestamps (hrec _ _ [] rfl)).trans (congrArg₂ _ ?_ (filter_eq_self.2 ?_).symm)
      · exact ih hpast fun past e' rest h => hrec past e' (rest ++ [e]) (by rw [h]; simp)
      · intro t ht
        rw [mem_toList] at ht
        rw [← failureTime?_eq_some ht]
        exact decide_eq_true hself
    have hsorted := hpast.nondecreasing.sublist (failureTimes_sublist (events ++ [e]) |>.trans (by simp))
    rw [PassiveBreaker.kept, prunePassiveFailureTimestamps, hqueue, dropWhile_eq_filter (hsorted.filter _),
      List.filter_filter]
    refine filter_congr fun t _ => ?_
    have hmono := passiveFailureCutoff_mono hle attempt.passiveWindowSeconds
    rw [← Bool.decide_and, decide_eq_decide]
    omega

theorem applyRetryableFailureToChannel_unhealthy {failureClass : RetryableFailureClass}
    (hhealthy : entry.healthy = true) :
    (applyRetryableFailureToChannel attempt entry now failureClass).healthy = false ↔
      failureClass = .persistent ∨ attempt.failureThreshold ≤ (attempt.kept entry now).length + 1 := by
  have hsamples : attempt.failureThreshold ≤ (if (attempt.kept entry now).length < attempt.failureThreshold then
      attempt.kept entry now ++ [now] else attempt.kept entry now).length ↔
      attempt.failureThreshold ≤ (attempt.kept entry now).length + 1 := by
    split
    · rw [length_append, length_singleton]
    · omega
  unfold applyRetryableFailureToChannel
  simp only [hsamples]
  split <;> simp_all

/-- On a clock that never goes back, as long as every earlier failure was recorded, a failure makes a healthy
entry unhealthy exactly when the failures of its window reach the threshold; a persistent one always does. -/
theorem breaker_counts_window (attempt : PassiveBreaker) (events : List HealthEvent) (now : Int)
    (failureClass : RetryableFailureClass) (hclock : Clock (events.map HealthEvent.time ++ [now]))
    (hrec : ∀ past e rest, events = past ++ e :: rest → e.Recorded attempt (runHealth attempt past)) :
    (failureClass ≠ .persistent → (runHealth attempt events).healthy = true →
      ((runHealth attempt (events ++ [.failure now failureClass])).healthy = false ↔
        attempt.failureThreshold ≤
          windowFailures (events ++ [.failure now failureClass]) (now - attempt.passiveWindowSeconds) now)) ∧
      ∀ entry, (applyRetryableFailureToChannel attempt entry now .persistent).healthy = false := by
  refine ⟨fun hclass hhealthy => ?_, fun entry => by simp [applyRetryableFailureToChannel]⟩
  have hrange := hclock.inRange now (by simp)
  have hcount : windowFailures (events ++ [.failure now failureClass]) (now - attempt.passiveWindowSeconds) now =
      (attempt.kept (runHealth attempt events) now).length + 1 := by
    rw [kept_runHealth hclock hrec, ← countP_eq_length_filter, windowFailures, filterMap_append,
      countP_append]
    refine congrArg₂ _ (countP_congr fun t ht => ?_) ?_
    · have htime := (failureTimes_sublist events).subset ht
      have hle := (pairwise_append.1 hclock.nondecreasing).2.2 t htime now (by simp)
      have hcut := passiveFailureCutoff_le_iff hrange (hclock.inRange t (by simp [htime])) attempt.passiveWindowSeconds
      simp [hcut, hle]
    · simp [HealthEvent.failureTime?, hclass]
  rw [hcount, runHealth, foldl_append]
  exact (applyRetryableFailureToChannel_unhealthy hhealthy).trans (or_iff_right hclass)

theorem breaker_counts_window_second :
    (runHealth ⟨2, 10, 60, 15, 1024⟩ [.failure 0 .transient, .failure 5 .rateLimited]).healthy = false := by
  have hrec : ∀ past e rest, [HealthEvent.failure 0 .transient] = past ++ e :: rest →
      e.Recorded ⟨2, 10, 60, 15, 1024⟩ (runHealth ⟨2, 10, 60, 15, 1024⟩ past) := by
    intro past e rest h
    obtain ⟨rfl, h⟩ | ⟨-, h⟩ := append_eq_singleton_iff.1 h.symm
    · obtain ⟨rfl, -⟩ := cons.inj h
      exact ⟨by decide, by decide⟩
    · cases h
  exact ((breaker_counts_window _ [.failure 0 .transient] 5 .rateLimited ⟨by decide, by decide⟩ hrec).1 (by decide)
    rfl).2 (by decide)

/-- The failure at 9 finds the queue full and is forgotten, so the one at 12 does not reach the threshold. -/
theorem full_queue_forgets_failure :
    Clock [0, 1, 9, 10, 12] ∧ (let events := [.failure 0 .transient, .failure 1 .transient, .failure 9 .transient, .success 10]
      (runHealth ⟨2, 10, 60, 15, 1024⟩ events).healthy = true ∧
        (runHealth ⟨2, 10, 60, 15, 1024⟩ (events ++ [.failure 12 .transient])).healthy = true ∧
        PassiveBreaker.failureThreshold ⟨2, 10, 60, 15, 1024⟩ ≤
          windowFailures (events ++ [.failure 12 .transient]) (12 - 10) 12) :=
  ⟨⟨by decide, by decide⟩, by decide, by decide, by decide⟩

end Monoize
