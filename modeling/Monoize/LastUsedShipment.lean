import Mathlib.Data.List.Nodup
import Monoize.AdmissionSpool
import Monoize.MeteringShipment

/-! One tick of the replica's shipments, and what becomes of the times at which keys were last used. -/

namespace Monoize

open Fallible Relational List

structure LastUsedBatcher where
  entries : List (String × Instant)
  capacity : Nat
  distinct : (entries.map Prod.fst).Nodup
  bounded : entries.length ≤ capacity
  positive : 0 < capacity

/-- How times are written and read back; the reader takes years of four digits. -/
structure TimeText (Text : Type) where
  write : Instant → Text
  parse : Text → Option Instant
  parse_write : ∀ t, parse (write t) = if seconds (-62167219200) ≤ t ∧ t < seconds 253402300800 then some t else none

def fourDigitYear (t : Instant) : Prop := seconds (-62167219200) ≤ t ∧ t < seconds 253402300800
  deriving Decidable

structure LastUsedPair (Text : Type) where
  apiKeyId : String
  lastUsedAt : Text

namespace LastUsedBatcher

def drainLimit (b : LastUsedBatcher) (max : Nat) : List (String × Instant) × LastUsedBatcher :=
  (b.entries.take max, { b with
    entries := b.entries.drop max
    distinct := b.distinct.sublist ((List.drop_sublist max b.entries).map Prod.fst)
    bounded := le_trans (List.drop_sublist max b.entries).length_le b.bounded })

def newer (apiKeyId : String) (timestamp : Instant) (e : String × Instant) : String × Instant :=
  if e.1 = apiKeyId ∧ e.2 < timestamp then (e.1, timestamp) else e

theorem newer_fst (apiKeyId : String) (timestamp : Instant) (e : String × Instant) :
    (newer apiKeyId timestamp e).1 = e.1 := by
  unfold newer
  split <;> rfl

theorem map_newer (b : LastUsedBatcher) (apiKeyId : String) (timestamp : Instant) :
    (b.entries.map (newer apiKeyId timestamp)).map Prod.fst = b.entries.map Prod.fst := by
  rw [map_map]
  exact map_congr_left fun e _ => newer_fst apiKeyId timestamp e

def evicted (b : LastUsedBatcher) : List (String × Instant) :=
  if b.capacity ≤ b.entries.length then b.entries.tail else b.entries

theorem evicted_sublist (b : LastUsedBatcher) : b.evicted.Sublist b.entries := by
  unfold evicted
  split
  · exact tail_sublist _
  · exact List.Sublist.refl _

theorem evicted_length (b : LastUsedBatcher) : b.evicted.length + 1 ≤ b.capacity := by
  have hbounded := b.bounded
  have hpositive := b.positive
  unfold evicted
  split
  · rw [length_tail]
    omega
  · omega

def recordRetry (b : LastUsedBatcher) (apiKeyId : String) (timestamp : Instant) : LastUsedBatcher :=
  if h : apiKeyId ∈ b.entries.map Prod.fst then
    { b with
      entries := b.entries.map (newer apiKeyId timestamp)
      distinct := by
        rw [map_newer]
        exact b.distinct
      bounded := by
        rw [List.length_map]
        exact b.bounded }
  else
    { b with
      entries := b.evicted ++ [(apiKeyId, timestamp)]
      distinct := by
        have hsub := b.evicted_sublist.map Prod.fst
        rw [List.map_append, List.map_singleton, List.nodup_append]
        refine ⟨b.distinct.sublist hsub, List.nodup_singleton _, fun k hk k' hk' e => ?_⟩
        rw [e, List.mem_singleton.1 hk'] at hk
        exact h (hsub.subset hk)
      bounded := by
        rw [List.length_append, List.length_singleton]
        exact b.evicted_length }

end LastUsedBatcher

variable {Text : Type}

structure ShipExtras (Text : Type) where
  terminals : List TerminalSpoolRecord := []
  lastUsed : List (LastUsedPair Text) := []
  deltas : List (String × BalanceDelta) := []

namespace ShipExtras

def isEmpty (extras : ShipExtras Text) : Bool :=
  extras.terminals.isEmpty && extras.lastUsed.isEmpty && extras.deltas.isEmpty

def room (extras : ShipExtras Text) (logCount hardCap : Nat) : Nat :=
  let remaining := hardCap - logCount
  let remaining := remaining - (extras.terminals.take remaining).length
  remaining - (extras.deltas.take remaining).length

def trimToFit (extras : ShipExtras Text) (logCount hardCap : Nat) : ShipExtras Text × ShipExtras Text :=
  let forTerminals := hardCap - logCount
  let forDeltas := forTerminals - (extras.terminals.take forTerminals).length
  let forLastUsed := extras.room logCount hardCap
  ({ terminals := extras.terminals.take forTerminals
     lastUsed := extras.lastUsed.take forLastUsed
     deltas := extras.deltas.take forDeltas },
   { terminals := extras.terminals.drop forTerminals
     lastUsed := extras.lastUsed.drop forLastUsed
     deltas := extras.deltas.drop forDeltas })

end ShipExtras

inductive PrimaryAnswer
  | transportError
  | status (code : Nat) (body : Option (List PlanTerminalAcknowledgement))

inductive ShipTick
  | idle | success | failure
  deriving DecidableEq

structure ShipState where
  claims : AdmissionSpool
  lastUsed : LastUsedBatcher
  deltaSpool : DeltaSpool
  pending : PendingDeductions := {}

structure ShipInput where
  now : Instant
  publish : Nat → PublishFaults := fun _ => {}
  terminalsUnreadable : Bool := false
  logs : Option Nat
  acknowledge : Nat → AcknowledgeFaults := fun _ => {}
  answer : PrimaryAnswer

structure ShipConfig where
  shipBatchMax : Nat
  replicaId : String
  heartbeatId : Option String

structure ShipReport (Text : Type) where
  tick : ShipTick
  drained : List (String × Instant) := []
  delivered : List (LastUsedPair Text) := []
  state : ShipState

variable (text : TimeText Text) (config : ShipConfig)

def lastUsedPair (e : String × Instant) : LastUsedPair Text := ⟨e.1, text.write e.2⟩

def requeueLastUsed (b : LastUsedBatcher) (pairs : List (LastUsedPair Text)) : LastUsedBatcher :=
  pairs.foldl (fun b pair =>
    match text.parse pair.lastUsedAt with
    | some timestamp => b.recordRetry pair.apiKeyId timestamp
    | none => b) b

def terminalOrder (a b : TerminalSpoolRecord) : Bool :=
  a.input.createdAt < b.input.createdAt || (a.input.createdAt == b.input.createdAt && a.input.tokenId ≤ b.input.tokenId)

def loadPendingTerminals [Sha256] (s : AdmissionSpool) (unreadable : Bool) (limit : Nat) :
    Except AdmissionError (List TerminalSpoolRecord) := do
  require (unreadable = false) .io
  require (∀ r ∈ s.store.terminals.rows, AdmissionSpool.terminalIsReadable r) .spoolCorrupt
  pure ((s.store.terminals.rows.mergeSort terminalOrder).take limit)

def postBatch (logCount : Nat) (extras : ShipExtras Text) (answer : PrimaryAnswer) :
    Option (List PlanTerminalAcknowledgement) :=
  if logCount = 0 ∧ extras.isEmpty ∧ config.heartbeatId = none then some []
  else if (∃ r ∈ extras.terminals, r.input.audience ≠ config.replicaId) ∨
    (∃ id ∈ config.heartbeatId, id ≠ config.replicaId) then none
  else
    match answer with
    | .transportError => none
    | .status code body => if 200 ≤ code ∧ code < 300 then body else none

def unexpectedAck (extras : ShipExtras Text) (acks : List PlanTerminalAcknowledgement) : Bool :=
  acks.any fun ack => !extras.terminals.any fun r => ack.tokenId = r.input.tokenId ∧ ack.canonicalDigest = r.canonicalDigest

def acknowledgeAll [Sha256] (acks : List PlanTerminalAcknowledgement) (unexpected : Bool) (now : Instant)
    (faults : Nat → AcknowledgeFaults) : Nat → List TerminalSpoolRecord → AdmissionSpool → Bool × AdmissionSpool
  | _, [], s => (unexpected, s)
  | i, r :: rest, s =>
    let count := acks.countP fun ack => ack.tokenId = r.input.tokenId ∧ ack.canonicalDigest = r.canonicalDigest
    if unexpected || count ≠ 1 then
      let next := acknowledgeAll acks unexpected now faults (i + 1) rest s
      (true, next.2)
    else
      let result := s.acknowledgeTerminal r.input.tokenId r.canonicalDigest now (faults i)
      let next := acknowledgeAll acks unexpected now faults (i + 1) rest result.2
      (!result.1.isOk || next.1, next.2)

def PendingDeductions.subtract (p : PendingDeductions) (subject : String) (amount : Int) : PendingDeductions :=
  let lowered := p.lower subject amount
  if lowered.2 then lowered.1.remove subject else lowered.1

def releaseExtras [Sha256] (s : ShipState) (input : ShipInput) (extras : ShipExtras Text)
    (acks : List PlanTerminalAcknowledgement) : Bool × ShipState :=
  let acknowledged := acknowledgeAll acks (unexpectedAck extras acks) input.now input.acknowledge 0
    extras.terminals s.claims
  (acknowledged.1, { s with
    claims := acknowledged.2
    deltaSpool := s.deltaSpool.release (extras.deltas.map Prod.fst)
    pending := extras.deltas.foldl (fun p f =>
      match deltaSubject f.2 with
      | some subject => p.subtract subject (amountOf f.2)
      | none => p) s.pending })

/-- Sends what fits; the rest of the times, and all of them after a failure, go back to the map. -/
def sendComposed [Sha256] (s : ShipState) (input : ShipInput) (logCount : Nat) (extras : ShipExtras Text) :
    Option Bool × List (LastUsedPair Text) × ShipState :=
  let fitted := extras.trimToFit logCount meteringBatchHardCap
  let s := { s with lastUsed := requeueLastUsed text s.lastUsed fitted.2.lastUsed }
  match postBatch config logCount fitted.1 input.answer with
  | some acks =>
    let released := releaseExtras s input fitted.1 acks
    (some released.1, fitted.1.lastUsed, released.2)
  | none => (none, [], { s with lastUsed := requeueLastUsed text s.lastUsed fitted.1.lastUsed })

def tickOf : Option Bool → ShipTick
  | some false => .success
  | some true | none => .failure

def gathered (s : ShipState) (terminals : List TerminalSpoolRecord) : ShipExtras Text :=
  ⟨terminals, (s.lastUsed.drainLimit meteringBatchHardCap).1.map (lastUsedPair text),
    (s.deltaSpool.loadBatch config.shipBatchMax).1⟩

def logCount (input : ShipInput) : Nat := min (input.logs.getD 0) config.shipBatchMax

def shipOnce [Sha256] (s : ShipState) (input : ShipInput) : ShipReport Text :=
  let published := s.claims.publishReleasePending input.now input.publish
  let s := { s with claims := published.2 }
  match published.1 with
  | .error _ => { tick := .failure, state := s }
  | .ok _ =>
    let drained := s.lastUsed.drainLimit meteringBatchHardCap
    match loadPendingTerminals s.claims input.terminalsUnreadable config.shipBatchMax with
    | .error _ => { tick := .failure, drained := drained.1, state := { s with lastUsed := drained.2 } }
    | .ok terminals =>
      let extras := gathered text config s terminals
      let s := { s with lastUsed := drained.2, deltaSpool := (s.deltaSpool.loadBatch config.shipBatchMax).2 }
      -- without logs the extras are sent on their own
      if logCount config input = 0 ∧ extras.isEmpty ∧ config.heartbeatId = none then
        { tick := .idle, drained := drained.1, state := s }
      else
        let sent := sendComposed text config s input (logCount config input) extras
        { tick := tickOf sent.1, drained := drained.1, delivered := sent.2.1, state := sent.2.2 }

variable {text config}

theorem LastUsedBatcher.recordRetry_entries {b : LastUsedBatcher} {apiKeyId : String} (timestamp : Instant)
    (hnew : apiKeyId ∉ b.entries.map Prod.fst) (hroom : b.entries.length < b.capacity) :
    (b.recordRetry apiKeyId timestamp).entries = b.entries ++ [(apiKeyId, timestamp)] ∧
      (b.recordRetry apiKeyId timestamp).capacity = b.capacity := by
  rw [recordRetry, dif_neg hnew]
  refine ⟨?_, rfl⟩
  show b.evicted ++ _ = _
  rw [evicted, if_neg (not_le.2 hroom)]

variable (text) in
theorem requeueLastUsed_entries (pairs : List (String × Instant)) :
    ∀ b : LastUsedBatcher, ((b.entries ++ pairs).map Prod.fst).Nodup → b.entries.length + pairs.length ≤ b.capacity →
      (requeueLastUsed text b (pairs.map (lastUsedPair text))).entries =
          b.entries ++ pairs.filter (fun e => fourDigitYear e.2) ∧
        (requeueLastUsed text b (pairs.map (lastUsedPair text))).capacity = b.capacity := by
  induction pairs with
  | nil => exact fun b _ _ => ⟨(append_nil _).symm, rfl⟩
  | cons e pairs ih =>
    intro b hdistinct hroom
    rw [length_cons] at hroom
    have hparse : text.parse (lastUsedPair text e).lastUsedAt = if fourDigitYear e.2 then some e.2 else none :=
      text.parse_write e.2
    have hstep : requeueLastUsed text b ((e :: pairs).map (lastUsedPair text)) =
        requeueLastUsed text (match text.parse (lastUsedPair text e).lastUsedAt with
          | some timestamp => b.recordRetry e.1 timestamp
          | none => b) (pairs.map (lastUsedPair text)) := rfl
    rw [hstep, hparse, filter_cons]
    by_cases hyear : fourDigitYear e.2
    · rw [if_pos hyear, if_pos (decide_eq_true hyear)]
      have hnew : e.1 ∉ b.entries.map Prod.fst := by
        rw [map_append, nodup_append] at hdistinct
        intro hmem
        exact hdistinct.2.2 e.1 hmem e.1 (mem_cons_self) rfl
      obtain ⟨hentries, hcapacity⟩ := LastUsedBatcher.recordRetry_entries e.2 hnew (by omega)
      have happend : (b.recordRetry e.1 e.2).entries ++ pairs = b.entries ++ e :: pairs := by
        rw [hentries, append_assoc]
        rfl
      obtain ⟨hrest, hcapacity'⟩ := ih (b.recordRetry e.1 e.2) (by rw [happend]; exact hdistinct) (by
        rw [hentries, length_append, length_singleton]
        omega)
      refine ⟨?_, hcapacity'.trans hcapacity⟩
      rw [hrest, hentries, append_assoc]
      rfl
    · rw [if_neg hyear, if_neg fun h => hyear (of_decide_eq_true h)]
      refine ih b (hdistinct.sublist (List.Sublist.map _ ?_)) (by omega)
      exact List.Sublist.append_left (sublist_cons_self e pairs) _

def LastUsedKept (text : TimeText Text) (report : ShipReport Text) : Prop :=
  ∀ e ∈ report.drained, lastUsedPair text e ∈ report.delivered ∨ e ∈ report.state.lastUsed.entries

variable (text config)

/-- The terminals can be loaded if there are times to ship, and the times that are put back can be read. -/
def LastUsedSafe [Sha256] (s : ShipState) (input : ShipInput) : Prop :=
  let published := s.claims.publishReleasePending input.now input.publish
  let drained := s.lastUsed.entries.take meteringBatchHardCap
  match published.1 with
  | .error _ => True
  | .ok _ =>
    match loadPendingTerminals published.2 input.terminalsUnreadable config.shipBatchMax with
    | .error _ => drained = []
    | .ok terminals =>
      let extras := gathered text config s terminals
      let room := extras.room (logCount config input) meteringBatchHardCap
      let fitted := (extras.trimToFit (logCount config input) meteringBatchHardCap).1
      (∀ e ∈ drained.drop room, fourDigitYear e.2) ∧
        (postBatch config (logCount config input) fitted input.answer = none →
          ∀ e ∈ drained.take room, fourDigitYear e.2)

variable {text config}

theorem sendComposed_lastUsed [Sha256] {s : ShipState} {input : ShipInput} {logCount : Nat}
    {terminals : List TerminalSpoolRecord}
    {pairs : List (String × Instant)} {deltas : List (String × BalanceDelta)}
    (hdistinct : ((s.lastUsed.entries ++ pairs).map Prod.fst).Nodup)
    (hroom : s.lastUsed.entries.length + pairs.length ≤ s.lastUsed.capacity) :
    let extras : ShipExtras Text := ⟨terminals, pairs.map (lastUsedPair text), deltas⟩
    let room := extras.room logCount meteringBatchHardCap
    let posted := postBatch config logCount (extras.trimToFit logCount meteringBatchHardCap).1 input.answer
    let sent := sendComposed text config s input logCount extras
    sent.2.1 = (if posted = none then [] else (pairs.take room).map (lastUsedPair text)) ∧
      sent.2.2.lastUsed.entries = s.lastUsed.entries ++ (pairs.drop room).filter (fun e => fourDigitYear e.2) ++
        if posted = none then (pairs.take room).filter (fun e => fourDigitYear e.2) else [] := by
  intro extras room posted sent
  have hsplit : pairs.take room ++ pairs.drop room = pairs := take_append_drop room pairs
  have hlengths : (pairs.take room).length + (pairs.drop room).length = pairs.length := by
    rw [← length_append, hsplit]
  obtain ⟨hleft, hcapacity⟩ := requeueLastUsed_entries text (pairs.drop room) s.lastUsed
    (hdistinct.sublist (((List.Sublist.refl _).append (drop_sublist room pairs)).map Prod.fst)) (by omega)
  have hleftover : (extras.trimToFit logCount meteringBatchHardCap).2.lastUsed =
      (pairs.drop room).map (lastUsedPair text) := (map_drop ..).symm
  have hfitted : (extras.trimToFit logCount meteringBatchHardCap).1.lastUsed =
      (pairs.take room).map (lastUsedPair text) := (map_take ..).symm
  have hsent : sent = sendComposed text config s input logCount extras := rfl
  rw [hsent, sendComposed]
  cases hposted : postBatch config logCount (extras.trimToFit logCount meteringBatchHardCap).1 input.answer with
  | some acks =>
    have hsome : posted ≠ none := by
      rw [show posted = some acks from hposted]
      exact Option.some_ne_none acks
    rw [if_neg hsome, if_neg hsome, append_nil]
    refine ⟨hfitted, ?_⟩
    rw [hleftover]
    exact hleft
  | none =>
    have hnone : posted = none := hposted
    rw [if_pos hnone, if_pos hnone]
    refine ⟨rfl, ?_⟩
    rw [hleftover, hfitted]
    have hall : ((s.lastUsed.entries ++ (pairs.drop room ++ pairs.take room)).map Prod.fst).Nodup := by
      have hperm : (s.lastUsed.entries ++ pairs).Perm (s.lastUsed.entries ++ (pairs.drop room ++ pairs.take room)) := by
        apply List.Perm.append_left
        nth_rewrite 1 [← hsplit]
        exact perm_append_comm
      exact (hperm.map Prod.fst).nodup_iff.1 hdistinct
    have hfilter : ((pairs.drop room).filter fun e => fourDigitYear e.2).length ≤ (pairs.drop room).length :=
      length_filter_le ..
    obtain ⟨hboth, -⟩ := requeueLastUsed_entries text (pairs.take room)
      (requeueLastUsed text s.lastUsed ((pairs.drop room).map (lastUsedPair text)))
      (by
        rw [hleft, append_assoc]
        refine hall.sublist (List.Sublist.map _ (List.Sublist.append_left ?_ _))
        exact filter_sublist.append (List.Sublist.refl _))
      (by
        rw [hleft, length_append]
        omega)
    rw [hboth, hleft]

theorem keys_ne_of_nodup {l l' : List (String × Instant)} (h : ((l ++ l').map Prod.fst).Nodup) {e e' : String × Instant}
    (he : e ∈ l) (he' : e' ∈ l') : e.1 ≠ e'.1 := by
  rw [map_append, nodup_append] at h
  exact h.2.2 e.1 (mem_map.2 ⟨e, he, rfl⟩) e'.1 (mem_map.2 ⟨e', he', rfl⟩)

theorem lastUsedPair_mem {l : List (String × Instant)} {e : String × Instant}
    (h : lastUsedPair text e ∈ l.map (lastUsedPair text)) : ∃ e' ∈ l, e'.1 = e.1 := by
  obtain ⟨e', he', heq⟩ := mem_map.1 h
  exact ⟨e', he', congrArg LastUsedPair.apiKeyId heq⟩

theorem kept_iff {rest drained : List (String × Instant)} (hdistinct : ((rest ++ drained).map Prod.fst).Nodup)
    (room : Nat) (failed : Prop) [Decidable failed] :
    (∀ e ∈ drained, lastUsedPair text e ∈ (if failed then [] else (drained.take room).map (lastUsedPair text)) ∨
        e ∈ rest ++ (drained.drop room).filter (fun e => fourDigitYear e.2) ++
          if failed then (drained.take room).filter (fun e => fourDigitYear e.2) else []) ↔
      (∀ e ∈ drained.drop room, fourDigitYear e.2) ∧ (failed → ∀ e ∈ drained.take room, fourDigitYear e.2) := by
  have hparts : ((drained.take room ++ drained.drop room).map Prod.fst).Nodup := by
    rw [take_append_drop]
    rw [map_append, nodup_append] at hdistinct
    exact hdistinct.2.1
  have hmem (e : String × Instant) (he : e ∈ drained) : e ∈ drained.take room ∨ e ∈ drained.drop room := by
    rw [← take_append_drop room drained] at he
    exact mem_append.1 he
  have hrest {e : String × Instant} (he : e ∈ drained) : e ∉ rest := fun h => keys_ne_of_nodup hdistinct h he rfl
  have hyear {e : String × Instant} {l : List (String × Instant)} (h : e ∈ l.filter fun e => fourDigitYear e.2) :
      fourDigitYear e.2 := of_decide_eq_true (mem_filter.1 h).2
  constructor
  · intro h
    refine ⟨fun e he => ?_, fun hfailed e he => ?_⟩
    · have hd : e ∈ drained := mem_of_mem_drop he
      rcases h e hd with hdelivered | hkept
      · split at hdelivered
        · cases hdelivered
        · obtain ⟨e', he', hid⟩ := lastUsedPair_mem hdelivered
          exact absurd hid (keys_ne_of_nodup hparts he' he)
      · rcases mem_append.1 hkept with hkept | hkept
        · exact hyear ((mem_append.1 hkept).resolve_left (hrest hd))
        · split at hkept
          · exact hyear hkept
          · cases hkept
    · have hd : e ∈ drained := mem_of_mem_take he
      rcases h e hd with hdelivered | hkept
      · rw [if_pos hfailed] at hdelivered
        cases hdelivered
      rw [if_pos hfailed] at hkept
      rcases mem_append.1 hkept with hkept | hkept
      · exact hyear ((mem_append.1 hkept).resolve_left (hrest hd))
      · exact hyear hkept
  · rintro ⟨hdrop, htake⟩ e he
    rcases hmem e he with he | he
    · by_cases hfailed : failed
      · rw [if_pos hfailed, if_pos hfailed]
        exact .inr (mem_append_right _ (mem_filter.2 ⟨he, decide_eq_true (htake hfailed e he)⟩))
      · rw [if_neg hfailed]
        exact .inl (mem_map.2 ⟨e, he, rfl⟩)
    · right
      exact mem_append_left _ (mem_append_right _ (mem_filter.2 ⟨he, decide_eq_true (hdrop e he)⟩))

theorem shipOnce_lastUsed_iff [Sha256] (s : ShipState) (input : ShipInput) :
    LastUsedKept text (shipOnce text config s input) ↔ LastUsedSafe text config s input := by
  unfold shipOnce LastUsedSafe
  dsimp only
  cases hpublished : (s.claims.publishReleasePending input.now input.publish).1 with
  | error => exact iff_of_true (forall_mem_nil _) trivial
  | ok =>
    have hall : (s.lastUsed.entries.drop meteringBatchHardCap ++ s.lastUsed.entries.take meteringBatchHardCap).Perm
        s.lastUsed.entries := by
      nth_rewrite 3 [← take_append_drop meteringBatchHardCap s.lastUsed.entries]
      exact perm_append_comm
    have hdistinct : ((s.lastUsed.entries.drop meteringBatchHardCap ++
        s.lastUsed.entries.take meteringBatchHardCap).map Prod.fst).Nodup :=
      (hall.map Prod.fst).nodup_iff.2 s.lastUsed.distinct
    have hroom : (s.lastUsed.entries.drop meteringBatchHardCap).length +
        (s.lastUsed.entries.take meteringBatchHardCap).length ≤ s.lastUsed.capacity := by
      rw [← length_append, hall.length_eq]
      exact s.lastUsed.bounded
    cases hload : loadPendingTerminals (s.claims.publishReleasePending input.now input.publish).2
        input.terminalsUnreadable config.shipBatchMax with
    | error =>
      -- what was drained is dropped
      show (∀ e ∈ s.lastUsed.entries.take meteringBatchHardCap, lastUsedPair text e ∈ [] ∨
        e ∈ s.lastUsed.entries.drop meteringBatchHardCap) ↔ s.lastUsed.entries.take meteringBatchHardCap = []
      constructor
      · intro h
        rw [eq_nil_iff_forall_not_mem]
        intro e he
        rcases h e he with h | h
        · cases h
        · exact keys_ne_of_nodup hdistinct h he rfl
      · intro h
        rw [h]
        exact forall_mem_nil _
    | ok terminals =>
      dsimp only
      split
      · rename_i hidle
        have hnone : s.lastUsed.entries.take meteringBatchHardCap = [] := by
          have hempty := hidle.2.1
          simp only [ShipExtras.isEmpty, Bool.and_eq_true, List.isEmpty_iff] at hempty
          exact List.map_eq_nil_iff.1 hempty.1.2
        have hdrained : (s.lastUsed.drainLimit meteringBatchHardCap).1 = [] := hnone
        rw [hnone]
        refine iff_of_true ?_ ⟨?_, fun _ => ?_⟩
        · rw [hdrained]
          exact forall_mem_nil _
        · rw [drop_nil]
          exact forall_mem_nil _
        · rw [take_nil]
          exact forall_mem_nil _
      · have hsent := @sendComposed_lastUsed Text text config _
          { s with
            claims := (s.claims.publishReleasePending input.now input.publish).2
            lastUsed := (s.lastUsed.drainLimit meteringBatchHardCap).2
            deltaSpool := (s.deltaSpool.loadBatch config.shipBatchMax).2 }
          input (logCount config input) terminals (s.lastUsed.entries.take meteringBatchHardCap)
          (s.deltaSpool.loadBatch config.shipBatchMax).1 hdistinct hroom
        have hkept := @kept_iff Text text _ _ hdistinct
          ((gathered text config s terminals).room (logCount config input) meteringBatchHardCap)
          (postBatch config (logCount config input)
            ((gathered text config s terminals).trimToFit (logCount config input) meteringBatchHardCap).1 input.answer =
              none) inferInstance
        rw [← hkept]
        obtain ⟨hdelivered, hentries⟩ := hsent
        apply forall₂_congr
        intro e _
        exact Iff.of_eq (congrArg₂ Or (congrArg (lastUsedPair text e ∈ ·) hdelivered) (congrArg (e ∈ ·) hentries))

def sampleTimeText : TimeText Instant where
  write t := t
  parse t := if fourDigitYear t then some t else none
  parse_write _ := rfl

def sampleCorruptTerminal : TerminalSpoolRecord := ⟨⟨"t", "r", "q", "a", .release, none, 0⟩, "x"⟩

def sampleShipState : ShipState where
  claims := { maxBytes := 1048576, store := { terminals := .single sampleCorruptTerminal } }
  lastUsed := ⟨[("k", 0)], 10000, by decide, by decide, by decide⟩
  deltaSpool := .empty

def sampleShipInput : ShipInput := { now := 0, logs := some 0, answer := .status 200 (some []) }

open SampleDigests

theorem shipOnce_drops_lastUsed :
    ¬ LastUsedKept sampleTimeText (shipOnce sampleTimeText ⟨500, "a", none⟩ sampleShipState sampleShipInput) := by
  have hreport : (shipOnce sampleTimeText ⟨500, "a", none⟩ sampleShipState sampleShipInput).drained = [("k", 0)] ∧
      (shipOnce sampleTimeText ⟨500, "a", none⟩ sampleShipState sampleShipInput).delivered.length = 0 ∧
      (shipOnce sampleTimeText ⟨500, "a", none⟩ sampleShipState sampleShipInput).state.lastUsed.entries = [] := by
    decide +kernel
  obtain ⟨hdrained, hdelivered, hentries⟩ := hreport
  intro h
  rcases h ("k", 0) (by rw [hdrained]; exact mem_singleton_self _) with h | h
  · rw [eq_nil_of_length_eq_zero hdelivered] at h
    cases h
  · rw [hentries] at h
    cases h

end Monoize
