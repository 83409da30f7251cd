import Monoize.MeteringDrain

/-! The replica's side of metering: deltas are spooled, counted as pending and shipped to the primary, each
file or map operation being one step of one of the concurrent tasks. -/

namespace Monoize

open MachineInt

structure PendingDeductions where
  map : String → Option Int := fun _ => none

namespace PendingDeductions

def outstanding (p : PendingDeductions) (subject : String) : Int := (p.map subject).getD 0

def put (p : PendingDeductions) (subject : String) (entry : Option Int) : PendingDeductions :=
  ⟨Function.update p.map subject entry⟩

theorem outstanding_put (p : PendingDeductions) (subject other : String) (entry : Option Int) :
    (p.put subject entry).outstanding other = if subject = other then entry.getD 0 else p.outstanding other := by
  simp only [outstanding, put, Function.update_apply, eq_comm]
  split <;> rfl

def add (p : PendingDeductions) (subject : String) (amount : Int) : PendingDeductions :=
  p.put subject (some (wrapping 127 (p.outstanding subject + amount)))

def lower (p : PendingDeductions) (subject : String) (amount : Int) : PendingDeductions × Bool :=
  match p.map subject with
  | none => (p, false)
  | some v =>
    let next := wrapping 127 (v - amount)
    (p.put subject (some next), next = 0)

def remove (p : PendingDeductions) (subject : String) : PendingDeductions :=
  p.put subject none

end PendingDeductions

def DeltaSpool.publish (spool : DeltaSpool) (name : String) (d : BalanceDelta) : DeltaSpool where
  files := spool.files.filter (·.name < name) ++ ⟨name, some d⟩ :: spool.files.filter (name < ·.name)
  sorted := by
    have hbelow : ∀ f ∈ spool.files.filter (·.name < name), f.name < name := by
      intro f hf
      exact of_decide_eq_true (List.mem_filter.1 hf).2
    have habove : ∀ f ∈ spool.files.filter (name < ·.name), name < f.name := by
      intro f hf
      exact of_decide_eq_true (List.mem_filter.1 hf).2
    refine List.pairwise_append.2 ⟨spool.sorted.filter _, List.pairwise_cons.2 ⟨habove, spool.sorted.filter _⟩, ?_⟩
    intro f hf g hg
    rcases List.mem_cons.1 hg with rfl | hg
    · exact hbelow f hf
    · exact (hbelow f hf).trans (habove g hg)

def DeltaSpool.reconstructPendingAmounts (spool : DeltaSpool) : List (String × Int) :=
  (loadedFiles spool.files).filterMap fun f =>
    (deltaSubject f.2).bind fun subject => (trimmed? 127 f.2.amountNanoUsd).map fun amount => (subject, amount)

def DeltaSpool.reconstructPending (spool : DeltaSpool) : PendingDeductions :=
  spool.reconstructPendingAmounts.foldl (fun p a => p.add a.1 a.2) {}

inductive MeteringTask
  | enqueuing (name : String) (delta : BalanceDelta) (amount : Int)
  | posted (files : List (String × BalanceDelta))
  | answered (files : List (String × BalanceDelta))
  | releasing (rest files : List (String × BalanceDelta))
  | subtracting (files : List (String × BalanceDelta))
  | clearing (subject : String) (files : List (String × BalanceDelta))
  | done
  deriving DecidableEq

/-- The last three fields are history: the files ever published, and those whose amount was added to and
subtracted from the counter since the last start. -/
structure MeteringNode where
  spool : DeltaSpool
  pending : PendingDeductions
  tasks : List MeteringTask
  primary : Database
  (enqueued counted settled : List (String × BalanceDelta))

namespace MeteringNode

def setTask (s : MeteringNode) (t : Nat) (task : MeteringTask) : MeteringNode :=
  { s with tasks := s.tasks.set t task }

/-- `DeltaSpool::enqueue`, under a name that its UUID makes new. -/
def publish (s : MeteringNode) (name : String) (d : BalanceDelta) (amount : Int) : MeteringNode :=
  { s with
    spool := s.spool.publish name d
    tasks := s.tasks ++ [.enqueuing name d amount]
    enqueued := s.enqueued ++ [(name, d)] }

def count (s : MeteringNode) (name : String) (d : BalanceDelta) (amount : Int) : MeteringNode :=
  { s with
    pending := match deltaSubject d with
      | some subject => s.pending.add subject amount
      | none => s.pending
    counted := s.counted ++ [(name, d)] }

/-- `load_batch`, of which `trim_to_fit` keeps the first `kept` deltas. -/
def post (s : MeteringNode) (maxEntries kept : Nat) : MeteringNode :=
  let loaded := s.spool.loadBatch maxEntries
  { s with
    spool := loaded.2
    tasks := s.tasks ++ [.posted (loaded.1.take kept)] }

def subtract (s : MeteringNode) (t : Nat) (f : String × BalanceDelta) (files : List (String × BalanceDelta)) :
    MeteringNode :=
  match deltaSubject f.2 with
  | none => s.setTask t (.subtracting files)
  | some subject =>
    let lowered := s.pending.lower subject (amountOf f.2)
    { s with
      pending := lowered.1
      tasks := s.tasks.set t (if lowered.2 then .clearing subject files else .subtracting files)
      settled := s.settled ++ [f] }

def restart (s : MeteringNode) : MeteringNode :=
  { s with
    pending := s.spool.reconstructPending
    tasks := []
    counted := loadedFiles s.spool.files
    settled := [] }

end MeteringNode

inductive MeteringEvent
  | publish (name : String) (delta : BalanceDelta) (amount : Int)
  | count (t : Nat)
  | post (maxEntries kept : Nat)
  | answer (t : Nat) (terminals : List PlanTerminalWire) (violationId : String)
  /-- The primary applies a batch whose sender does not wait for the answer, such as another replica's. -/
  | ingest (batch : MeteringBatch) (violationId : String)
  | acknowledge (t : Nat)
  | fail (t : Nat)
  | removeFile (t : Nat) (removed : Bool)
  | subtract (t : Nat)
  | clear (t : Nat)
  | restart

def primaryApplies [Sha256] (s : MeteringNode) (batch : MeteringBatch) (violationId : String) : Option MeteringNode :=
  match applyMeteringBatch s.primary batch violationId with
  | .ok (_, next) => some { s with primary := next }
  | .error _ => none

def enqueueable (s : MeteringNode) (name : String) (d : BalanceDelta) (amount : Int) : Prop :=
  0 < amount ∧ d.amountNanoUsd = toString amount ∧ validateDelta d = .ok () ∧ name ∉ s.enqueued.map Prod.fst
  deriving Decidable

def MeteringEvent.run [Sha256] (s : MeteringNode) : MeteringEvent → Option MeteringNode
  | .publish name d amount => if enqueueable s name d amount then some (s.publish name d amount) else none
  | .count t =>
    match s.tasks[t]? with
    | some (.enqueuing name d amount) => some ((s.count name d amount).setTask t .done)
    | _ => none
  | .post maxEntries kept => some (s.post maxEntries kept)
  | .answer t terminals violationId =>
    match s.tasks[t]? with
    | some (.posted files) =>
      primaryApplies (s.setTask t (.answered files))
        { planTerminals := terminals, balanceDeltas := files.map Prod.snd } violationId
    | _ => none
  | .ingest batch violationId => primaryApplies s batch violationId
  | .acknowledge t =>
    match s.tasks[t]? with
    | some (.answered files) => some (s.setTask t (.releasing files files))
    | _ => none
  | .fail t =>
    match s.tasks[t]? with
    | some (.posted _) => some (s.setTask t .done)
    | some (.answered _) => some (s.setTask t .done)
    | _ => none
  | .removeFile t removed =>
    match s.tasks[t]? with
    | some (.releasing (f :: rest) files) =>
      some { s.setTask t (.releasing rest files) with
        spool := if removed then s.spool.release [f.1] else s.spool }
    | some (.releasing [] files) => some (s.setTask t (.subtracting files))
    | _ => none
  | .subtract t =>
    match s.tasks[t]? with
    | some (.subtracting (f :: files)) => some (s.subtract t f files)
    | some (.subtracting []) => some (s.setTask t .done)
    | _ => none
  | .clear t =>
    match s.tasks[t]? with
    | some (.clearing subject files) =>
      some { s.setTask t (.subtracting files) with pending := s.pending.remove subject }
    | _ => none
  | .restart => some s.restart

end Monoize
