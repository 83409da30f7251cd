import Mathlib.Algebra.Order.BigOperators.Group.List
import Mathlib.Data.List.Perm.Subperm
import Monoize.MeteringShipment

namespace Monoize

open Fallible MachineInt PendingDeductions Transition List Option

def subjectAmount (subject : String) (f : String × BalanceDelta) : Int :=
  if deltaSubject f.2 = some subject then amountOf f.2 else 0

def subjectTotal (files : List (String × BalanceDelta)) (subject : String) : Int :=
  (files.map (subjectAmount subject)).sum

def enqueuingFile : MeteringTask → Option (String × BalanceDelta)
  | .enqueuing name d _ => some (name, d)
  | _ => none

def MeteringTask.files : MeteringTask → List (String × BalanceDelta)
  | .posted files => files
  | .answered files => files
  | .releasing rest files => rest ++ files
  | .subtracting files => files
  | .clearing _ files => files
  | _ => []

def MeteringTask.waits : MeteringTask → Bool
  | .posted _ => true
  | _ => false

variable (s : MeteringNode)

def MeteringNode.recorded (f : String × BalanceDelta) : Bool :=
  f.2.deltaId ∈ ledgerKeys s.primary

def MeteringNode.known : List (String × BalanceDelta) :=
  s.counted ++ s.tasks.filterMap enqueuingFile

def MeteringNode.unapplied : List (String × BalanceDelta) :=
  s.enqueued.filter fun f => ! s.recorded f

def Quiescent : Prop := ∀ task ∈ s.tasks, enqueuingFile task = none
  deriving Decidable

def InRange (x : Int) : Prop := -2 ^ 127 ≤ x ∧ x < 2 ^ 127

def CountSafe (d : BalanceDelta) (amount : Int) : Prop :=
  ∀ subject, deltaSubject d = some subject →
    (∀ files, .clearing subject files ∉ s.tasks) ∧ InRange (s.pending.outstanding subject + amount)

def SubtractSafe (f : String × BalanceDelta) : Prop :=
  ∀ subject, deltaSubject f.2 = some subject →
    f ∉ s.settled ∧ ∀ v, s.pending.map subject = some v → InRange (v - amountOf f.2)

def SpoolInRange (spool : DeltaSpool) : Prop :=
  ∀ subject, subjectTotal (loadedFiles spool.files) subject < 2 ^ 127

def MeteringEvent.Safe : MeteringEvent → Prop
  | .count t => ∀ name d amount, s.tasks[t]? = some (.enqueuing name d amount) → CountSafe s d amount
  | .subtract t => ∀ f files, s.tasks[t]? = some (.subtracting (f :: files)) → SubtractSafe s f
  | .restart => SpoolInRange s.spool
  | _ => True

structure MeteringInitial (s : MeteringNode) : Prop where
  positive : ∀ f ∈ loadedFiles s.spool.files, 0 < amountOf f.2
  inRange : SpoolInRange s.spool
  pending : s.pending = s.spool.reconstructPending
  tasks : s.tasks = []
  enqueued : s.enqueued = loadedFiles s.spool.files
  counted : s.counted = loadedFiles s.spool.files
  settled : s.settled = []

def MeteringStep [Sha256] (s s' : MeteringNode) : Prop :=
  ∃ e : MeteringEvent, e.run s = some s'

def SafeMeteringStep [Sha256] (s s' : MeteringNode) : Prop :=
  ∃ e : MeteringEvent, e.run s = some s' ∧ e.Safe s

theorem subjectTotal_append (l l' : List (String × BalanceDelta)) (subject : String) :
    subjectTotal (l ++ l') subject = subjectTotal l subject + subjectTotal l' subject := by
  rw [subjectTotal, map_append, sum_append]
  rfl

theorem subjectTotal_singleton (f : String × BalanceDelta) (subject : String) :
    subjectTotal [f] subject = subjectAmount subject f := by
  simp [subjectTotal]

theorem subjectAmount_nonneg {f : String × BalanceDelta} (h : 0 < amountOf f.2) (subject : String) :
    0 ≤ subjectAmount subject f := by
  unfold subjectAmount
  split
  · exact h.le
  · exact le_rfl

theorem subjectTotal_le {l l' : List (String × BalanceDelta)} (hnodup : l.Nodup) (hsub : l ⊆ l')
    (hpos : ∀ f ∈ l', 0 < amountOf f.2) (subject : String) : subjectTotal l subject ≤ subjectTotal l' subject := by
  obtain ⟨m, hperm, hm⟩ := hnodup.subperm hsub
  calc subjectTotal l subject = subjectTotal m subject := (hperm.symm.map _).sum_eq
    _ ≤ subjectTotal l' subject := by
      apply (hm.map _).sum_le_sum
      intro v hv
      obtain ⟨f, hf, rfl⟩ := mem_map.1 hv
      exact subjectAmount_nonneg (hpos f hf) subject

theorem exists_set_split {α : Type} {l : List α} {t : Nat} {b : α} (h : l[t]? = some b) :
    ∃ l₁ l₂, l = l₁ ++ b :: l₂ ∧ ∀ x, l.set t x = l₁ ++ x :: l₂ := by
  obtain ⟨ht, hb⟩ := List.getElem?_eq_some_iff.1 h
  refine ⟨l.take t, l.drop (t + 1), ?_, fun x => ?_⟩
  · rw [← hb, getElem_cons_drop, take_append_drop]
  · rw [set_eq_take_append_cons_drop, if_pos ht]

section Counter

variable {p : PendingDeductions} {subject : String} {amount : Int}

theorem outstanding_add (h : InRange (p.outstanding subject + amount)) (other : String) :
    (p.add subject amount).outstanding other = p.outstanding other + if subject = other then amount else 0 := by
  rw [add, outstanding_put, getD_some, wrapping_eq_self h.1 h.2]
  split
  · rename_i ho
    rw [ho]
  · rw [Int.add_zero]

theorem outstanding_remove (other : String) :
    (p.remove subject).outstanding other = if subject = other then 0 else p.outstanding other :=
  outstanding_put ..

theorem lower_of_some {v : Int} (hv : p.map subject = some v) (h : InRange (v - amount)) :
    (∀ other, (p.lower subject amount).1.outstanding other =
      p.outstanding other - if subject = other then amount else 0) ∧
    ((p.lower subject amount).2 = true → p.outstanding subject = amount) := by
  have hw : wrapping 127 (v - amount) = v - amount := wrapping_eq_self h.1 h.2
  have hout : p.outstanding subject = v := by rw [outstanding, hv, getD_some]
  simp only [lower, hv, hw, hout, decide_eq_true_eq]
  refine ⟨fun other => ?_, fun hzero => by omega⟩
  rw [outstanding_put]
  split
  · rename_i ho
    rw [← ho, hout, getD_some]
  · rw [Int.sub_zero]

theorem lower_of_none (hv : p.map subject = none) : p.lower subject amount = (p, false) := by
  simp only [lower, hv]

end Counter

section Spool

variable {spool : DeltaSpool} {f : String × BalanceDelta}

theorem loadedFiles_names_nodup (spool : DeltaSpool) : ((loadedFiles spool.files).map Prod.fst).Nodup := by
  apply pairwise_map.2
  apply spool.sorted.filterMap
  intro a a' hlt b hb b' hb'
  obtain ⟨d, -, rfl⟩ := map_eq_some_iff.1 hb
  obtain ⟨d', -, rfl⟩ := map_eq_some_iff.1 hb'
  exact hlt.ne

theorem mem_loadedFiles_publish {name : String} {d : BalanceDelta} :
    f ∈ loadedFiles (spool.publish name d).files ↔ f = (name, d) ∨ f.1 ≠ name ∧ f ∈ loadedFiles spool.files := by
  obtain ⟨n, e⟩ := f
  simp only [mem_loadedFiles, DeltaSpool.publish, mem_append, mem_cons, mem_filter, decide_eq_true_eq,
    SpoolFile.mk.injEq, some.injEq, Prod.mk.injEq, ne_iff_lt_or_gt]
  constructor
  · rintro (⟨hmem, hlt⟩ | heq | ⟨hmem, hlt⟩)
    · exact .inr ⟨.inl hlt, hmem⟩
    · exact .inl heq
    · exact .inr ⟨.inr hlt, hmem⟩
  · rintro (heq | ⟨hlt | hlt, hmem⟩)
    · exact .inr (.inl heq)
    · exact .inl ⟨hmem, hlt⟩
    · exact .inr (.inr ⟨hmem, hlt⟩)

theorem mem_loadedFiles_release {names : List String} :
    f ∈ loadedFiles (spool.release names).files ↔ f ∈ loadedFiles spool.files ∧ f.1 ∉ names := by
  obtain ⟨n, d⟩ := f
  simp only [mem_loadedFiles, DeltaSpool.release, DeltaSpool.keep, mem_filter, decide_eq_true_eq]

theorem mem_loadedFiles_loadBatch {n : Nat} :
    f ∈ loadedFiles (spool.loadBatch n).2.files ↔ f ∈ loadedFiles spool.files := by
  obtain ⟨name, d⟩ := f
  simp [mem_loadedFiles, DeltaSpool.loadBatch, DeltaSpool.keep]

theorem mem_of_mem_loadBatch {n : Nat} (h : f ∈ (spool.loadBatch n).1) : f ∈ loadedFiles spool.files := by
  obtain ⟨name, d⟩ := f
  exact mem_loadedFiles.2 (mem_of_mem_take (mem_loadedFiles.1 h))

end Spool

def amountsTotal (amounts : List (String × Int)) (subject : String) : Int :=
  (amounts.map fun a => if a.1 = subject then a.2 else 0).sum

theorem amountsTotal_cons (a : String × Int) (amounts : List (String × Int)) (subject : String) :
    amountsTotal (a :: amounts) subject = (if a.1 = subject then a.2 else 0) + amountsTotal amounts subject := by
  rw [amountsTotal, map_cons, sum_cons]
  rfl

variable {amounts : List (String × Int)}

theorem amountsTotal_nonneg (h : ∀ a ∈ amounts, 0 < a.2) (subject : String) : 0 ≤ amountsTotal amounts subject := by
  apply sum_nonneg
  intro v hv
  obtain ⟨a, ha, rfl⟩ := mem_map.1 hv
  have hpos := h a ha
  split <;> omega

theorem outstanding_foldl {p : PendingDeductions} (hpos : ∀ a ∈ amounts, 0 < a.2)
    (hlo : ∀ subject, 0 ≤ p.outstanding subject)
    (hhi : ∀ subject, p.outstanding subject + amountsTotal amounts subject < 2 ^ 127) (subject : String) :
    (amounts.foldl (fun p a => p.add a.1 a.2) p).outstanding subject =
      p.outstanding subject + amountsTotal amounts subject := by
  induction amounts generalizing p with
  | nil => simp [amountsTotal]
  | cons a amounts ih =>
    have ha := hpos a (mem_cons_self ..)
    have hrest : ∀ b ∈ amounts, 0 < b.2 := fun b hb => hpos b (mem_cons_of_mem _ hb)
    have hrange : InRange (p.outstanding a.1 + a.2) := by
      have hlo := hlo a.1
      have hhi := hhi a.1
      have htail := amountsTotal_nonneg hrest a.1
      rw [amountsTotal_cons, if_pos rfl] at hhi
      constructor <;> omega
    have hadd := outstanding_add hrange
    rw [foldl_cons, ih hrest, hadd, amountsTotal_cons]
    · omega
    · intro other
      have hlo := hlo other
      rw [hadd]
      split <;> omega
    · intro other
      have hhi := hhi other
      rw [amountsTotal_cons] at hhi
      rw [hadd]
      omega

theorem amountsTotal_reconstruct (files : List (String × BalanceDelta)) (subject : String) :
    amountsTotal (files.filterMap fun f =>
      (deltaSubject f.2).bind fun subject => (trimmed? 127 f.2.amountNanoUsd).map fun amount => (subject, amount))
      subject = subjectTotal files subject := by
  induction files with
  | nil => rfl
  | cons f files ih =>
    rw [filterMap_cons, ← singleton_append, subjectTotal_append, subjectTotal_singleton, ← ih,
      subjectAmount, amountOf]
    cases hs : deltaSubject f.2 with
    | none => simp
    | some s =>
      cases ha : trimmed? 127 f.2.amountNanoUsd with
      | none => simp
      | some amount => simp [amountsTotal_cons]

theorem outstanding_reconstruct {spool : DeltaSpool} (hpos : ∀ f ∈ loadedFiles spool.files, 0 < amountOf f.2)
    (hrange : SpoolInRange spool) (subject : String) :
    spool.reconstructPending.outstanding subject = subjectTotal (loadedFiles spool.files) subject := by
  have htotal := amountsTotal_reconstruct (loadedFiles spool.files)
  have hamounts : ∀ a ∈ spool.reconstructPendingAmounts, 0 < a.2 := by
    intro a ha
    obtain ⟨f, hf, hfa⟩ := mem_filterMap.1 ha
    obtain ⟨s, -, hsa⟩ := bind_eq_some_iff.1 hfa
    obtain ⟨amount, hamount, rfl⟩ := map_eq_some_iff.1 hsa
    have h := hpos f hf
    rwa [amountOf, hamount] at h
  have hzero : ∀ subject, outstanding {} subject = 0 := fun _ => rfl
  rw [DeltaSpool.reconstructPending, outstanding_foldl hamounts, hzero, Int.zero_add]
  · exact htotal subject
  · intro other
    rw [hzero]
  · intro other
    have h := hrange other
    rw [hzero, Int.zero_add]
    exact (htotal other).trans_lt h

end Monoize
