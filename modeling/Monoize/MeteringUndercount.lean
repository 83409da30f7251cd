import Monoize.MeteringPending

namespace Monoize

open Fallible MachineInt PendingDeductions Transition List Option MeteringNode

variable {s : MeteringNode} {f : String × BalanceDelta} {t : Nat} {name : String} {d : BalanceDelta} {amount : Int}
  {files : List (String × BalanceDelta)}

structure TaskInv (s : MeteringNode) (task : MeteringTask) : Prop where
  files : ∀ f ∈ task.files, f ∈ s.known
  recorded : task.waits = false → ∀ f ∈ task.files, s.recorded f = true
  amount : ∀ name d amount, task = .enqueuing name d amount → amountOf d = amount
  clearing : ∀ subject files, task = .clearing subject files → s.pending.outstanding subject ≤ 0

theorem taskInv_done (s : MeteringNode) : TaskInv s .done := ⟨nofun, fun _ => nofun, nofun, nofun⟩

structure PendingInv (s : MeteringNode) : Prop where
  names : (s.enqueued.map Prod.fst).Nodup
  positive : ∀ f ∈ s.enqueued, 0 < amountOf f.2
  known_nodup : s.known.Nodup
  known_enqueued : ∀ f ∈ s.known, f ∈ s.enqueued
  spooled : ∀ f ∈ loadedFiles s.spool.files, f ∈ s.known
  durable : ∀ f ∈ s.enqueued, s.recorded f = false → f ∈ loadedFiles s.spool.files
  settled_nodup : s.settled.Nodup
  settled_known : ∀ f ∈ s.settled, f ∈ s.known
  settled_recorded : ∀ f ∈ s.settled, s.recorded f = true
  tasks : ∀ task ∈ s.tasks, TaskInv s task
  covers : ∀ subject, subjectTotal s.counted subject ≤ s.pending.outstanding subject + subjectTotal s.settled subject

theorem pendingInv_start (hnames : (s.enqueued.map Prod.fst).Nodup) (hpos : ∀ f ∈ s.enqueued, 0 < amountOf f.2)
    (hfiles : ∀ f ∈ loadedFiles s.spool.files, f ∈ s.enqueued)
    (hdurable : ∀ f ∈ s.enqueued, s.recorded f = false → f ∈ loadedFiles s.spool.files) (hrange : SpoolInRange s.spool) :
    PendingInv s.restart := by
  have hknown : s.restart.known = loadedFiles s.spool.files := by
    simp [known, restart]
  have hnodup : (loadedFiles s.spool.files).Nodup := List.Nodup.of_map _ (loadedFiles_names_nodup s.spool)
  refine ⟨hnames, hpos, hknown ▸ hnodup, hknown ▸ hfiles, hknown ▸ fun f hf => hf, hdurable, nodup_nil, ?_, ?_, ?_, ?_⟩
  · intro f hf
    cases hf
  · intro f hf
    cases hf
  · intro task htask
    cases htask
  · intro subject
    have hout := outstanding_reconstruct (fun f hf => hpos f (hfiles f hf)) hrange subject
    simp only [restart, hout, subjectTotal, map_nil, sum_nil, Int.add_zero, le_refl]

theorem pendingInv_initial (h : MeteringInitial s) : PendingInv s := by
  have hrestart : s.restart = s := by
    rw [restart, ← h.pending, ← h.tasks, ← h.counted, ← h.settled]
  rw [← hrestart]
  have henqueued := h.enqueued
  apply pendingInv_start
  · rw [henqueued]
    exact loadedFiles_names_nodup s.spool
  · rw [henqueued]
    exact h.positive
  · rw [henqueued]
    exact fun f hf => hf
  · rw [henqueued]
    exact fun f hf _ => hf
  · exact h.inRange

theorem amountOf_of_enqueueable (h : enqueueable s name d amount) : amountOf d = amount := by
  obtain ⟨-, htext, hvalid, -⟩ := h
  simp only [validateDelta, ok_iff] at hvalid
  obtain ⟨-, -, -, -, -, hsome, -⟩ := hvalid
  obtain ⟨v, hv⟩ := isSome_iff_exists.1 hsome
  rw [htext, trimmed?_toString] at hv
  rw [amountOf, htext, trimmed?_toString, hv]
  exact (checked_eq_some.1 hv).1.symm

theorem primaryApplies_inv [Sha256] {s' : MeteringNode} {batch : MeteringBatch} {violationId : String}
    (h : primaryApplies s batch violationId = some s') :
    ∃ next, s' = { s with primary := next } ∧ (∀ key ∈ ledgerKeys s.primary, key ∈ ledgerKeys next) ∧
      ∀ d ∈ batch.balanceDeltas, d.deltaId ∈ ledgerKeys next := by
  unfold primaryApplies at h
  split at h
  · rename_i ack next hbatch
    cases h
    exact ⟨next, rfl, applyMeteringBatch_keys hbatch⟩
  · cases h

variable (h : PendingInv s)

include h

theorem PendingInv.eq_of_name {g : String × BalanceDelta} (hf : f ∈ s.enqueued) (hg : g ∈ s.enqueued)
    (hname : f.1 = g.1) : f = g :=
  inj_on_of_nodup_map h.names hf hg hname

theorem PendingInv.undercount (hquiet : Quiescent s) (subject : String) :
    subjectTotal s.unapplied subject ≤ s.pending.outstanding subject := by
  have hnone : s.tasks.filterMap enqueuingFile = [] := filterMap_eq_nil_iff.2 hquiet
  have hcounted : s.known = s.counted := by rw [known, hnone, append_nil]
  have hunapplied : ∀ f ∈ s.unapplied, f ∈ s.enqueued ∧ s.recorded f = false := by
    simp [unapplied]
  have hnodup : (s.unapplied ++ s.settled).Nodup := by
    apply List.Nodup.append ((List.Nodup.of_map _ h.names).filter _) h.settled_nodup
    intro f hf hf'
    have hrec := h.settled_recorded f hf'
    rw [(hunapplied f hf).2] at hrec
    cases hrec
  have hsub : s.unapplied ++ s.settled ⊆ s.counted := by
    intro f hf
    rw [← hcounted]
    rcases mem_append.1 hf with hf | hf
    · exact h.spooled f (h.durable f (hunapplied f hf).1 (hunapplied f hf).2)
    · exact h.settled_known f hf
  have hpos : ∀ f ∈ s.counted, 0 < amountOf f.2 := by
    intro f hf
    rw [← hcounted] at hf
    exact h.positive f (h.known_enqueued f hf)
  have hle := subjectTotal_le hnodup hsub hpos subject
  have hcovers := h.covers subject
  rw [subjectTotal_append] at hle
  omega

theorem PendingInv.advance {task task' : MeteringTask} (ht : s.tasks[t]? = some task)
    (hold : enqueuingFile task = none) (hnew : enqueuingFile task' = none) (hinv : TaskInv s task') :
    PendingInv (s.setTask t task') := by
  obtain ⟨l₁, l₂, hl, hset⟩ := exists_set_split ht
  have hknown : (s.setTask t task').known = s.known := by
    simp only [known, setTask, hset]
    simp only [hl, filterMap_append, filterMap_cons, hold, hnew]
  refine ⟨h.names, h.positive, hknown ▸ h.known_nodup, hknown ▸ h.known_enqueued, hknown ▸ h.spooled, h.durable,
    h.settled_nodup, hknown ▸ h.settled_known, h.settled_recorded, fun other hother => ?_, h.covers⟩
  have hcases : other ∈ s.tasks ∨ other = task' := mem_or_eq_of_mem_set hother
  have hsame : TaskInv s other := by
    rcases hcases with hmem | rfl
    · exact h.tasks other hmem
    · exact hinv
  exact ⟨hknown ▸ hsame.files, hsame.recorded, hsame.amount, hsame.clearing⟩

theorem PendingInv.record {next : Database}
    (hkeys : ∀ key ∈ ledgerKeys s.primary, key ∈ ledgerKeys next) : PendingInv { s with primary := next } := by
  have hrecorded : ∀ f, s.recorded f = true → ({ s with primary := next } : MeteringNode).recorded f = true := by
    intro f hf
    exact decide_eq_true (hkeys _ (of_decide_eq_true hf))
  have hunrecorded : ∀ f, ({ s with primary := next } : MeteringNode).recorded f = false → s.recorded f = false := by
    intro f hf
    by_contra hne
    rw [hrecorded f (Bool.eq_true_of_not_eq_false hne)] at hf
    cases hf
  refine ⟨h.names, h.positive, h.known_nodup, h.known_enqueued, h.spooled, ?_, h.settled_nodup, h.settled_known, ?_, ?_,
    h.covers⟩
  · intro f hf hrec
    exact h.durable f hf (hunrecorded f hrec)
  · intro f hf
    exact hrecorded f (h.settled_recorded f hf)
  · intro task htask
    have hinv := h.tasks task htask
    exact ⟨hinv.files, fun hw f hf => hrecorded f (hinv.recorded hw f hf), hinv.amount, hinv.clearing⟩

theorem PendingInv.withSpool {spool : DeltaSpool} (hsub : ∀ f ∈ loadedFiles spool.files, f ∈ loadedFiles s.spool.files)
    (hkeep : ∀ f ∈ loadedFiles s.spool.files, s.recorded f = false → f ∈ loadedFiles spool.files) :
    PendingInv { s with spool := spool } := by
  refine ⟨h.names, h.positive, h.known_nodup, h.known_enqueued, ?_, ?_, h.settled_nodup, h.settled_known,
    h.settled_recorded, ?_, h.covers⟩
  · intro f hf
    exact h.spooled f (hsub f hf)
  · intro f hf hrec
    exact hkeep f (h.durable f hf hrec) hrec
  · intro task htask
    have hinv := h.tasks task htask
    exact ⟨hinv.files, hinv.recorded, hinv.amount, hinv.clearing⟩

theorem PendingInv.publish (hnew : enqueueable s name d amount) : PendingInv (s.publish name d amount) := by
  have hamount := amountOf_of_enqueueable hnew
  obtain ⟨hpos, -, -, hname⟩ := hnew
  have hfresh : ∀ f ∈ s.enqueued, f.1 ≠ name := by
    intro f hf heq
    exact hname (mem_map.2 ⟨f, hf, heq⟩)
  have hknown : (s.publish name d amount).known = s.known ++ [(name, d)] := by
    simp only [MeteringNode.known, MeteringNode.publish, filterMap_append, append_assoc]
    rfl
  have hmono : ∀ f ∈ s.known, f ∈ (s.publish name d amount).known := by
    intro f hf
    rw [hknown]
    exact mem_append_left _ hf
  refine ⟨?_, ?_, ?_, ?_, ?_, ?_, h.settled_nodup, fun f hf => hmono f (h.settled_known f hf), h.settled_recorded, ?_,
    h.covers⟩
  · simp only [MeteringNode.publish, map_append]
    exact h.names.append (nodup_singleton _) (by simpa using hname)
  · intro f hf
    rcases mem_append.1 hf with hf | hf
    · exact h.positive f hf
    · rw [mem_singleton.1 hf, hamount]
      exact hpos
  · rw [hknown]
    apply h.known_nodup.append (nodup_singleton _)
    intro f hf hf'
    rw [mem_singleton.1 hf'] at hf
    exact hfresh _ (h.known_enqueued _ hf) rfl
  · intro f hf
    rw [hknown] at hf
    rcases mem_append.1 hf with hf | hf
    · exact mem_append_left _ (h.known_enqueued f hf)
    · exact mem_append_right _ hf
  · intro f hf
    rcases mem_loadedFiles_publish.1 hf with rfl | ⟨-, hf⟩
    · rw [hknown]
      exact mem_append_right _ (mem_singleton.2 rfl)
    · exact hmono f (h.spooled f hf)
  · intro f hf hrec
    apply mem_loadedFiles_publish.2
    rcases mem_append.1 hf with hf | hf
    · exact .inr ⟨hfresh f hf, h.durable f hf hrec⟩
    · exact .inl (mem_singleton.1 hf)
  · intro task htask
    rcases mem_append.1 htask with hold | hnewTask
    · have hinv := h.tasks task hold
      exact ⟨fun f hf => hmono f (hinv.files f hf), hinv.recorded, hinv.amount, hinv.clearing⟩
    rw [mem_singleton.1 hnewTask]
    refine ⟨nofun, fun _ => nofun, ?_, nofun⟩
    intro _ _ _ he
    cases he
    exact hamount

theorem PendingInv.post (maxEntries kept : Nat) : PendingInv (s.post maxEntries kept) := by
  have hspool : PendingInv { s with spool := (s.spool.loadBatch maxEntries).2 } := by
    apply h.withSpool
    · exact fun f hf => mem_loadedFiles_loadBatch.1 hf
    · exact fun f hf _ => mem_loadedFiles_loadBatch.2 hf
  have hknown : (s.post maxEntries kept).known = s.known := by
    simp [MeteringNode.known, MeteringNode.post, enqueuingFile]
  refine ⟨h.names, h.positive, hknown ▸ h.known_nodup, hknown ▸ h.known_enqueued, hknown ▸ hspool.spooled,
    hspool.durable, h.settled_nodup, hknown ▸ h.settled_known, h.settled_recorded, ?_, h.covers⟩
  intro task htask
  rcases mem_append.1 htask with hold | hnew
  · have hinv := h.tasks task hold
    exact ⟨hknown ▸ hinv.files, hinv.recorded, hinv.amount, hinv.clearing⟩
  rw [mem_singleton.1 hnew]
  refine ⟨?_, nofun, nofun, nofun⟩
  intro f hf
  rw [hknown]
  exact h.spooled f (mem_of_mem_loadBatch (mem_of_mem_take hf))

theorem PendingInv.count (ht : s.tasks[t]? = some (.enqueuing name d amount))
    (hsafe : CountSafe s d amount) : PendingInv ((s.count name d amount).setTask t .done) := by
  obtain ⟨l₁, l₂, hl, hset⟩ := exists_set_split ht
  have hamount : amountOf d = amount := (h.tasks _ (mem_of_getElem? ht)).amount name d amount rfl
  have hknown : ((s.count name d amount).setTask t .done).known.Perm s.known := by
    simp only [MeteringNode.known, MeteringNode.count, setTask, hset]
    simp only [hl, filterMap_append, append_assoc, singleton_append]
    exact perm_middle.symm.append_left _
  have hout : ∀ subject, (s.count name d amount).pending.outstanding subject =
      s.pending.outstanding subject + subjectAmount subject (name, d) := by
    intro subject
    unfold MeteringNode.count subjectAmount
    cases hd : deltaSubject d with
    | none => simp
    | some owner =>
      have hrange := (hsafe owner hd).2
      simp only [hamount, some.injEq]
      exact outstanding_add hrange subject
  refine ⟨h.names, h.positive, hknown.nodup_iff.2 h.known_nodup, fun f hf => h.known_enqueued f (hknown.mem_iff.1 hf),
    fun f hf => hknown.mem_iff.2 (h.spooled f hf), h.durable, h.settled_nodup,
    fun f hf => hknown.mem_iff.2 (h.settled_known f hf), h.settled_recorded, ?_, ?_⟩
  · intro task htask
    rcases mem_or_eq_of_mem_set htask with hmem | rfl
    · have hinv := h.tasks task hmem
      refine ⟨fun f hf => hknown.mem_iff.2 (hinv.files f hf), hinv.recorded, hinv.amount, ?_⟩
      intro subject files he
      have hle := hinv.clearing subject files he
      have hne : deltaSubject d ≠ some subject := by
        intro hd
        exact (hsafe subject hd).1 files (he ▸ hmem)
      have hsame := hout subject
      rw [subjectAmount, if_neg hne, Int.add_zero] at hsame
      exact hsame.trans_le hle
    · exact taskInv_done _
  · intro subject
    have hcovers := h.covers subject
    have hsum : subjectTotal (s.counted ++ [(name, d)]) subject ≤
        (s.count name d amount).pending.outstanding subject + subjectTotal s.settled subject := by
      rw [subjectTotal_append, subjectTotal_singleton, hout]
      omega
    exact hsum

theorem PendingInv.settle {pending : PendingDeductions} {task : MeteringTask}
    (ht : s.tasks[t]? = some (.subtracting (f :: files))) (hf : f ∉ s.settled)
    (hfall : ∀ subject, s.pending.outstanding subject ≤ pending.outstanding subject + subjectAmount subject f)
    (hrise : ∀ subject, pending.outstanding subject ≤ s.pending.outstanding subject)
    (htask : task = .subtracting files ∨ ∃ subject, task = .clearing subject files ∧ pending.outstanding subject ≤ 0) :
    PendingInv { s with
      pending := pending
      tasks := s.tasks.set t task
      settled := s.settled ++ [f] } := by
  have hinv := h.tasks _ (mem_of_getElem? ht)
  have hrest : ∀ g ∈ files, g ∈ s.known := fun g hg => hinv.files g (mem_cons_of_mem _ hg)
  have hrecorded : ∀ g ∈ files, s.recorded g = true := fun g hg => hinv.recorded rfl g (mem_cons_of_mem _ hg)
  have hfmem : f ∈ f :: files := mem_cons_self ..
  have hnext : TaskInv { s with pending := pending } task := by
    rcases htask with rfl | ⟨subject, rfl, hzero⟩
    · exact ⟨hrest, fun _ => hrecorded, nofun, nofun⟩
    refine ⟨hrest, fun _ => hrecorded, nofun, ?_⟩
    intro _ _ he
    cases he
    exact hzero
  have hold : PendingInv { s with
      pending := pending
      settled := s.settled ++ [f] } := by
    refine ⟨h.names, h.positive, h.known_nodup, h.known_enqueued, h.spooled, h.durable, ?_, ?_, ?_, ?_, ?_⟩
    · apply h.settled_nodup.append (nodup_singleton _)
      intro g hg hgf
      rw [mem_singleton.1 hgf] at hg
      exact hf hg
    · intro g hg
      rcases mem_append.1 hg with hg | hg
      · exact h.settled_known g hg
      · rw [mem_singleton.1 hg]
        exact hinv.files f hfmem
    · intro g hg
      rcases mem_append.1 hg with hg | hg
      · exact h.settled_recorded g hg
      · rw [mem_singleton.1 hg]
        exact hinv.recorded rfl f hfmem
    · intro other hother
      have hinv := h.tasks other hother
      exact ⟨hinv.files, hinv.recorded, hinv.amount, fun subject fs he => (hrise subject).trans (hinv.clearing subject fs he)⟩
    · intro subject
      have hcovers := h.covers subject
      have hfall := hfall subject
      have hsum : subjectTotal s.counted subject ≤
          pending.outstanding subject + subjectTotal (s.settled ++ [f]) subject := by
        rw [subjectTotal_append, subjectTotal_singleton]
        omega
      exact hsum
  apply hold.advance ht rfl
  · rcases htask with rfl | ⟨subject, rfl, -⟩ <;> rfl
  · exact ⟨hnext.files, hnext.recorded, hnext.amount, hnext.clearing⟩

theorem PendingInv.subtract (ht : s.tasks[t]? = some (.subtracting (f :: files)))
    (hsafe : SubtractSafe s f) : PendingInv (s.subtract t f files) := by
  have hinv := h.tasks _ (mem_of_getElem? ht)
  have hfmem : f ∈ f :: files := mem_cons_self ..
  have hpos : 0 < amountOf f.2 := h.positive f (h.known_enqueued f (hinv.files f hfmem))
  unfold MeteringNode.subtract
  cases hd : deltaSubject f.2 with
  | none =>
    apply h.advance ht rfl rfl
    exact ⟨fun g hg => hinv.files g (mem_cons_of_mem _ hg),
      fun _ g hg => hinv.recorded rfl g (mem_cons_of_mem _ hg), nofun, nofun⟩
  | some subject =>
    obtain ⟨hnew, hrange⟩ := hsafe subject hd
    have hamount : ∀ other, subjectAmount other f = if subject = other then amountOf f.2 else 0 := by
      intro other
      simp only [subjectAmount, hd, some.injEq]
    cases hv : s.pending.map subject with
    | none =>
      simp only [lower_of_none hv]
      apply h.settle ht hnew
      · intro other
        have hnonneg := subjectAmount_nonneg hpos other
        omega
      · exact fun other => le_rfl
      · exact .inl rfl
    | some v =>
      obtain ⟨hout, hzero⟩ := lower_of_some hv (hrange v hv)
      apply h.settle ht hnew
      · intro other
        rw [hout, hamount]
        omega
      · intro other
        rw [hout]
        split <;> omega
      · split
        · rename_i hflag
          refine .inr ⟨subject, rfl, ?_⟩
          rw [hout, if_pos rfl, hzero hflag]
          omega
        · exact .inl rfl

theorem PendingInv.clear {subject : String} (ht : s.tasks[t]? = some (.clearing subject files)) :
    PendingInv { s.setTask t (.subtracting files) with pending := s.pending.remove subject } := by
  have hinv := h.tasks _ (mem_of_getElem? ht)
  have hzero := hinv.clearing subject files rfl
  have hmoved : PendingInv (s.setTask t (.subtracting files)) :=
    h.advance ht rfl rfl ⟨hinv.files, hinv.recorded, nofun, nofun⟩
  refine ⟨h.names, h.positive, hmoved.known_nodup, hmoved.known_enqueued, hmoved.spooled, h.durable, h.settled_nodup,
    hmoved.settled_known, h.settled_recorded, ?_, ?_⟩
  · intro task htask
    have hinv := hmoved.tasks task htask
    refine ⟨hinv.files, hinv.recorded, hinv.amount, ?_⟩
    intro other fs he
    have hle := hinv.clearing other fs he
    rw [outstanding_remove]
    split
    · exact le_rfl
    · exact hle
  · intro other
    have hcovers := hmoved.covers other
    rw [outstanding_remove]
    split
    · rename_i heq
      rw [← heq] at hcovers ⊢
      exact hcovers.trans (Int.add_le_add_right hzero _)
    · exact hcovers

theorem PendingInv.removeFile {rest : List (String × BalanceDelta)}
    (ht : s.tasks[t]? = some (.releasing (f :: rest) files)) (removed : Bool) :
    PendingInv { s.setTask t (.releasing rest files) with
      spool := if removed then s.spool.release [f.1] else s.spool } := by
  have hinv := h.tasks _ (mem_of_getElem? ht)
  have hfmem : f ∈ (f :: rest) ++ files := mem_append_left _ (mem_cons_self ..)
  have hsub : ∀ g ∈ rest ++ files, g ∈ (f :: rest) ++ files := fun g hg => mem_cons_of_mem _ hg
  have hmoved : PendingInv (s.setTask t (.releasing rest files)) :=
    h.advance ht rfl rfl ⟨fun g hg => hinv.files g (hsub g hg), fun _ g hg => hinv.recorded rfl g (hsub g hg), nofun, nofun⟩
  apply hmoved.withSpool
  · intro g hg
    split at hg
    · exact (mem_loadedFiles_release.1 hg).1
    · exact hg
  · intro g hg hrec
    split
    · apply mem_loadedFiles_release.2
      refine ⟨hg, fun hname => ?_⟩
      have hgf : g = f := h.eq_of_name (h.known_enqueued g (h.spooled g hg)) (h.known_enqueued f (hinv.files f hfmem))
        (mem_singleton.1 hname)
      have happlied := hinv.recorded rfl f hfmem
      rw [← hgf] at happlied
      exact absurd (happlied.symm.trans hrec) Bool.noConfusion
    · exact hg

theorem PendingInv.step [Sha256] {s' : MeteringNode} {e : MeteringEvent} (hrun : e.run s = some s')
    (hsafe : e.Safe s) : PendingInv s' := by
  cases e with
  | publish name d amount =>
    simp only [MeteringEvent.run] at hrun
    split at hrun
    · rename_i hnew
      cases hrun
      exact h.publish hnew
    · cases hrun
  | count t =>
    simp only [MeteringEvent.run] at hrun
    split at hrun
    · rename_i name d amount ht
      cases hrun
      exact h.count ht (hsafe name d amount ht)
    · cases hrun
  | post maxEntries kept =>
    cases hrun
    exact h.post maxEntries kept
  | answer t terminals violationId =>
    simp only [MeteringEvent.run] at hrun
    split at hrun
    · rename_i files ht
      obtain ⟨next, rfl, hkeys, hids⟩ := primaryApplies_inv hrun
      have hinv := h.tasks _ (mem_of_getElem? ht)
      apply (h.record hkeys).advance ht rfl rfl
      refine ⟨hinv.files, fun _ f hf => ?_, nofun, nofun⟩
      exact decide_eq_true (hids f.2 (mem_map.2 ⟨f, hf, rfl⟩))
    · cases hrun
  | ingest batch violationId =>
    obtain ⟨next, rfl, hkeys, -⟩ := primaryApplies_inv hrun
    exact h.record hkeys
  | acknowledge t =>
    simp only [MeteringEvent.run] at hrun
    split at hrun
    · rename_i files ht
      cases hrun
      have hinv := h.tasks _ (mem_of_getElem? ht)
      have hmem : ∀ f ∈ files ++ files, f ∈ files := fun f hf => (mem_append.1 hf).elim id id
      apply h.advance ht rfl rfl
      exact ⟨fun f hf => hinv.files f (hmem f hf), fun _ f hf => hinv.recorded rfl f (hmem f hf), nofun, nofun⟩
    · cases hrun
  | fail t =>
    simp only [MeteringEvent.run] at hrun
    split at hrun
    · rename_i files ht
      cases hrun
      exact h.advance ht rfl rfl (taskInv_done s)
    · rename_i files ht
      cases hrun
      exact h.advance ht rfl rfl (taskInv_done s)
    · cases hrun
  | removeFile t removed =>
    simp only [MeteringEvent.run] at hrun
    split at hrun
    · rename_i f rest files ht
      cases hrun
      exact h.removeFile ht removed
    · rename_i files ht
      cases hrun
      have hinv := h.tasks _ (mem_of_getElem? ht)
      exact h.advance ht rfl rfl ⟨hinv.files, hinv.recorded, nofun, nofun⟩
    · cases hrun
  | subtract t =>
    simp only [MeteringEvent.run] at hrun
    split at hrun
    · rename_i f files ht
      cases hrun
      exact h.subtract ht (hsafe f files ht)
    · rename_i ht
      cases hrun
      exact h.advance ht rfl rfl (taskInv_done s)
    · cases hrun
  | clear t =>
    simp only [MeteringEvent.run] at hrun
    split at hrun
    · rename_i subject files ht
      cases hrun
      exact h.clear ht
    · cases hrun
  | restart =>
    cases hrun
    exact pendingInv_start h.names h.positive (fun f hf => h.known_enqueued f (h.spooled f hf)) h.durable hsafe

omit h

theorem pendingInv_reachable [Sha256] (h : Reachable MeteringInitial SafeMeteringStep s) : PendingInv s := by
  apply h.invariant
  · intro s hs
    exact pendingInv_initial hs
  · rintro s t hs ⟨e, hrun, hsafe⟩
    exact hs.step hrun hsafe

theorem pending_never_undercounts [Sha256] (s : MeteringNode)
    (hrun : Reachable MeteringInitial SafeMeteringStep s) (hquiet : Quiescent s) (subject : String) :
    subjectTotal s.unapplied subject ≤ s.pending.outstanding subject :=
  (pendingInv_reachable hrun).undercount hquiet subject

def sampleReplica : MeteringNode where
  spool := .empty
  pending := {}
  tasks := []
  primary := sampleAccounts
  enqueued := []
  counted := []
  settled := []

def sampleDelta1 : BalanceDelta := sampleDelta "d1" "request_charge" "5"

def sampleDelta2 : BalanceDelta := sampleDelta "d2" "request_charge" "7"

theorem sampleReplica_initial : MeteringInitial sampleReplica :=
  ⟨nofun, fun _ => Int.pow_pos (by decide), rfl, rfl, rfl, rfl, rfl⟩

open SampleDigests

theorem pending_never_undercounts_sample : ∃ s, Reachable MeteringInitial SafeMeteringStep s ∧ Quiescent s ∧
    subjectTotal s.unapplied "user" = 5 ∧ 5 ≤ s.pending.outstanding "user" := by
  let published := sampleReplica.publish "a" sampleDelta1 5
  let counted := (published.count "a" sampleDelta1 5).setTask 0 .done
  have hnew : enqueueable sampleReplica "a" sampleDelta1 5 := by decide +kernel
  have hpublish : SafeMeteringStep sampleReplica published :=
    ⟨.publish "a" sampleDelta1 5, by simp only [MeteringEvent.run, if_pos hnew, published], trivial⟩
  have hcount : SafeMeteringStep published counted := by
    refine ⟨.count 0, rfl, ?_⟩
    intro name d amount htask
    cases htask
    intro subject hsubject
    cases hsubject
    exact ⟨fun files hmem => by simp [published, sampleReplica, MeteringNode.publish] at hmem, by decide, by decide⟩
  have hreach : Reachable MeteringInitial SafeMeteringStep counted :=
    ((Reachable.start sampleReplica_initial).next hpublish).next hcount
  have hquiet : Quiescent counted := by decide
  have htotal : subjectTotal counted.unapplied "user" = 5 := by decide +kernel
  have hbound := pending_never_undercounts counted hreach hquiet "user"
  exact ⟨counted, hreach, hquiet, htotal, hbound⟩

def raceEvents : List MeteringEvent :=
  [.publish "a" sampleDelta1 5, .count 0, .post 2000 2000, .answer 1 [] "v", .acknowledge 1, .removeFile 1 true,
    .removeFile 1 true, .subtract 1, .publish "b" sampleDelta2 7, .count 2, .clear 1]

def retryEvents : List MeteringEvent :=
  [.publish "a" sampleDelta1 5, .count 0, .publish "b" sampleDelta2 7, .count 1, .post 2000 1, .answer 2 [] "v",
    .acknowledge 2, .removeFile 2 false, .removeFile 2 true, .subtract 2, .subtract 2, .post 2000 1, .answer 3 [] "v",
    .acknowledge 3, .removeFile 3 true, .removeFile 3 true, .subtract 3, .subtract 3]

def Undercounts (events : List MeteringEvent) : Prop :=
  ∃ s, events.foldlM MeteringEvent.run sampleReplica = some s ∧ Reachable MeteringInitial MeteringStep s ∧
    Quiescent s ∧ s.pending.outstanding "user" < subjectTotal s.unapplied "user"

theorem pending_undercounts : Undercounts raceEvents ∧ Undercounts retryEvents := by
  suffices hboth : ∀ events ∈ [raceEvents, retryEvents], Undercounts events from
    ⟨hboth _ (mem_cons_self ..), hboth _ (mem_cons_of_mem _ (mem_cons_self ..))⟩
  have hruns : ∀ events ∈ [raceEvents, retryEvents],
      (events.foldlM MeteringEvent.run sampleReplica).any fun s =>
        Quiescent s ∧ s.pending.outstanding "user" < subjectTotal s.unapplied "user" := by
    decide +kernel
  intro events hevents
  have hany := hruns events hevents
  cases hs : events.foldlM MeteringEvent.run sampleReplica with
  | none =>
    rw [hs] at hany
    cases hany
  | some s =>
    rw [hs] at hany
    have hreach : Reachable MeteringInitial MeteringStep s :=
      (Reachable.start sampleReplica_initial).foldlM (fun _ e _ he => ⟨e, he⟩) hs
    exact ⟨s, hs, hreach, of_decide_eq_true hany⟩

end Monoize
