import Mathlib.Data.String.Basic
import Monoize.MeteringOnce

namespace Monoize

open Fallible FirstOccurrence Relational List Nat

variable {files : List SpoolFile} {db db' : Database} {spool' : DeltaSpool}

structure SpoolFile where
  name : String
  delta : Option BalanceDelta
  deriving DecidableEq

structure DeltaSpool where
  files : List SpoolFile
  sorted : files.Pairwise fun a b => a.name < b.name

def DeltaSpool.empty : DeltaSpool := ⟨[], .nil⟩

def DeltaSpool.keep (spool : DeltaSpool) (p : SpoolFile → Bool) : DeltaSpool :=
  ⟨spool.files.filter p, spool.sorted.filter p⟩

def loadedFiles (files : List SpoolFile) : List (String × BalanceDelta) :=
  files.filterMap fun f => f.delta.map fun d => (f.name, d)

def DeltaSpool.loadBatch (spool : DeltaSpool) (maxEntries : Nat) : List (String × BalanceDelta) × DeltaSpool :=
  (loadedFiles (spool.files.take maxEntries),
    spool.keep fun f => f.delta.isSome || f ∉ spool.files.take maxEntries)

def DeltaSpool.release (spool : DeltaSpool) (names : List String) : DeltaSpool :=
  spool.keep fun f => f.name ∉ names

def meteringBatchHardCap : Nat := 2000

def admissionBatchError (error : AdmissionRuntimeError) : String := error.code ++ ": " ++ error.message

def drainFailure (dir : String) (error : AdmissionRuntimeError) : String :=
  "promotion drain failed: " ++ admissionBatchError error ++ "; spool entries preserved at " ++ dir

def applyDrained [Sha256] (dir : String) (db : Database) (deltas : List BalanceDelta) : Except String Database :=
  match applyMeteringBatch db { balanceDeltas := deltas } "" with
  | .ok (_, next) => .ok next
  | .error error => .error (drainFailure dir error)

theorem mem_loadedFiles {name : String} {d : BalanceDelta} : (name, d) ∈ loadedFiles files ↔ ⟨name, some d⟩ ∈ files := by
  simp only [loadedFiles, mem_filterMap, Option.map_eq_some_iff, Prod.mk.injEq]
  constructor
  · rintro ⟨f, hf, _, hd, rfl, rfl⟩
    rw [← hd]
    exact hf
  · intro h
    exact ⟨_, h, d, rfl, rfl, rfl⟩

theorem filter_eq_drop {α : Type} {l : List α} {n : Nat} {p : α → Bool} (htake : ∀ a ∈ l.take n, p a = false)
    (hdrop : ∀ a ∈ l.drop n, p a = true) : l.filter p = l.drop n := by
  have hsplit := take_append_drop n l
  calc l.filter p = (l.take n ++ l.drop n).filter p := by rw [hsplit]
    _ = (l.take n).filter p ++ (l.drop n).filter p := filter_append ..
    _ = [] ++ l.drop n := by
      rw [filter_eq_nil_iff.2 (by simpa using htake), filter_eq_self.2 hdrop]
    _ = l.drop n := nil_append _

theorem loadBatch_release_files (spool : DeltaSpool) (n : Nat) :
    ((spool.loadBatch n).2.release ((spool.loadBatch n).1.map Prod.fst)).files = spool.files.drop n := by
  have hsorted := spool.sorted
  rw [← take_append_drop n spool.files, pairwise_append] at hsorted
  have hcross : ∀ a ∈ spool.files.take n, ∀ b ∈ spool.files.drop n, a.name ≠ b.name := by
    intro a ha b hb he
    exact String.lt_irrefl _ (he ▸ hsorted.2.2 a ha b hb)
  refine (filter_filter ..).trans (filter_eq_drop ?_ ?_)
  · intro f hf
    cases hd : f.delta with
    | none => simp [hf]
    | some d =>
      have hfile : ⟨f.name, some d⟩ ∈ spool.files.take n := by
        rw [← hd]
        exact hf
      have hmem : f.name ∈ (spool.loadBatch n).1.map Prod.fst :=
        mem_map.2 ⟨(f.name, d), mem_loadedFiles.2 hfile, rfl⟩
      simp [hmem]
  · intro f hf
    have hname : f.name ∉ (spool.loadBatch n).1.map Prod.fst := by
      intro hmem
      obtain ⟨⟨name, d⟩, hload, rfl⟩ := mem_map.1 hmem
      exact hcross _ (mem_loadedFiles.1 hload) f hf rfl
    have hfile : f ∉ spool.files.take n := fun hmem => hcross f hmem f hf rfl
    simp [hname, hfile]

theorem length_loadedFiles_le (files : List SpoolFile) : (loadedFiles files).length ≤ files.length :=
  length_filterMap_le ..

theorem meteringBatchHardCap_pos : 0 < meteringBatchHardCap := by decide

def drainDeltaSpoolToLocalDb [Sha256] (dir : String) (db : Database) (spool : DeltaSpool) :
    Except String (Database × DeltaSpool) :=
  let loaded := spool.loadBatch meteringBatchHardCap
  if loaded.1 = [] then .ok (db, loaded.2)
  else
    match applyDrained dir db (loaded.1.map Prod.snd) with
    | .error message => .error message
    | .ok next =>
      let left := loaded.2.release (loaded.1.map Prod.fst)
      if _hfull : loaded.1.length < meteringBatchHardCap then .ok (next, left)
      else drainDeltaSpoolToLocalDb dir next left
termination_by spool.files.length
decreasing_by
  have hle : (spool.loadBatch meteringBatchHardCap).1.length ≤ (spool.files.take meteringBatchHardCap).length :=
    length_loadedFiles_le _
  rw [List.length_take] at hle
  have hcap : ¬ (spool.loadBatch meteringBatchHardCap).1.length < meteringBatchHardCap := _hfull
  have hpos := meteringBatchHardCap_pos
  rw [loadBatch_release_files, List.length_drop]
  omega

def CorruptLast (files : List SpoolFile) : Prop :=
  ∀ i j f g, files[i]? = some f → f.delta = none → files[j]? = some g → g.delta ≠ none →
    j / meteringBatchHardCap ≤ i / meteringBatchHardCap

def HasDelta (files : List SpoolFile) : Prop := ∃ f ∈ files, f.delta ≠ none

theorem length_loadedFiles_lt_iff : (loadedFiles files).length < files.length ↔ ∃ f ∈ files, f.delta = none := by
  rw [loadedFiles, length_filterMap_lt_length_iff_exists]
  simp

theorem corruptLast_of_corrupt_take {f : SpoolFile} (hf : f ∈ files.take meteringBatchHardCap) (hd : f.delta = none) :
    CorruptLast files ↔ ¬ HasDelta (files.drop meteringBatchHardCap) := by
  obtain ⟨i, hi⟩ := getElem?_of_mem hf
  have hlt : i < meteringBatchHardCap := by
    have := (List.getElem?_eq_some_iff.1 hi).1
    rw [length_take] at this
    omega
  rw [getElem?_take_of_lt hlt] at hi
  constructor
  · rintro hlast ⟨g, hg, hgood⟩
    obtain ⟨j, hj⟩ := getElem?_of_mem hg
    rw [getElem?_drop] at hj
    have hle := hlast i (meteringBatchHardCap + j) f g hi hd hj hgood
    rw [div_eq_of_lt hlt, add_div_left _ meteringBatchHardCap_pos] at hle
    exact not_succ_le_zero _ hle
  · intro hnone k j f' g _ _ hg hgood
    have hjlt : j < meteringBatchHardCap := by
      by_contra hge
      apply hnone
      refine ⟨g, mem_of_getElem? (i := j - meteringBatchHardCap) ?_, hgood⟩
      rw [getElem?_drop]
      rwa [show meteringBatchHardCap + (j - meteringBatchHardCap) = j by omega]
    rw [div_eq_of_lt hjlt]
    exact zero_le _

theorem corruptLast_drop (hgood : ∀ f ∈ files.take meteringBatchHardCap, f.delta ≠ none) :
    CorruptLast files ↔ CorruptLast (files.drop meteringBatchHardCap) := by
  have hpos := meteringBatchHardCap_pos
  constructor
  · intro h i j f g hf hd hg hgd
    rw [getElem?_drop] at hf hg
    have := h _ _ f g hf hd hg hgd
    rw [add_div_left _ hpos, add_div_left _ hpos] at this
    omega
  · intro h i j f g hf hd hg hgd
    have hi : meteringBatchHardCap ≤ i := by
      by_contra hlt
      apply hgood f _ hd
      apply mem_of_getElem? (i := i)
      rwa [getElem?_take_of_lt (by omega)]
    by_cases hj : j < meteringBatchHardCap
    · rw [div_eq_of_lt hj]
      exact zero_le _
    have hshift : ∀ k, meteringBatchHardCap ≤ k →
        (files.drop meteringBatchHardCap)[k - meteringBatchHardCap]? = files[k]? := by
      intro k hk
      rw [getElem?_drop, show meteringBatchHardCap + (k - meteringBatchHardCap) = k by omega]
    have := h (i - meteringBatchHardCap) (j - meteringBatchHardCap) f g ((hshift i hi).trans hf) hd
      ((hshift j (by omega)).trans hg) hgd
    rw [div_eq_sub_div hpos hi, div_eq_sub_div hpos (by omega : meteringBatchHardCap ≤ j)]
    omega

theorem applyDrained_keys [Sha256] {dir : String} {next : Database} {deltas : List BalanceDelta}
    (h : applyDrained dir db deltas = .ok next) :
    (∀ key ∈ ledgerKeys db, key ∈ ledgerKeys next) ∧ ∀ d ∈ deltas, d.deltaId ∈ ledgerKeys next := by
  unfold applyDrained at h
  split at h
  · rename_i ack hbatch
    cases h
    exact applyMeteringBatch_keys hbatch
  · cases h

structure DrainOutcome (files : List SpoolFile) (db db' : Database) (spool' : DeltaSpool) : Prop where
  keys : ∀ key ∈ ledgerKeys db, key ∈ ledgerKeys db'
  applied : CorruptLast files → ∀ f ∈ files, ∀ d, f.delta = some d → d.deltaId ∈ ledgerKeys db'
  complete : ¬ HasDelta spool'.files ↔ CorruptLast files

theorem corruptLast_of_short (h : (loadedFiles (files.take meteringBatchHardCap)).length < meteringBatchHardCap) :
    ¬ HasDelta (files.drop meteringBatchHardCap) ↔ CorruptLast files := by
  by_cases hlong : meteringBatchHardCap ≤ files.length
  · have hlen : (files.take meteringBatchHardCap).length = meteringBatchHardCap := by
      rw [length_take]
      omega
    obtain ⟨f, hf, hd⟩ := length_loadedFiles_lt_iff.1 (h.trans_le hlen.ge)
    exact (corruptLast_of_corrupt_take hf hd).symm
  · have hnil : files.drop meteringBatchHardCap = [] := drop_eq_nil_of_le (by omega)
    refine iff_of_true (by simp [hnil, HasDelta]) ?_
    intro i j f g _ _ hg _
    have hj := (List.getElem?_eq_some_iff.1 hg).1
    rw [div_eq_of_lt (by omega)]
    exact zero_le _

theorem drainOutcome_of_short (hshort : (loadedFiles (files.take meteringBatchHardCap)).length < meteringBatchHardCap)
    (hfiles : spool'.files = files.drop meteringBatchHardCap) (hkeys : ∀ key ∈ ledgerKeys db, key ∈ ledgerKeys db')
    (htake : ∀ f ∈ files.take meteringBatchHardCap, ∀ d, f.delta = some d → d.deltaId ∈ ledgerKeys db') :
    DrainOutcome files db db' spool' := by
  have hiff := corruptLast_of_short hshort
  refine ⟨hkeys, ?_, ?_⟩
  · intro hlast f hf d hd
    rw [← take_append_drop meteringBatchHardCap files, mem_append] at hf
    rcases hf with hf | hf
    · exact htake f hf d hd
    · exact absurd ⟨f, hf, by simp [hd]⟩ (hiff.2 hlast)
  · rw [hfiles]
    exact hiff

theorem drainOutcome_of_full {next : Database}
    (hfull : ¬ (loadedFiles (files.take meteringBatchHardCap)).length < meteringBatchHardCap)
    (hkeys : ∀ key ∈ ledgerKeys db, key ∈ ledgerKeys next)
    (htake : ∀ f ∈ files.take meteringBatchHardCap, ∀ d, f.delta = some d → d.deltaId ∈ ledgerKeys next)
    (hrest : DrainOutcome (files.drop meteringBatchHardCap) next db' spool') : DrainOutcome files db db' spool' := by
  have hgood : ∀ f ∈ files.take meteringBatchHardCap, f.delta ≠ none := by
    intro f hf hd
    have hlt := length_loadedFiles_lt_iff.2 ⟨f, hf, hd⟩
    rw [length_take] at hlt
    exact hfull (by omega)
  refine ⟨fun key hkey => hrest.keys key (hkeys key hkey), ?_, ?_⟩
  · intro hlast f hf d hd
    rw [← take_append_drop meteringBatchHardCap files, mem_append] at hf
    rcases hf with hf | hf
    · exact hrest.keys _ (htake f hf d hd)
    · exact hrest.applied ((corruptLast_drop hgood).1 hlast) f hf d hd
  · rw [hrest.complete, corruptLast_drop hgood]

theorem drain_outcome [Sha256] {dir : String} {spool : DeltaSpool}
    (h : drainDeltaSpoolToLocalDb dir db spool = .ok (db', spool')) : DrainOutcome spool.files db db' spool' := by
  induction hn : spool.files.length using Nat.strongRecOn generalizing db spool with
  | ind n ih =>
    rw [drainDeltaSpoolToLocalDb] at h
    have hpos := meteringBatchHardCap_pos
    have hleft := loadBatch_release_files spool meteringBatchHardCap
    have hloaded : (spool.loadBatch meteringBatchHardCap).1 = loadedFiles (spool.files.take meteringBatchHardCap) := rfl
    have htaken {f : SpoolFile} {d : BalanceDelta} (hf : f ∈ spool.files.take meteringBatchHardCap)
        (hd : f.delta = some d) : (f.name, d) ∈ (spool.loadBatch meteringBatchHardCap).1 := by
      rw [hloaded, mem_loadedFiles, ← hd]
      exact hf
    simp only at h
    split at h
    · rename_i hempty
      cases h
      rw [hempty] at hleft
      refine drainOutcome_of_short (by rw [← hloaded, hempty]; exact hpos) ?_ (fun _ => id) ?_
      · rw [← hleft, DeltaSpool.release, DeltaSpool.keep]
        simp
      · intro f hf d hd
        have hmem := htaken hf hd
        rw [hempty] at hmem
        simp at hmem
    split at h
    · cases h
    rename_i next hnext
    obtain ⟨hkeys, hids⟩ := applyDrained_keys hnext
    have htake : ∀ f ∈ spool.files.take meteringBatchHardCap, ∀ d, f.delta = some d →
        d.deltaId ∈ ledgerKeys next := by
      intro f hf d hd
      exact hids d (mem_map.2 ⟨(f.name, d), htaken hf hd, rfl⟩)
    split at h
    · rename_i hshort
      cases h
      exact drainOutcome_of_short hshort hleft hkeys htake
    rename_i hfull
    have hlen := length_loadedFiles_le (spool.files.take meteringBatchHardCap)
    rw [length_take, ← hloaded] at hlen
    have hrest := ih _ (by rw [hleft, length_drop]; omega) h rfl
    rw [hleft] at hrest
    exact drainOutcome_of_full hfull hkeys htake hrest

theorem drain_complete_iff [Sha256] (dir : String) (db db' : Database)
    (spool spool' : DeltaSpool) (h : drainDeltaSpoolToLocalDb dir db spool = .ok (db', spool')) :
    ((∀ f ∈ spool.files, ∀ d, f.delta = some d → d.deltaId ∈ ledgerKeys db') ∧
      ∀ f ∈ spool'.files, f.delta = none) ↔ CorruptLast spool.files := by
  obtain ⟨-, happlied, hcomplete⟩ := drain_outcome h
  have hnone : (∀ f ∈ spool'.files, f.delta = none) ↔ ¬ HasDelta spool'.files := by
    simp [HasDelta]
  rw [hnone, hcomplete]
  exact ⟨fun hc => hc.2, fun hlast => ⟨happlied hlast, hlast⟩⟩

def sampleName (i : Nat) : String := String.ofList (List.replicate i 'a')

theorem sampleName_lt {i j : Nat} (h : i < j) : sampleName i < sampleName j := by
  rw [String.lt_iff_toList_lt, sampleName, sampleName, String.toList_ofList, String.toList_ofList]
  induction i generalizing j with
  | zero =>
    obtain ⟨k, rfl⟩ := Nat.exists_eq_add_of_lt h
    exact nil_lt_cons _ _
  | succ i ih =>
    obtain ⟨k, rfl⟩ := Nat.exists_eq_add_of_lt h
    rw [show i + 1 + k + 1 = i + (k + 1) + 1 by omega]
    exact cons_lt_cons_self.2 (ih (Nat.lt_add_of_pos_right (Nat.succ_pos k)))

def sampleBlockedSpool : DeltaSpool where
  files := (List.range meteringBatchHardCap).map (fun i => ⟨sampleName i, none⟩) ++
    [⟨sampleName meteringBatchHardCap, some (sampleDelta "d1" "request_charge" "5")⟩]
  sorted := by
    rw [List.pairwise_append, List.pairwise_map]
    refine ⟨List.pairwise_lt_range.imp fun h => sampleName_lt h, List.pairwise_singleton _ _, ?_⟩
    intro f hf g hg
    obtain ⟨i, hi, rfl⟩ := List.mem_map.1 hf
    rw [List.mem_singleton.1 hg]
    exact sampleName_lt (List.mem_range.1 hi)

open SampleDigests

theorem drain_leaves_delta : ∃ spool',
    drainDeltaSpoolToLocalDb "spool" sampleAccounts sampleBlockedSpool = .ok (sampleAccounts, spool') ∧
    (∃ f ∈ spool'.files, f.delta = some (sampleDelta "d1" "request_charge" "5")) ∧
    "d1" ∉ ledgerKeys sampleAccounts := by
  have htake : sampleBlockedSpool.files.take meteringBatchHardCap =
      (range meteringBatchHardCap).map fun i => ⟨sampleName i, none⟩ := by
    simp [sampleBlockedSpool]
  have hloaded : (sampleBlockedSpool.loadBatch meteringBatchHardCap).1 = [] := by
    rw [DeltaSpool.loadBatch, htake]
    simp [loadedFiles]
  refine ⟨(sampleBlockedSpool.loadBatch meteringBatchHardCap).2, ?_, ?_, by decide⟩
  · rw [drainDeltaSpoolToLocalDb]
    simp only [hloaded, if_true]
  · refine ⟨⟨sampleName meteringBatchHardCap, some (sampleDelta "d1" "request_charge" "5")⟩, ?_, rfl⟩
    apply mem_filter.2
    simp [sampleBlockedSpool]

def sampleMixedSpool : DeltaSpool where
  files := [⟨"a", none⟩, ⟨"b", some (sampleDelta "d1" "request_charge" "5")⟩]
  sorted := by decide

theorem drain_complete_iff_sample : ∃ db' spool',
    drainDeltaSpoolToLocalDb "spool" sampleAccounts sampleMixedSpool = .ok (db', spool') ∧
    CorruptLast sampleMixedSpool.files ∧ "d1" ∈ ledgerKeys db' ∧ ∀ f ∈ spool'.files, f.delta = none := by
  obtain ⟨db', hnext⟩ : ∃ db', applyDrained "spool" sampleAccounts [sampleDelta "d1" "request_charge" "5"] = .ok db' :=
    exists_eq_ok (by decide +kernel)
  have hloaded : (sampleMixedSpool.loadBatch meteringBatchHardCap).1 = [("b", sampleDelta "d1" "request_charge" "5")] :=
    rfl
  have hrun : drainDeltaSpoolToLocalDb "spool" sampleAccounts sampleMixedSpool =
      .ok (db', (sampleMixedSpool.loadBatch meteringBatchHardCap).2.release ["b"]) := by
    rw [drainDeltaSpoolToLocalDb]
    simp only [hloaded, map_cons, map_nil, hnext]
    rfl
  have hlast : CorruptLast sampleMixedSpool.files := by
    intro i j f g _ _ hg _
    have hj := (List.getElem?_eq_some_iff.1 hg).1
    have hlt : j < meteringBatchHardCap := hj.trans (by decide)
    rw [div_eq_of_lt hlt]
    exact zero_le _
  obtain ⟨happlied, hgone⟩ := (drain_complete_iff "spool" sampleAccounts db' sampleMixedSpool _ hrun).2 hlast
  exact ⟨db', _, hrun, hlast, happlied _ (mem_cons_of_mem _ (mem_singleton.2 rfl)) _ rfl, hgone⟩

end Monoize
