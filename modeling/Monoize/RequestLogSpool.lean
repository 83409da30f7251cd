import Mathlib.Data.String.Basic
import Monoize.Fallible
import Monoize.Transition

/-! The request-log spool: how a flush or a shipment takes its batch from the spool directory, and which entries the
repeated calls deliver. The byte counters and the reservations of new entries are left out. -/

namespace Monoize

open Fallible List Transition

variable {Log : Type}

/-- What the file system answers for a path of the directory. -/
inductive LogFile (Log : Type)
  | noMetadata (error : String)
  | notFile
  | unreadable (bytes : Nat) (error : String)
  | undecodable (bytes : Nat) (error : String)
  | entry (bytes : Nat) (log : Log)

/-- The directory is listed in the order in which it is read. -/
structure RequestLogBatcher (Log : Type) where
  (memoryCapacity spoolEntryMaxBytes : Nat)
  listing : List String
  listing_nodup : listing.Nodup
  files : String → LogFile Log
  buffer : List String
  buffer_le : buffer.length ≤ memoryCapacity

abbrev Delivery (Log : Type) : Type := RequestLogBatcher Log × List (String × Log)

/-- The buffered paths that a call takes, those that it leaves, and those that are buffered again on an error. -/
structure BatchPlan where
  (selected rest requeued : List String)
  maxEntries : Nat

def hasJsonExtension (name : String) : Bool := name ≠ ".json" && ".json".toList.isSuffixOf name.toList

def insertPath (path : String) : List String → List String
  | [] => [path]
  | first :: paths =>
    if path = first then first :: paths
    else if path < first then path :: first :: paths
    else first :: insertPath path paths

def addName (maxEntries : Nat) (paths : List String) (name : String) : List String :=
  if paths.length < maxEntries ∧ hasJsonExtension name then insertPath name paths else paths

namespace RequestLogBatcher

variable (s : RequestLogBatcher Log)

def batchPaths (p : BatchPlan) : List String :=
  (s.listing.foldl (addName p.maxEntries) (p.selected.foldr insertPath [])).take p.maxEntries

def checkBytes (path : String) (bytes : Nat) : Except String Unit :=
  require (bytes ≤ s.spoolEntryMaxBytes) ("spool entry " ++ path ++ " exceeds entry quota")

def loadFile (path : String) : Except String (Option (String × Log)) :=
  match s.files path with
  | .noMetadata error => .error ("read " ++ path ++ " metadata: " ++ error)
  | .notFile => pure none
  | .unreadable bytes error => do
    s.checkBytes path bytes
    .error ("read " ++ path ++ ": " ++ error)
  | .undecodable bytes error => do
    s.checkBytes path bytes
    .error ("decode " ++ path ++ ": " ++ error)
  | .entry bytes log => do
    s.checkBytes path bytes
    pure (some (path, log))

/-- A path without a file is passed over. -/
def loadEntry (path : String) : Except String (Option (String × Log)) :=
  if path ∈ s.listing then s.loadFile path else pure none

def loadEntries : List String → Except String (List (String × Log))
  | [] => pure []
  | path :: paths => do
    let entry ← s.loadEntry path
    let entries ← loadEntries paths
    pure (entry.toList ++ entries)

def loadSpoolBatch (p : BatchPlan) : Except String (List (String × Log)) := s.loadEntries (s.batchPaths p)

def withBuffer (buffer : List String) : RequestLogBatcher Log :=
  { s with
    buffer := buffer.take s.memoryCapacity
    buffer_le := length_take_le .. }

/-- The files of a delivered batch are removed. -/
def release (batch : List (String × Log)) : RequestLogBatcher Log :=
  { s with
    listing := s.listing.filter fun name => name ∉ batch.map (·.1)
    listing_nodup := s.listing_nodup.filter _ }

/-- A call with a working database or sink, and the entries that it delivers. -/
def deliver (p : BatchPlan) : Delivery Log :=
  match s.loadSpoolBatch p with
  | .error _ => (s.withBuffer p.requeued, [])
  | .ok entries => ((s.withBuffer p.rest).release entries, entries)

def flushPlan : BatchPlan := ⟨s.buffer, [], [], s.memoryCapacity⟩

def flush : Delivery Log := s.deliver s.flushPlan

def shipPlan (maxEntries : Nat) : BatchPlan := ⟨s.buffer.take maxEntries, s.buffer.drop maxEntries, s.buffer, maxEntries⟩

def shipVia (maxEntries : Nat) : Delivery Log := s.deliver (s.shipPlan maxEntries)

def WellFormed (e : String × Log) : Prop := hasJsonExtension e.1 = true ∧ s.loadEntry e.1 = .ok (some e)

/-- The listed names that a call reads. -/
def names : List String := s.listing.filter hasJsonExtension

def IsBad (name : String) : Prop := ∃ error, s.loadFile name = .error error

/-- A name that is no regular file is passed over, and stays. -/
def isPassedOver (name : String) : Bool := s.loadFile name matches .ok none

/-- How many names the first calls have read when each of them reads up to the limit: a multiple of it, if every name is
a file; a name that is passed over takes its place in each later call again. -/
def windowEnd (limit : Nat) : Nat → Nat
  | 0 => 0
  | k + 1 => windowEnd limit k + (limit - (s.names.take (windowEnd limit k)).countP s.isPassedOver)

/-- For some number of calls, all well-formed entries and no bad file are among the names that they read. -/
def Ahead (limit : Nat) : Prop :=
  ∃ k, (∀ name ∈ s.names.take (s.windowEnd limit k), ¬ s.IsBad name) ∧
    ∀ e, s.WellFormed e → e.1 ∈ s.names.take (s.windowEnd limit k)

def after (call : RequestLogBatcher Log → Delivery Log) (n : Nat) : RequestLogBatcher Log := (fun s => (call s).1)^[n] s

/-- Repeated calls come to deliver every entry that is well formed now. -/
def DeliversAll (call : RequestLogBatcher Log → Delivery Log) : Prop :=
  ∃ n, ∀ e, s.WellFormed e → ∃ i < n, e ∈ (call (s.after call i)).2

variable {s} {e : String × Log} {path : String} {batch : List (String × Log)} {p : BatchPlan}

variable {name : String} {paths : List String} {t : RequestLogBatcher Log}

theorem loadEntry_eq_some : s.loadEntry path = .ok (some e) ↔ path ∈ s.listing ∧ s.loadFile path = .ok (some e) := by
  unfold loadEntry
  split <;> simp_all [pure, Except.pure]

theorem loadFile_path (h : s.loadFile path = .ok (some e)) : e.1 = path := by
  unfold loadFile at h
  split at h
  all_goals simp only [ok_iff, reduceCtorEq, exists_const, and_false] at h
  obtain ⟨_, -, h⟩ := h
  cases h
  rfl

theorem loadEntries_cases (s : RequestLogBatcher Log) (paths : List String) :
    (∃ batch, s.loadEntries paths = .ok batch ∧ (∀ e, e ∈ batch ↔ ∃ path ∈ paths, s.loadEntry path = .ok (some e)) ∧
      ∀ path ∈ paths, ∃ entry, s.loadEntry path = .ok entry) ∨
    (∃ error, s.loadEntries paths = .error error) ∧ ∃ path ∈ paths, ∃ error, s.loadEntry path = .error error := by
  induction paths with
  | nil => exact .inl ⟨[], rfl, by simp, by simp⟩
  | cons path paths ih =>
    cases hentry : s.loadEntry path with
    | error error => exact .inr ⟨⟨error, by rw [loadEntries, hentry]; rfl⟩, path, mem_cons_self, error, hentry⟩
    | ok entry =>
      rcases ih with ⟨batch, hbatch, hmem, hok⟩ | ⟨⟨error, herror⟩, bad, hbad, hfails⟩
      · refine .inl ⟨entry.toList ++ batch, by rw [loadEntries, hentry, hbatch]; rfl, fun e => ?_, ?_⟩
        · simp [hmem, hentry, eq_comm]
        · simpa [hentry] using hok
      · exact .inr ⟨⟨error, by rw [loadEntries, hentry, herror]; rfl⟩, bad, mem_cons_of_mem _ hbad, hfails⟩

theorem withBuffer_self : s.withBuffer s.buffer = s := by
  obtain ⟨_, _, _, _, _, _, hle⟩ := s
  simp [withBuffer, take_of_length_le hle]

/-- What a call leaves well formed: all but the batch that it delivers. -/
theorem wellFormed_deliver : (s.deliver p).1.WellFormed e ↔ s.WellFormed e ∧ e ∉ (s.deliver p).2 := by
  unfold deliver loadSpoolBatch
  rcases s.loadEntries_cases (s.batchPaths p) with ⟨batch, hbatch, hmem, -⟩ | ⟨⟨_, herror⟩, -⟩
  · rw [hbatch]
    change hasJsonExtension e.1 = true ∧ _ ↔ _
    rw [loadEntry_eq_some, WellFormed, loadEntry_eq_some, and_assoc, and_assoc]
    refine and_congr_right
      fun _ => ⟨fun ⟨hlisting, hfile⟩ => ?_, fun ⟨hlisting, hfile, hnot⟩ => ⟨mem_filter.2 ⟨hlisting, ?_⟩, hfile⟩⟩
    · obtain ⟨hold, hnot⟩ := mem_filter.1 hlisting
      exact ⟨hold, hfile, fun hmem => of_decide_eq_true hnot (mem_map_of_mem hmem)⟩
    · refine decide_eq_true fun hin => ?_
      obtain ⟨b, hb, hname⟩ := mem_map.1 hin
      obtain ⟨path, -, hpath⟩ := (hmem b).1 hb
      have hsame := (loadEntry_eq_some.1 hpath).2
      rw [← loadFile_path hsame, hname] at hsame
      cases hfile.symm.trans hsame
      exact hnot hb
  · rw [herror]
    exact (and_iff_left (not_mem_nil)).symm

theorem mem_insertPath :
    name ∈ insertPath path paths ↔ name = path ∨ name ∈ paths := by
  induction paths with
  | nil => simp [insertPath]
  | cons first paths ih =>
    unfold insertPath
    split
    · simp_all
    · split <;> simp [ih, or_left_comm]

theorem length_insertPath (h : path ∉ paths) : (insertPath path paths).length = paths.length + 1 := by
  induction paths with
  | nil => rfl
  | cons first paths ih =>
    rw [mem_cons, not_or] at h
    rw [insertPath, if_neg h.1]
    split
    · rfl
    · rw [length_cons, ih h.2, length_cons]

theorem foldl_addName {limit : Nat} {l : List String} (hl : l.Nodup) (hnew : ∀ name ∈ l, name ∉ paths)
    (hpaths : paths.length ≤ limit) : (l.foldl (addName limit) paths).length ≤ limit ∧
    ∀ name, name ∈ l.foldl (addName limit) paths ↔
      name ∈ paths ∨ name ∈ (l.filter hasJsonExtension).take (limit - paths.length) := by
  induction l generalizing paths with
  | nil => simpa using hpaths
  | cons first l ih =>
    obtain ⟨hfirst, hl⟩ := nodup_cons.1 hl
    rw [forall_mem_cons] at hnew
    rw [foldl_cons, addName]
    split
    · rename_i h
      have hlength := length_insertPath hnew.1
      have hother : ∀ name ∈ l, name ∉ insertPath first paths := fun name hname hin =>
        (mem_insertPath.1 hin).elim (fun heq => hfirst (heq ▸ hname)) (hnew.2 name hname)
      obtain ⟨hle, hmem⟩ := ih hl hother (by omega)
      refine ⟨hle, fun name => ?_⟩
      rw [hmem, mem_insertPath, filter_cons_of_pos h.2, hlength,
        show limit - paths.length = limit - (paths.length + 1) + 1 by omega, take_succ_cons, mem_cons, or_assoc, or_left_comm]
    · rename_i h
      obtain ⟨hle, hmem⟩ := ih hl hnew.2 hpaths
      refine ⟨hle, fun name => ?_⟩
      rw [hmem]
      by_cases hjson : hasJsonExtension first = true
      · rw [show limit - paths.length = 0 by simp only [hjson, and_true] at h; omega, take_zero, take_zero]
      · rw [filter_cons_of_neg hjson]

theorem mem_batchPaths {limit : Nat} :
    name ∈ s.batchPaths ⟨[], [], [], limit⟩ ↔ name ∈ s.names.take limit := by
  obtain ⟨hle, hmem⟩ := @foldl_addName [] limit _ s.listing_nodup (fun _ _ => not_mem_nil) (Nat.zero_le _)
  rw [batchPaths, foldr_nil, take_of_length_le hle, hmem]
  simp [names]

def listed (s : RequestLogBatcher Log) (listing : List String) (h : listing.Nodup) : RequestLogBatcher Log :=
  { s with
    listing := listing
    listing_nodup := h }

/-- With nothing buffered, a call stands still if it meets a bad file, and else takes the logs of its window. -/
theorem deliver_window (hbuffer : s.buffer = []) (limit : Nat) :
    (∃ name ∈ s.names.take limit, s.IsBad name) ∧ (s.deliver ⟨[], [], [], limit⟩).1 = s ∨
    (∀ name ∈ s.names.take limit, ¬ s.IsBad name) ∧ ∃ l h, (s.deliver ⟨[], [], [], limit⟩).1 = s.listed l h ∧
      l.filter hasJsonExtension = (s.names.take limit).filter s.isPassedOver ++ s.names.drop limit := by
  have hself : s.withBuffer [] = s := hbuffer ▸ withBuffer_self
  have hlisted {name : String} (h : name ∈ s.names.take limit) : s.loadEntry name = s.loadFile name :=
    if_pos (mem_filter.1 (mem_of_mem_take h)).1
  rcases s.loadEntries_cases (s.batchPaths ⟨[], [], [], limit⟩) with ⟨batch, hbatch, hmem, hok⟩ |
    ⟨⟨error, herror⟩, name, hname, hbad⟩
  · simp only [mem_batchPaths] at hmem hok
    have htaken {name : String} (h : name ∈ batch.map (·.1)) :
        name ∈ s.names.take limit ∧ ∃ e, s.loadFile name = .ok (some e) := by
      obtain ⟨e, he, rfl⟩ := mem_map.1 h
      obtain ⟨path, hpath, hload⟩ := (hmem e).1 he
      rw [hlisted hpath] at hload
      obtain rfl := loadFile_path hload
      exact ⟨hpath, e, hload⟩
    refine .inr ⟨fun name hname ⟨error, hbad⟩ => ?_, _, s.listing_nodup.filter fun name => name ∉ batch.map (·.1), ?_, ?_⟩
    · obtain ⟨entry, hentry⟩ := hok name hname
      rw [hlisted hname, hbad] at hentry
      cases hentry
    · rw [deliver, loadSpoolBatch, hbatch]
      exact congrArg (release · batch) hself
    · rw [filter_comm]
      change s.names.filter _ = _
      nth_rewrite 1 [← take_append_drop limit s.names]
      rw [filter_append]
      congr 1
      · refine filter_congr fun name hname => ?_
        obtain ⟨entry, hentry⟩ := hok name hname
        rw [hlisted hname] at hentry
        rw [isPassedOver, hentry]
        cases entry with
        | none =>
          refine decide_eq_true fun h => ?_
          obtain ⟨-, e, he⟩ := htaken h
          cases hentry.symm.trans he
        | some e =>
          refine decide_eq_false (not_not.2 (mem_map.2 ⟨e, (hmem e).2 ⟨name, hname, ?_⟩, loadFile_path hentry⟩))
          rw [hlisted hname, hentry]
      · exact filter_eq_self.2 fun name hname => decide_eq_true fun h =>
          disjoint_take_drop (s.listing_nodup.filter _) le_rfl (htaken h).1 hname
  · rw [mem_batchPaths] at hname
    rw [hlisted hname] at hbad
    refine .inl ⟨⟨name, hname, hbad⟩, ?_⟩
    rw [deliver, loadSpoolBatch, herror]
    exact hself

theorem passedOver_le (limit k : Nat) : (s.names.take (s.windowEnd limit k)).countP s.isPassedOver ≤ limit := by
  induction k with
  | zero => simp [windowEnd]
  | succ k ih =>
    rw [windowEnd, take_add, countP_append]
    have hnew : ((s.names.drop (s.windowEnd limit k)).take (limit - (s.names.take (s.windowEnd limit k)).countP
        s.isPassedOver)).countP s.isPassedOver ≤ _ := countP_le_length.trans (length_take_le ..)
    omega

/-- What is left once the first names have been read: those that were passed over, and the others. -/
def LeftAfter (s t : RequestLogBatcher Log) (n : Nat) : Prop :=
  ∃ l h, t = s.listed l h ∧ l.filter hasJsonExtension = (s.names.take n).filter s.isPassedOver ++ s.names.drop n

theorem LeftAfter.deliver {limit k : Nat} (hbuffer : s.buffer = [])
    (hclear : ∀ name ∈ s.names.take (s.windowEnd limit k), ¬ s.IsBad name) (h : s.LeftAfter t (s.windowEnd limit k)) :
    (∃ name ∈ s.names.take (s.windowEnd limit (k + 1)), s.IsBad name) ∧ (t.deliver ⟨[], [], [], limit⟩).1 = t ∨
    (∀ name ∈ s.names.take (s.windowEnd limit (k + 1)), ¬ s.IsBad name) ∧
      s.LeftAfter (t.deliver ⟨[], [], [], limit⟩).1 (s.windowEnd limit (k + 1)) := by
  obtain ⟨l, hl, rfl, hnames⟩ := h
  have hle := s.passedOver_le limit k
  rw [windowEnd, LeftAfter, take_add, ← drop_drop]
  generalize s.windowEnd limit k = n at *
  rw [countP_eq_length_filter] at *
  have hwindow : (s.listed l hl).names.take limit = (s.names.take n).filter s.isPassedOver ++
      (s.names.drop n).take (limit - ((s.names.take n).filter s.isPassedOver).length) := by
    rw [names, listed, hnames, take_append, take_of_length_le hle]
  have hrest : (s.listed l hl).names.drop limit =
      (s.names.drop n).drop (limit - ((s.names.take n).filter s.isPassedOver).length) := by
    rw [names, listed, hnames, drop_append, drop_eq_nil_of_le hle, nil_append]
  rcases deliver_window (s := s.listed l hl) hbuffer limit with ⟨⟨name, hname, hbad⟩, hsame⟩ | ⟨hgood, l', hl', hnext, hleft⟩
  · rw [hwindow] at hname
    refine .inl ⟨⟨name, mem_append.2 ((mem_append.1 hname).imp_left fun h => (mem_filter.1 h).1), hbad⟩, hsame⟩
  rw [hwindow] at hgood
  refine .inr ⟨fun name hname => (mem_append.1 hname).elim (hclear name) fun h => hgood name (mem_append_right _ h),
    l', hl', hnext, ?_⟩
  rw [hleft, hwindow, hrest, filter_append, filter_append]
  exact congrArg (· ++ _ ++ _) (filter_eq_self.2 fun _ h => (mem_filter.1 h).2)

/-- The entries of the names that were read are all, exactly when none is well formed any more. -/
theorem LeftAfter.done_iff {n : Nat} (h : s.LeftAfter t n) :
    (∀ e, ¬ t.WellFormed e) ↔ ∀ e, s.WellFormed e → e.1 ∈ s.names.take n := by
  obtain ⟨l, hl, rfl, hnames⟩ := h
  have hmem (s : RequestLogBatcher Log) (e : String × Log) :
      s.WellFormed e ↔ e.1 ∈ s.names ∧ s.loadFile e.1 = .ok (some e) := by
    rw [WellFormed, loadEntry_eq_some, names, mem_filter, ← and_assoc, and_comm (a := hasJsonExtension _ = true)]
  refine forall_congr' fun e => ?_
  rw [hmem, hmem, show (s.listed l hl).names = _ from hnames, mem_append, mem_filter, not_and, and_imp]
  constructor
  · intro h hname hload
    rw [← take_append_drop n s.names, mem_append] at hname
    exact hname.resolve_right fun hdrop => h (.inr hdrop) hload
  · rintro h (⟨-, hpassed⟩ | hdrop) hload
    · rw [isPassedOver, show s.loadFile e.1 = _ from hload] at hpassed
      cases hpassed
    · exact disjoint_take_drop (s.listing_nodup.filter _) le_rfl (h (mem_of_mem_drop hdrop) hload) hdrop

variable {call : RequestLogBatcher Log → Delivery Log} {plan : RequestLogBatcher Log → BatchPlan} {limit : Nat}

theorem deliversAll_iff_done (hcall : ∀ s, call s = s.deliver (plan s)) :
    s.DeliversAll call ↔ ∃ n, ∀ e, ¬ (s.after call n).WellFormed e := by
  have hleft (n : Nat) (e : String × Log) :
      (s.after call n).WellFormed e ↔ s.WellFormed e ∧ ∀ i < n, e ∉ (call (s.after call i)).2 := by
    induction n with
    | zero => simp [after]
    | succ n ih =>
      rw [after, Function.iterate_succ_apply', hcall, wellFormed_deliver, ← hcall]
      simp only [Nat.lt_succ_iff_lt_or_eq, or_imp, forall_and, forall_eq, ← and_assoc, ← ih]
      rfl
  simp only [DeliversAll, hleft, not_and, not_forall, not_not, exists_prop]

theorem deliversAll_iff_ahead (hcall : ∀ s, call s = s.deliver (plan s)) (hbuffer : s.buffer = [])
    (hplan : ∀ l h, plan (s.listed l h) = ⟨[], [], [], limit⟩) : s.DeliversAll call ↔ s.Ahead limit := by
  have hstart : s.LeftAfter s 0 := ⟨s.listing, s.listing_nodup, rfl, by simp [names]⟩
  have hstep {t : RequestLogBatcher Log} {k : Nat} (hclear : ∀ name ∈ s.names.take (s.windowEnd limit k), ¬ s.IsBad name)
      (h : s.LeftAfter t (s.windowEnd limit k)) := h.deliver hbuffer hclear
  have hcalled {t : RequestLogBatcher Log} {n : Nat} (h : s.LeftAfter t n) : call t = t.deliver ⟨[], [], [], limit⟩ := by
    obtain ⟨l, hl, rfl, -⟩ := h
    rw [hcall, hplan]
  rw [deliversAll_iff_done hcall]
  constructor
  · rintro ⟨n, hn⟩
    -- The calls read window after window until one has a bad file.
    obtain ⟨k, hclear, hk⟩ : ∃ k, (∀ name ∈ s.names.take (s.windowEnd limit k), ¬ s.IsBad name) ∧
        s.LeftAfter (s.after call n) (s.windowEnd limit k) := by
      clear hn
      induction n with
      | zero => exact ⟨0, by simp [windowEnd], hstart⟩
      | succ n ih =>
        obtain ⟨k, hclear, hk⟩ := ih
        rw [after, Function.iterate_succ_apply', ← after, hcalled hk]
        rcases hstep hclear hk with ⟨-, hsame⟩ | ⟨hclear, hk⟩
        · exact ⟨k, hclear, hsame.symm ▸ hk⟩
        · exact ⟨k + 1, hclear, hk⟩
    exact ⟨k, hclear, hk.done_iff.1 hn⟩
  · rintro ⟨k, hclear, hall⟩
    have hmono : Monotone (s.windowEnd limit) := monotone_nat_of_le_succ fun k => Nat.le_add_right ..
    have hk (j : Nat) (hj : j ≤ k) : s.LeftAfter (s.after call j) (s.windowEnd limit j) := by
      induction j with
      | zero => exact hstart
      | succ j ih =>
        have hclear (i : Nat) (hi : i ≤ k) : ∀ name ∈ s.names.take (s.windowEnd limit i), ¬ s.IsBad name := fun name hname =>
          hclear name ((take_subset_take_left _ (hmono hi)) hname)
        rw [after, Function.iterate_succ_apply', ← after, hcalled (ih (by omega))]
        rcases hstep (hclear j (by omega)) (ih (by omega)) with ⟨⟨name, hname, hbad⟩, -⟩ | ⟨-, h⟩
        · exact absurd hbad (hclear (j + 1) hj name hname)
        · exact h
    exact ⟨k, (hk k le_rfl).done_iff.2 hall⟩

def sampleSpool : RequestLogBatcher Unit where
  memoryCapacity := 2
  spoolEntryMaxBytes := 10
  listing := ["a.json", "sub.json", "b.json", "c.json", "d.json"]
  listing_nodup := by decide
  files := fun name => if name = "sub.json" then .notFile else if name = "d.json" then .entry 11 () else .entry 1 ()
  buffer := []
  buffer_le := by decide

def stuckSpool : RequestLogBatcher Unit where
  memoryCapacity := 2
  spoolEntryMaxBytes := 10
  listing := ["a.json", "b.json"]
  listing_nodup := by decide
  files := fun name => if name = "a.json" then .undecodable 1 "eof" else .entry 1 ()
  buffer := []
  buffer_le := by decide

end RequestLogBatcher

end Monoize
