import Mathlib.Data.List.Perm.Basic
import Mathlib.Data.List.Sort
import Monoize.UrpStream

/-! What a stream of events says of each node, and the book that a decoder keeps of it. -/

namespace Monoize.Urp

open List UrpStreamEvent

variable {e : UrpStreamEvent} {i : Nat}

inductive NodeMark
  | start (header : NodeHeader)
  | delta (delta : NodeDelta)
  | done (node : Node)
  deriving DecidableEq

namespace UrpStreamEvent

def mark (i : Nat) : UrpStreamEvent → Option NodeMark
  | nodeStart j header _ => if j = i then some (.start header) else none
  | nodeDelta j delta _ => if j = i then some (.delta delta) else none
  | nodeDone j node _ => if j = i then some (.done node) else none
  | _ => none

def startIndex : UrpStreamEvent → Option Nat
  | nodeStart j _ _ => some j
  | _ => none

def output : UrpStreamEvent → Option (List Node)
  | responseDone _ output _ => some output
  | _ => none

end UrpStreamEvent

def marks (i : Nat) (events : List UrpStreamEvent) : List NodeMark := events.filterMap (UrpStreamEvent.mark i)

def starts (events : List UrpStreamEvent) : List Nat := events.filterMap UrpStreamEvent.startIndex

def outputs (events : List UrpStreamEvent) : List (List Node) := events.filterMap UrpStreamEvent.output

@[simp] theorem marks_nil (i : Nat) : marks i [] = [] := rfl

@[simp] theorem marks_append (i : Nat) (xs ys : List UrpStreamEvent) : marks i (xs ++ ys) = marks i xs ++ marks i ys :=
  filterMap_append

@[simp] theorem marks_cons (i : Nat) (e : UrpStreamEvent) (ys : List UrpStreamEvent) :
    marks i (e :: ys) = (e.mark i).toList ++ marks i ys := by
  unfold marks
  cases h : e.mark i <;> simp [h]

@[simp] theorem starts_nil : starts [] = [] := rfl

@[simp] theorem starts_append (xs ys : List UrpStreamEvent) : starts (xs ++ ys) = starts xs ++ starts ys :=
  filterMap_append

@[simp] theorem starts_cons (e : UrpStreamEvent) (ys : List UrpStreamEvent) :
    starts (e :: ys) = e.startIndex.toList ++ starts ys := by
  unfold starts
  cases h : e.startIndex <;> simp [h]

@[simp] theorem outputs_nil : outputs [] = [] := rfl

@[simp] theorem outputs_append (xs ys : List UrpStreamEvent) : outputs (xs ++ ys) = outputs xs ++ outputs ys :=
  filterMap_append

@[simp] theorem outputs_cons (e : UrpStreamEvent) (ys : List UrpStreamEvent) :
    outputs (e :: ys) = e.output.toList ++ outputs ys := by
  unfold outputs
  cases h : e.output <;> simp [h]

structure NodeRecord where
  header : NodeHeader
  deltas : List NodeDelta
  done : Option Node

def NodeRecord.marks (r : NodeRecord) : List NodeMark :=
  .start r.header :: r.deltas.map .delta ++ r.done.toList.map .done

structure Records (events : List UrpStreamEvent) (book : List NodeRecord) : Prop where
  starts : starts events = List.range book.length
  marks : ∀ i, marks i events = book[i]?.elim [] NodeRecord.marks
  outputs : outputs events = []

namespace Records

variable {events : List UrpStreamEvent} {book : List NodeRecord}

theorem nil : Records [] [] := ⟨rfl, fun _ => rfl, rfl⟩

variable (h : Records events book)

include h

theorem skip (hmark : ∀ i, e.mark i = none) (hstart : e.startIndex = none)
    (hout : e.output = none) : Records (events ++ [e]) book where
  starts := by simp [h.starts, hstart]
  marks i := by simp [h.marks, hmark]
  outputs := by simp [h.outputs, hout]

theorem start (header : NodeHeader) (extra : JsonMap) :
    Records (events ++ [.nodeStart book.length header extra]) (book ++ [⟨header, [], none⟩]) where
  starts := by simp [h.starts, startIndex, range_succ]
  marks i := by
    rcases Nat.lt_trichotomy i book.length with hlt | rfl | hgt
    · simp [h.marks, mark, getElem?_append_left hlt, Nat.ne_of_gt hlt]
    · simp [h.marks, mark, NodeRecord.marks]
    · have hle : (book ++ [(⟨header, [], none⟩ : NodeRecord)]).length ≤ i := by simp; omega
      simp [h.marks, mark, getElem?_eq_none hle, getElem?_eq_none (Nat.le_of_lt hgt),
        Nat.ne_of_lt hgt]
  outputs := by simp [h.outputs, output]

theorem record {r r' : NodeRecord} (hr : book[i]? = some r) {m : NodeMark}
    (hself : e.mark i = some m) (hother : ∀ j, j ≠ i → e.mark j = none) (hstart : e.startIndex = none)
    (hout : e.output = none) (hmarks : r'.marks = r.marks ++ [m]) : Records (events ++ [e]) (book.set i r') where
  starts := by simp [h.starts, hstart]
  marks j := by
    have hlt : i < book.length := (List.getElem?_eq_some_iff.mp hr).1
    by_cases hj : j = i
    · subst hj
      rw [marks_append, h.marks, hr, getElem?_set_self hlt]
      simp [hself, hmarks]
    · simp [h.marks, hother j hj, getElem?_set_ne (Ne.symm hj)]
  outputs := by simp [h.outputs, hout]

theorem delta {r : NodeRecord} (hr : book[i]? = some r) (hopen : r.done = none) (d : NodeDelta)
    (extra : JsonMap) : Records (events ++ [.nodeDelta i d extra]) (book.set i { r with deltas := r.deltas ++ [d] }) := by
  apply h.record hr (m := .delta d)
  · simp [mark]
  · intro j hj
    simp [mark, Ne.symm hj]
  · rfl
  · rfl
  · simp [NodeRecord.marks, hopen]

end Records

/-- The stream gives the nodes the indices `0, 1, 2, ..` in the order in which they start. Each has
one start, then its deltas, then one completion, whose content is what the deltas add up to, and the
one terminal event lists the completed nodes by index. -/
structure CompletedStream (events : List UrpStreamEvent) (nodes : List Node) : Prop where
  starts : starts events = List.range nodes.length
  lifecycle : ∀ i node, nodes[i]? = some node → ∃ header deltas,
    marks i events = .start header :: deltas.map .delta ++ [.done node] ∧ header.Announces node ∧ node.Accumulates deltas
  others : ∀ i, nodes.length ≤ i → marks i events = []
  outputs : outputs events = [nodes]
  closed : ∃ init reason extra, events = init ++ [.responseDone reason nodes extra]

def NodeRecord.Holds (r : NodeRecord) (node : Node) : Prop :=
  r.done = none ∧ r.header.Announces node ∧ node.Accumulates r.deltas

theorem marks_map_nodeDone (i : Nat) (nodes : List Node) (start : Nat) :
    marks i ((nodes.zipIdx start).map fun e => .nodeDone e.2 e.1 []) =
      if start ≤ i then (nodes[i - start]?).toList.map .done else [] := by
  induction nodes generalizing start with
  | nil => simp
  | cons node nodes ih =>
    simp only [zipIdx_cons, map_cons, marks_cons, mark, ih]
    rcases Nat.lt_trichotomy i start with hlt | rfl | hgt
    · simp [Nat.ne_of_gt hlt, Nat.not_le.mpr hlt, Nat.not_le.mpr (Nat.lt_succ_of_lt hlt)]
    · simp
    · have hsub : i - start = (i - (start + 1)) + 1 := by omega
      simp [Nat.ne_of_lt hgt, Nat.le_of_lt hgt, Nat.succ_le_of_lt hgt, hsub]

theorem starts_map_nodeDone (l : List (Node × Nat)) : starts (l.map fun e => .nodeDone e.2 e.1 []) = [] := by
  induction l with
  | nil => rfl
  | cons e l ih => simp [ih, startIndex]

theorem outputs_map_nodeDone (l : List (Node × Nat)) : outputs (l.map fun e => .nodeDone e.2 e.1 []) = [] := by
  induction l with
  | nil => rfl
  | cons e l ih => simp [ih, output]

theorem Records.completed {events : List UrpStreamEvent} {book : List NodeRecord} (h : Records events book)
    {nodes : List Node} (hlen : nodes.length = book.length)
    (hnodes : ∀ (i : Nat) (r : NodeRecord) (node : Node), book[i]? = some r → nodes[i]? = some node → r.Holds node)
    (reason : Option FinishReason)
    (extra : JsonMap) :
    CompletedStream (events ++ (nodes.zipIdx.map fun e => .nodeDone e.2 e.1 []) ++ [.responseDone reason nodes extra])
      nodes where
  starts := by simp [h.starts, starts_map_nodeDone, startIndex, hlen]
  lifecycle i node hnode := by
    have hi : i < book.length := hlen ▸ (List.getElem?_eq_some_iff.mp hnode).1
    obtain ⟨r, hr⟩ : ∃ r, book[i]? = some r := ⟨book[i], getElem?_eq_getElem hi⟩
    obtain ⟨hopen, hann, hacc⟩ := hnodes i r node hr hnode
    refine ⟨r.header, r.deltas, ?_, hann, hacc⟩
    simp [h.marks, hr, NodeRecord.marks, hopen, marks_map_nodeDone, hnode, mark]
  others i hi := by
    have hbook : book[i]? = none := getElem?_eq_none (hlen ▸ hi)
    simp [h.marks, hbook, marks_map_nodeDone, getElem?_eq_none hi, mark]
  outputs := by simp [h.outputs, outputs_map_nodeDone, output]
  closed := ⟨_, reason, extra, rfl⟩

def Keeps (events : List UrpStreamEvent) (nodes : List (Nat × Node)) : Prop :=
  ∃ book, Records events book ∧ (nodes.map (·.1)).Perm (List.range book.length) ∧
    ∀ e ∈ nodes, ∃ r, book[e.1]? = some r ∧ r.Holds e.2

namespace Keeps

variable {events : List UrpStreamEvent} {nodes nodes' : List (Nat × Node)}

theorem nil : Keeps [] [] := ⟨[], .nil, by simp, by simp⟩

theorem zipIdx_of_indices {l : List (Nat × Node)} (h : l.map (·.1) = range l.length) :
    (l.map (·.2)).zipIdx = l.map fun e => (e.2, e.1) := by
  apply ext_getElem
  · simp
  · intro i hi _
    have hil : i < l.length := by simpa using hi
    have hfst : l[i].1 = i := by
      have := congrArg (fun m => m[i]?) h
      simpa [getElem?_map, getElem?_eq_getElem hil, hil] using this
    simp [hfst]

variable (h : Keeps events nodes)

include h

theorem perm_range : (nodes.map (·.1)).Perm (range nodes.length) := by
  obtain ⟨book, -, hperm, -⟩ := h
  have hlen : nodes.length = book.length := by simpa using hperm.length_eq
  exact hlen ▸ hperm

theorem nodup : (nodes.map (·.1)).Nodup :=
  h.perm_range.nodup_iff.mpr nodup_range

theorem index_lt {e : Nat × Node} (he : e ∈ nodes) : e.1 < nodes.length :=
  mem_range.mp (h.perm_range.mem_iff.mp (mem_map_of_mem he))

theorem perm (hperm : nodes'.Perm nodes) : Keeps events nodes' := by
  obtain ⟨book, hrec, hrange, hholds⟩ := h
  exact ⟨book, hrec, (hperm.map _).trans hrange, fun e he => hholds e (hperm.mem_iff.mp he)⟩

theorem skip (hmark : ∀ i, e.mark i = none) (hstart : e.startIndex = none)
    (hout : e.output = none) : Keeps (events ++ [e]) nodes := by
  obtain ⟨book, hrec, hrest⟩ := h
  exact ⟨book, hrec.skip hmark hstart hout, hrest⟩

theorem start (header : NodeHeader) (node : Node) (hann : header.Announces node) (hacc : node.Accumulates [])
    (extra : JsonMap) :
    Keeps (events ++ [.nodeStart nodes.length header extra]) ((nodes.length, node) :: nodes) := by
  obtain ⟨book, hrec, hperm, hholds⟩ := h
  have hlen : nodes.length = book.length := by simpa using hperm.length_eq
  rw [hlen]
  refine ⟨_, hrec.start header extra, ?_, ?_⟩
  · simp only [map_cons, length_append, length_singleton, range_succ]
    exact (hperm.cons _).trans (perm_append_singleton _ _).symm
  · intro e he
    rcases mem_cons.mp he with rfl | he
    · exact ⟨⟨header, [], none⟩, by simp, rfl, hann, hacc⟩
    · obtain ⟨r, hr, hhold⟩ := hholds e he
      exact ⟨r, by rw [List.getElem?_append_left (List.getElem?_eq_some_iff.mp hr).1, hr], hhold⟩

theorem congr (hsame : List.Forall₂ (fun a b => a.1 = b.1 ∧ ∀ r : NodeRecord, r.Holds a.2 → r.Holds b.2) nodes nodes') :
    Keeps events nodes' := by
  obtain ⟨book, hrec, hperm, hholds⟩ := h
  have hfst : nodes'.map (·.1) = nodes.map (·.1) := by
    clear hperm hholds
    induction hsame with
    | nil => rfl
    | cons hab _ ih => rw [map_cons, map_cons, ih, hab.1]
  refine ⟨book, hrec, hfst ▸ hperm, ?_⟩
  clear hperm hfst
  induction hsame with
  | nil => exact hholds
  | cons hab _ ih =>
    obtain ⟨hi, hh⟩ := hab
    rintro e he
    rcases mem_cons.mp he with rfl | he
    · obtain ⟨r, hr, hhold⟩ := hholds _ (mem_cons_self ..)
      exact ⟨r, hi ▸ hr, hh r hhold⟩
    · exact ih (fun e he => hholds e (mem_cons_of_mem _ he)) e he

theorem finish (hsorted : nodes.Pairwise fun a b => a.1 ≤ b.1) (reason : Option FinishReason) (extra : JsonMap) :
    CompletedStream (events ++ (nodes.map fun e => .nodeDone e.1 e.2 []) ++ [.responseDone reason (nodes.map (·.2)) extra])
      (nodes.map (·.2)) := by
  have hrange : nodes.map (·.1) = range nodes.length := by
    have hle : (nodes.map (·.1)).Pairwise (· ≤ ·) := pairwise_map.mpr hsorted
    exact h.perm_range.eq_of_pairwise (fun _ _ _ _ => Nat.le_antisymm) hle pairwise_le_range
  obtain ⟨book, hrec, hperm, hholds⟩ := h
  have hlen : (nodes.map (·.2)).length = book.length := by simpa using hperm.length_eq
  have hdone : (nodes.map fun e => nodeDone e.1 e.2 []) =
      (nodes.map (·.2)).zipIdx.map fun e => .nodeDone e.2 e.1 [] := by
    rw [zipIdx_of_indices hrange, map_map]
    rfl
  rw [hdone]
  apply hrec.completed hlen
  intro i r node hr hnode
  obtain ⟨e, he, hnode⟩ := getElem?_map .. ▸ hnode |> Option.map_eq_some_iff.mp
  have hei : e.1 = i := by
    have := congrArg (fun m => m[i]?) hrange
    rw [getElem?_map, he] at this
    have hi : i < nodes.length := (List.getElem?_eq_some_iff.mp he).1
    simpa [hi] using this
  obtain ⟨r', hr', hhold⟩ := hholds e (mem_of_getElem? he)
  rw [hei, hr, Option.some_inj] at hr'
  subst hr' hnode
  exact hhold

omit h in
theorem delta {node : Node} (before : List (Nat × Node)) {after : List (Nat × Node)}
    (h : Keeps events (before ++ (i, node) :: after)) (node' : Node) (d : NodeDelta)
    (hann : ∀ header : NodeHeader, header.Announces node → header.Announces node')
    (hacc : ∀ ds, node.Accumulates ds → node'.Accumulates (ds ++ [d])) (extra : JsonMap) :
    Keeps (events ++ [.nodeDelta i d extra]) (before ++ (i, node') :: after) := by
  have hnodup := h.nodup
  obtain ⟨book, hrec, hperm, hholds⟩ := h
  obtain ⟨r, hr, hopen, hra, hrc⟩ := hholds (i, node) (by simp)
  refine ⟨_, hrec.delta hr hopen d extra, by simpa using hperm, ?_⟩
  have hi : i < book.length := (List.getElem?_eq_some_iff.mp hr).1
  simp only [map_append, map_cons, nodup_append, nodup_cons, mem_map] at hnodup
  intro e he
  by_cases hei : e.1 = i
  · have heq : e = (i, node') := by
      rcases mem_append.mp he with hb | hb
      · exact absurd hei (hnodup.2.2 e.1 ⟨e, hb, rfl⟩ i (by simp))
      · rcases mem_cons.mp hb with rfl | hb
        · rfl
        · exact absurd ⟨e, hb, hei⟩ hnodup.2.1.1
    subst heq
    exact ⟨_, getElem?_set_self hi, hopen, hann _ hra, hacc _ hrc⟩
  · have hmem : e ∈ before ++ (i, node) :: after := by
      simp only [mem_append, mem_cons] at he ⊢
      rcases he with hb | rfl | hb
      · exact .inl hb
      · exact absurd rfl hei
      · exact .inr (.inr hb)
    obtain ⟨r', hr', hhold⟩ := hholds e hmem
    exact ⟨r', by rw [getElem?_set_ne (Ne.symm hei), hr'], hhold⟩

end Keeps

end Monoize.Urp
