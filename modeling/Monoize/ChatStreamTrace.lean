import Monoize.ChatStreamEmits

/-! What a Chat client is to be shown of a canonical stream. -/

namespace Monoize.Urp

open ChatEncoder List Option UrpStreamEvent

variable {header : NodeHeader} {node : Node} {m : NodeMark} {extra : JsonMap} {d : NodeDelta} {i : Nat}
  {body : List UrpStreamEvent}

/-! Canonical streams. -/

def NodeDelta.OfKind : NodeDelta → Node → Prop
  | .text _, .text .. => True
  | .refusal _, .refusal .. => True
  | .reasoning .., .reasoning .. => True
  | .toolCallArguments _, .toolCall .. => True
  | .image _, .image .. => True
  | .audio _, .audio .. => True
  | .file _, .file .. => True
  | .providerItem _, .providerItem .. => True
  | _, _ => False

structure NodeHeader.Describes (header : NodeHeader) (node : Node) : Prop where
  announces : header.Announces node
  name : ∀ id toolType callId name, header = .toolCall id toolType callId name →
    ∃ arguments, node.call = some (callId, name, arguments)

theorem NodeHeader.Describes.toolCall (h : header.Describes node) (hcall : node.call.isSome = true) :
    ∃ id toolType callId name, header = .toolCall id toolType callId name := by
  have hann := h.announces
  cases node with
  | toolCall id toolType callId name arguments extra =>
    cases header <;> first | exact ⟨_, _, _, _, rfl⟩ | cases hann
  | _ => cases hcall

def UrpStreamEvent.terminal : UrpStreamEvent → Bool
  | .responseDone .. | .error .. => true
  | _ => false

/-- Each node is in the output only, or is streamed with one start, fragments that add up to it and one
completion. -/
structure CanonicalStream (body : List UrpStreamEvent) (nodes : List Node) : Prop where
  lifecycle : ∀ i, marks i body = [] ∨ ∃ node header deltas, nodes[i]? = some node ∧
    marks i body = .start header :: (deltas.map .delta ++ [.done node]) ∧ header.Describes node ∧
    (∀ d ∈ deltas, d.OfKind node) ∧ node.Accumulates deltas
  running : ∀ e ∈ body, e.terminal = false

theorem delta_position {xs ys : List NodeMark} {deltas : List NodeDelta}
    (h : xs ++ m :: ys = deltas.map .delta ++ [.done node]) :
    (∃ (d : NodeDelta) (ds : List NodeDelta), m = .delta d ∧ d ∈ deltas ∧ xs = ds.map .delta) ∨
      (m = .done node ∧ xs = deltas.map .delta) := by
  induction deltas generalizing xs with
  | nil =>
    cases xs with
    | nil => exact .inr ⟨(cons.inj h).1, rfl⟩
    | cons x xs => simp at h
  | cons d deltas ih =>
    cases xs with
    | nil => exact .inl ⟨d, [], (cons.inj h).1, mem_cons_self .., rfl⟩
    | cons x xs =>
      obtain ⟨rfl, htail⟩ := cons.inj h
      rcases ih htail with ⟨d', ds, hm, hd, rfl⟩ | ⟨hm, rfl⟩
      · exact .inl ⟨d', d :: ds, hm, mem_cons_of_mem _ hd, rfl⟩
      · exact .inr ⟨hm, rfl⟩

theorem mark_position {xs ys : List NodeMark} {deltas : List NodeDelta}
    (h : xs ++ m :: ys = .start header :: (deltas.map .delta ++ [.done node])) : (m = .start header ∧ xs = []) ∨
      (∃ (d : NodeDelta) (ds : List NodeDelta), m = .delta d ∧ d ∈ deltas ∧ xs = .start header :: ds.map .delta) ∨
      (m = .done node ∧ xs = .start header :: deltas.map .delta) := by
  cases xs with
  | nil => exact .inl ⟨(cons.inj h).1, rfl⟩
  | cons x xs =>
    obtain ⟨rfl, htail⟩ := cons.inj h
    rcases delta_position htail with ⟨d, ds, hm, hd, rfl⟩ | ⟨hm, rfl⟩
    · exact .inr (.inl ⟨d, ds, hm, hd, rfl⟩)
    · exact .inr (.inr ⟨hm, rfl⟩)

namespace CanonicalStream

variable {before after : List UrpStreamEvent} {nodes : List Node} {e : UrpStreamEvent} {i : Nat}

theorem at_mark (h : CanonicalStream (before ++ e :: after) nodes) (hm : e.mark i = some m) :
    ∃ node header deltas, nodes[i]? = some node ∧
      marks i before ++ m :: marks i after = .start header :: (deltas.map .delta ++ [.done node]) ∧ header.Describes node ∧
      (∀ d ∈ deltas, d.OfKind node) ∧ node.Accumulates deltas := by
  have hmarks : marks i (before ++ e :: after) = marks i before ++ m :: marks i after := by simp [hm]
  rcases h.lifecycle i with hnone | ⟨node, header, deltas, hnode, hall, hrest⟩
  · rw [hmarks] at hnone
    exact absurd hnone (by simp)
  · exact ⟨node, header, deltas, hnode, hmarks ▸ hall, hrest⟩

theorem at_start (h : CanonicalStream (before ++ .nodeStart i header extra :: after) nodes) :
    marks i before = [] ∧ ∃ node, nodes[i]? = some node ∧ header.Describes node := by
  obtain ⟨node, header', deltas, hnode, hall, hdesc, -, -⟩ := h.at_mark (i := i) (m := .start header) (by simp [mark])
  rcases mark_position hall with ⟨hm, hxs⟩ | ⟨d, ds, hm, -, -⟩ | ⟨hm, -⟩
  · cases hm
    exact ⟨hxs, node, hnode, hdesc⟩
  · cases hm
  · cases hm

theorem at_delta (h : CanonicalStream (before ++ .nodeDelta i d extra :: after) nodes) :
    ∃ (node : Node) (header : NodeHeader) (ds : List NodeDelta), nodes[i]? = some node ∧ d.OfKind node ∧
      header.Describes node ∧ marks i before = .start header :: ds.map .delta := by
  obtain ⟨node, header, deltas, hnode, hall, hdesc, hkind, -⟩ := h.at_mark (i := i) (m := .delta d) (by simp [mark])
  rcases mark_position hall with ⟨hm, -⟩ | ⟨d', ds, hm, hd, hxs⟩ | ⟨hm, -⟩
  · cases hm
  · cases hm
    exact ⟨node, header, ds, hnode, hkind d hd, hdesc, hxs⟩
  · cases hm

theorem at_done (h : CanonicalStream (before ++ .nodeDone i node extra :: after) nodes) :
    nodes[i]? = some node ∧ ∃ (header : NodeHeader) (ds : List NodeDelta), header.Describes node ∧ node.Accumulates ds ∧
      marks i before = .start header :: ds.map .delta := by
  obtain ⟨node', header, deltas, hnode, hall, hdesc, -, hacc⟩ := h.at_mark (i := i) (m := .done node) (by simp [mark])
  rcases mark_position hall with ⟨hm, -⟩ | ⟨d', ds, hm, -, -⟩ | ⟨hm, hxs⟩
  · cases hm
  · cases hm
  · cases hm
    exact ⟨hnode, header, deltas, hdesc, hacc, hxs⟩

end CanonicalStream

/-! What the events say of a node. -/

def NodeMark.fragment : NodeMark → Option NodeDelta
  | .delta d => some d
  | _ => none

def deltasOf (i : Nat) (events : List UrpStreamEvent) : List NodeDelta := (marks i events).filterMap NodeMark.fragment

def UrpStreamEvent.startsLegacy (i : Nat) : UrpStreamEvent → Bool
  | .nodeStart j (.toolCall _ toolType _ _) extra => j = i && isLegacyFunctionCall toolType extra
  | _ => false

def startsLegacy (i : Nat) (events : List UrpStreamEvent) : Bool := events.any (UrpStreamEvent.startsLegacy i)

@[simp] theorem deltasOf_nil (i : Nat) : deltasOf i [] = [] := rfl

@[simp] theorem deltasOf_append (i : Nat) (xs ys : List UrpStreamEvent) :
    deltasOf i (xs ++ ys) = deltasOf i xs ++ deltasOf i ys := by
  simp [deltasOf]

@[simp] theorem startsLegacy_append (i : Nat) (xs ys : List UrpStreamEvent) :
    startsLegacy i (xs ++ ys) = (startsLegacy i xs || startsLegacy i ys) := any_append

theorem filterMap_fragment_map_delta (ds : List NodeDelta) : (ds.map NodeMark.delta).filterMap NodeMark.fragment = ds := by
  rw [filterMap_map]
  exact filterMap_some

variable {events : List UrpStreamEvent}

theorem deltasOf_of_marks {ds : List NodeDelta}
    (h : marks i events = .start header :: ds.map .delta) : deltasOf i events = ds := by
  rw [deltasOf, h, filterMap_cons_none rfl, filterMap_fragment_map_delta]

theorem startsLegacy_of_unstarted (h : ∀ header, NodeMark.start header ∉ marks i events) :
    startsLegacy i events = false := by
  unfold startsLegacy
  rw [List.any_eq_false]
  intro e he hlegacy
  cases e with
  | nodeStart j header extra =>
    cases header with
    | toolCall id toolType callId name =>
      simp only [UrpStreamEvent.startsLegacy, Bool.and_eq_true, decide_eq_true_eq] at hlegacy
      exact h _ (mem_filterMap.mpr ⟨_, he, by simp [UrpStreamEvent.mark, hlegacy.1]; rfl⟩)
    | _ => simp [UrpStreamEvent.startsLegacy] at hlegacy
  | _ => simp [UrpStreamEvent.startsLegacy] at hlegacy

/-! The trace. -/

def UrpStreamEvent.nodeMark : UrpStreamEvent → Option (Nat × NodeMark)
  | .nodeStart i header _ => some (i, .start header)
  | .nodeDelta i delta _ => some (i, .delta delta)
  | .nodeDone i node _ => some (i, .done node)
  | _ => none

def NodeMark.shown (k : Nat) (legacy : Bool) : NodeMark → List Shown
  | .start (.toolCall _ _ callId name) => callShown legacy ⟨k, callId, name, ""⟩
  | .delta (.text content) | .delta (.refusal content) => [⟨content, none⟩]
  | .delta (.toolCallArguments arguments) => callShown legacy ⟨k, "", "", arguments⟩
  | _ => []

def Node.shown (k : Nat) (legacy : Bool) : Node → List Shown
  | .text _ .assistant content _ _ | .refusal _ content _ => if content = "" then [] else [⟨content, none⟩]
  | .toolCall _ _ callId name arguments _ => callShown legacy ⟨k, callId, name, ""⟩ ++
      if arguments = "" then [] else callShown legacy ⟨k, "", "", arguments⟩
  | _ => []

def UrpStreamEvent.emits (i : Nat) : UrpStreamEvent → Bool
  | .nodeStart j .nextDownstreamEnvelopeExtra _ | .nodeStart j (.toolCall ..) _ | .nodeDelta j (.text _) _
  | .nodeDelta j (.refusal _) _ | .nodeDone j (.toolCall ..) _ | .nodeDone j (.providerItem _ .chatCompletion ..) _ => j = i
  | .nodeDelta j (.reasoning content encrypted summary _) extra =>
    j = i && reasoningDeltaHasChatSurface content encrypted summary extra
  | _ => false

def UrpStreamEvent.toolStart : UrpStreamEvent → Option Nat
  | .nodeStart i (.toolCall ..) _ => some i
  | _ => none

def Node.isLegacyCall : Node → Bool
  | .toolCall _ toolType _ _ _ extra => isLegacyFunctionCall toolType extra
  | _ => false

def legacyCall (body : List UrpStreamEvent) (i : Nat) (node : Node) : Bool :=
  if marks i body = [] then node.isLegacyCall else startsLegacy i body

section Trace

variable (body : List UrpStreamEvent) (nodes : List Node)

def isMissing (e : Node × Nat) : Bool := !body.any (·.emits e.2)

def callOrder : List Nat :=
  body.filterMap UrpStreamEvent.toolStart ++ (nodes.zipIdx.filter fun e => e.1.call.isSome && isMissing body e).map (·.2)

def callIndex (i : Nat) : Nat := (callOrder body nodes).idxOf i

def legacyAt (i : Nat) : Bool := nodes[i]?.any (legacyCall body i)

def eventShown (e : UrpStreamEvent) : List (Nat × Shown) :=
  e.nodeMark.elim [] fun m => (m.2.shown (callIndex body nodes m.1) (legacyAt body nodes m.1)).map (m.1, ·)

def missingShown (e : Node × Nat) : List (Nat × Shown) :=
  if isMissing body e then (e.1.shown (callIndex body nodes e.2) (legacyAt body nodes e.2)).map (e.2, ·) else []

def clientTrace : List (Nat × Shown) := body.flatMap (eventShown body nodes) ++ nodes.zipIdx.flatMap (missingShown body nodes)

variable {body nodes}

def shownOf (i : Nat) (trace : List (Nat × Shown)) : List Shown := (trace.filter (·.1 = i)).map (·.2)

theorem shownOf_append (i : Nat) (xs ys : List (Nat × Shown)) : shownOf i (xs ++ ys) = shownOf i xs ++ shownOf i ys := by
  simp [shownOf]

theorem shownOf_map (i j : Nat) (l : List Shown) : shownOf i (l.map (j, ·)) = if j = i then l else [] := by
  unfold shownOf
  split
  · rename_i hj
    rw [List.filter_eq_self.mpr (by simp [hj]), List.map_map]
    exact map_id _
  · rename_i hj
    rw [filter_eq_nil_iff.mpr (by simp [hj])]
    rfl

theorem shownOf_body (i : Nat) (events : List UrpStreamEvent) : shownOf i (events.flatMap (eventShown body nodes)) =
    (marks i events).flatMap (NodeMark.shown (callIndex body nodes i) (legacyAt body nodes i)) := by
  induction events with
  | nil => rfl
  | cons e events ih =>
    rw [flatMap_cons, shownOf_append, ih, marks_cons]
    cases e with
    | nodeStart j _ _ | nodeDelta j _ _ | nodeDone j _ _ =>
      rw [eventShown, nodeMark, elim_some, shownOf_map, mark]
      split <;> simp_all
    | _ => rfl

theorem shownOf_missing (i start : Nat) (l : List Node) : shownOf i ((l.zipIdx start).flatMap (missingShown body nodes)) =
    if start ≤ i then (l[i - start]?).elim [] fun node => (missingShown body nodes (node, i)).map (·.2) else [] := by
  induction l generalizing start with
  | nil => simp [shownOf]
  | cons node l ih =>
    have hhead : shownOf i (missingShown body nodes (node, start)) =
        if start = i then (missingShown body nodes (node, i)).map (·.2) else [] := by
      unfold missingShown
      split
      · rw [shownOf_map]
        split <;> simp_all
      · split <;> simp_all [shownOf]
    rw [zipIdx_cons, flatMap_cons, shownOf_append, hhead, ih]
    rcases Nat.lt_trichotomy start i with hlt | rfl | hgt
    · have hsub : i - start = (i - (start + 1)) + 1 := by omega
      simp [Nat.ne_of_lt hlt, Nat.le_of_lt hlt, Nat.succ_le_of_lt hlt, hsub]
    · simp
    · simp [Nat.ne_of_gt hgt, Nat.not_le.mpr hgt, Nat.not_le.mpr (Nat.lt_succ_of_lt hgt)]

theorem shownOf_clientTrace (i : Nat) : shownOf i (clientTrace body nodes) =
    (marks i body).flatMap (NodeMark.shown (callIndex body nodes i) (legacyAt body nodes i)) ++
      nodes[i]?.elim [] fun node => (missingShown body nodes (node, i)).map (·.2) := by
  rw [clientTrace, shownOf_append, shownOf_body, shownOf_missing, if_pos (Nat.zero_le i), Nat.sub_zero]

end Trace

/-! The trace of a canonical stream. -/

theorem marks_ne_nil_of_emits (h : body.any (·.emits i) = true) : marks i body ≠ [] := by
  obtain ⟨e, he, hemits⟩ := any_eq_true.mp h
  intro hnone
  have hmark : e.mark i = none := filterMap_eq_nil_iff.mp hnone e he
  cases e with
  | nodeStart j header extra =>
    have hj : j ≠ i := fun hj => by simp [mark, hj] at hmark
    cases header <;> simp_all [emits]
  | nodeDelta j delta extra =>
    have hj : j ≠ i := fun hj => by simp [mark, hj] at hmark
    cases delta <;> simp_all [emits]
  | nodeDone j node extra =>
    have hj : j ≠ i := fun hj => by simp [mark, hj] at hmark
    cases node with
    | providerItem id protocol role itemType body extra => cases protocol <;> simp_all [emits]
    | _ => simp_all [emits]
  | _ => simp [emits] at hemits

theorem exists_of_mem_marks (h : m ∈ marks i body) : ∃ e ∈ body, e.nodeMark = some (i, m) := by
  obtain ⟨e, he, hmark⟩ := mem_filterMap.mp h
  refine ⟨e, he, ?_⟩
  cases e with
  | nodeStart j _ _ | nodeDelta j _ _ | nodeDone j _ _ =>
    simp only [mark] at hmark
    split at hmark <;> simp_all [nodeMark]
  | _ => simp [mark] at hmark

theorem emits_of_toolStart {id : Option String} {toolType : ToolCallType} {callId name : String}
    (h : NodeMark.start (.toolCall id toolType callId name) ∈ marks i body) :
    body.any (·.emits i) = true ∧ i ∈ body.filterMap toolStart := by
  obtain ⟨e, he, hmark⟩ := exists_of_mem_marks h
  cases e <;> simp only [nodeMark, some_inj, Prod.mk.injEq, reduceCtorEq, and_false, NodeMark.start.injEq] at hmark
  obtain ⟨rfl, rfl⟩ := hmark
  exact ⟨any_eq_true.mpr ⟨_, he, by simp [emits]⟩, mem_filterMap.mpr ⟨_, he, rfl⟩⟩

theorem emits_of_mem_toolStart (h : i ∈ body.filterMap toolStart) : body.any (·.emits i) = true := by
  obtain ⟨e, he, hstart⟩ := mem_filterMap.mp h
  refine any_eq_true.mpr ⟨e, he, ?_⟩
  cases e with
  | nodeStart j header extra => cases header <;> simp_all [toolStart, emits]
  | _ => cases hstart

theorem emits_of_prose (h : NodeMark.delta d ∈ marks i body)
    (hd : (∃ content, d = .text content) ∨ ∃ content, d = .refusal content) : body.any (·.emits i) = true := by
  obtain ⟨e, he, hmark⟩ := exists_of_mem_marks h
  cases e <;> simp only [nodeMark, some_inj, Prod.mk.injEq, reduceCtorEq, and_false, NodeMark.delta.injEq] at hmark
  obtain ⟨rfl, rfl⟩ := hmark
  refine any_eq_true.mpr ⟨_, he, ?_⟩
  rcases hd with ⟨content, rfl⟩ | ⟨content, rfl⟩ <;> simp [emits]

def Node.prose (node : Node) : Option String := node.assistantText <|> node.refusalText

def Node.isProse : Node → Bool
  | .text .. | .refusal .. => true
  | _ => false

/-- An entry that fits the node: content only of a text, a call only of a tool call that is not a legacy one. -/
structure EntryOf (k : Nat) (legacy : Bool) (node : Node) (x : Shown) : Prop where
  prose : x.prose ≠ "" → node.isProse = true
  call : ∀ c, x.call = some c → c.index = k ∧ node.call.isSome = true ∧ legacy = false

namespace EntryOf

variable {k : Nat} {legacy : Bool} {node : Node} {x : Shown}

theorem ofProse (h : node.isProse = true) (content : String) : EntryOf k legacy node ⟨content, none⟩ := ⟨fun _ => h, by simp⟩

theorem ofCall (h : node.call.isSome = true) {w : WireCall} (hw : w.index = k) (hx : x ∈ callShown legacy w) :
    EntryOf k legacy node x := by
  unfold callShown at hx
  split at hx
  · cases hx
  rename_i hlegacy
  rw [mem_singleton.mp hx]
  refine ⟨by simp, fun c hc => ?_⟩
  cases hc
  exact ⟨hw, h, by simpa using hlegacy⟩

theorem ofNode (hx : x ∈ node.shown k legacy) : EntryOf k legacy node x := by
  have htext : ∀ content : String, node.isProse = true → x ∈ (if content = "" then [] else [⟨content, none⟩]) →
      EntryOf k legacy node x := by
    intro content hprose hx
    split at hx
    · cases hx
    · rw [mem_singleton.mp hx]
      exact ofProse hprose content
  cases node with
  | toolCall id toolType callId name arguments extra =>
    rcases mem_append.mp hx with hx | hx
    · exact ofCall rfl rfl hx
    · split at hx
      · cases hx
      · exact ofCall rfl rfl hx
  | text id role content phase extra =>
    cases role with
    | assistant => exact htext content rfl hx
    | _ => cases hx
  | refusal id content extra => exact htext content rfl hx
  | _ => cases hx

theorem ofStart (h : header.Describes node) (hx : x ∈ NodeMark.shown k legacy (.start header)) :
    EntryOf k legacy node x := by
  cases header with
  | toolCall id toolType callId name =>
    obtain ⟨arguments, hcall⟩ := h.name id toolType callId name rfl
    exact ofCall (by rw [hcall]; rfl) rfl hx
  | _ => cases hx

theorem ofDelta (h : d.OfKind node) (hx : x ∈ NodeMark.shown k legacy (.delta d)) : EntryOf k legacy node x := by
  cases d with
  | text content | refusal content =>
    rw [mem_singleton.mp hx]
    exact ofProse (by cases node <;> first | rfl | exact h.elim) content
  | toolCallArguments arguments => exact ofCall (by cases node <;> first | rfl | exact h.elim) rfl hx
  | _ => cases hx

end EntryOf

namespace CanonicalStream

variable {body : List UrpStreamEvent} {nodes : List Node} {i : Nat} {node : Node}

theorem mem_shownOf {x : Shown} : x ∈ shownOf i (clientTrace body nodes) ↔ (i, x) ∈ clientTrace body nodes := by
  simp only [shownOf, List.mem_map, List.mem_filter]
  constructor
  · rintro ⟨⟨j, y⟩, ⟨hy, hj⟩, rfl⟩
    rw [decide_eq_true_eq] at hj
    exact hj ▸ hy
  · intro hx
    exact ⟨(i, x), ⟨hx, by simp⟩, rfl⟩

variable (h : CanonicalStream body nodes)

include h

theorem shown (hnode : nodes[i]? = some node) :
    (∃ header deltas, marks i body = .start header :: (deltas.map .delta ++ [.done node]) ∧ header.Describes node ∧
      (∀ d ∈ deltas, d.OfKind node) ∧ node.Accumulates deltas ∧ shownOf i (clientTrace body nodes) =
        NodeMark.shown (callIndex body nodes i) (legacyAt body nodes i) (.start header) ++
          deltas.flatMap (fun d => NodeMark.shown (callIndex body nodes i) (legacyAt body nodes i) (.delta d)) ++
          (missingShown body nodes (node, i)).map (·.2)) ∨
    (marks i body = [] ∧ isMissing body (node, i) = true ∧
      shownOf i (clientTrace body nodes) = node.shown (callIndex body nodes i) (legacyAt body nodes i)) := by
  rcases h.lifecycle i with hnone | ⟨node', header, deltas, hnode', hmarks, hdesc, hkind, hacc⟩
  · have hmissing : isMissing body (node, i) = true := by
      unfold isMissing
      by_contra hemits
      exact marks_ne_nil_of_emits (by simpa using hemits) hnone
    refine .inr ⟨hnone, hmissing, ?_⟩
    rw [shownOf_clientTrace, hnone, hnode, Option.elim_some, missingShown, if_pos hmissing, List.map_map]
    exact map_id _
  · rw [hnode, some_inj] at hnode'
    subst hnode'
    refine .inl ⟨header, deltas, hmarks, hdesc, hkind, hacc, ?_⟩
    rw [shownOf_clientTrace, hmarks, hnode, flatMap_cons, flatMap_append, flatMap_map]
    simp [NodeMark.shown]

theorem prose_told (hnode : nodes[i]? = some node) {content : String}
    (hprose : node.prose = some content) : proseOf i (clientTrace body nodes) = content := by
  have hread : proseOf i (clientTrace body nodes) = String.join ((shownOf i (clientTrace body nodes)).map (·.prose)) := by
    rw [shownOf, List.map_map]
    rfl
  rw [hread]
  have hone : ∀ text : String, String.join ((if text = "" then [] else [(⟨text, none⟩ : Shown)]).map (·.prose)) = text := by
    intro text
    by_cases hempty : text = "" <;> simp [hempty]
  rcases h.shown hnode with ⟨header, deltas, hmarks, hdesc, hkind, hacc, hshown⟩ | ⟨-, -, hshown⟩
  · have hparts : ∀ part : NodeDelta → String, (∀ d ∈ deltas, (∃ text, d = .text text ∧ part d = text) ∨
        ∃ text, d = .refusal text ∧ part d = text) → joined part deltas = content →
        (isMissing body (node, i) = true → deltas = [] → node.shown (callIndex body nodes i) (legacyAt body nodes i) = []) →
        NodeMark.shown (callIndex body nodes i) (legacyAt body nodes i) (.start header) = [] →
        String.join ((shownOf i (clientTrace body nodes)).map (·.prose)) = content := by
      intro part hpart hjoined hmissing hstart
      have hlast : missingShown body nodes (node, i) = [] := by
        unfold missingShown
        split
        · rename_i hm
          have hempty : deltas = [] := by
            by_contra hne
            obtain ⟨d, hd⟩ := exists_mem_of_ne_nil _ hne
            have hdelta : NodeMark.delta d ∈ marks i body := by
              rw [hmarks]
              simp [hd]
            have hemits := emits_of_prose hdelta
                ((hpart d hd).imp (Exists.imp fun _ => And.left) (Exists.imp fun _ => And.left))
            simp [isMissing, hemits] at hm
          rw [hmissing hm hempty]
          rfl
        · rfl
      rw [hshown, hstart, hlast, ← hjoined, joined, nil_append, map_nil, append_nil, map_flatMap,
        map_eq_flatMap]
      apply congrArg String.join (flatMap_congr ?_)
      intro d hd
      rcases hpart d hd with ⟨text, rfl, hd⟩ | ⟨text, rfl, hd⟩ <;> simp [NodeMark.shown, hd]
    cases node with
    | text id role text phase extra =>
      have htext : text = content := by
        cases role <;> simp [Node.prose, Node.assistantText, Node.refusalText] at hprose ⊢; exact hprose
      have hann := hdesc.announces
      apply hparts NodeDelta.textPart
      · intro d hd
        have hk := hkind d hd
        cases d <;> first | exact .inl ⟨_, rfl, rfl⟩ | exact hk.elim
      · exact (hacc : joined NodeDelta.textPart deltas = text).trans htext
      · rintro - rfl
        have hempty : text = "" := (hacc : joined NodeDelta.textPart [] = text).symm
        cases role <;> simp [Node.shown, hempty]
      · cases header <;> first | rfl | exact hann.elim
    | refusal id text extra =>
      have htext : text = content := by simpa [Node.prose, Node.assistantText, Node.refusalText] using hprose
      have hann := hdesc.announces
      apply hparts NodeDelta.refusalPart
      · intro d hd
        have hk := hkind d hd
        cases d <;> first | exact .inr ⟨_, rfl, rfl⟩ | exact hk.elim
      · exact (hacc : joined NodeDelta.refusalPart deltas = text).trans htext
      · rintro - rfl
        have hempty : text = "" := (hacc : joined NodeDelta.refusalPart [] = text).symm
        simp [Node.shown, hempty]
      · cases header <;> first | rfl | exact hann.elim
    | _ => simp [Node.prose, Node.assistantText, Node.refusalText] at hprose
  · rw [hshown]
    cases node with
    | text id role text phase extra =>
      cases role <;> simp [Node.prose, Node.assistantText, Node.refusalText] at hprose
      subst hprose
      exact hone text
    | refusal id text extra =>
      have htext : text = content := by simpa [Node.prose, Node.assistantText, Node.refusalText] using hprose
      subst htext
      exact hone text
    | _ => simp [Node.prose, Node.assistantText, Node.refusalText] at hprose

theorem call_told (hnode : nodes[i]? = some node) {call : String × String × String}
    (hcall : node.call = some call) (hlegacy : legacyAt body nodes i = false) :
    i ∈ callOrder body nodes ∧ (shownOf i (clientTrace body nodes)).filterMap (·.call) ≠ [] ∧
      assembledCall (callIndex body nodes i) ((shownOf i (clientTrace body nodes)).filterMap (·.call)) = call := by
  generalize hk : callIndex body nodes i = k
  cases node with
  | toolCall id toolType callId' name' arguments' extra =>
    cases hcall
    have hread : ∀ parts : List String, assembledCall k (⟨k, callId', name', ""⟩ :: parts.map fun part => ⟨k, "", "", part⟩) =
        (callId', name', String.join parts) := by
      intro parts
      have hall : (parts.map fun part => (⟨k, "", "", part⟩ : WireCall)).filter (·.index = k) =
          parts.map fun part => ⟨k, "", "", part⟩ := filter_eq_self.mpr (by simp)
      have hblank : String.join (replicate parts.length "") = "" := by simpa using join_map_empty parts
      simp [assembledCall, hall, Function.comp_def, hblank]
    rcases h.shown hnode with ⟨header, deltas, hmarks, hdesc, hkind, hacc, hshown⟩ | ⟨-, hmissing, hshown⟩
    · obtain ⟨id', toolType', callId, name, rfl⟩ := hdesc.toolCall rfl
      obtain ⟨args, hname⟩ := hdesc.name id' toolType' callId name rfl
      obtain ⟨rfl, rfl, -⟩ := hname
      have hstart : NodeMark.start (.toolCall id' toolType' callId' name') ∈ marks i body := by
        rw [hmarks]
        exact mem_cons_self ..
      obtain ⟨hemits, horder⟩ := emits_of_toolStart hstart
      have hlast : missingShown body nodes (.toolCall id toolType callId' name' arguments' extra, i) = [] :=
        if_neg (by simp [isMissing, hemits])
      have hparts : (deltas.flatMap fun d => NodeMark.shown k false (.delta d)).filterMap (·.call) =
          (deltas.map NodeDelta.argumentsPart).map fun part => ⟨k, "", "", part⟩ := by
        rw [List.filterMap_flatMap, List.map_map, List.map_eq_flatMap]
        apply flatMap_congr
        intro d hd
        have hk := hkind d hd
        cases d <;> first | rfl | exact hk.elim
      rw [hshown, hlast, hlegacy, hk, map_nil, append_nil, filterMap_append, hparts]
      refine ⟨mem_append_left _ horder, by simp [NodeMark.shown, callShown], ?_⟩
      exact (hread _).trans (by rw [← (hacc : joined NodeDelta.argumentsPart deltas = arguments')]; rfl)
    · have horder : i ∈ callOrder body nodes := mem_append_right _ (mem_map.mpr
        ⟨(.toolCall id toolType callId' name' arguments' extra, i),
          mem_filter.mpr ⟨mem_zipIdx_iff_getElem?.mpr hnode, hmissing⟩, rfl⟩)
      rw [hshown, hlegacy, hk]
      refine ⟨horder, by simp [Node.shown, callShown], ?_⟩
      by_cases hempty : arguments' = ""
      · have hone := hread []
        simpa [Node.shown, callShown, hempty] using hone
      · have hone := hread [arguments']
        simpa [Node.shown, callShown, hempty] using hone
  | _ => cases hcall

theorem entry_owner {x : Shown} (hx : (i, x) ∈ clientTrace body nodes) :
    ∃ node, nodes[i]? = some node ∧ EntryOf (callIndex body nodes i) (legacyAt body nodes i) node x := by
  have hmem := mem_shownOf.mpr hx
  cases hnode : nodes[i]? with
  | none =>
    have hnone : marks i body = [] := by
      rcases h.lifecycle i with hnone | ⟨node, -, -, hsome, -⟩
      · exact hnone
      · rw [hnode] at hsome
        cases hsome
    rw [shownOf_clientTrace, hnone, hnode] at hmem
    cases hmem
  | some node =>
    refine ⟨node, rfl, ?_⟩
    rcases h.shown hnode with ⟨header, deltas, -, hdesc, hkind, -, hshown⟩ | ⟨-, -, hshown⟩
    · rw [hshown] at hmem
      rcases mem_append.mp hmem with hmem | hmem
      · rcases mem_append.mp hmem with hmem | hmem
        · exact .ofStart hdesc hmem
        · obtain ⟨d, hd, hmem⟩ := mem_flatMap.mp hmem
          exact .ofDelta (hkind d hd) hmem
      · unfold missingShown at hmem
        split at hmem
        · exact .ofNode (by simpa using hmem)
        · cases hmem
    · exact .ofNode (hshown ▸ hmem)

theorem calls_of_index (i : Nat) :
    (((clientTrace body nodes).map (·.2)).filterMap (·.call)).filter (·.index = callIndex body nodes i) =
      ((shownOf i (clientTrace body nodes)).filterMap (·.call)).filter (·.index = callIndex body nodes i) := by
  simp only [shownOf, filterMap_map, filter_filterMap, filterMap_filter]
  apply filterMap_congr
  rintro ⟨j, x⟩ hx
  by_cases hj : j = i
  · simp [hj]
  obtain ⟨node, hnode, hentry⟩ := h.entry_owner hx
  cases hcall : x.call with
  | none => simp [hcall]
  | some c =>
    obtain ⟨hindex, hsome, hlegacy⟩ := hentry.call c hcall
    obtain ⟨call, hnodecall⟩ := isSome_iff_exists.mp hsome
    have horder := (h.call_told hnode hnodecall hlegacy).1
    have hne : c.index ≠ callIndex body nodes i := fun heq =>
      hj ((idxOf_inj horder).mp (hindex.symm.trans heq))
    simp [hj, hcall, hne]

end CanonicalStream

end Monoize.Urp
