import Monoize.ChatStreamContent

/-! The Chat decoder puts every fragment of a stream with parallel tool calls where it belongs. -/

namespace Monoize.Urp

open FirstOccurrence List Option Function ChatStream ChatContent Node String

variable {data : JsonValue} {fragments : List JsonMap} {idOf : Nat → String} {chunks : List JsonValue}

def chunkContent (data : JsonValue) : String := ((chatDelta data).getStr "content").getD ""

def toolFragments (data : JsonValue) : List JsonMap := (deltaToolCalls (chatDelta data)).filterMap JsonValue.asObject

def fragmentIndex (f : JsonMap) : Nat := (toolCallIndex f).getD 0

def fragmentArguments (f : JsonMap) : String := (toolCallArgumentsDeltaText f).getD ""

def seenIndices (fragments : List JsonMap) : List Nat := (firstNew fragmentIndex [] fragments).map fragmentIndex

def ofIndex (k : Nat) (fragments : List JsonMap) : List JsonMap := fragments.filter (fragmentIndex · = k)

def argumentsOf (k : Nat) (fragments : List JsonMap) : String := String.join ((ofIndex k fragments).map fragmentArguments)

def firstName (names : List String) : String := (names.find? (· ≠ "")).getD ""

def nameOf (k : Nat) (fragments : List JsonMap) : String := firstName ((ofIndex k fragments).map toolCallName)

/-- A chunk that reports no error, carries no whole message, and whose delta has string content and
no legacy function call. -/
@[mk_iff]
structure DeltaChunk (data : JsonValue) : Prop where
  noError : chatError data = none
  noErrorReason : chatFinishReason data ≠ some "error"
  noSnapshot : ((chatChoice data).bind (JsonMap.member · "message")).bind JsonValue.asObject = none
  stringContent : ((chatDelta data).get "content").bind JsonValue.asArray = none
  noFunctionCall : ((chatDelta data).get "function_call").bind legacyFunctionCallAsToolCall = none

@[mk_iff]
structure PlainDelta (delta : JsonValue) : Prop where
  stringContent : (delta.get "content").bind JsonValue.asArray = none
  noFunctionCall : (delta.get "function_call").bind legacyFunctionCallAsToolCall = none

theorem DeltaChunk.plain (h : DeltaChunk data) : PlainDelta (chatDelta data) :=
  ⟨h.stringContent, h.noFunctionCall⟩

/-- Every fragment of a tool call has an index; the first of each index carries the id of the call,
which is not empty and differs from those of the other indices; later ones repeat or omit it. -/
@[mk_iff]
structure ToolProtocol (idOf : Nat → String) (fragments : List JsonMap) : Prop where
  indexed : ∀ f ∈ fragments, (toolCallIndex f).isSome
  own : ∀ f ∈ fragments, toolCallOwnId f = "" ∨ toolCallOwnId f = idOf (fragmentIndex f)
  first : ∀ f ∈ firstNew fragmentIndex [] fragments, toolCallOwnId f = idOf (fragmentIndex f)
  nonempty : ∀ k ∈ seenIndices fragments, idOf k ≠ ""
  distinct : ∀ k ∈ seenIndices fragments, ∀ l ∈ seenIndices fragments, idOf k = idOf l → k = l

instance (data : JsonValue) : Decidable (DeltaChunk data) := decidable_of_iff _ (deltaChunk_iff ..).symm

instance (idOf : Nat → String) (fragments : List JsonMap) : Decidable (ToolProtocol idOf fragments) :=
  decidable_of_iff _ (toolProtocol_iff ..).symm

theorem mem_seenIndices {k : Nat} : k ∈ seenIndices fragments ↔ ∃ f ∈ fragments, fragmentIndex f = k := by
  constructor
  · intro h
    obtain ⟨f, hf, rfl⟩ := mem_map.mp h
    exact ⟨f, (mem_of_mem_firstNew hf).1, rfl⟩
  · rintro ⟨f, hf, rfl⟩
    have h : fragmentIndex f ∈ [] ++ (firstNew fragmentIndex [] fragments).map fragmentIndex := key_mem_firstNew hf
    exact h

theorem seenIndices_concat (fragments : List JsonMap) (f : JsonMap) :
    seenIndices (fragments ++ [f]) = if fragmentIndex f ∈ seenIndices fragments then seenIndices fragments
      else seenIndices fragments ++ [fragmentIndex f] := by
  unfold seenIndices
  rw [firstNew_append, nil_append]
  split
  · rename_i h
    rw [firstNew_cons_of_mem h]
    simp [firstNew]
  · rename_i h
    rw [firstNew_cons_of_not_mem h]
    simp [firstNew]

theorem argumentsOf_concat (k : Nat) (fragments : List JsonMap) (f : JsonMap) :
    argumentsOf k (fragments ++ [f]) =
      argumentsOf k fragments ++ if fragmentIndex f = k then fragmentArguments f else "" := by
  unfold argumentsOf ofIndex
  by_cases h : fragmentIndex f = k <;> simp [h]

theorem firstName_concat (names : List String) (name : String) :
    firstName (names ++ [name]) = if name ≠ "" ∧ firstName names = "" then name else firstName names := by
  unfold firstName
  rw [find?_append]
  cases h : names.find? (· ≠ "") with
  | none => by_cases hn : name = "" <;> simp [hn]
  | some found =>
    have hfound : found ≠ "" := by simpa using find?_some h
    simp [hfound]

theorem nameOf_concat (k : Nat) (fragments : List JsonMap) (f : JsonMap) :
    nameOf k (fragments ++ [f]) = if fragmentIndex f = k then
      (if toolCallName f ≠ "" ∧ nameOf k fragments = "" then toolCallName f else nameOf k fragments)
      else nameOf k fragments := by
  unfold nameOf ofIndex
  rw [filter_append, map_append]
  by_cases h : fragmentIndex f = k
  · simp only [h, decide_true, filter_cons_of_pos, filter_nil, map_cons, map_nil, if_true,
      firstName_concat]
  · simp [h]

theorem argumentsOf_of_not_mem {k : Nat} (h : k ∉ seenIndices fragments) :
    argumentsOf k fragments = "" ∧ nameOf k fragments = "" := by
  have hempty : ofIndex k fragments = [] := by
    rw [ofIndex, filter_eq_nil_iff]
    intro f hf hk
    exact h (mem_seenIndices.mpr ⟨f, hf, by simpa using hk⟩)
  simp [argumentsOf, nameOf, hempty, firstName]

structure ToolsRead (idOf : Nat → String) (fragments : List JsonMap) (c : ChatContent) : Prop where
  order : c.callOrder = (seenIndices fragments).map idOf
  ids : ∀ k ∈ seenIndices fragments, c.callIdByIndex k = some (idOf k)
  calls : ∀ callId, (c.calls callId).isSome ↔ callId ∈ c.callOrder
  entries : ∀ k ∈ seenIndices fragments, ∃ entry, c.calls (idOf k) = some entry ∧ entry.name = nameOf k fragments ∧
    entry.arguments = argumentsOf k fragments

section

variable {idOf : Nat → String} {fragments rest : List JsonMap} {f : JsonMap}

theorem ToolProtocol.fragment (h : ToolProtocol idOf (fragments ++ f :: rest)) :
    toolCallIndex f = some (fragmentIndex f) ∧ idOf (fragmentIndex f) ≠ "" ∧
      (toolCallOwnId f = idOf (fragmentIndex f) ∨ toolCallOwnId f = "" ∧ fragmentIndex f ∈ seenIndices fragments) ∧
      ∀ k ∈ seenIndices fragments, idOf k = idOf (fragmentIndex f) → k = fragmentIndex f := by
  have hf : f ∈ fragments ++ f :: rest := by simp
  have hmem : fragmentIndex f ∈ seenIndices (fragments ++ f :: rest) := mem_seenIndices.mpr ⟨f, hf, rfl⟩
  refine ⟨?_, h.nonempty _ hmem, ?_, ?_⟩
  · obtain ⟨k, hk⟩ := isSome_iff_exists.mp (h.indexed f hf)
    simp [fragmentIndex, hk]
  · by_cases hseen : fragmentIndex f ∈ seenIndices fragments
    · rcases h.own f hf with hown | hown
      · exact .inr ⟨hown, hseen⟩
      · exact .inl hown
    · refine .inl (h.first f ?_)
      unfold seenIndices at hseen
      rw [firstNew_append, nil_append, firstNew_cons_of_not_mem hseen]
      simp
  · intro k hk heq
    obtain ⟨g, hg, rfl⟩ := mem_seenIndices.mp hk
    exact h.distinct _ (mem_seenIndices.mpr ⟨g, by simp [hg], rfl⟩) _ hmem heq

theorem ToolProtocol.of_append (h : ToolProtocol idOf (fragments ++ rest)) : ToolProtocol idOf fragments := by
  have hseen : ∀ k ∈ seenIndices fragments, k ∈ seenIndices (fragments ++ rest) := by
    intro k hk
    obtain ⟨f, hf, rfl⟩ := mem_seenIndices.mp hk
    exact mem_seenIndices.mpr ⟨f, mem_append_left _ hf, rfl⟩
  constructor
  · intro f hf
    exact h.indexed f (mem_append_left _ hf)
  · intro f hf
    exact h.own f (mem_append_left _ hf)
  · intro f hf
    refine h.first f ?_
    rw [firstNew_append]
    exact mem_append_left _ hf
  · intro k hk
    exact h.nonempty k (hseen k hk)
  · intro k hk l hl
    exact h.distinct k (hseen k hk) l (hseen l hl)

theorem ToolsRead.toolCallIdOf {s : ChatStream} (h : ToolsRead idOf fragments s.content)
    (hprotocol : ToolProtocol idOf (fragments ++ f :: rest)) (pos : Nat) :
    s.toolCallIdOf f pos = idOf (fragmentIndex f) := by
  obtain ⟨hindex, hne, hown, -⟩ := hprotocol.fragment
  unfold ChatStream.toolCallIdOf
  rcases hown with hown | ⟨hown, hseen⟩
  · simp [hown, hne]
  · have hid : s.callIdByIndex (fragmentIndex f) = some (idOf (fragmentIndex f)) := h.ids _ hseen
    simp [hown, hindex, hid, hne]

theorem ToolsRead.addCall {c : ChatContent} (h : ToolsRead idOf fragments c)
    (hprotocol : ToolProtocol idOf (fragments ++ f :: rest)) (toolType : ToolCallType) (legacy : Bool) :
    ToolsRead idOf (fragments ++ [f])
      (c.addCall (toolCallIndex f) (idOf (fragmentIndex f)) toolType (toolCallName f) (fragmentArguments f) legacy) := by
  obtain ⟨hindex, hne, -, hdistinct⟩ := hprotocol.fragment
  have hknown : (c.calls (idOf (fragmentIndex f))).isSome ↔ fragmentIndex f ∈ seenIndices fragments := by
    rw [h.calls, h.order, List.mem_map]
    constructor
    · rintro ⟨k, hk, heq⟩
      exact hdistinct k hk heq ▸ hk
    · exact fun hk => ⟨_, hk, rfl⟩
  have horder : (if (c.calls (idOf (fragmentIndex f))).isSome then c.callOrder
      else c.callOrder ++ [idOf (fragmentIndex f)]) = (seenIndices (fragments ++ [f])).map idOf := by
    rw [seenIndices_concat, h.order]
    by_cases hk : fragmentIndex f ∈ seenIndices fragments
    · rw [if_pos hk, if_pos (hknown.mpr hk)]
    · rw [if_neg hk, if_neg (fun hs => hk (hknown.mp hs)), map_append, map_singleton]
  constructor
  · exact horder
  · intro k hk
    simp only [ChatContent.addCall, hindex, elim_some]
    by_cases heq : k = fragmentIndex f
    · rw [heq, update_self]
    rw [update_of_ne heq]
    refine h.ids k ?_
    rw [seenIndices_concat] at hk
    split at hk
    · exact hk
    · simpa [heq] using hk
  · intro callId
    show (update c.calls _ _ callId).isSome ↔ callId ∈ (if _ then _ else _)
    by_cases heq : callId = idOf (fragmentIndex f)
    · rw [heq, update_self, horder]
      simp only [isSome_some, true_iff]
      exact mem_map_of_mem (mem_seenIndices.mpr ⟨f, by simp, rfl⟩)
    · rw [update_of_ne heq, h.calls]
      split <;> simp [heq]
  · intro k hk
    by_cases heq : k = fragmentIndex f
    · subst heq
      refine ⟨_, update_self _ _ _, ?_⟩
      rw [nameOf_concat, argumentsOf_concat]
      by_cases hseen : fragmentIndex f ∈ seenIndices fragments
      · obtain ⟨entry, hentry, hname, hargs⟩ := h.entries _ hseen
        simp [hentry, ToolCallEntry.update, hname, hargs]
      obtain ⟨hargs, hname⟩ := argumentsOf_of_not_mem hseen
      have hnone : c.calls (idOf (fragmentIndex f)) = none := by
        by_contra hsome
        exact hseen (hknown.mp (isSome_iff_ne_none.mpr hsome))
      by_cases hempty : toolCallName f = "" <;> simp [hnone, ToolCallEntry.update, hname, hargs]
    · have hk' : k ∈ seenIndices fragments := by
        rw [seenIndices_concat] at hk
        split at hk
        · exact hk
        · simpa [heq] using hk
      have hid : idOf k ≠ idOf (fragmentIndex f) := fun hid => heq (hdistinct k hk' hid)
      obtain ⟨entry, hentry, hname, hargs⟩ := h.entries k hk'
      refine ⟨entry, (update_of_ne hid _ _).trans hentry, ?_, ?_⟩
      · rw [nameOf_concat, if_neg (Ne.symm heq), hname]
      · rw [argumentsOf_concat, if_neg (Ne.symm heq), hargs, append_empty]

end

variable {ctx : ChatContext} {s : ChatStream}

theorem ToolsRead.foldl {rest : List JsonMap} (raws : List JsonValue) (start : Nat) (h : ToolsRead idOf fragments s.content)
    (hprotocol : ToolProtocol idOf (fragments ++ raws.filterMap JsonValue.asObject ++ rest)) :
    ToolsRead idOf (fragments ++ raws.filterMap JsonValue.asObject)
      ((raws.zipIdx start).foldl (fun s call => processToolCallDelta ctx call.1 call.2 false s) s).content := by
  induction raws generalizing s fragments start with
  | nil => simpa using h
  | cons raw raws ih =>
    rw [zipIdx_cons, foldl_cons]
    cases hraw : raw.asObject with
    | none =>
      have hsame : processToolCallDelta ctx raw start false s = s := by
        unfold processToolCallDelta
        rw [hraw]
      rw [filterMap_cons_none hraw] at hprotocol ⊢
      rw [hsame]
      exact ih (start + 1) h hprotocol
    | some f =>
      have hobj : raw = .object f := by
        cases raw <;> simp_all [JsonValue.asObject]
      subst hobj
      rw [filterMap_cons_some hraw, append_cons] at hprotocol ⊢
      have hprotocol' : ToolProtocol idOf (fragments ++ f :: (raws.filterMap JsonValue.asObject ++ rest)) := by
        simpa using hprotocol
      have hid := h.toolCallIdOf hprotocol' start
      have hread := h.addCall hprotocol' (chatToolCallType f) false
      refine ih (start + 1) ?_ hprotocol
      rw [processToolCallDelta_content (hid ▸ hprotocol'.fragment.2.1), hid]
      exact hread

def applyDeltaChunk (ctx : ChatContext) (s : ChatStream) (data : JsonValue) : ChatStream :=
  processDelta ctx (chatDelta data) (noteDeltaExtra data (match chatFinishReason data with
    | some reason => recordFinishReason data reason s
    | none => s))

theorem processChunk_delta (h : DeltaChunk data) : processChunk ctx data s = .ok (applyDeltaChunk ctx s data) := by
  unfold processChunk
  rw [h.noError, if_neg h.noErrorReason, h.noSnapshot]
  rfl

theorem streamChat_chunks (h : ∀ data ∈ chunks, DeltaChunk data) (rest : List ChatSseEvent) :
    streamChat ctx (chunks.map .chunk ++ rest) s = streamChat ctx rest (chunks.foldl (applyDeltaChunk ctx) s) := by
  induction chunks generalizing s with
  | nil => rfl
  | cons data chunks ih =>
    rw [map_cons, cons_append, streamChat, processChunk_delta (h data (by simp))]
    exact ih fun d hd => h d (by simp [hd])

theorem applyDeltaChunk_kept (h : s.Kept ctx) (data : JsonValue) : (applyDeltaChunk ctx s data).Kept ctx := by
  apply ChatStream.Kept.processDelta
  apply ChatStream.Kept.noteDeltaExtra
  split
  · exact h.recordFinishReason
  · exact h

structure Demultiplexed (ctx : ChatContext) (idOf : Nat → String) (chunks : List JsonValue) (s : ChatStream) : Prop where
  kept : s.Kept ctx
  text : s.outputText = String.join (chunks.map chunkContent)
  hasText : s.textNodeIndex.isSome = chunks.any fun data => chunkContent data != ""
  reasoning : s.reasoningText = String.join (chunks.map fun data => deltaReasoningText (chatDelta data))
  summary : s.reasoningSummary = ""
  details : s.reasoningDetailNodes.map (·.2) = chunks.flatMap fun data => deltaDetailNodes (chatDelta data)
  tools : ToolsRead idOf (chunks.flatMap toolFragments) s.content
  finished : s.protocolTerminalSeen = chunks.any fun data => (chatFinishReason data).isSome

theorem applyDeltaChunk_prose (ctx : ChatContext) (s : ChatStream) (h : PlainDelta (chatDelta data)) :
    (applyDeltaChunk ctx s data).content.prose =
      (s.outputText ++ chunkContent data, s.textNodeIndex.isSome || chunkContent data != "",
        s.reasoningText ++ deltaReasoningText (chatDelta data), s.reasoningSummary,
        s.reasoningDetailNodes.map (·.2) ++ deltaDetailNodes (chatDelta data),
        s.protocolTerminalSeen || (chatFinishReason data).isSome) := by
  unfold applyDeltaChunk processDelta processDeltaToolCalls
  rw [h.noFunctionCall]
  rw [foldl_processToolCallDelta_prose, processDeltaReasoning_content, processDeltaContent_content h.stringContent,
    startOnAssistantRole_content]
  cases hreason : chatFinishReason data with
  | none => simp [prose, content, noteDeltaExtra, chunkContent]
  | some reason => simp [prose, content, noteDeltaExtra, recordFinishReason, chunkContent]

theorem applyDeltaChunk_tools (ctx : ChatContext) {rest : List JsonMap} (h : PlainDelta (chatDelta data))
    (hread : ToolsRead idOf fragments s.content) (hprotocol : ToolProtocol idOf (fragments ++ toolFragments data ++ rest)) :
    ToolsRead idOf (fragments ++ toolFragments data) (applyDeltaChunk ctx s data).content := by
  unfold applyDeltaChunk processDelta processDeltaToolCalls
  rw [h.noFunctionCall]
  refine ToolsRead.foldl (deltaToolCalls (chatDelta data)) 0 ?_ hprotocol
  rw [processDeltaReasoning_content, processDeltaContent_content h.stringContent, startOnAssistantRole_content]
  cases chatFinishReason data <;> exact ⟨hread.order, hread.ids, hread.calls, hread.entries⟩

theorem Demultiplexed.init (ctx : ChatContext) (idOf : Nat → String) : Demultiplexed ctx idOf [] {} where
  kept := init_kept
  text := rfl
  hasText := rfl
  reasoning := rfl
  summary := rfl
  details := rfl
  tools := ⟨rfl, fun _ hk => by simp [seenIndices, firstNew] at hk, fun _ => by simp [content],
    fun _ hk => by simp [seenIndices, firstNew] at hk⟩
  finished := rfl

theorem ChatStream.Kept.sorted_filterMap {α : Type} (h : s.Kept ctx) (view : Node → Option α) {part : List (Nat × Node)}
    (hpart : (s.unsortedNodes ctx).filter (fun e => (view e.2).isSome) = part.filter fun e => (view e.2).isSome)
    (hsorted : (part.map (·.1)).Pairwise (· < ·)) :
    ((s.sortedNodes ctx).map (·.2)).filterMap view = (part.map (·.2)).filterMap view := by
  have hfilter : ∀ l : List (Nat × Node), (l.map (·.2)).filterMap view =
      (l.filter fun e => (view e.2).isSome).filterMap fun e => view e.2 := by
    intro l
    rw [filterMap_map, filterMap_filter]
    apply filterMap_congr
    intro e _
    cases hv : view e.2 <;> simp [hv]
  have hperm : ((s.sortedNodes ctx).filter fun e => (view e.2).isSome).Perm (part.filter fun e => (view e.2).isSome) :=
    hpart ▸ (perm_insertionSort _ _).filter _
  rw [hfilter, hfilter]
  congr 1
  refine @List.Perm.eq_of_pairwise _ (fun a b => a.1 ≤ b.1) _ _ ?_ ?_ ?_ hperm
  · intro a b ha hb hab hba
    have hb' : b ∈ s.sortedNodes ctx := mem_of_mem_filter (hperm.mem_iff.mpr hb)
    exact inj_on_of_nodup_map h.sortedNodes_keeps.nodup (mem_of_mem_filter ha) hb' (Nat.le_antisymm hab hba)
  · exact sortedNodes_pairwise.filter _
  · exact ((pairwise_map.mp hsorted).imp Nat.le_of_lt).filter _

theorem ChatStream.Kept.toolNodes_call (h : s.Kept ctx) :
    ((s.toolNodes ctx).map (·.2)).filterMap call =
      s.callOrder.filterMap fun callId => (s.calls callId).map fun entry => (callId, entry.name, entry.arguments) := by
  unfold toolNodes
  rw [filterMap_map, filterMap_filterMap]
  apply filterMap_congr
  intro callId hmem
  obtain ⟨i, hi⟩ := isSome_iff_exists.mp ((h.placed callId).mp hmem)
  obtain ⟨entry, hentry⟩ := isSome_iff_exists.mp ((h.calls callId).mp hmem)
  simp [toolNode?, hi, hentry, toolCallNode, call]

theorem filter_eq_nil_of_view {α : Type} {l : List (Nat × Node)} {view : Node → Option α} (h : ∀ e ∈ l, view e.2 = none) :
    l.filter (fun e => (view e.2).isSome) = [] := by
  rw [filter_eq_nil_iff]
  intro e he
  simp [h e he]

theorem ChatStream.Kept.reasoningNodes_view {α : Type} (h : s.Kept ctx) {view : Node → Option α}
    (hview : ∀ node : Node, node.isReasoning → view node = none) :
    (s.nodesBeforeText ctx).filter (fun e => (view e.2).isSome) = [] := by
  apply filter_eq_nil_of_view
  intro e he
  rcases mem_append.mp he with he | he
  · obtain ⟨i, -, rfl⟩ := mem_map.mp he
    exact hview _ rfl
  · exact hview _ (h.details e he)

theorem ChatStream.mem_toolNodes {e : Nat × Node} (he : e ∈ s.toolNodes ctx) :
    ∃ callId entry, e.2 = toolCallNode ctx callId entry := by
  obtain ⟨callId, -, hnode⟩ := mem_filterMap.mp he
  simp only [toolNode?, bind_eq_bind, bind_eq_some_iff, some_inj] at hnode
  obtain ⟨i, -, entry, -, rfl⟩ := hnode
  exact ⟨callId, entry, rfl⟩

theorem ChatStream.Kept.otherNodes_view {α : Type} (h : s.Kept ctx) {view : Node → Option α}
    (hview : ∀ node : Node, node.isReasoning = false → view node = none) :
    (s.textNodeIndex.toList.map (·, s.textNode ctx) ++ (s.toolNodes ctx ++ s.providerItems)).filter
      (fun e => (view e.2).isSome) = [] := by
  apply filter_eq_nil_of_view
  intro e he
  apply hview
  simp only [mem_append] at he
  rcases he with he | he | he
  · obtain ⟨i, -, rfl⟩ := mem_map.mp he
    rfl
  · obtain ⟨callId, entry, hnode⟩ := mem_toolNodes he
    rw [hnode]
    rfl
  · have hitem := h.items e he
    cases hnode : e.2 <;> rw [hnode] at hitem <;> first | rfl | cases hitem

theorem ChatStream.Kept.sorted_calls (h : s.Kept ctx) :
    ((s.sortedNodes ctx).map (·.2)).filterMap call =
      s.callOrder.filterMap fun callId => (s.calls callId).map fun entry => (callId, entry.name, entry.arguments) := by
  rw [h.sorted_filterMap call ?_ h.toolsOrdered, h.toolNodes_call]
  have hreasoning : (s.nodesBeforeText ctx).filter (fun e => (call e.2).isSome) = [] :=
    h.reasoningNodes_view fun _ hnode => (isReasoning.views hnode).2.2
  have htext : (s.textNodeIndex.toList.map (·, s.textNode ctx)).filter (fun e => (call e.2).isSome) = [] := by
    apply filter_eq_nil_of_view
    intro e he
    obtain ⟨i, -, rfl⟩ := mem_map.mp he
    rfl
  have hitems : s.providerItems.filter (fun e => (call e.2).isSome) = [] :=
    filter_eq_nil_of_view fun e he => (isProviderItem.views (h.items e he)).2.2
  have hlist : s.unsortedNodes ctx = s.nodesBeforeText ctx ++ s.textNodeIndex.toList.map (·, s.textNode ctx) ++
      s.toolNodes ctx ++ s.providerItems := rfl
  rw [hlist, filter_append, filter_append, filter_append, hreasoning, htext, hitems]
  simp

theorem ChatStream.Kept.sorted_texts (h : s.Kept ctx) (hempty : s.outputText = "" → s.textNodeIndex = none) :
    ((s.sortedNodes ctx).map (·.2)).filterMap assistantText = if s.outputText = "" then [] else [s.outputText] := by
  have hreasoning : (s.nodesBeforeText ctx).filter (fun e => (assistantText e.2).isSome) = [] :=
    h.reasoningNodes_view fun _ hnode => (isReasoning.views hnode).1
  have htools : (s.toolNodes ctx).filter (fun e => (assistantText e.2).isSome) = [] := by
    apply filter_eq_nil_of_view
    intro e he
    obtain ⟨callId, entry, hnode⟩ := mem_toolNodes he
    rw [hnode]
    rfl
  have hitems : s.providerItems.filter (fun e => (assistantText e.2).isSome) = [] :=
    filter_eq_nil_of_view fun e he => (isProviderItem.views (h.items e he)).1
  have hlist : s.unsortedNodes ctx = s.nodesBeforeText ctx ++ s.textNodeIndex.toList.map (·, s.textNode ctx) ++
      s.toolNodes ctx ++ s.providerItems := rfl
  have hpart : (s.unsortedNodes ctx).filter (fun e => (assistantText e.2).isSome) =
      (s.textNodeIndex.toList.map (·, s.textNode ctx)).filter fun e => (assistantText e.2).isSome := by
    rw [hlist, filter_append, filter_append, filter_append, hreasoning, htools, hitems]
    simp
  rw [h.sorted_filterMap assistantText hpart (by cases s.textNodeIndex <;> simp)]
  cases hi : s.textNodeIndex with
  | none => simp [h.text hi]
  | some i =>
    have hne : s.outputText ≠ "" := fun he => some_ne_none i (hi.symm.trans (hempty he))
    simp [hne, textNode, assistantText]

variable (h : Demultiplexed ctx idOf chunks s)

include h

theorem Demultiplexed.step {later : List JsonValue} (hdata : PlainDelta (chatDelta data))
    (hprotocol : ToolProtocol idOf ((chunks ++ data :: later).flatMap toolFragments)) :
    Demultiplexed ctx idOf (chunks ++ [data]) (applyDeltaChunk ctx s data) := by
  have hprose := applyDeltaChunk_prose ctx s hdata
  rw [prose] at hprose
  simp only [Prod.mk.injEq] at hprose
  obtain ⟨htext, hhasText, hreasoning, hsummary, hdetails, hfinished⟩ := hprose
  constructor
  · exact applyDeltaChunk_kept h.kept data
  · rw [map_append, join_append, ← h.text]
    simpa [content] using htext
  · rw [any_append, ← h.hasText]
    simpa [content] using hhasText
  · rw [map_append, join_append, ← h.reasoning]
    simpa [content] using hreasoning
  · exact hsummary.trans h.summary
  · rw [flatMap_append, ← h.details]
    simpa [content] using hdetails
  · have hread := applyDeltaChunk_tools ctx hdata h.tools (by simpa using hprotocol)
    simpa using hread
  · rw [any_append, ← h.finished]
    simpa [content] using hfinished

omit h in
theorem Demultiplexed.foldl {before : List JsonValue} (h : Demultiplexed ctx idOf before s)
    (hchunks : ∀ data ∈ chunks, DeltaChunk data)
    (hprotocol : ToolProtocol idOf ((before ++ chunks).flatMap toolFragments)) :
    Demultiplexed ctx idOf (before ++ chunks) (chunks.foldl (applyDeltaChunk ctx) s) := by
  induction chunks generalizing s before with
  | nil => simpa using h
  | cons data chunks ih =>
    rw [append_cons]
    refine ih (h.step (hchunks data (by simp)).plain hprotocol) (fun d hd => hchunks d (by simp [hd])) ?_
    simpa using hprotocol

theorem Demultiplexed.textNodeIndex (hempty : s.outputText = "") : s.textNodeIndex = none := by
  rw [h.text] at hempty
  have hall : ∀ data ∈ chunks, chunkContent data = "" := by
    intro data hdata
    obtain ⟨before, after, rfl⟩ := append_of_mem hdata
    rw [map_append, map_cons, join_append, join_cons, append_eq_empty_iff,
      append_eq_empty_iff] at hempty
    exact hempty.2.1
  have hnone := h.hasText
  rw [any_eq_false.mpr fun data hdata => by simp [hall data hdata]] at hnone
  exact isSome_eq_false_iff.mp hnone |> isNone_iff_eq_none.mp

theorem Demultiplexed.texts :
    ((s.sortedNodes ctx).map (·.2)).filterMap assistantText =
      if join (chunks.map chunkContent) = "" then [] else [join (chunks.map chunkContent)] := by
  rw [h.kept.sorted_texts h.textNodeIndex, h.text]

theorem Demultiplexed.calls : ((s.sortedNodes ctx).map (·.2)).filterMap call =
      (seenIndices (chunks.flatMap toolFragments)).map fun k =>
        (idOf k, nameOf k (chunks.flatMap toolFragments), argumentsOf k (chunks.flatMap toolFragments)) := by
  have horder : s.callOrder = (seenIndices (chunks.flatMap toolFragments)).map idOf := h.tools.order
  rw [h.kept.sorted_calls, horder, filterMap_map, ← filterMap_eq_map]
  apply filterMap_congr
  intro k hk
  obtain ⟨entry, hentry, hname, hargs⟩ := h.tools.entries k hk
  have hentry : s.calls (idOf k) = some entry := hentry
  simp [hentry, hname, hargs]

omit h

theorem streamChat_end {rest : List ChatSseEvent} (hseen : s.protocolTerminalSeen = true)
    (hrest : rest = [] ∨ rest.head? = some .done) : streamChat ctx rest s = finishChatStream ctx s := by
  rcases hrest with rfl | hdone
  · rfl
  cases rest with
  | nil => cases hdone
  | cons e rest =>
    have he : e = .done := some_inj.mp hdone
    rw [he, streamChat, if_pos hseen]

theorem Demultiplexed.stream {rest : List ChatSseEvent} (hchunks : ∀ data ∈ chunks, DeltaChunk data)
    (hprotocol : ToolProtocol idOf (chunks.flatMap toolFragments))
    (hfinish : ∃ data ∈ chunks, (chatFinishReason data).isSome) (hrest : rest = [] ∨ rest.head? = some .done) :
    ∃ s, Demultiplexed ctx idOf chunks s ∧
      CompletedStream (streamChatToUrpEvents ctx (chunks.map .chunk ++ rest)) ((s.sortedNodes ctx).map (·.2)) := by
  have hread := (Demultiplexed.init ctx idOf).foldl hchunks hprotocol
  refine ⟨_, hread, ?_⟩
  have hseen : (chunks.foldl (applyDeltaChunk ctx) {}).protocolTerminalSeen = true := by
    rw [hread.finished, List.any_eq_true]
    exact hfinish
  unfold streamChatToUrpEvents
  rw [streamChat_chunks hchunks, streamChat_end hseen hrest]
  exact hread.kept.finish hseen

def chatChunk (delta : JsonMap) (finishReason : JsonValue) : JsonValue :=
  .object [("choices", .array [.object [("delta", .object delta), ("finish_reason", finishReason)]])]

def toolFragment (index : Nat) (id : Option String) (name arguments : String) : JsonValue :=
  .object ([("function", .object [("arguments", .string arguments), ("name", .string name)])] ++
    id.toList.map (fun id => ("id", .string id)) ++ [("index", .int index), ("type", .string "function")])

end Monoize.Urp
