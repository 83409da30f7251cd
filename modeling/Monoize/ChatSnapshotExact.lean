import Monoize.ChatSnapshot

/-! Deltas that carry a part of a message, then a chunk with the whole message: what the client gets. -/

namespace Monoize.Urp

open GreedyClaims List Option Node

variable {ctx : ChatContext} {s : ChatStream}

def Node.shownReasoning (node : Node) : Option String := node.reasoningText.filter (· ≠ "")

theorem join_shownReasoning (nodes : List Node) :
    String.join (nodes.filterMap shownReasoning) = String.join (nodes.filterMap reasoningText) := by
  induction nodes with
  | nil => rfl
  | cons node nodes ih =>
    cases hnode : node.reasoningText with
    | none => simp [hnode, shownReasoning, ih]
    | some text =>
      by_cases hempty : text = ""
      · simp [hnode, shownReasoning, ih, hempty]
      · simp [hnode, Node.shownReasoning, ih, Option.filter, hempty]

theorem join_details {nodes : List Node} (h : ∀ node ∈ nodes, node.isReasoning = true) :
    String.join (nodes.filterMap reasoningText) = String.join (nodes.map detailText) := by
  induction nodes with
  | nil => rfl
  | cons node nodes ih =>
    have hnode := h node (by simp)
    cases node <;> cases hnode
    simp [reasoningText, detailText, ih fun n hn => h n (by simp [hn])]

theorem Node.shownReasoning_eq_none {node : Node} (h : node.isReasoning = false) : node.shownReasoning = none := by
  cases node <;> first | rfl | cases h

theorem ChatStream.reasoningNode_text (hsummary : s.reasoningSummary = "") :
    (s.reasoningNode ctx).reasoningText = some s.reasoningText := by
  by_cases hempty : s.reasoningText = "" <;> simp [ChatStream.reasoningNode, Node.reasoningText, hsummary, hempty]

theorem ChatStream.Kept.sorted_reasoningText (h : s.Kept ctx) (hsummary : s.reasoningSummary = "")
    (hmode : s.reasoningText = "" ∨ s.reasoningDetailNodes = []) :
    String.join (((s.sortedNodes ctx).map (·.2)).filterMap Node.reasoningText) =
      s.reasoningText ++ String.join (s.content.details.map detailText) := by
  have hlist : s.unsortedNodes ctx = s.reasoningNodeIndex.toList.map (·, s.reasoningNode ctx) ++ s.reasoningDetailNodes ++
      (s.textNodeIndex.toList.map (·, s.textNode ctx) ++ (s.toolNodes ctx ++ s.providerItems)) := by
    simp [ChatStream.unsortedNodes]
  have hnode := @ChatStream.reasoningNode_text ctx s hsummary
  rw [← join_shownReasoning]
  rcases hmode with hempty | hnil
  · have hscalar : (s.reasoningNodeIndex.toList.map (·, s.reasoningNode ctx)).filter
        (fun e => (shownReasoning e.2).isSome) = [] := by
      apply filter_eq_nil_of_view
      intro e he
      obtain ⟨i, -, rfl⟩ := mem_map.mp he
      simp [shownReasoning, hnode, hempty]
    have hpart : (s.unsortedNodes ctx).filter (fun e => (shownReasoning e.2).isSome) =
        s.reasoningDetailNodes.filter fun e => (shownReasoning e.2).isSome := by
      rw [hlist, filter_append, filter_append, hscalar, h.otherNodes_view fun _ => shownReasoning_eq_none]
      simp
    rw [h.sorted_filterMap shownReasoning hpart h.detailsOrdered, join_shownReasoning, hempty, String.empty_append,
      join_details]
    · rfl
    · intro node hmem
      obtain ⟨e, he, rfl⟩ := mem_map.mp hmem
      exact h.details e he
  · have hpart : (s.unsortedNodes ctx).filter (fun e => (shownReasoning e.2).isSome) =
        (s.reasoningNodeIndex.toList.map (·, s.reasoningNode ctx)).filter fun e => (shownReasoning e.2).isSome := by
      rw [hlist, hnil, filter_append, h.otherNodes_view fun _ => shownReasoning_eq_none]
      simp
    rw [h.sorted_filterMap shownReasoning hpart (by cases s.reasoningNodeIndex <;> simp), join_shownReasoning]
    cases hi : s.reasoningNodeIndex with
    | none => simp [(h.reasoning hi).1, ChatStream.content, hnil]
    | some i => simp [hnode, ChatStream.content, hnil]

def streamedEntries (chunks : List JsonValue) : List JsonMap := chunks.flatMap fun data => deltaEntries (chatDelta data)

/-- Delta chunks and a last chunk that carries the message, of which the deltas carry a part. -/
structure SnapshotStream (message : JsonMap) (chunks : List JsonValue) (final : JsonValue) : Prop where
  delta : ∀ data ∈ chunks, DeltaChunk data
  noError : chatError final = none
  noErrorReason : chatFinishReason final ≠ some "error"
  plain : PlainDelta (chatDelta final)
  snapshot : ((chatChoice final).bind (JsonMap.member · "message")).bind JsonValue.asObject = some message
  finish : ∃ data ∈ chunks ++ [final], (chatFinishReason data).isSome
  stringContent : (message.member "content").bind JsonValue.asArray = none
  noFunctionCall : (message.member "function_call").bind legacyFunctionCallAsToolCall = none
  noOpaque : (message.strMember "reasoning_opaque").filter (· ≠ "") = none
  text : (String.join ((chunks ++ [final]).map chunkContent)).toList <+: (messageText message).toList
  reasoning : (String.join ((chunks ++ [final]).map fun data => deltaReasoningText (chatDelta data))).toList <+:
    (messageScalar message).toList
  details : DetailsProtocol (streamedEntries (chunks ++ [final])) (messageEntries message)
  calls : CallsProtocol ((chunks ++ [final]).flatMap toolFragments) (messageCalls message)

instance (delta : JsonValue) : Decidable (PlainDelta delta) := decidable_of_iff _ (plainDelta_iff ..).symm

theorem processChunk_snapshot {message : JsonMap} {final : JsonValue} (herror : chatError final = none)
    (hreason : chatFinishReason final ≠ some "error")
    (hsnapshot : ((chatChoice final).bind (JsonMap.member · "message")).bind JsonValue.asObject = some message) :
    processChunk ctx final s = .ok (processTerminalMessageSnapshot ctx message (applyDeltaChunk ctx s final)) := by
  unfold processChunk
  rw [herror, if_neg hreason, hsnapshot]
  rfl

theorem deltaDetailNodes_eq (chunks : List JsonValue) (h : ∀ f ∈ streamedEntries chunks, ReasoningEntry f) :
    (chunks.flatMap fun data => deltaDetailNodes (chatDelta data)) = (streamedEntries chunks).map fragmentNode := by
  have hnodes : ∀ delta, deltaDetailNodes delta = (deltaEntries delta).filterMap chatReasoningNodeFromDetail := by
    intro delta
    rw [deltaDetailNodes, deltaEntries, filterMap_filterMap]
  have hflat : (chunks.flatMap fun data => deltaDetailNodes (chatDelta data)) =
      (streamedEntries chunks).filterMap chatReasoningNodeFromDetail := by
    rw [streamedEntries, filterMap_flatMap]
    simp only [hnodes]
  rw [hflat, ← filterMap_eq_map]
  apply filterMap_congr
  intro f hf
  exact ReasoningEntry.node_of_kind (h f hf).type

theorem CallsProtocol.streamed_calls {fragments calls : List JsonMap} (h : CallsProtocol fragments calls) {c : ChatContent}
    (hread : ToolsRead (callIdAt calls) fragments c) :
    (∀ callId, (c.calls callId).isSome → callId ∈ calls.map toolCallOwnId) ∧
      ∀ call ∈ calls, ∀ entry, c.calls (toolCallOwnId call) = some entry →
        entry.arguments.toList <+: (fragmentArguments call).toList := by
  have hseen : ∀ callId, (c.calls callId).isSome → ∃ k ∈ seenIndices fragments, ∃ call, calls[k]? = some call ∧
      toolCallOwnId call = callId ∧ callIdAt calls k = callId ∧
      (argumentsOf k fragments).toList <+: (fragmentArguments call).toList := by
    intro callId hsome
    rw [hread.calls, hread.order, List.mem_map] at hsome
    obtain ⟨k, hk, rfl⟩ := hsome
    have hstreamed := h.streamed k hk
    cases hcall : calls[k]? with
    | none =>
      rw [hcall] at hstreamed
      cases hstreamed
    | some call =>
      rw [hcall, any_some, isPrefixOf_iff_prefix] at hstreamed
      have hat : callIdAt calls k = toolCallOwnId call := by simp [callIdAt, hcall]
      exact ⟨k, hk, call, hcall, hat.symm, rfl, hstreamed⟩
  constructor
  · intro callId hsome
    obtain ⟨k, -, call, hcall, rfl, -⟩ := hseen callId hsome
    exact mem_map_of_mem (mem_of_getElem? hcall)
  · intro call hmem entry hentry
    obtain ⟨k, hk, call', hcall', hid, hat, hbegins⟩ := hseen (toolCallOwnId call) (by rw [hentry]; rfl)
    have heq : call' = call := inj_on_of_nodup_map h.distinct (mem_of_getElem? hcall') hmem hid
    obtain ⟨entry', hentry', -, harguments⟩ := hread.entries k hk
    rw [hat, hentry, some_inj] at hentry'
    rw [hentry', harguments, ← heq]
    exact hbegins

theorem SnapshotStream.settled {message : JsonMap} {chunks : List JsonValue} {final : JsonValue}
    (h : SnapshotStream message chunks final) {t : ChatStream}
    (ht : Demultiplexed ctx (callIdAt (messageCalls message)) (chunks ++ [final]) t) :
    ∃ start : ChatStream, CallsSettled ctx start (messageCalls message) (processTerminalMessageSnapshot ctx message t) ∧
      start.calls = t.calls ∧ start.content.text = messageText message ∧
      (messageText message = "" → start.content.hasText = false) ∧ start.content.reasoning = messageScalar message ∧
      start.content.summary = "" ∧ start.content.finished = t.protocolTerminalSeen ∧
      start.content.details.map detailText =
        filled fragmentFits (streamedEntries (chunks ++ [final])) entryPayload entryPayload (messageEntries message) := by
  let t' : ChatStream := { t with
    assistantMessagePhase := t.assistantMessagePhase <|> message.strMember "phase"
    deltaExtra := JsonMap.extend t.deltaExtra
      (message.filter fun e => ¬ chatDeltaKnownKeys.contains e.1 ∧ ¬ isInternalExtraKey e.1) }
  have hkept : t'.Kept ctx := ht.kept.sideFields
  have hcontent : t'.content = t.content := rfl
  obtain ⟨hkept₁, details, hcontent₁, hdetails⟩ := processSnapshotReasoning_spec hkept
    (hcontent ▸ ht.details.trans (deltaDetailNodes_eq _ h.details.fragment)) h.details (ht.reasoning ▸ h.reasoning) h.noOpaque
  generalize hu : processSnapshotReasoning ctx message t' = u at hkept₁ hcontent₁
  have htext : u.outputText = t.outputText := congrArg ChatContent.text hcontent₁
  obtain ⟨hkept₂, hasText, hhasText, hcontent₂⟩ := processSnapshotContent_spec hkept₁ h.stringContent
    (htext ▸ ht.text ▸ h.text)
  generalize hv : processSnapshotContent ctx message u = v at hkept₂ hcontent₂
  rw [hcontent₁] at hcontent₂ hhasText
  have hcalls : v.calls = t.calls := congrArg ChatContent.calls hcontent₂
  obtain ⟨-, hstreamed⟩ := h.calls.streamed_calls ht.tools
  have hstart : CallsSettled ctx v [] v := ⟨hkept₂, rfl, by simp, fun _ _ => rfl⟩
  have hfold := hstart.foldl (((message.member "tool_calls").bind JsonValue.asArray).getD []) 0
    (fun c hc => h.calls.entry c hc) (by rw [nil_append]; exact h.calls.distinct)
    (fun c hc => hcalls ▸ hstreamed c hc)
  rw [nil_append] at hfold
  refine ⟨v, ?_, hcalls, congrArg ChatContent.text hcontent₂, ?_, congrArg ChatContent.reasoning hcontent₂, ?_,
    congrArg ChatContent.finished hcontent₂, ?_⟩
  · have hmessage : processTerminalMessageSnapshot ctx message t = processSnapshotToolCalls ctx message v := by
      rw [← hv, ← hu]
      rfl
    rw [hmessage]
    unfold processSnapshotToolCalls
    dsimp only
    rw [h.noFunctionCall]
    exact hfold
  · intro hempty
    have hnone : t.textNodeIndex = none := by
      apply ht.textNodeIndex
      have hprefix := h.text
      rw [hempty, ← ht.text] at hprefix
      rw [← String.toList_inj]
      simpa using hprefix
    rw [hcontent₂]
    refine (hhasText hempty).trans ?_
    show t.textNodeIndex.isSome = false
    rw [hnone]
    rfl
  · rw [hcontent₂]
    exact ht.summary
  · rw [hcontent₂]
    exact hdetails

/-- After the deltas and the message, text and arguments are those of the message. The reasoning is
if and only if every fragment that no entry is matched with is empty, and the entries read the same
in the order of the fragments they are matched with. -/
theorem terminalSnapshot_completes_iff (ctx : ChatContext) (message : JsonMap) (chunks : List JsonValue) (final : JsonValue)
    (rest : List ChatSseEvent) (h : SnapshotStream message chunks final) (hrest : rest = [] ∨ rest.head? = some .done) :
    ∃ nodes, CompletedStream (streamChatToUrpEvents ctx (chunks.map .chunk ++ .chunk final :: rest)) nodes ∧
      String.join (nodes.filterMap Node.assistantText) = messageText message ∧
      ((nodes.filterMap Node.call).map fun c => (c.1, c.2.2)).Perm
        ((messageCalls message).map fun c => (toolCallOwnId c, fragmentArguments c)) ∧
      (String.join (nodes.filterMap Node.reasoningText) = messageReasoning message ↔
        (∀ p f, (streamedEntries (chunks ++ [final]))[p]? = some f →
          holder fragmentFits (streamedEntries (chunks ++ [final])) (messageEntries message) p = none →
            entryPayload f = "") ∧
        String.join ((settled fragmentFits (streamedEntries (chunks ++ [final])) (messageEntries message)).map
          entryPayload) = String.join ((messageEntries message).map entryPayload)) := by
  have hread : Demultiplexed ctx (callIdAt (messageCalls message)) (chunks ++ [final])
      (applyDeltaChunk ctx (chunks.foldl (applyDeltaChunk ctx) {}) final) := by
    have hprotocol := h.calls.fragment
    have hprefix : ToolProtocol (callIdAt (messageCalls message)) (([] ++ chunks).flatMap toolFragments) := by
      rw [flatMap_append] at hprotocol
      exact hprotocol.of_append
    have hchunks := (Demultiplexed.init ctx (callIdAt (messageCalls message))).foldl h.delta hprefix
    exact hchunks.step h.plain hprotocol
  obtain ⟨start, hsettled, hcalls, htext, hhasText, hscalar, hsummary, hfinished, hdetails⟩ := h.settled hread
  have hprose := hsettled.prose
  have hstarted := (h.calls.streamed_calls hread.tools).1
  have hseen := hread.finished
  have hevents : streamChatToUrpEvents ctx (chunks.map .chunk ++ .chunk final :: rest) =
      (streamChat ctx rest (processTerminalMessageSnapshot ctx message
        (applyDeltaChunk ctx (chunks.foldl (applyDeltaChunk ctx) {}) final))).events := by
    unfold streamChatToUrpEvents
    rw [streamChat_chunks h.delta, streamChat, processChunk_snapshot h.noError h.noErrorReason h.snapshot]
  rw [hevents]
  generalize processTerminalMessageSnapshot ctx message
    (applyDeltaChunk ctx (chunks.foldl (applyDeltaChunk ctx) {}) final) = u at hsettled hprose
  simp only [ChatContent.prose, Prod.mk.injEq] at hprose
  obtain ⟨hutext, huhas, hureasoning, husummary, hudetails, hufinished⟩ := hprose
  have hended : u.protocolTerminalSeen = true := by
    refine (hufinished.trans (hfinished.trans hseen)).trans ?_
    rw [List.any_eq_true]
    exact h.finish
  rw [streamChat_end hended hrest]
  have hout : u.outputText = messageText message := hutext.trans htext
  refine ⟨_, hsettled.kept.finish hended, ?_, ?_, ?_⟩
  · rw [hsettled.kept.sorted_texts, hout]
    · split <;> simp_all
    · intro hempty
      have hnone := huhas.trans (hhasText (hout ▸ hempty))
      exact isSome_eq_false_iff.mp hnone |> isNone_iff_eq_none.mp
  · exact hsettled.calls_perm h.calls.distinct (hcalls ▸ hstarted)
  · have hreasoning : u.reasoningText = messageScalar message := hureasoning.trans hscalar
    have hmode : u.reasoningText = "" ∨ u.reasoningDetailNodes = [] := by
      rw [hreasoning]
      cases hm : messageDetails message with
      | some details => exact .inl (by rw [messageScalar, hm])
      | none =>
        have hentries : messageEntries message = [] := by simp [messageEntries, hm]
        have hprotocol := h.details
        rw [hentries] at hprotocol hdetails
        rw [hprotocol.fragments_eq_nil, filled_nil, ← hudetails, map_nil, map_eq_nil_iff] at hdetails
        exact .inr (map_eq_nil_iff.mp hdetails)
    rw [hsettled.kept.sorted_reasoningText (husummary.trans hsummary) hmode, hudetails, hdetails, hreasoning,
      ← join_filled_iff h.details.nodup h.details.exclusive, messageReasoning]
    exact String.append_right_inj _

def textEntry (text : String) : JsonValue :=
  .object [("index", .int 0), ("text", .string text), ("type", .string "reasoning.text")]

def messageChunk (message : JsonMap) (finishReason : String) : JsonValue :=
  .object [("choices", .array [.object [("finish_reason", .string finishReason), ("message", .object message)]])]

def thoughtMessage : JsonMap :=
  [("content", .string "Hello"), ("reasoning_details", .array [textEntry "ab"]), ("role", .string "assistant"),
    ("tool_calls", .array [.object [("function", .object [("arguments", .string "123"), ("name", .string "f")]),
      ("id", .string "a"), ("type", .string "function")]])]

theorem twoFragments_repeat : SnapshotStream thoughtMessage
      [chatChunk [("reasoning_details", .array [textEntry "a"])] .null,
        chatChunk [("reasoning_details", .array [textEntry "b"])] .null] (messageChunk thoughtMessage "stop") ∧
    (outputs (streamChatToUrpEvents ⟨"resp", "model", "rs", "msg", id, toString⟩
      ([chatChunk [("reasoning_details", .array [textEntry "a"])] .null,
        chatChunk [("reasoning_details", .array [textEntry "b"])] .null].map .chunk ++
        [.chunk (messageChunk thoughtMessage "stop"), .done]))).map
      (fun nodes => String.join (nodes.filterMap Node.reasoningText)) = ["abb"] ∧
    messageReasoning thoughtMessage = "ab" := by
  refine ⟨?_, by decide +kernel, by decide +kernel⟩
  constructor <;> decide +kernel

theorem oneFragment_completes : ∃ nodes, CompletedStream (streamChatToUrpEvents
      ⟨"resp", "model", "rs", "msg", id, toString⟩
      ([chatChunk [("content", .string "Hel"), ("reasoning_details", .array [textEntry "a"])] .null,
        chatChunk [("content", .string "l"), ("tool_calls", .array [toolFragment 0 (some "a") "f" "1"])] .null].map .chunk ++
        .chunk (messageChunk thoughtMessage "tool_calls") :: [.done])) nodes ∧
    String.join (nodes.filterMap Node.assistantText) = "Hello" ∧
    ((nodes.filterMap Node.call).map fun c => (c.1, c.2.2)).Perm [("a", "123")] ∧
    String.join (nodes.filterMap Node.reasoningText) = "ab" := by
  refine Exists.imp (fun nodes h => ⟨h.1, h.2.1, h.2.2.1, (h.2.2.2.mpr ⟨?_, by decide +kernel⟩).trans (by decide +kernel)⟩)
    (terminalSnapshot_completes_iff _ thoughtMessage _ _ [.done] (by constructor <;> decide +kernel) (.inr rfl))
  intro p f hf hfree
  obtain ⟨hp, -⟩ := List.getElem?_eq_some_iff.mp hf
  obtain rfl : p = 0 := Nat.lt_one_iff.mp hp
  exact absurd hfree (by decide +kernel)

end Monoize.Urp
