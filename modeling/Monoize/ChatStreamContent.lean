import Monoize.ChatStreamNodes
import Monoize.FirstOccurrence

/-! What the Chat decoder collects from the deltas of a stream: the text, the reasoning text and the
tool calls, apart from the events it sends and the indices it gives away. -/

namespace Monoize.Urp

open FirstOccurrence List Option Function JsonValue

structure ChatContent where
  text : String
  hasText : Bool
  (reasoning summary : String)
  details : List Node
  callOrder : List String
  calls : String → Option ToolCallEntry
  callIdByIndex : Nat → Option String
  finished : Bool

def ChatStream.content (s : ChatStream) : ChatContent where
  text := s.outputText
  hasText := s.textNodeIndex.isSome
  reasoning := s.reasoningText
  summary := s.reasoningSummary
  details := s.reasoningDetailNodes.map (·.2)
  callOrder := s.callOrder
  calls := s.calls
  callIdByIndex := s.callIdByIndex
  finished := s.protocolTerminalSeen

def ChatContent.addCall (c : ChatContent) (index : Option Nat) (callId : String) (toolType : ToolCallType)
    (name argsDelta : String) (legacy : Bool) : ChatContent :=
  { c with
    callOrder := if (c.calls callId).isSome then c.callOrder else c.callOrder ++ [callId]
    calls := Function.update c.calls callId
      (some (((c.calls callId).getD ⟨toolType, name, "", legacy⟩).update toolType name argsDelta legacy))
    callIdByIndex := index.elim c.callIdByIndex fun k => Function.update c.callIdByIndex k (some callId) }

variable {ctx : ChatContext} {s : ChatStream} {i pos : Nat} {d : NodeDelta} {extra : JsonMap}
  {text content name argsDelta : String}
  {source : Option String} {encrypted : Option JsonValue} {detail delta raw : JsonValue} {toolType : ToolCallType}
    {legacy : Bool}

@[simp] theorem sendNodeDelta_content :
    (s.sendNodeDelta i d extra).content = s.content := rfl

@[simp] theorem ensureResponseStartedWithExtra_content :
    (s.ensureResponseStartedWithExtra ctx extra).content = s.content := by
  unfold ChatStream.ensureResponseStartedWithExtra
  split <;> rfl

@[simp] theorem ensureResponseStarted_content : (s.ensureResponseStarted ctx).content = s.content :=
  ensureResponseStartedWithExtra_content

theorem ensureNodeStarted_content (slot : ChatSlot) (header : NodeHeader) :
    (ensureNodeStarted ctx slot header s).2.content =
      match slot with
      | .text => { s.content with hasText := true }
      | .reasoning => s.content := by
  unfold ensureNodeStarted
  split
  · rename_i i hi
    cases slot with
    | text =>
      have hsome : s.textNodeIndex = some i := hi
      simp [ChatStream.content, hsome]
    | reasoning => rfl
  · have hstart := @ensureResponseStarted_content ctx s
    generalize s.ensureResponseStarted ctx = t at hstart
    rw [← hstart]
    cases slot <;> rfl

theorem processTextDelta_content :
    (processTextDelta ctx text s).content =
      { s.content with text := s.content.text ++ text, hasText := s.content.hasText || text != "" } := by
  unfold processTextDelta
  split
  · rename_i h
    simp [h]
  rename_i h
  have hstart := @ensureNodeStarted_content ctx s .text (.text none .assistant s.assistantMessagePhase)
  generalize ensureNodeStarted ctx .text (.text none .assistant s.assistantMessagePhase) s = started at hstart
  have hcontent : ({ s.content with text := s.content.text ++ text, hasText := s.content.hasText || text != "" } :
      ChatContent) = { started.2.content with text := started.2.content.text ++ text } := by
    rw [hstart]
    simp [h]
  rw [hcontent]
  rfl

theorem processReasoningDelta_content {append : ChatStream → ChatStream}
    {delta : Option String → NodeDelta} {f : ChatContent → ChatContent}
    (happend : ∀ t, (append t).content = f t.content) :
    (processReasoningDelta ctx source append delta s).content = f s.content := by
  unfold processReasoningDelta
  dsimp only
  rw [sendNodeDelta_content, happend, ensureNodeStarted_content]
  rfl

theorem processReasoningTextDelta_content :
    (processReasoningTextDelta ctx (some content) source s).content =
      { s.content with reasoning := s.content.reasoning ++ content } := by
  unfold processReasoningTextDelta
  by_cases h : content = ""
  · subst h
    simp [Option.filter]
  · simp only [Option.filter, ne_eq, h, not_false_eq_true, decide_true, if_true]
    exact processReasoningDelta_content (f := fun c => { c with reasoning := c.reasoning ++ content })
      fun t => rfl

theorem processReasoningEncryptedDelta_content :
    (processReasoningEncryptedDelta ctx encrypted source s).content = s.content := by
  unfold processReasoningEncryptedDelta
  split
  · rfl
  · exact processReasoningDelta_content (f := id) fun t => rfl

theorem chatReasoningNodeFromDetail_reasoning {detail : JsonMap} {node : Node}
    (h : chatReasoningNodeFromDetail detail = some node) :
    ∃ id content encrypted summary source extra, node = .reasoning id content encrypted summary source extra := by
  simp only [chatReasoningNodeFromDetail, bind_eq_bind, bind_eq_some_iff] at h
  obtain ⟨_, _, h⟩ := h
  split at h
  · exact ⟨_, _, _, _, _, _, (some_inj.mp h).symm⟩
  · cases h

theorem processReasoningDetailDelta_content :
    (processReasoningDetailDelta ctx detail s).content =
      { s.content with details := s.content.details ++ (detail.asObject.bind chatReasoningNodeFromDetail).toList } := by
  unfold processReasoningDetailDelta
  split
  · rename_i id content encrypted summary source extra hnode
    rw [hnode]
    have hstart := @ensureResponseStarted_content ctx s
    generalize s.ensureResponseStarted ctx = t at hstart
    rw [← hstart]
    simp [ChatStream.content, ChatStream.startNode, ChatStream.sendNodeDelta, ChatStream.sendEvent]
  · rename_i hnode
    cases hd : detail.asObject.bind chatReasoningNodeFromDetail with
    | none => simp
    | some node =>
      obtain ⟨obj, hobj, hnode'⟩ := bind_eq_some_iff.mp hd
      obtain ⟨id, content, encrypted, summary, source, extra, rfl⟩ := chatReasoningNodeFromDetail_reasoning hnode'
      exact absurd hd (hnode id content encrypted summary source extra)

theorem noteCallIndex_ensureCall_content (index : Option Nat) (callId : String) (toolType : ToolCallType) (name : String)
    (legacy : Bool) : (ensureCall callId toolType name legacy (noteCallIndex index callId s)).content =
      { s.content with
        callOrder := if (s.calls callId).isSome then s.callOrder else s.callOrder ++ [callId]
        calls := update s.calls callId (some ((s.calls callId).getD ⟨toolType, name, "", legacy⟩))
        callIdByIndex := index.elim s.callIdByIndex fun k => update s.callIdByIndex k (some callId) } := by
  have hcalls : (noteCallIndex index callId s).calls = s.calls := by
    cases index <;> rfl
  unfold ensureCall
  rw [hcalls]
  cases hcall : s.calls callId with
  | none => cases index <;> simp [noteCallIndex, ChatStream.content]
  | some entry =>
    have hupdate : update s.calls callId (some entry) = s.calls := by
      rw [← hcall, update_eq_self]
    cases index <;> simp [noteCallIndex, ChatStream.content, hupdate]

theorem ensureToolNode_spec (callId : String) (toolType : ToolCallType) (name : String) (legacy : Bool) :
    (ensureToolNode callId toolType name legacy s).content = s.content ∧
      ∃ i, (ensureToolNode callId toolType name legacy s).toolNodeIndexByCallId callId = some i := by
  unfold ensureToolNode
  split
  · rename_i i hi
    exact ⟨rfl, i, hi⟩
  · exact ⟨rfl, s.nextNodeIndex, by simp [ChatStream.startNode, ChatStream.sendEvent]⟩

theorem extendCall_content {callId : String} {entry : ToolCallEntry}
    (hi : s.toolNodeIndexByCallId callId = some i) (hentry : s.calls callId = some entry)
    :
    (extendCall callId toolType name argsDelta legacy s).content =
      { s.content with calls := update s.calls callId (some (entry.update toolType name argsDelta legacy)) } := by
  unfold extendCall
  rw [hi, hentry]
  dsimp only
  split <;> rfl

theorem processToolCallDelta_content {tcObj : JsonMap} (hid : s.toolCallIdOf tcObj pos ≠ "") :
    (processToolCallDelta ctx (.object tcObj) pos legacy s).content =
      s.content.addCall (toolCallIndex tcObj) (s.toolCallIdOf tcObj pos) (chatToolCallType tcObj) (toolCallName tcObj)
        ((toolCallArgumentsDeltaText tcObj).getD "") legacy := by
  unfold processToolCallDelta
  simp only [asObject, hid, if_false]
  generalize s.toolCallIdOf tcObj pos = callId
  have hnoted := noteCallIndex_ensureCall_content (s := s) (toolCallIndex tcObj) callId (chatToolCallType tcObj)
    (toolCallName tcObj) legacy
  rw [← @ensureResponseStarted_content ctx] at hnoted
  generalize ((ensureCall callId (chatToolCallType tcObj) (toolCallName tcObj) legacy
    (noteCallIndex (toolCallIndex tcObj) callId s)).ensureResponseStarted ctx) = t at hnoted
  obtain ⟨hplaced, i, hi⟩ := ensureToolNode_spec (s := t) callId (chatToolCallType tcObj) (toolCallName tcObj) legacy
  generalize ensureToolNode callId (chatToolCallType tcObj) (toolCallName tcObj) legacy t = u at hplaced hi
  rw [hnoted] at hplaced
  have hcalls : u.calls = update s.calls callId
      (some ((s.calls callId).getD ⟨chatToolCallType tcObj, toolCallName tcObj, "", legacy⟩)) :=
    congrArg ChatContent.calls hplaced
  rw [extendCall_content hi (by rw [hcalls, update_self]), hplaced, hcalls, update_idem]
  rfl

def ChatContent.prose (c : ChatContent) : String × Bool × String × String × List Node × Bool :=
  (c.text, c.hasText, c.reasoning, c.summary, c.details, c.finished)

theorem processToolCallDelta_prose : (processToolCallDelta ctx raw pos legacy s).content.prose = s.content.prose := by
  cases hraw : raw.asObject with
  | none =>
    unfold processToolCallDelta
    rw [hraw]
  | some tcObj =>
    have hobj : raw = .object tcObj := by
      cases raw <;> simp_all [asObject]
    subst hobj
    by_cases hid : s.toolCallIdOf tcObj pos = ""
    · unfold processToolCallDelta
      simp only [asObject, hid, if_true]
    · rw [processToolCallDelta_content hid]
      rfl

theorem foldl_processToolCallDelta_prose {calls : List (JsonValue × Nat)} :
    (calls.foldl (fun s call => processToolCallDelta ctx call.1 call.2 false s) s).content.prose = s.content.prose := by
  induction calls generalizing s with
  | nil => rfl
  | cons call calls ih => rw [foldl_cons, ih, processToolCallDelta_prose]

/-! A delta with string content. -/

theorem processDeltaContent_content (h : (delta.get "content").bind asArray = none) :
    (processDeltaContent ctx delta s).content =
      { s.content with
        text := s.content.text ++ (delta.getStr "content").getD ""
        hasText := s.content.hasText || (delta.getStr "content").getD "" != "" } := by
  unfold processDeltaContent getStr
  split
  · rename_i text htext
    rw [processTextDelta_content, htext]
    rfl
  · rename_i blocks hblocks
    rw [hblocks] at h
    cases h
  rename_i hstr harr
  have hnone : (delta.get "content").bind asStr = none := by
    cases hv : delta.get "content" with
    | none => rfl
    | some v =>
      cases v with
      | string text => exact absurd hv (hstr text)
      | _ => rfl
  simp [hnone]

def deltaDetails (delta : JsonValue) : Option (List JsonValue) :=
  ((delta.get "reasoning_details").bind JsonValue.asArray).filter (fun details => ¬ details.isEmpty)

def deltaReasoningText (delta : JsonValue) : String :=
  match deltaDetails delta with
  | some _ => ""
  | none => String.join ((extractChatReasoningDeltaChunks delta).1.map (·.text))

def deltaDetailNodes (delta : JsonValue) : List Node :=
  ((deltaDetails delta).getD []).filterMap fun detail => detail.asObject.bind chatReasoningNodeFromDetail

theorem foldl_processReasoningDetailDelta_content {details : List JsonValue} :
    (details.foldl (fun s detail => processReasoningDetailDelta ctx detail s) s).content =
      { s.content with
        details := s.content.details ++ details.filterMap fun detail => detail.asObject.bind chatReasoningNodeFromDetail } := by
  induction details generalizing s with
  | nil => simp
  | cons detail details ih =>
    rw [foldl_cons, ih, processReasoningDetailDelta_content]
    cases hnode : detail.asObject.bind chatReasoningNodeFromDetail <;> simp [hnode]

theorem foldl_processReasoningTextDelta_content {chunks : List ChatReasoningDeltaChunk} :
    (chunks.foldl (fun s chunk => processReasoningTextDelta ctx (some chunk.text) chunk.format s) s).content =
      { s.content with reasoning := s.content.reasoning ++ String.join (chunks.map (·.text)) } := by
  induction chunks generalizing s with
  | nil => simp
  | cons chunk chunks ih =>
    rw [foldl_cons, ih, processReasoningTextDelta_content]
    simp [String.join_cons, String.append_assoc]

theorem foldl_content {α : Type} {f : ChatStream → α → ChatStream} (hf : ∀ t a, (f t a).content = t.content) (l : List α) :
    (l.foldl f s).content = s.content := by
  induction l generalizing s with
  | nil => rfl
  | cons a l ih => rw [foldl_cons, ih, hf]

theorem deltaDetails_none (h : deltaDetails delta = none) :
    ((delta.get "reasoning_details").bind asArray).getD [] = [] := by
  unfold deltaDetails at h
  cases hd : (delta.get "reasoning_details").bind asArray with
  | none => rfl
  | some details =>
    cases details with
    | nil => rfl
    | cons _ _ => simp [hd] at h

theorem processDeltaReasoning_content :
    (processDeltaReasoning ctx delta s).content =
      { s.content with
        reasoning := s.content.reasoning ++ deltaReasoningText delta
        details := s.content.details ++ deltaDetailNodes delta } := by
  unfold processDeltaReasoning
  change (match deltaDetails delta with
    | some details => _
    | none => _ : ChatStream).content = _
  cases hdetails : deltaDetails delta with
  | some details =>
    rw [foldl_processReasoningDetailDelta_content]
    simp [deltaReasoningText, deltaDetailNodes, hdetails]
  | none =>
    have hsummaries : (extractChatReasoningDeltaChunks delta).2.1 = [] := by
      simp [extractChatReasoningDeltaChunks, deltaDetails_none hdetails]
    dsimp only
    rw [foldl_content (fun t chunk => processReasoningEncryptedDelta_content),
      foldl_processReasoningTextDelta_content, hsummaries]
    simp [deltaReasoningText, deltaDetailNodes, hdetails]

theorem startOnAssistantRole_content : (startOnAssistantRole ctx delta s).content = s.content := by
  unfold startOnAssistantRole
  split
  · split
    · rw [ensureResponseStartedWithExtra_content]
      rfl
    · exact ensureResponseStarted_content
  · rfl

end Monoize.Urp
