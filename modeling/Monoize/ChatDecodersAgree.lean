import Monoize.ChatResponseDecoder
import Monoize.ChatStreamDemultiplex

/-! A message decoded whole and the same message decoded from its deltas. -/

namespace Monoize.Urp

open FirstOccurrence List Option ChatStream JsonMap JsonValue Node

structure ChatFunctionCall where
  (id name arguments : String)

structure ChatMessage where
  (content refusal reasoning reasoningContent : Option String)
  toolCalls : List ChatFunctionCall

structure ChatMessage.Valid (m : ChatMessage) : Prop where
  ids : ∀ call ∈ m.toolCalls, call.id ≠ ""
  names : ∀ call ∈ m.toolCalls, call.name ≠ ""
  distinct : (m.toolCalls.map (·.id)).Nodup

def ChatFunctionCall.json (call : ChatFunctionCall) : JsonValue :=
  .object [("function", .object [("arguments", .string call.arguments), ("name", .string call.name)]),
    ("id", .string call.id), ("type", .string "function")]

def stringOrNull (field : Option String) : JsonValue := (field.map JsonValue.string).getD .null

def ChatMessage.members (m : ChatMessage) : JsonMap :=
  [("content", stringOrNull m.content), ("reasoning", stringOrNull m.reasoning),
    ("reasoning_content", stringOrNull m.reasoningContent), ("refusal", stringOrNull m.refusal),
    ("role", .string "assistant"), ("tool_calls", .array (m.toolCalls.map ChatFunctionCall.json))]

def ChatMessage.response (m : ChatMessage) (finishReason : String) : JsonValue :=
  .object [("choices", .array [.object [("finish_reason", .string finishReason), ("message", .object m.members)]])]

def ChatMessage.idOf (m : ChatMessage) (k : Nat) : String := (m.toolCalls[k]?.map (·.id)).getD ""

def chunkField (field : String) (data : JsonValue) : String := ((chatDelta data).getStr field).getD ""

/-- Delta chunks that cut the string fields of the message into fragments, in any order among the
fields. -/
structure ChatMessage.Splits (m : ChatMessage) (chunks : List JsonValue) : Prop where
  delta : ∀ data ∈ chunks, DeltaChunk data
  scalar : ∀ data ∈ chunks, deltaDetails (chatDelta data) = none
  content : String.join (chunks.map chunkContent) = m.content.getD ""
  refusal : String.join (chunks.map (chunkField "refusal")) = m.refusal.getD ""
  reasoning : String.join (chunks.map (chunkField "reasoning")) = m.reasoning.getD ""
  reasoningContent : String.join (chunks.map (chunkField "reasoning_content")) = m.reasoningContent.getD ""
  tools : ToolProtocol m.idOf (chunks.flatMap toolFragments)
  indices : ∀ k, k ∈ seenIndices (chunks.flatMap toolFragments) ↔ k < m.toolCalls.length
  names : ∀ k call, m.toolCalls[k]? = some call →
    String.join ((ofIndex k (chunks.flatMap toolFragments)).map toolCallName) = call.name
  arguments : ∀ k call, m.toolCalls[k]? = some call → argumentsOf k (chunks.flatMap toolFragments) = call.arguments
  finish : ∃ data ∈ chunks, (chatFinishReason data).isSome

def Node.reasoningContent : Node → Option String
  | .reasoning _ content _ _ _ _ => content
  | _ => none

structure Transcript where
  (text refusal reasoning : String)
  calls : List (String × String × String)
  deriving DecidableEq

def transcript (nodes : List Node) : Transcript where
  text := String.join (nodes.filterMap Node.assistantText)
  refusal := String.join (nodes.filterMap Node.refusalText)
  reasoning := String.join (nodes.filterMap Node.reasoningContent)
  calls := nodes.filterMap Node.call

def ChatMessage.whole (m : ChatMessage) : Transcript where
  text := m.content.getD ""
  refusal := m.refusal.getD ""
  reasoning := if m.reasoning.getD "" = "" then m.reasoningContent.getD "" else m.reasoning.getD ""
  calls := m.toolCalls.map fun call => (call.id, call.name, call.arguments)

/-! The whole message. -/

theorem ChatFunctionCall.parse (call : ChatFunctionCall) (hid : call.id ≠ "") (hname : call.name ≠ "") :
    call.json.asObject.bind parseToolCallNodeFromObj =
      some (.toolCall (some call.id) .function call.id call.name call.arguments []) := by
  have hextra : splitExtra [("function", object [("arguments", .string call.arguments),
      ("name", .string call.name)]), ("id", .string call.id), ("type", .string "function")]
      ["type", "call_id", "id", "name", "arguments", "input", "args", "function", "custom"] = [] := by
    simp [splitExtra]
  simp [ChatFunctionCall.json, asObject, parseToolCallNodeFromObj, strMember, member,
    asStr, parseToolCallArgumentsValue, hid, hname, hextra]

@[simp] theorem stringOrNull_asStr (field : Option String) : (stringOrNull field).asStr = field := by
  cases field <;> rfl

@[simp] theorem filter_ne_empty_getD (field : Option String) : (field.filter (· ≠ "")).getD "" = field.getD "" := by
  cases field with
  | none => rfl
  | some text => by_cases h : text = "" <;> simp [Option.filter, h]

theorem chatContentParts_stringOrNull (readers : ChatBlockReaders) (field : Option String) :
    chatContentParts readers none (stringOrNull field) =
      (field.filter (· ≠ "")).toList.map fun text => Node.text none .assistant text none [] := by
  cases field with
  | none => rfl
  | some text =>
    by_cases h : text = "" <;>
      simp [stringOrNull, chatContentParts, Option.filter, h, textPartWithPhase, strMember]

theorem scalarReasoningNode_spec (msg : JsonMap) :
    (scalarReasoningNode msg).bind reasoningContent =
        ((msg.strMember "reasoning").filter (· ≠ "") <|>
          (msg.strMember "reasoning_content").filter (· ≠ "")) ∧
      ∀ node, scalarReasoningNode msg = some node → node.isReasoning := by
  unfold scalarReasoningNode
  dsimp only
  generalize (msg.strMember "reasoning").filter (· ≠ "") = a
  generalize (msg.strMember "reasoning_content").filter (· ≠ "") = b
  cases a with
  | some text => exact ⟨rfl, fun node hnode => by cases hnode; rfl⟩
  | none =>
    cases b with
    | some text => exact ⟨rfl, fun node hnode => by cases hnode; rfl⟩
    | none => exact ⟨rfl, fun node hnode => by cases hnode⟩

theorem filter_orElse_getD (a b : Option String) :
    (a.filter (· ≠ "") <|> b.filter (· ≠ "")).getD "" = if a.getD "" = "" then b.getD "" else a.getD "" := by
  cases a with
  | none => simpa using filter_ne_empty_getD b
  | some text =>
    by_cases h : text = ""
    · simpa [Option.filter, h] using filter_ne_empty_getD b
    · simp [Option.filter, h]

theorem transcript_append (xs ys : List Node) :
    transcript (xs ++ ys) =
      { text := (transcript xs).text ++ (transcript ys).text
        refusal := (transcript xs).refusal ++ (transcript ys).refusal
        reasoning := (transcript xs).reasoning ++ (transcript ys).reasoning
        calls := (transcript xs).calls ++ (transcript ys).calls } := by
  simp [transcript, String.join_append]

theorem transcript_singleton (node : Node) :
    transcript [node] = ⟨node.assistantText.getD "", node.refusalText.getD "", node.reasoningContent.getD "",
      node.call.toList⟩ := by
  cases htext : node.assistantText <;> cases hrefusal : node.refusalText <;> cases hreasoning : node.reasoningContent <;>
    cases hcall : node.call <;> simp [transcript, htext, hrefusal, hreasoning, hcall]

theorem transcript_reasoning (node : Option Node) (h : ∀ n, node = some n → n.isReasoning) :
    transcript node.toList = ⟨"", "", (node.bind reasoningContent).getD "", []⟩ := by
  cases node with
  | none => rfl
  | some n =>
    obtain ⟨htext, hrefusal, hcall⟩ := isReasoning.views (h n rfl)
    rw [toList_some, transcript_singleton, htext, hrefusal, hcall]
    rfl

theorem ChatMessage.transcript_parts (m : ChatMessage) (hm : m.Valid) (readers : ChatBlockReaders) :
    transcript (chatMessageParts readers m.members) = m.whole := by
  rw [ChatMessage.whole]
  have hcalls : (m.toolCalls.map ChatFunctionCall.json).filterMap (fun call => call.asObject.bind parseToolCallNodeFromObj) =
      m.toolCalls.map fun call => toolCall (some call.id) .function call.id call.name call.arguments [] := by
    rw [filterMap_map, ← filterMap_eq_map]
    apply filterMap_congr
    intro call hcall
    exact call.parse (hm.ids call hcall) (hm.names call hcall)
  have hparts : chatMessageParts readers m.members = (Urp.scalarReasoningNode m.members).toList ++
      (m.content.filter (· ≠ "")).toList.map (fun text => Node.text none .assistant text none []) ++
      m.toolCalls.map (fun call => toolCall (some call.id) .function call.id call.name call.arguments []) ++
      (m.refusal.filter (· ≠ "")).toList.map fun refusal => Node.refusal none refusal [] := by
    rw [← hcalls, ← chatContentParts_stringOrNull readers]
    simp [chatMessageParts, parseChatReasoningFields, ChatMessage.members, strMember, member,
      asArray]
  have htexts : transcript ((m.content.filter (· ≠ "")).toList.map fun text => Node.text none .assistant text none []) =
      ⟨m.content.getD "", "", "", []⟩ := by
    rw [← filter_ne_empty_getD m.content]
    cases m.content.filter (· ≠ "") with
    | none => rfl
    | some text => exact transcript_singleton _
  have hrefusals : transcript ((m.refusal.filter (· ≠ "")).toList.map fun refusal => Node.refusal none refusal []) =
      ⟨"", m.refusal.getD "", "", []⟩ := by
    rw [← filter_ne_empty_getD m.refusal]
    cases m.refusal.filter (· ≠ "") with
    | none => rfl
    | some refusal => exact transcript_singleton _
  have htools : ∀ calls : List ChatFunctionCall, transcript (calls.map fun call =>
      toolCall (some call.id) .function call.id call.name call.arguments []) =
        ⟨"", "", "", calls.map fun call => (call.id, call.name, call.arguments)⟩ := by
    intro calls
    induction calls with
    | nil => rfl
    | cons call calls ih =>
      rw [map_cons, ← singleton_append, transcript_append, transcript_singleton, ih]
      rfl
  obtain ⟨hscalar, hkind⟩ := scalarReasoningNode_spec m.members
  have hfields : strMember m.members "reasoning" = m.reasoning ∧
      strMember m.members "reasoning_content" = m.reasoningContent := by
    simp [strMember, ChatMessage.members, member]
  rw [hfields.1, hfields.2] at hscalar
  rw [hparts, transcript_append, transcript_append, transcript_append, transcript_reasoning _ hkind, htexts, hrefusals,
    htools, hscalar, filter_orElse_getD]
  simp

theorem transcript_pushMessageNodes (parts : List Node) (extra : JsonMap) :
    transcript (pushMessageNodes parts extra) = transcript parts := by
  unfold pushMessageNodes
  split
  · have hcontrol : transcript [nextDownstreamEnvelopeExtra extra] = ⟨"", "", "", []⟩ := transcript_singleton _
    rw [← singleton_append, transcript_append, hcontrol]
    simp
  · rfl

theorem ChatMessage.decode (m : ChatMessage) (hm : m.Valid) (readers : ChatBlockReaders) {finishReason : String}
    (hreason : finishReason ≠ "error") :
    ∃ response, decodeChatResponse readers (m.response finishReason) = .ok response ∧
      transcript response.output = m.whole := by
  have hchoice : chatChoice (m.response finishReason) =
      some [("finish_reason", .string finishReason), ("message", .object m.members)] := by
    simp [chatChoice, ChatMessage.response, JsonValue.get, JsonValue.asObject, JsonValue.asArray, member]
  have hfinish : ((strMember [("finish_reason", JsonValue.string finishReason), ("message", .object m.members)]
      "finish_reason").filter (· ≠ "")) ≠ some "error" := by
    by_cases hempty : finishReason = "" <;>
      simp [strMember, member, JsonValue.asStr, hempty, hreason]
  have hdecode : ∃ response, decodeChatResponse readers (m.response finishReason) = .ok response ∧
      ∃ extra, response.output = pushMessageNodes (chatMessageParts readers m.members) extra := by
    have herror : member [("choices", JsonValue.array [.object [("finish_reason", .string finishReason),
        ("message", .object m.members)]])] "error" = none := by
      simp [member]
    have hchoiceError : member [("finish_reason", JsonValue.string finishReason), ("message", .object m.members)]
        "error" = none := by
      simp [member]
    have hmessage : member [("finish_reason", JsonValue.string finishReason), ("message", .object m.members)]
        "message" = some (.object m.members) := by
      simp [member]
    unfold decodeChatResponse
    rw [hchoice]
    simp only [ChatMessage.response, JsonValue.asObject, herror, hchoiceError, hmessage, filter_none, if_neg hfinish,
      bind_some]
    exact ⟨_, rfl, _, rfl⟩
  obtain ⟨response, hok, extra, houtput⟩ := hdecode
  refine ⟨response, hok, ?_⟩
  rw [houtput, transcript_pushMessageNodes, m.transcript_parts hm]

/-! The message from its deltas. -/

variable {ctx : ChatContext} {s : ChatStream}

theorem deltaReasoningText_scalar {delta : JsonValue} (h : deltaDetails delta = none) :
    deltaReasoningText delta = (delta.getStr "reasoning").getD "" ++ (delta.getStr "reasoning_content").getD "" := by
  have hempty := deltaDetails_none h
  have hjoin : ∀ field : Option String,
      String.join (((field.filter (· ≠ "")).toList.map fun text => (⟨text, none⟩ : ChatReasoningDeltaChunk)).map (·.text)) =
        field.getD "" := by
    intro field
    rw [← filter_ne_empty_getD field]
    cases field.filter (· ≠ "") <;> simp
  rw [deltaReasoningText, h]
  simp only [extractChatReasoningDeltaChunks, hempty, filterMap_nil, isEmpty_nil, if_true, map_append,
    String.join_append, hjoin]

theorem deltaDetailNodes_scalar {delta : JsonValue} (h : deltaDetails delta = none) : deltaDetailNodes delta = [] := by
  simp [deltaDetailNodes, h]

theorem ChatStream.Kept.sorted_refusals (h : s.Kept ctx) :
    ((s.sortedNodes ctx).map (·.2)).filterMap refusalText = [] := by
  have hnone : ∀ e ∈ s.unsortedNodes ctx, refusalText e.2 = none := by
    intro e he
    simp only [unsortedNodes, mem_append] at he
    rcases he with (((he | he) | he) | he) | he
    · obtain ⟨i, -, rfl⟩ := mem_map.mp he
      rfl
    · exact (isReasoning.views (h.details e he)).2.1
    · obtain ⟨i, -, rfl⟩ := mem_map.mp he
      rfl
    · obtain ⟨callId, entry, hnode⟩ := mem_toolNodes he
      rw [hnode]
      rfl
    · exact (isProviderItem.views (h.items e he)).2.1
  rw [filterMap_map, filterMap_eq_nil_iff]
  intro e he
  exact hnone e ((perm_insertionSort _ _).mem_iff.mp he)

theorem ChatStream.Kept.sorted_reasoning (h : s.Kept ctx) (hdetails : s.reasoningDetailNodes = []) :
    String.join (((s.sortedNodes ctx).map (·.2)).filterMap reasoningContent) = s.reasoningText := by
  have hlist : s.unsortedNodes ctx = s.reasoningNodeIndex.toList.map (·, s.reasoningNode ctx) ++
      (s.textNodeIndex.toList.map (·, s.textNode ctx) ++ (s.toolNodes ctx ++ s.providerItems)) := by
    simp [unsortedNodes, hdetails]
  have hpart : (s.unsortedNodes ctx).filter (fun e => (reasoningContent e.2).isSome) =
      (s.reasoningNodeIndex.toList.map (·, s.reasoningNode ctx)).filter fun e => (reasoningContent e.2).isSome := by
    rw [hlist, filter_append, h.otherNodes_view fun node hnode => (by cases node <;> first | rfl | cases hnode),
      append_nil]
  rw [h.sorted_filterMap reasoningContent hpart (by cases s.reasoningNodeIndex <;> simp)]
  cases hi : s.reasoningNodeIndex with
  | none => simp [(h.reasoning hi).1]
  | some i =>
    by_cases hempty : s.reasoningText = ""
    · simp only [reasoningNode, hempty]
      rfl
    · simp only [reasoningNode, hempty]
      simp [reasoningContent]

theorem Demultiplexed.transcript {idOf : Nat → String} {chunks : List JsonValue} (h : Demultiplexed ctx idOf chunks s)
    (hscalar : ∀ data ∈ chunks, deltaDetails (chatDelta data) = none) :
    Urp.transcript ((s.sortedNodes ctx).map (·.2)) =
      { text := String.join (chunks.map chunkContent)
        refusal := ""
        reasoning := String.join (chunks.map fun data => chunkField "reasoning" data ++ chunkField "reasoning_content" data)
        calls := (seenIndices (chunks.flatMap toolFragments)).map fun k =>
          (idOf k, nameOf k (chunks.flatMap toolFragments), argumentsOf k (chunks.flatMap toolFragments)) } := by
  have hdetails : s.reasoningDetailNodes = [] := by
    have hnodes := h.details
    rw [flatMap_eq_nil_iff.mpr fun data hdata => deltaDetailNodes_scalar (hscalar data hdata)] at hnodes
    exact map_eq_nil_iff.mp hnodes
  have hreasoning : s.reasoningText =
      String.join (chunks.map fun data => chunkField "reasoning" data ++ chunkField "reasoning_content" data) := by
    rw [h.reasoning]
    congr 1
    apply map_congr_left
    intro data hdata
    exact deltaReasoningText_scalar (hscalar data hdata)
  unfold Urp.transcript
  rw [h.texts, h.calls, h.kept.sorted_refusals, h.kept.sorted_reasoning hdetails, hreasoning]
  simp only [String.join_nil, Transcript.mk.injEq, and_true]
  split <;> simp_all

theorem join_pairs_eq_iff {α : Type} (f g : α → String) (l : List α) :
    String.join (l.map fun a => f a ++ g a) =
        (if String.join (l.map f) = "" then String.join (l.map g) else String.join (l.map f)) ↔
      String.join (l.map f) = "" ∨ String.join (l.map g) = "" := by
  have hlength : (String.join (l.map fun a => f a ++ g a)).length =
      (String.join (l.map f)).length + (String.join (l.map g)).length := by
    induction l with
    | nil => rfl
    | cons a l ih =>
      simp only [map_cons, String.join_cons, String.length_append]
      omega
  have hleft : String.join (l.map f) = "" → String.join (l.map fun a => f a ++ g a) = String.join (l.map g) := by
    intro hempty
    clear hlength
    induction l with
    | nil => rfl
    | cons a l ih =>
      simp only [map_cons, String.join_cons, String.append_eq_empty_iff] at hempty
      simp only [map_cons, String.join_cons, hempty.1, String.empty_append, ih hempty.2]
  have hright : String.join (l.map g) = "" → String.join (l.map fun a => f a ++ g a) = String.join (l.map f) := by
    intro hempty
    clear hlength hleft
    induction l with
    | nil => rfl
    | cons a l ih =>
      simp only [map_cons, String.join_cons, String.append_eq_empty_iff] at hempty
      simp only [map_cons, String.join_cons, hempty.1, String.append_empty, ih hempty.2]
  constructor
  · intro heq
    by_cases hf : String.join (l.map f) = ""
    · exact .inl hf
    rw [if_neg hf] at heq
    rw [heq] at hlength
    have hzero : (String.join (l.map g)).length = 0 := by omega
    exact .inr (String.length_eq_zero_iff.mp hzero)
  · rintro (hf | hg)
    · rw [if_pos hf, hleft hf]
    · rw [hright hg]
      split
      · rename_i hf
        rw [hf, hg]
      · rfl

theorem ChatMessage.Splits.calls {m : ChatMessage} {chunks : List JsonValue} (hm : m.Valid) (h : m.Splits chunks) :
    ((seenIndices (chunks.flatMap toolFragments)).map fun k =>
        (m.idOf k, nameOf k (chunks.flatMap toolFragments), argumentsOf k (chunks.flatMap toolFragments))) =
          m.toolCalls.map (fun call => (call.id, call.name, call.arguments)) ↔
      seenIndices (chunks.flatMap toolFragments) = range m.toolCalls.length ∧
        ∀ k call, m.toolCalls[k]? = some call → nameOf k (chunks.flatMap toolFragments) = call.name := by
  set fragments := chunks.flatMap toolFragments
  constructor
  · intro heq
    have hlen : (seenIndices fragments).length = m.toolCalls.length := by
      simpa using congrArg length heq
    have hget : ∀ (i k : Nat) (call : ChatFunctionCall), (seenIndices fragments)[i]? = some k → m.toolCalls[i]? = some call →
        m.idOf k = call.id ∧ nameOf k fragments = call.name := by
      intro i k call hk hcall
      have hi := congrArg (fun l => l[i]?) heq
      simp only [getElem?_map, hk, hcall, map_some, some_inj, Prod.mk.injEq] at hi
      exact ⟨hi.1, hi.2.1⟩
    have hindex : ∀ i k : Nat, (seenIndices fragments)[i]? = some k → k = i := by
      intro i k hk
      have hi : i < m.toolCalls.length := hlen ▸ (List.getElem?_eq_some_iff.mp hk).1
      have hid := (hget i k _ hk (getElem?_eq_getElem hi)).1
      have hkl : k < m.toolCalls.length := (h.indices k).mp (mem_of_getElem? hk)
      have hids : (m.toolCalls.map (·.id))[k]? = (m.toolCalls.map (·.id))[i]? := by
        simpa [ChatMessage.idOf, hkl, hi] using hid
      exact (getElem?_inj (by simpa using hkl) hm.distinct).mp hids
    have hrange : seenIndices fragments = range m.toolCalls.length := by
      apply ext_getElem?
      intro i
      cases hk : (seenIndices fragments)[i]? with
      | none =>
        have hi : m.toolCalls.length ≤ i := hlen ▸ getElem?_eq_none_iff.mp hk
        rw [getElem?_eq_none (by simpa using hi)]
      | some k =>
        have hi : i < m.toolCalls.length := hlen ▸ (List.getElem?_eq_some_iff.mp hk).1
        rw [hindex i k hk, getElem?_range hi]
    refine ⟨hrange, ?_⟩
    intro k call hcall
    have hk : (seenIndices fragments)[k]? = some k := by
      rw [hrange, List.getElem?_range (List.getElem?_eq_some_iff.mp hcall).1]
    exact (hget k k call hk hcall).2
  · rintro ⟨hrange, hnames⟩
    rw [hrange]
    apply ext_getElem?
    intro i
    cases hcall : m.toolCalls[i]? with
    | none =>
      have hi : m.toolCalls.length ≤ i := getElem?_eq_none_iff.mp hcall
      simp [hi]
    | some call =>
      have hi : i < m.toolCalls.length := (List.getElem?_eq_some_iff.mp hcall).1
      have harguments : argumentsOf i fragments = call.arguments := h.arguments i call hcall
      simp [getElem?_range hi, hcall, ChatMessage.idOf, hnames i call hcall, harguments]

/-- The stream gives the message that the whole response gives if and only if it has no refusal, the
reasoning stands in one of the two fields, the calls start in the order of their indices and the
first name sent for a call is its whole name. -/
theorem chatDecoders_agree_iff (ctx : ChatContext) (readers : ChatBlockReaders) (m : ChatMessage) (finishReason : String)
    (chunks : List JsonValue) (rest : List ChatSseEvent) (hm : m.Valid) (hreason : finishReason ≠ "error")
    (hsplit : m.Splits chunks) (hrest : rest = [] ∨ rest.head? = some .done) :
    ∃ nodes response, outputs (streamChatToUrpEvents ctx (chunks.map .chunk ++ rest)) = [nodes] ∧
      decodeChatResponse readers (m.response finishReason) = .ok response ∧
      (transcript nodes = transcript response.output ↔
        m.refusal.getD "" = "" ∧ (m.reasoning.getD "" = "" ∨ m.reasoningContent.getD "" = "") ∧
          seenIndices (chunks.flatMap toolFragments) = List.range m.toolCalls.length ∧
          ∀ k call, m.toolCalls[k]? = some call → nameOf k (chunks.flatMap toolFragments) = call.name) := by
  obtain ⟨s, hread, hstream⟩ : ∃ s, Demultiplexed ctx m.idOf chunks s ∧
      CompletedStream (streamChatToUrpEvents ctx (chunks.map .chunk ++ rest)) ((s.sortedNodes ctx).map (·.2)) :=
    Demultiplexed.stream hsplit.delta hsplit.tools hsplit.finish hrest
  obtain ⟨response, hdecode, hwhole⟩ := m.decode hm readers hreason
  refine ⟨_, response, hstream.outputs, hdecode, ?_⟩
  rw [hread.transcript hsplit.scalar, hwhole, ChatMessage.whole, Transcript.mk.injEq, hsplit.calls hm, hsplit.content,
    ← hsplit.reasoning, ← hsplit.reasoningContent, join_pairs_eq_iff]
  constructor
  · rintro ⟨-, hrefusal, hreasoning, hcalls⟩
    exact ⟨hrefusal.symm, hreasoning, hcalls⟩
  · rintro ⟨hrefusal, hreasoning, hcalls⟩
    exact ⟨rfl, hrefusal.symm, hreasoning, hcalls⟩

def refusedMessage : ChatMessage := ⟨none, some "no", none, none, []⟩

def refusedChunks : List JsonValue :=
  [chatChunk [("refusal", .string "no"), ("role", .string "assistant")] (.string "stop")]

theorem refusedChunks_split : refusedMessage.Valid ∧ refusedMessage.Splits refusedChunks := by
  have hseen : seenIndices (refusedChunks.flatMap toolFragments) = range 0 := by decide +kernel
  refine ⟨⟨by decide, by decide, by decide⟩, ?_⟩
  constructor
  case indices =>
    intro k
    rw [hseen, mem_range]
    rfl
  case names => nofun
  case arguments => nofun
  all_goals decide +kernel

theorem refusedMessage_differs : refusedMessage.Valid ∧ refusedMessage.Splits refusedChunks ∧
    (outputs (streamChatToUrpEvents ⟨"resp", "model", "rs", "msg", id, toString⟩
      (refusedChunks.map .chunk ++ [.done]))).map transcript = [⟨"", "", "", []⟩] ∧
    (decodeChatResponse ⟨fun _ => none, fun _ => none, fun _ => none, fun _ => ""⟩
      (refusedMessage.response "stop")).toOption.map (fun response => transcript response.output) =
        some ⟨"", "no", "", []⟩ :=
  ⟨refusedChunks_split.1, refusedChunks_split.2, by decide +kernel, by decide +kernel⟩

def callingMessage : ChatMessage := ⟨some "hi", none, some "hm", none, [⟨"a", "f", "12"⟩]⟩

def callingChunks : List JsonValue :=
  [chatChunk [("content", .string "h"), ("role", .string "assistant")] .null,
    chatChunk [("reasoning", .string "hm"), ("tool_calls", .array [toolFragment 0 (some "a") "f" "1"])] .null,
    chatChunk [("content", .string "i"), ("tool_calls", .array [toolFragment 0 none "" "2"])] (.string "tool_calls")]

theorem callingChunks_split : callingMessage.Valid ∧ callingMessage.Splits callingChunks := by
  have hseen : seenIndices (callingChunks.flatMap toolFragments) = range 1 := by decide +kernel
  have hnames : ∀ k < 1, String.join ((ofIndex k (callingChunks.flatMap toolFragments)).map toolCallName) = "f" := by
    decide +kernel
  have harguments : ∀ k < 1, argumentsOf k (callingChunks.flatMap toolFragments) = "12" := by decide +kernel
  refine ⟨⟨by decide, by decide, by decide⟩, ?_⟩
  constructor
  case indices =>
    intro k
    rw [hseen, mem_range]
    rfl
  case names =>
    intro k call hcall
    obtain ⟨hk, rfl⟩ := List.getElem?_eq_some_iff.mp hcall
    rw [hnames k hk]
    simp [callingMessage]
  case arguments =>
    intro k call hcall
    obtain ⟨hk, rfl⟩ := List.getElem?_eq_some_iff.mp hcall
    rw [harguments k hk]
    simp [callingMessage]
  all_goals decide +kernel

theorem callingMessage_agrees : ∃ nodes response,
    outputs (streamChatToUrpEvents ⟨"resp", "model", "rs", "msg", id, toString⟩ (callingChunks.map .chunk ++ [.done])) =
      [nodes] ∧
    decodeChatResponse ⟨fun _ => none, fun _ => none, fun _ => none, fun _ => ""⟩ (callingMessage.response "tool_calls") =
      .ok response ∧
    transcript nodes = transcript response.output := by
  obtain ⟨nodes, response, hstream, hdecode, hagree⟩ := chatDecoders_agree_iff ⟨"resp", "model", "rs", "msg", id, toString⟩
    ⟨fun _ => none, fun _ => none, fun _ => none, fun _ => ""⟩ callingMessage "tool_calls" callingChunks [.done]
    callingChunks_split.1 (by decide) callingChunks_split.2 (.inr rfl)
  refine ⟨nodes, response, hstream, hdecode, hagree.mpr ⟨rfl, .inr rfl, by decide +kernel, ?_⟩⟩
  intro k call hcall
  obtain ⟨hk, rfl⟩ := List.getElem?_eq_some_iff.mp hcall
  obtain rfl : k = 0 := Nat.lt_one_iff.mp hk
  exact show nameOf 0 (callingChunks.flatMap toolFragments) = "f" from by decide +kernel

end Monoize.Urp
