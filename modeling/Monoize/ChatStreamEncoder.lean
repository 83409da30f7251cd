import Monoize.ChatStreamDecoder
import Monoize.SseSplit

/-! The encoder of a Chat Completions event stream (`urp/stream_encode/openai_chat.rs`). It collects
what it sends; a text that is sent through the frame limit is cut when the frames are read off. The id
and the time of the response, the usage and the payload of an error are parameters. -/

namespace Monoize.Urp

structure ChatEncoderContext where
  (logicalModel chatId : String)
  created : Int
  usage : Option JsonValue
  errorPayload : Option JsonValue → Option String → String → JsonMap → JsonValue

inductive ChatDeltaPath
  | content
  | reasoningText
  | reasoningSummary
  | reasoningEncrypted
  | reasoningContent
  | toolArguments
  | functionCallArguments
  | customToolInput

def reasoningTextDetailValue (text : String) (format : Option String) : JsonMap :=
  let value : JsonMap := [("text", .string text), ("type", .string "reasoning.text")]
  match format with
  | some format => value.insert "format" (.string format)
  | none => value

def reasoningEncryptedDetailValue (data : String) (format : Option String) : JsonMap :=
  let value : JsonMap := [("data", .string data), ("type", .string "reasoning.encrypted")]
  match format with
  | some format => value.insert "format" (.string format)
  | none => value

def chatReasoningDeltaFromText (text : String) (format : Option String) : JsonMap :=
  [("reasoning_details", .array [.object (reasoningTextDetailValue text format)])]

def chatReasoningDeltaFromSummary (summary : String) (format : Option String) : JsonMap :=
  let detail : JsonMap := [("summary", .string summary), ("type", .string "reasoning.summary")]
  [("reasoning_details", .array [.object (match format with
    | some format => detail.insert "format" (.string format)
    | none => detail)])]

def chatReasoningDeltaFromEncrypted (signature : String) (format id : Option String) : JsonMap :=
  let detail := reasoningEncryptedDetailValue signature format
  [("reasoning_details", .array [.object (match id with
    | some id => detail.insert "id" (.string id)
    | none => detail)])]

def modifyObject (m : JsonMap) (key : String) (f : JsonMap → JsonMap) : JsonMap :=
  match m.member key with
  | some (.object obj) => m.insert key (.object (f obj))
  | _ => m

def modifyFirst (m : JsonMap) (key : String) (f : JsonMap → JsonMap) : JsonMap :=
  match m.member key with
  | some (.array (.object obj :: rest)) => m.insert key (.array (.object (f obj) :: rest))
  | _ => m

def ChatDeltaPath.patch (path : ChatDeltaPath) (delta : JsonMap) (content : String) : JsonMap :=
  match path with
  | .content => delta.insert "content" (.string content)
  | .reasoningText =>
    delta.insert "reasoning_details" (.array [.object (reasoningTextDetailValue content none)])
  | .reasoningSummary => delta.insert "reasoning_details"
      (.array [.object [("summary", .string content), ("type", .string "reasoning.summary")]])
  | .reasoningEncrypted => modifyFirst delta "reasoning_details" (JsonMap.insert · "data" (.string content))
  | .reasoningContent => delta.insert "reasoning_content" (.string content)
  | .toolArguments => modifyFirst delta "tool_calls" fun call =>
      modifyObject call "function" (JsonMap.insert · "arguments" (.string content))
  | .functionCallArguments => modifyObject delta "function_call" (JsonMap.insert · "arguments" (.string content))
  | .customToolInput => modifyFirst delta "tool_calls" fun call =>
      modifyObject call "custom" (JsonMap.insert · "input" (.string content))

structure ChatToolCall where
  toolType : ToolCallType
  (callId name : String)
  index : Nat
  (legacyFunctionCall headerSent argumentsStreamed : Bool)

inductive ChatSend
  | frame (data : JsonValue)
  | text (chatId : String) (created : Int) (delta : JsonMap) (path : ChatDeltaPath) (content : String)
  | done

structure ChatEncoder where
  chatId : String := ""
  created : Int := 0
  toolIdx : Nat := 0
  sawTool : Bool := false
  sawLegacyFunctionCall : Bool := false
  toolCalls : Nat → Option ChatToolCall := fun _ => none
  finished : Bool := false
  emittedNodeIndices : List Nat := []
  pendingEnvelopeExtra : JsonMap := []
  sends : List ChatSend := []

variable (ctx : ChatEncoderContext) (call : ChatToolCall)

def chatCompletionChunk (chatId : String) (created : Int) (choice : JsonMap) : JsonValue :=
  .object [("choices", .array [.object choice]), ("created", .int created), ("id", .string chatId),
    ("model", .string ctx.logicalModel), ("object", .string "chat.completion.chunk")]

def chatChoiceOf (delta : JsonMap) (finishReason : JsonValue) : JsonMap :=
  [("delta", .object delta), ("finish_reason", finishReason), ("index", .int 0)]

inductive ChatFrame
  | data (value : JsonValue)
  | done

def sseDataLineLength (serialized : String) : Nat := "data: ".utf8ByteSize + serialized.utf8ByteSize

def splitJsonByExactLimit (template : JsonValue) (content : String) (limit : Option Nat)
    (dataLineLen : JsonValue → Nat → Nat) (patch : JsonValue → String → JsonValue) : List JsonValue :=
  (SseSplit.splitByExactLimit (fun index part => dataLineLen (patch template part) index) limit content).map (patch template)

def splitJsonValueByStringPatch (template : JsonValue) (content : String) (patch : JsonValue → String → JsonValue)
    (limit : Option Nat) : List JsonValue :=
  splitJsonByExactLimit template content limit (fun value _ => sseDataLineLength value.render) patch

def insertString (field : String) (value : JsonValue) (part : String) : JsonValue :=
  match value with
  | .object obj => .object (JsonMap.insert obj field (.string part))
  | _ => value

def normalizeResponsesPayload (seq : Nat) (name : String) (data : JsonValue) : JsonValue :=
  .object (((data.asObject.getD [("data", data)]).insert "type" (.string name)).insert "sequence_number" (.int seq))

def responsesDataLineLength (seq : Nat) (name : String) (data : JsonValue) : Nat :=
  sseDataLineLength (normalizeResponsesPayload seq name data).render

def splitWrappedResponsesJsonStringField (seq : Nat) (eventName : String) (template : JsonValue) (field content : String)
    (limit : Option Nat) : List JsonValue :=
  splitJsonByExactLimit (insertString field template "") content limit
    (fun value index => responsesDataLineLength (seq + index) eventName value) (insertString field)

def ChatSend.frames (limit : Option Nat) : ChatSend → List ChatFrame
  | .frame data => [.data data]
  | .text chatId created delta path content =>
    (SseSplit.splitByExactLimit (fun _ part => sseDataLineLength
      (chatCompletionChunk ctx chatId created (chatChoiceOf (path.patch delta part) .null)).render) limit content).map
      fun part => .data (chatCompletionChunk ctx chatId created (chatChoiceOf (path.patch delta part) .null))
  | .done => [.done]

namespace ChatEncoder

def send (s : ChatEncoder) (what : ChatSend) : ChatEncoder := { s with sends := s.sends ++ [what] }

def sendDelta (ctx : ChatEncoderContext) (delta : JsonMap) (s : ChatEncoder) : ChatEncoder :=
  s.send (.frame (chatCompletionChunk ctx s.chatId s.created (chatChoiceOf delta .null)))

def sendText (delta : JsonMap) (content : String) (path : ChatDeltaPath) (s : ChatEncoder) : ChatEncoder :=
  s.send (.text s.chatId s.created delta path content)

end ChatEncoder

open ChatEncoder

def mergeChatDeltaExtraPreservingTyped (delta extra : JsonMap) : JsonMap :=
  extra.foldl (fun delta e =>
    if ¬ isInternalExtraKey e.1 ∧ (delta.member e.1).isNone then delta.insert e.1 e.2 else delta) delta

def nativeChatDeltaExtra (extraBody : JsonMap) : JsonMap :=
  ((extraBody.member chatDeltaExtraBodyKey).bind JsonValue.asObject).getD []

def chatDeltaWithRawExtras (delta eventDeltaExtra : JsonMap) (s : ChatEncoder) : JsonMap × ChatEncoder :=
  (mergeChatDeltaExtraPreservingTyped delta (JsonMap.extend s.pendingEnvelopeExtra eventDeltaExtra),
    { s with pendingEnvelopeExtra := [] })

def chatDeltaWithExtras (delta eventExtra : JsonMap) (s : ChatEncoder) : JsonMap × ChatEncoder :=
  chatDeltaWithRawExtras delta (nativeChatDeltaExtra eventExtra) s

def mergePendingEnvelopeExtra (extra : JsonMap) (s : ChatEncoder) : ChatEncoder :=
  { s with pendingEnvelopeExtra :=
      JsonMap.extend s.pendingEnvelopeExtra (extra.filter fun e => ¬ isInternalExtraKey e.1) }

def choiceWithExtra (choice extra : JsonMap) : JsonMap := mergeChatDeltaExtraPreservingTyped choice extra

def emitChatChoiceExtraChunk (extraBody : JsonMap) (s : ChatEncoder) : ChatEncoder :=
  match ((extraBody.member chatChoiceExtraBodyKey).bind JsonValue.asObject).filter (· ≠ []) with
  | none => s
  | some choiceExtra =>
    s.send (.frame (chatCompletionChunk ctx s.chatId s.created (choiceWithExtra (chatChoiceOf [] .null) choiceExtra)))

mutual

def sanitizeProviderItemWireBody : JsonValue → JsonValue
  | .object members => .object (sanitizeMembers members)
  | .array items => .array (sanitizeItems items)
  | .null => .null
  | .bool b => .bool b
  | .int n => .int n
  | .decimal text => .decimal text
  | .string text => .string text

def sanitizeItems : List JsonValue → List JsonValue
  | [] => []
  | v :: rest => sanitizeProviderItemWireBody v :: sanitizeItems rest

def sanitizeMembers : List (String × JsonValue) → List (String × JsonValue)
  | [] => []
  | (k, v) :: rest =>
    if isInternalExtraKey k then sanitizeMembers rest else (k, sanitizeProviderItemWireBody v) :: sanitizeMembers rest

end

def emitChatProviderContentPart (body : JsonValue) (s : ChatEncoder) : ChatEncoder :=
  let (delta, s) := chatDeltaWithExtras [("content", .array [sanitizeProviderItemWireBody body])] [] s
  s.sendDelta ctx delta

def toolCallHeaderDelta : JsonMap :=
  if call.legacyFunctionCall then
    [("function_call", .object [("arguments", .string ""), ("name", .string call.name)])]
  else match call.toolType with
    | .function => [("tool_calls", .array
        [.object [("function", .object [("arguments", .string ""), ("name", .string call.name)]),
        ("id", .string call.callId), ("index", .int call.index), ("type", .string "function")]])]
    | .custom => [("tool_calls", .array [.object [("custom", .object [("input", .string ""), ("name", .string call.name)]),
        ("id", .string call.callId), ("index", .int call.index), ("type", .string "custom")]])]

def toolCallArgumentsDelta : JsonMap :=
  if call.legacyFunctionCall then [("function_call", .object [("arguments", .string "")])]
  else match call.toolType with
    | .function => [("tool_calls", .array [.object [("function", .object [("arguments", .string "")]),
        ("index", .int call.index)]])]
    | .custom => [("tool_calls", .array [.object [("custom", .object [("input", .string "")]), ("index", .int call.index)]])]

def toolCallArgumentsPath : ChatDeltaPath :=
  if call.legacyFunctionCall then .functionCallArguments
  else match call.toolType with
    | .function => .toolArguments
    | .custom => .customToolInput

def emitToolCallHeader (eventExtra : JsonMap) (s : ChatEncoder) : ChatToolCall × ChatEncoder :=
  if call.headerSent then (call, s)
  else
    let (delta, s) := chatDeltaWithExtras (toolCallHeaderDelta call) eventExtra s
    ({ call with headerSent := true }, s.sendDelta ctx delta)

def emitToolCallArgumentsDelta (arguments : String) (eventExtra : JsonMap) (s : ChatEncoder) : ChatEncoder :=
  let (delta, s) := chatDeltaWithExtras (toolCallArgumentsDelta call) eventExtra s
  s.sendText delta arguments (toolCallArgumentsPath call)

def reasoningDeltaHasChatSurface (content : Option String) (encrypted : Option JsonValue) (summary : Option String)
    (extraBody : JsonMap) : Bool :=
  content.any (· ≠ "") || encrypted.any (fun v => ¬ v.isNull) || summary.any (· ≠ "") ||
    (extraBody.strMember "inject_reasoning_content").any (· ≠ "") ||
    (extraBody.member chatReasoningDetailExtraKey).isSome || (extraBody.member chatDeltaExtraBodyKey).isSome

def emitReasoningText (delta : JsonMap) (text : Option String) (path : ChatDeltaPath) (acc : JsonMap × ChatEncoder) :
    JsonMap × ChatEncoder :=
  match text.filter (· ≠ "") with
  | none => acc
  | some text =>
    let (delta, s) := chatDeltaWithRawExtras delta acc.1 acc.2
    ([], s.sendText delta text path)

def emitReasoningDelta (content : Option String) (encrypted : Option JsonValue)
    (summary source : Option String) (extraBody : JsonMap) (s : ChatEncoder) : ChatEncoder :=
  let eventDeltaExtra := nativeChatDeltaExtra extraBody
  match (extraBody.member chatReasoningDetailExtraKey).bind JsonValue.asObject with
  | some detail =>
    let (delta, s) := chatDeltaWithRawExtras [("reasoning_details", .array [.object detail])] eventDeltaExtra s
    s.sendDelta ctx delta
  | none =>
    let format := source.filter (· ≠ "") <|> (extraBody.strMember "format").filter (· ≠ "")
    let reasoningId :=
      ((extraBody.member "reasoning_item_id" <|> extraBody.member "id").bind JsonValue.asStr).filter (· ≠ "")
    let acc := emitReasoningText [("reasoning_content", .string "")] (extraBody.strMember "inject_reasoning_content")
      .reasoningContent (eventDeltaExtra, s)
    let acc := emitReasoningText (chatReasoningDeltaFromEncrypted "" format reasoningId)
      ((encrypted.filter fun v => ¬ v.isNull).map JsonValue.plainText) .reasoningEncrypted acc
    let acc := emitReasoningText (chatReasoningDeltaFromText "" format) content .reasoningText acc
    let acc :=
      if extraBody.member "openwebui_reasoning_content" = some (.bool true) then
        emitReasoningText [("reasoning_content", .string "")] summary .reasoningContent acc
      else emitReasoningText (chatReasoningDeltaFromSummary "" format) summary .reasoningSummary acc
    if acc.1 = [] ∧ acc.2.pendingEnvelopeExtra = [] then acc.2
    else
      let (delta, s) := chatDeltaWithRawExtras [] acc.1 acc.2
      s.sendDelta ctx delta

def isLegacyFunctionCall (toolType : ToolCallType) (extraBody : JsonMap) : Bool :=
  toolType = .function && extraBody.member chatLegacyFunctionCallExtraKey = some (.bool true)

def ChatEncoder.seeToolCall (s : ChatEncoder) (legacy : Bool) : ChatEncoder :=
  if legacy then { s with sawLegacyFunctionCall := true } else { s with sawTool := true }

def markEmitted (i : Nat) (s : ChatEncoder) : ChatEncoder := { s with emittedNodeIndices := i :: s.emittedNodeIndices }

def startToolCall (i : Nat) (toolType : ToolCallType) (callId name : String) (extraBody : JsonMap)
    (s : ChatEncoder) : ChatEncoder :=
  let legacy := isLegacyFunctionCall toolType extraBody
  let s := s.seeToolCall legacy
  let call : ChatToolCall := ⟨toolType, callId, name, s.toolIdx, legacy, false, false⟩
  let (call, s) := emitToolCallHeader ctx call extraBody { s with toolIdx := s.toolIdx + 1 }
  let s := markEmitted i s
  { s with toolCalls := Function.update s.toolCalls i (some call) }

def streamToolCallArguments (i : Nat) (arguments : String) (extraBody : JsonMap) (s : ChatEncoder) : ChatEncoder :=
  match s.toolCalls i with
  | none => s
  | some call =>
    let s := s.seeToolCall call.legacyFunctionCall
    let deltaExtra := if call.headerSent then extraBody else []
    let (call, s) := emitToolCallHeader ctx call extraBody s
    let s := emitToolCallArgumentsDelta call arguments deltaExtra s
    { s with toolCalls := Function.update s.toolCalls i (some { call with argumentsStreamed := true }) }

def completeToolCall (i : Nat) (toolType : ToolCallType) (callId name arguments : String)
    (extraBody : JsonMap) (s : ChatEncoder) : ChatEncoder :=
  let legacy := isLegacyFunctionCall toolType extraBody
  let s := s.seeToolCall legacy
  let (call, s) := match s.toolCalls i with
    | some call => (call, s)
    | none => (⟨toolType, callId, name, s.toolIdx, legacy, false, false⟩, { s with toolIdx := s.toolIdx + 1 })
  let call : ChatToolCall := { call with
    toolType := if toolType = .custom then .custom else call.toolType
    legacyFunctionCall := call.legacyFunctionCall || legacy }
  let (call, s) := emitToolCallHeader ctx call [] s
  let (call, s) := if arguments ≠ "" ∧ ¬ call.argumentsStreamed then
      ({ call with argumentsStreamed := true }, emitToolCallArgumentsDelta call arguments [] s)
    else (call, s)
  let s := markEmitted i s
  { s with toolCalls := Function.update s.toolCalls i (some call) }

def emitMissingNode (node : Node) (s : ChatEncoder) : ChatEncoder :=
  match node with
  | .reasoning _ content encrypted summary source extraBody =>
    if reasoningDeltaHasChatSurface content encrypted summary extraBody then
      emitReasoningDelta ctx content encrypted summary source extraBody s
    else s
  | .toolCall _ toolType callId name arguments extraBody =>
    let legacy := isLegacyFunctionCall toolType extraBody
    let call : ChatToolCall := ⟨toolType, callId, name, s.toolIdx, legacy, false, false⟩
    let s := ChatEncoder.seeToolCall { s with toolIdx := s.toolIdx + 1 } legacy
    let (call, s) := emitToolCallHeader ctx call [] s
    if arguments = "" then s else emitToolCallArgumentsDelta call arguments [] s
  | .text _ .assistant content _ _ | .refusal _ content _ =>
    if content = "" then s
    else
      let (delta, s) := chatDeltaWithExtras [("content", .string "")] [] s
      s.sendText delta content .content
  | .providerItem _ .chatCompletion _ _ body _ => emitChatProviderContentPart ctx body s
  | .nextDownstreamEnvelopeExtra extraBody => mergePendingEnvelopeExtra extraBody s
  | _ => s

def emitMissingNodes (output : List Node) (s : ChatEncoder) : ChatEncoder :=
  output.zipIdx.foldl (fun s e => if s.emittedNodeIndices.contains e.2 then s else emitMissingNode ctx e.1 s) s

def finishReasonToChat : FinishReason → String
  | .stop => "stop"
  | .length => "length"
  | .toolCalls => "tool_calls"
  | .contentFilter => "content_filter"
  | .other => "error"

def ChatEncoder.finishReason (s : ChatEncoder) (reason : Option FinishReason) (extraBody : JsonMap) : String :=
  if reason = some .other then ((extraBody.strMember chatNativeFinishReasonExtraKey).filter (· ≠ "")).getD "error"
  else if s.sawTool then "tool_calls"
  else if s.sawLegacyFunctionCall then "function_call"
  else finishReasonToChat (reason.getD .stop)

def emitChatTerminalSequence (finishReason : String) (choiceExtra : Option JsonMap) (s : ChatEncoder) : ChatEncoder :=
  let s := s.send (.frame (chatCompletionChunk ctx s.chatId s.created
    (choiceWithExtra (chatChoiceOf [] (.string finishReason)) (choiceExtra.getD []))))
  let s := match ctx.usage with
    | some usage => s.send (.frame (.object [("choices", .array []), ("created", .int s.created), ("id", .string s.chatId),
        ("model", .string ctx.logicalModel), ("object", .string "chat.completion.chunk"), ("usage", usage)]))
    | none => s
  s.send .done

def completeResponse (reason : Option FinishReason) (output : List Node) (extraBody : JsonMap)
    (s : ChatEncoder) : ChatEncoder :=
  let s := { s with pendingEnvelopeExtra := JsonMap.extend s.pendingEnvelopeExtra (nativeChatDeltaExtra extraBody) }
  let s := emitMissingNodes ctx output s
  let s := if s.pendingEnvelopeExtra = [] then s
    else
      let (delta, s) := chatDeltaWithExtras [] [] s
      s.sendDelta ctx delta
  let s := emitChatTerminalSequence ctx (s.finishReason reason extraBody)
    ((extraBody.member chatChoiceExtraBodyKey).bind JsonValue.asObject) s
  { s with finished := true }

def encodeChatEvent (s : ChatEncoder) (event : UrpStreamEvent) : ChatEncoder :=
  if s.finished then s
  else match event with
    | .responseStart _ _ extraBody =>
      let s := { s with chatId := ctx.chatId, created := ctx.created }
      s.sendDelta ctx (mergeChatDeltaExtraPreservingTyped [("role", .string "assistant")] (nativeChatDeltaExtra extraBody))
    | .nodeStart i .nextDownstreamEnvelopeExtra extraBody => markEmitted i (mergePendingEnvelopeExtra extraBody s)
    | .nodeStart i (.toolCall _ toolType callId name) extraBody => startToolCall ctx i toolType callId name extraBody s
    | .nodeStart _ _ _ => s
    | .nodeDelta i delta extraBody =>
      let s := emitChatChoiceExtraChunk ctx extraBody s
      match delta with
      | .text content | .refusal content =>
        let (delta, s) := chatDeltaWithExtras [("content", .string "")] extraBody s
        markEmitted i (s.sendText delta content .content)
      | .reasoning content encrypted summary source =>
        let s := emitReasoningDelta ctx content encrypted summary source extraBody s
        if reasoningDeltaHasChatSurface content encrypted summary extraBody then markEmitted i s else s
      | .toolCallArguments arguments => streamToolCallArguments ctx i arguments extraBody s
      | _ => s
    | .nodeDone i (.toolCall _ toolType callId name arguments extraBody) _ =>
      completeToolCall ctx i toolType callId name arguments extraBody s
    | .nodeDone i (.providerItem _ .chatCompletion _ _ body _) _ => markEmitted i (emitChatProviderContentPart ctx body s)
    | .nodeDone _ _ _ => s
    | .responseDone reason output extraBody => completeResponse ctx reason output extraBody s
    | .providerControl .. => s
    | .error code message extraBody =>
      let s := s.send (.frame (ctx.errorPayload (extraBody.member chatErrorEventExtraKey) code message extraBody))
      { s.send .done with finished := true }

def encodeUrpStreamAsChat (events : List UrpStreamEvent) : ChatEncoder :=
  events.foldl (encodeChatEvent ctx) {}

def chatFrames (limit : Option Nat) (events : List UrpStreamEvent) : List ChatFrame :=
  (encodeUrpStreamAsChat ctx events).sends.flatMap (ChatSend.frames ctx limit)

end Monoize.Urp
